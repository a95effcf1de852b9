import FinestVX.Core.Models
import FinestVX.Lib.Quantize

/-!
# Rounding to the cent

The Latvian pack registers a function that brings an amount to two decimal places before it
is shown.  Infinities and NaN go through it unchanged.  The other amounts are rounded to the
nearest cent, a half cent away from zero, or refused when they have too many digits.

## Main definitions

* `roundEur` — the function.
* `RoundsToCents` — what it is for.

## Main results

* `roundEur_rounds` — **amounts are rounded to the nearest cent.**
-/

namespace FinestVX

open Except

variable [Platform]

/-- `_EUR_QUANTIZE` -/
def eurQuantize : Dec := ⟨false, 1, -2⟩

/-- `round_eur` -/
def roundEur (value : FluentNumber) : Except PyError FluentNumber :=
  match value.decimalValue with
  | .finite d _ => do
    let quantized ← (Dec.quantize Dec.defaultContext eurQuantize.exp d).mapError .decimalSignal
    return makeFluentNumber (.ofDec quantized)
  | _ => return value

/-- A function that brings amounts to two decimal places. -/
structure RoundsToCents (round : FluentNumber → Except PyError FluentNumber) : Prop where
  /-- Infinities and NaN are returned. -/
  special : ∀ v, v.decimalValue.toDec? = none → round v = .ok v
  /-- Any other amount becomes the nearest number of cents, a half cent away from zero, unless
  that has more than 28 digits. -/
  nearest : ∀ v d, v.decimalValue.toDec? = some d → ∀ r, round v = .ok r ↔
    |d.value| < 10 ^ 26 - 1 / 200 ∧
      ∃ q held, Dec.RoundedTo (-2) d q ∧ r = makeFluentNumber (.finite q held)
  /-- Nothing else is raised than `InvalidOperation`. -/
  refused : ∀ v e, round v = .error e → e = .decimalSignal .invalidOperation
  /-- An amount that has been rounded stays as it is. -/
  again : ∀ v r, round v = .ok r → round r = .ok r
  /-- A smaller amount is not rounded to a larger one. -/
  monotone : ∀ v v' r r' d d' q q', round v = .ok r → round v' = .ok r' →
    v.decimalValue.toDec? = some d → v'.decimalValue.toDec? = some d' →
      r.decimalValue.toDec? = some q → r'.decimalValue.toDec? = some q' →
        d.value ≤ d'.value → q.value ≤ q'.value
  /-- An amount that the ledger accepts in a currency of cents keeps its value, and is accepted
  again. -/
  ledger : ∀ v d c r, getCurrencyDecimalDigits c = some 2 → requireAmount v = .ok d →
    requirePlaces d c = .ok () → round v = .ok r →
      ∃ q, requireAmount r = .ok q ∧ requirePlaces q c = .ok () ∧ q.value = d.value

omit [Platform] in
/-- A result has 28 digits, two of them after the point. -/
theorem quantize_cents {d q : Dec} : Dec.quantize Dec.defaultContext (-2) d = .ok q ↔
    |d.value| < 10 ^ 26 - 1 / 200 ∧ Dec.RoundedTo (-2) d q := by
  have hlimit : ((10 : ℚ) ^ Dec.defaultContext.prec - 1 / 2) * 10 ^ (-2 : ℤ) =
      10 ^ 26 - 1 / 200 := by
    rw [Dec.defaultContext]
    norm_num
  rw [Dec.quantize_eq_ok_iff (by decide) (by decide), hlimit]

omit [Platform] in
theorem held_of_quantize {d q : Dec} (h : Dec.quantize Dec.defaultContext (-2) d = .ok q) :
    q.Held := by
  rw [Dec.quantize_eq (by decide) (by decide)] at h
  split at h
  · next hlt =>
    cases h
    have hdigits := (Dec.numDigits_le (k := 28) (by norm_num)).mpr hlt
    simp only [Dec.Held, Dec.minEtiny, Dec.maxEmax]
    omega
  · cases h

theorem roundEur_finite {v r : FluentNumber} {d : Dec} (hv : v.decimalValue.toDec? = some d) :
    roundEur v = .ok r ↔ ∃ q, Dec.quantize Dec.defaultContext (-2) d = .ok q ∧
      r = makeFluentNumber (.ofDec q) := by
  obtain ⟨held, hv⟩ := Decimal.toDec?_eq_some.mp hv
  unfold roundEur
  rw [hv]
  constructor
  · intro h
    obtain ⟨q, hq, h⟩ := bind_eq_ok.mp h
    cases h
    exact ⟨q, mapError_eq_ok.mp hq, rfl⟩
  · intro h
    obtain ⟨q, hq, hr⟩ := h
    rw [hr]
    exact bind_eq_ok.mpr ⟨q, mapError_eq_ok.mpr hq, rfl⟩

/-- What a finite amount became is a number of cents. -/
theorem exists_roundedTo {v r : FluentNumber} {d : Dec} (hv : v.decimalValue.toDec? = some d)
    (h : roundEur v = .ok r) : ∃ q, r.decimalValue.toDec? = some q ∧ Dec.RoundedTo (-2) d q := by
  obtain ⟨q, hq, rfl⟩ := (roundEur_finite hv).mp h
  refine ⟨q, ?_, (quantize_cents.mp hq).2⟩
  rw [Platform.decimalValue_makeFluentNumber, Decimal.ofDec_of_held (held_of_quantize hq),
    Decimal.toDec?_finite]

theorem roundEur_special {v : FluentNumber} (hv : v.decimalValue.toDec? = none) :
    roundEur v = .ok v := by
  unfold roundEur
  split
  · next d held hd =>
    rw [hd] at hv
    cases hv
  · rfl

theorem eq_invalidOperation_of_roundEur {v : FluentNumber} {e : PyError}
    (h : roundEur v = .error e) : e = .decimalSignal .invalidOperation := by
  unfold roundEur at h
  split at h
  · next d held hd =>
    cases hq : Dec.quantize Dec.defaultContext eurQuantize.exp d with
    | ok q =>
      rw [hq] at h
      cases h
    | error s =>
      rw [hq] at h
      cases h
      rw [Dec.quantize_eq_error (by decide) (by decide) hq]
  · cases h

/-- An amount that has been rounded stays as it is. -/
theorem roundEur_idem {v r : FluentNumber} (h : roundEur v = .ok r) : roundEur r = .ok r := by
  cases hv : v.decimalValue.toDec? with
  | some d =>
    obtain ⟨q, hq, rfl⟩ := (roundEur_finite hv).mp h
    refine (roundEur_finite ?_).mpr ⟨q, Dec.quantize_idem (by decide) (by decide) hq, rfl⟩
    rw [Platform.decimalValue_makeFluentNumber, Decimal.ofDec_of_held (held_of_quantize hq),
      Decimal.toDec?_finite]
  | none =>
    have hsame := roundEur_special hv
    cases h.symm.trans hsame
    exact hsame

/-- **Amounts are rounded to the nearest cent.** -/
theorem roundEur_rounds : RoundsToCents roundEur where
  special v hv := roundEur_special hv
  nearest v d hv r := by
    rw [roundEur_finite hv]
    constructor
    · intro h
      obtain ⟨q, hq, hr⟩ := h
      obtain ⟨hlt, hround⟩ := quantize_cents.mp hq
      exact ⟨hlt, q, held_of_quantize hq, hround, by rw [hr, Decimal.ofDec_of_held]⟩
    · intro h
      obtain ⟨hlt, q, held, hround, hr⟩ := h
      exact ⟨q, quantize_cents.mpr ⟨hlt, hround⟩, by rw [hr, Decimal.ofDec_of_held held]⟩
  refused v e h := eq_invalidOperation_of_roundEur h
  again v r h := roundEur_idem h
  monotone v v' r r' d d' q q' h h' hv hv' hr hr' hle := by
    obtain ⟨q₁, hq₁, hround⟩ := exists_roundedTo hv h
    obtain ⟨q₂, hq₂, hround'⟩ := exists_roundedTo hv' h'
    cases hr.symm.trans hq₁
    cases hr'.symm.trans hq₂
    exact hround.value_le hround' hle
  ledger v d c r hc hamount hplaces h := by
    obtain ⟨hv, hnonneg⟩ := requireAmount_eq_ok.mp hamount
    obtain ⟨q, hq, hround⟩ := exists_roundedTo hv h
    have hexp : -2 ≤ d.exp := by
      have := requirePlaces_eq_ok.mp hplaces 2 hc
      rw [Dec.places] at this
      omega
    have hvalue := hround.value_eq hexp
    refine ⟨q, requireAmount_eq_ok.mpr ⟨hq, hvalue ▸ hnonneg⟩, requirePlaces_eq_ok.mpr ?_, hvalue⟩
    intro max hmax
    cases hmax.symm.trans hc
    rw [Dec.places, hround.exp]
    decide

end FinestVX
