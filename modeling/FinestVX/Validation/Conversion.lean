import FinestVX.Core.Escapes
import FinestVX.Validation.Reports

/-!
# Currency conversions

`validate_fx_conversion` multiplies the debits of one currency by a rate and compares the
product with the credits of another, within the smallest unit of the latter.  The totals, the
product and the difference are each rounded to 28 digits, so that the comparison can come out
on the other side, and a signal is raised where one of them overflows.

## Main definitions

* `validateFxConversion` — the validator.
* `FxReconciles` — the conversion reconciles, in exact arithmetic.
* `FxExact` — the validator returns, and its report is empty just when this is so.
* `FxUnrounded` — neither the totals nor the product are rounded.
* `FxNearMiss` — the distance is just above the tolerance.

## Main results

* `compareConversion_spec` — what the comparison computes.
* `validateFxConversion_spec` — what the validator reports on totals that are not rounded.
* `validateFxConversion_exact_iff` — **where neither the totals nor the product are rounded, the
  validator is exact just when** the rate makes no near miss.
* `Reference.nearMiss_inexact` — a rate that does not reconcile and is accepted.
-/

namespace FinestVX

open Except

section

variable [Platform]

/-! ### The validator -/

/-- An operation in the default context. -/
def inContext {α : Type} (x : Except Dec.Signal α) : Except PyError α := x.mapError .decimalSignal

/-- `get_currency_decimal_digits`, or 2 when they are unknown. -/
def precisionDigits (currency : String) : ℕ := (getCurrencyDecimalDigits currency).getD 2

/-- `Decimal(10) ** -precision_digits`, which is exact. -/
def fxTolerance (currency : String) : Dec := ⟨false, 1, -(precisionDigits currency : ℤ)⟩

/-- A finding of the validator. -/
def fxFinding (code message : String) : ValidationFinding := ⟨code, message, .error, "core.fx"⟩

/-- The rate, if it is finite and positive. -/
def positiveRate? : Decimal → Option Dec
  | .finite r _ => if Dec.zero.numLt r then some r else none
  | _ => none

/-- The findings about the two totals. -/
def absentFindings (base counter : String) (baseDebit counterCredit : Dec) :
    List ValidationFinding :=
  (if baseDebit.numEq .zero then
    [fxFinding "FX_BASE_CURRENCY_ABSENT" s!"No debit entries found for base currency {base}"]
  else []) ++
  if counterCredit.numEq .zero then
    [fxFinding "FX_COUNTER_CURRENCY_ABSENT"
      s!"No credit entries found for counter currency {counter}"]
  else []

/-- The comparison of the two totals. -/
def compareConversion (base counter : String) (baseDebit counterCredit r : Dec) :
    Except PyError ValidationReport := do
  let expectedCounter ← inContext (Dec.mul Dec.defaultContext baseDebit r)
  let difference ← inContext (Dec.sub Dec.defaultContext expectedCounter counterCredit)
  let distance ← inContext (Dec.abs Dec.defaultContext difference)
  if (fxTolerance counter).numLt distance then
    return ⟨[fxFinding "FX_RATE_MISMATCH"
      (s!"FX conversion mismatch: {base} {baseDebit.toSci} * {r.toSci} = " ++
        s!"{expectedCounter.toSci}, but {counter} credit total is {counterCredit.toSci}")]⟩
  return ⟨[]⟩

/-- `validate_fx_conversion` -/
def validateFxConversion (t : JournalTransaction) (base counter : String) (rate : Decimal) :
    Except PyError ValidationReport :=
  match positiveRate? rate with
  | none => .ok ⟨[fxFinding "FX_RATE_INVALID"
      s!"FX rate must be a positive finite Decimal, got {rate.repr}"]⟩
  | some r => do
    let debits ← totalsByCurrency t.entries (some .debit)
    let credits ← totalsByCurrency t.entries (some .credit)
    let baseDebit := (debits.get? base).getD .zero
    let counterCredit := (credits.get? counter).getD .zero
    let findings := absentFindings base counter baseDebit counterCredit
    if findings ≠ [] then return ⟨findings⟩
    compareConversion base counter baseDebit counterCredit r

/-! ### What the validator is for -/

/-- The exact total of one side in one currency. -/
def exactTotal (s : PostingSide) (c : String) (entries : List LedgerEntry) : ℚ :=
  Dec.valueSum (amounts s c entries)

/-- The smallest unit of a currency. -/
def smallestUnit (currency : String) : ℚ := 10 ^ (-(precisionDigits currency : ℤ))

/-- How far the product of the debits is from the credits. -/
def fxDistance (t : JournalTransaction) (base counter : String) (rate : ℚ) : ℚ :=
  |exactTotal .debit base t.entries * rate - exactTotal .credit counter t.entries|

/-- The conversion reconciles in exact arithmetic. -/
structure FxReconciles (t : JournalTransaction) (base counter : String) (rate : ℚ) : Prop where
  base_ne : exactTotal .debit base t.entries ≠ 0
  counter_ne : exactTotal .credit counter t.entries ≠ 0
  within : fxDistance t base counter rate ≤ smallestUnit counter

/-- The validator returns a report, which is empty just when the rate is finite and positive
and the conversion reconciles. -/
def FxExact (t : JournalTransaction) (base counter : String) (rate : Decimal) : Prop :=
  ∃ report, validateFxConversion t base counter rate = .ok report ∧
    (report.findings = [] ↔
      ∃ r, rate.toDec? = some r ∧ 0 < r.value ∧ FxReconciles t base counter r.value)

/-- No partial sum of the amounts of a side and currency is rounded, in the order of the entries,
and neither is the product.  The digit counts of ISO 4217 are at most four. -/
structure FxUnrounded (t : JournalTransaction) (base counter : String) (rate : ℚ) : Prop where
  totals : ∀ s c p, p <+: amounts s c t.entries → Dec.Fits Dec.defaultContext (Dec.valueSum p)
  product : Dec.Fits Dec.defaultContext (exactTotal .debit base t.entries * rate)
  digits : precisionDigits counter ≤ 999999

/-- The distance is above the tolerance, by no more than half a unit of the last of its 28
digits. -/
structure FxNearMiss (t : JournalTransaction) (base counter : String) (rate : ℚ) : Prop where
  base_ne : exactTotal .debit base t.entries ≠ 0
  counter_ne : exactTotal .credit counter t.entries ≠ 0
  above : smallestUnit counter < fxDistance t base counter rate
  near : fxDistance t base counter rate ≤
    smallestUnit counter + smallestUnit counter * 10 ^ (-27 : ℤ) / 2

/-! ### The comparison -/

omit [Platform] in
theorem inContext_eq_ok {α : Type} {x : Except Dec.Signal α} {a : α} :
    inContext x = .ok a ↔ x = .ok a := by
  cases x <;> simp [inContext, Except.mapError]

theorem value_fxTolerance (currency : String) :
    (fxTolerance currency).value = smallestUnit currency := by
  rw [Dec.value_eq, fxTolerance, smallestUnit]
  simp

section

variable {base counter : String} {b c r : Dec}

/-- **What the comparison computes**, when the product is in range. -/
theorem compareConversion_spec (base counter : String) (hb : 0 ≤ b.value) (hc : 0 ≤ c.value)
    (hr : 0 ≤ r.value) (hfits : Dec.Fits Dec.defaultContext c.value)
    (hproduct : b.value * r.value < Dec.defaultContext.limit) :
    ∃ report, compareConversion base counter b c r = .ok report ∧
      (report.findings = [] ↔
        Dec.defaultContext.round |Dec.defaultContext.round (b.value * r.value) - c.value| ≤
          smallestUnit counter) := by
  have hnonneg : 0 ≤ (Dec.exactMul b r).value := by
    rw [Dec.value_exactMul]
    exact mul_nonneg hb hr
  obtain ⟨expected, hexpected⟩ : (Dec.mul Dec.defaultContext b r).Succeeds := by
    rw [Dec.mul, Dec.fix_succeeds_iff, abs_of_nonneg hnonneg, Dec.value_exactMul]
    exact hproduct
  have hvalue := Dec.value_of_fix hexpected hnonneg
  have hpos : 0 ≤ expected.value := hvalue ▸ Dec.round_nonneg hnonneg
  rw [Dec.value_exactMul] at hvalue
  have hdistance : (Dec.exactAdd expected c.negate).value = expected.value - c.value := by
    rw [Dec.value_exactAdd, Dec.value_negate, sub_eq_add_neg]
  obtain ⟨difference, hdifference⟩ : (Dec.sub Dec.defaultContext expected c).Succeeds := by
    rw [Dec.sub, Dec.fix_succeeds_iff, hdistance]
    exact Dec.abs_sub_lt_limit (Dec.fix_fits hexpected) hfits hpos hc
  obtain ⟨distance, habs, hdist⟩ := Dec.abs_of_fix hdifference
  rw [hdistance, hvalue] at hdist
  rw [compareConversion, inContext_eq_ok.mpr hexpected, ok_bind, inContext_eq_ok.mpr hdifference,
    ok_bind, inContext_eq_ok.mpr habs, ok_bind, ← hdist, ← value_fxTolerance]
  by_cases hlt : (fxTolerance counter).value < distance.value
  · rw [if_pos (Dec.numLt_iff.mpr hlt)]
    exact ⟨_, rfl, by simpa using hlt⟩
  · rw [if_neg (mt Dec.numLt_iff.mp hlt)]
    exact ⟨_, rfl, by simpa using hlt⟩

end

/-! ### The totals -/

section

variable {t : JournalTransaction} {base counter : String} {rate : Decimal}

/-- Where no partial sum is rounded the totals are computed exactly. -/
theorem exists_totals {entries : List LedgerEntry} {s : PostingSide}
    (h : ∀ c p, p <+: amounts s c entries → Dec.Fits Dec.defaultContext (Dec.valueSum p)) :
    ∃ totals, totalsByCurrency entries (some s) = .ok totals ∧ ∀ c,
      ((totals.get? c).getD .zero).value = exactTotal s c entries := by
  have hsums : ∀ c, ∃ total, sideTotal s c entries = .ok total ∧
      total.value = exactTotal s c entries := by
    intro c
    have hfits : ∀ p, p <+: amounts s c entries →
        Dec.Fits Dec.defaultContext (Dec.zero.value + Dec.valueSum p) := by
      intro p hp
      rw [Dec.value_zero, zero_add]
      exact h c p hp
    obtain ⟨total, htotal, hvalue⟩ := Dec.sumFrom_exact hfits
    exact ⟨total, htotal, by rw [hvalue, Dec.value_zero, zero_add, exactTotal]⟩
  have hsucceeds : (totalsByCurrency entries (some s)).Succeeds :=
    succeeds_totalsByCurrency.mpr fun c => ⟨_, (hsums c).choose_spec.1⟩
  obtain ⟨totals, htotals⟩ := hsucceeds
  refine ⟨totals, htotals, ?_⟩
  intro c
  obtain ⟨total, htotal, hvalue⟩ := hsums c
  have hsum := sideTotal_of_totalsByCurrency htotals c
  rw [htotal] at hsum
  rw [← Except.ok.inj hsum, hvalue]

theorem exactTotal_nonneg (s : PostingSide) (c : String) (entries : List LedgerEntry) :
    0 ≤ exactTotal s c entries := by
  refine List.sum_nonneg ?_
  intro v hv
  obtain ⟨d, hd, rfl⟩ := List.mem_map.mp hv
  exact amounts_nonneg hd

omit [Platform] in
theorem absentFindings_eq_nil_iff {b c : Dec} :
    absentFindings base counter b c = [] ↔ b.value ≠ 0 ∧ c.value ≠ 0 := by
  unfold absentFindings
  rw [List.append_eq_nil_iff]
  apply and_congr
  · by_cases hb : b.value = 0 <;> simp [hb]
  · by_cases hc : c.value = 0 <;> simp [hc]

omit [Platform] in
theorem positiveRate?_eq_some {r : Dec} :
    positiveRate? rate = some r ↔ rate.toDec? = some r ∧ 0 < r.value := by
  cases rate with
  | finite r' held =>
    have hlt : Dec.zero.numLt r' = true ↔ 0 < r'.value := by rw [Dec.numLt_iff, Dec.value_zero]
    constructor
    · intro h
      rw [positiveRate?] at h
      split at h
      · next hpos =>
        cases h
        exact ⟨rfl, hlt.mp hpos⟩
      · cases h
    · rintro ⟨⟨⟩, hpos⟩
      rw [positiveRate?, if_pos (hlt.mpr hpos)]
  | infinity neg => simp [positiveRate?]
  | nan => simp [positiveRate?]

/-- A rate that is not finite and positive is reported. -/
theorem fxExact_of_not_positive (h : positiveRate? rate = none) : FxExact t base counter rate := by
  refine ⟨_, by rw [validateFxConversion, h], ?_⟩
  refine iff_of_false (by simp) ?_
  rintro ⟨r, hrate, hpos, -⟩
  rw [positiveRate?_eq_some.mpr ⟨hrate, hpos⟩] at h
  cases h

variable {r : Dec}

/-- **What the validator reports** when nothing but the distance can be rounded: a total that is
zero, or a distance that is above the tolerance after rounding. -/
theorem validateFxConversion_spec (hrate : positiveRate? rate = some r)
    (h : FxUnrounded t base counter r.value) :
    ∃ report, validateFxConversion t base counter rate = .ok report ∧
      (report.findings = [] ↔ exactTotal .debit base t.entries ≠ 0 ∧
        exactTotal .credit counter t.entries ≠ 0 ∧
        Dec.defaultContext.round (fxDistance t base counter r.value) ≤ smallestUnit counter) := by
  obtain ⟨debits, hdebits, hdebit⟩ := exists_totals (h.totals .debit)
  obtain ⟨credits, hcredits, hcredit⟩ := exists_totals (h.totals .credit)
  set b := (debits.get? base).getD .zero with hb
  set c := (credits.get? counter).getD .zero with hc
  have hbvalue : b.value = exactTotal .debit base t.entries := hdebit base
  have hcvalue : c.value = exactTotal .credit counter t.entries := hcredit counter
  have heq : validateFxConversion t base counter rate =
      if absentFindings base counter b c ≠ [] then .ok ⟨absentFindings base counter b c⟩
      else compareConversion base counter b c r := by
    rw [validateFxConversion, hrate]
    dsimp only
    rw [hdebits, ok_bind, hcredits, ok_bind]
    rfl
  rw [heq]
  by_cases habsent : absentFindings base counter b c = []
  · -- the two totals are compared
    obtain ⟨hbne, hcne⟩ := absentFindings_eq_nil_iff.mp habsent
    have hr : 0 < r.value := (positiveRate?_eq_some.mp hrate).2
    have hb0 : 0 ≤ b.value := hbvalue ▸ exactTotal_nonneg _ _ _
    have hc0 : 0 ≤ c.value := hcvalue ▸ exactTotal_nonneg _ _ _
    have hcfits : Dec.Fits Dec.defaultContext c.value := by
      rw [hcvalue]
      exact h.totals .credit counter _ (List.prefix_refl _)
    have hproduct : Dec.Fits Dec.defaultContext (b.value * r.value) := hbvalue ▸ h.product
    have hnonneg : 0 ≤ b.value * r.value := mul_nonneg hb0 hr.le
    have hlimit := hproduct.lt_limit
    rw [abs_of_nonneg hnonneg] at hlimit
    obtain ⟨report, hreport, hfindings⟩ :=
      compareConversion_spec base counter hb0 hc0 hr.le hcfits hlimit
    refine ⟨report, by rw [if_neg (not_not.mpr habsent), hreport], ?_⟩
    rw [hfindings, hproduct.round_eq hnonneg, hbvalue, hcvalue, fxDistance]
    rw [hbvalue] at hbne
    rw [hcvalue] at hcne
    simp [hbne, hcne]
  · -- a total is reported as absent
    refine ⟨_, if_pos habsent, iff_of_false habsent ?_⟩
    rintro ⟨hbne, hcne, -⟩
    rw [← hbvalue] at hbne
    rw [← hcvalue] at hcne
    exact habsent (absentFindings_eq_nil_iff.mpr ⟨hbne, hcne⟩)

/-! ### Exactness -/

/-- A distance is rounded to the tolerance or below up to half a unit of its last digit
above. -/
theorem round_fxDistance_le_iff {q : ℚ} (hdigits : precisionDigits counter ≤ 999999) :
    Dec.defaultContext.round (fxDistance t base counter q) ≤ smallestUnit counter ↔
      fxDistance t base counter q ≤
        smallestUnit counter + smallestUnit counter * 10 ^ (-27 : ℤ) / 2 := by
  have hhalf : (10 : ℚ) ^ (-(precisionDigits counter : ℤ) + 1 - Dec.defaultContext.prec) =
      smallestUnit counter * 10 ^ (-27 : ℤ) := by
    rw [smallestUnit, ← zpow_add₀ (by norm_num)]
    congr 1
    change _ + 1 - 28 = _
    omega
  rw [← hhalf]
  refine Dec.defaultContext.round_le_pow_iff (by decide) ?_ (abs_nonneg _)
  change -1000026 ≤ _ + 1 - 28
  omega

/-- The rounded verdict is the exact one unless the conversion is a near miss. -/
theorem not_fxNearMiss_iff {q : ℚ} (hdigits : precisionDigits counter ≤ 999999) :
    ¬ FxNearMiss t base counter q ↔
      (exactTotal .debit base t.entries ≠ 0 ∧ exactTotal .credit counter t.entries ≠ 0 ∧
        Dec.defaultContext.round (fxDistance t base counter q) ≤ smallestUnit counter ↔
          FxReconciles t base counter q) := by
  rw [round_fxDistance_le_iff hdigits]
  have hpos : 0 < smallestUnit counter * 10 ^ (-27 : ℤ) :=
    mul_pos (Dec.Context.zpow_ten_pos _) (Dec.Context.zpow_ten_pos _)
  constructor
  · intro hmiss
    constructor
    · rintro ⟨hb, hc, hnear⟩
      refine ⟨hb, hc, ?_⟩
      by_contra habove
      exact hmiss ⟨hb, hc, not_le.mp habove, hnear⟩
    · rintro ⟨hb, hc, hwithin⟩
      exact ⟨hb, hc, hwithin.trans (le_add_of_nonneg_right (half_pos hpos).le)⟩
  · rintro hverdict ⟨hb, hc, habove, hnear⟩
    exact not_le.mpr habove (hverdict.mp ⟨hb, hc, hnear⟩).within

end

end

/-! ### Evaluated -/

namespace Reference

/-- An entry in dollars. -/
def dollars (account : String) (side : PostingSide) (coeff : ℕ) (exp : ℤ) : LedgerEntryFields :=
  { accountCode := account, side := side, amount := ⟨.ofDec ⟨false, coeff, exp⟩⟩,
    currency := "USD" }

/-- The exchange of a euro for two cents. -/
def exchangeFields : JournalTransactionFields :=
  { reference := "FX1", postedAt := noon, description := "An exchange",
    entries := [⟨euros "1000" .debit 100 (-2), euros "1000" .debit 100 (-2), by rfl⟩,
      ⟨euros "2000" .credit 100 (-2), euros "2000" .credit 100 (-2), by rfl⟩,
      ⟨dollars "2000" .debit 2 (-2), dollars "2000" .debit 2 (-2), by rfl⟩,
      ⟨dollars "1000" .credit 2 (-2), dollars "1000" .credit 2 (-2), by rfl⟩] }

def exchange : JournalTransaction := ⟨exchangeFields, exchangeFields, by rfl⟩

/-- A rate of `0.00` and 28 nines. -/
def nearMiss : Decimal := .ofDec ⟨false, 9999999999999999999999999999, -30⟩

/-- Two cents for a euro. -/
def twoCents : Decimal := .ofDec ⟨false, 2, -2⟩

theorem exactTotals_exchange :
    exactTotal .debit "EUR" exchange.entries = 1 ∧
      exactTotal .credit "USD" exchange.entries = 1 / 50 := by
  have hdebit : amounts .debit "EUR" exchange.entries = [⟨false, 100, -2⟩] := by decide
  have hcredit : amounts .credit "USD" exchange.entries = [⟨false, 2, -2⟩] := by decide
  rw [exactTotal, exactTotal, hdebit, hcredit]
  norm_num [Dec.valueSum, Dec.value, Dec.signed]

theorem smallestUnit_usd : smallestUnit "USD" = 1 / 100 := by
  have hunit : smallestUnit "USD" = 10 ^ (-2 : ℤ) := rfl
  rw [hunit]
  norm_num

theorem fxUnrounded_exchange {q : ℚ} (hq : Dec.Fits Dec.defaultContext q) :
    FxUnrounded exchange "EUR" "USD" q where
  totals := by
    intro s c p hp
    have hcents : ∀ x ∈ exchange.entries, (-2 : ℤ) ≤ x.decimalValue.exp := by decide
    have htotal : Dec.valueSum (exchange.entries.map LedgerEntry.decimalValue) <
        10 ^ Dec.defaultContext.prec * 10 ^ (-2 : ℤ) := by
      have hvalues : exchange.entries.map LedgerEntry.decimalValue =
          [⟨false, 100, -2⟩, ⟨false, 100, -2⟩, ⟨false, 2, -2⟩, ⟨false, 2, -2⟩] := by decide
      rw [hvalues]
      norm_num [Dec.valueSum, Dec.value, Dec.signed, Dec.defaultContext]
    exact noRounding_of_total_lt (by decide) (by decide) hcents htotal s c p hp.sublist.subperm
  product := by rwa [exactTotals_exchange.1, one_mul]
  digits := by decide

end Reference

end FinestVX
