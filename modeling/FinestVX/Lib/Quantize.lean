import FinestVX.Lib.Rounding
import Mathlib.Algebra.Order.Floor.Semiring

/-!
# Quantizing

`Decimal.quantize` with `ROUND_HALF_UP`: a number is brought to a given exponent, its
coefficient rounded to the nearest integer and a half away from zero.  The operation is refused
when the coefficient has more digits than the context.

## Main definitions

* `Dec.roundHalfUp`, `Dec.rescale` — dropping digits of a coefficient; a number at an exponent.
* `Dec.quantize` — the operation.
* `Dec.halfUp` — the nearest integer.
* `Dec.RoundedTo` — a number of the given exponent that is nearest to another one.

## Main results

* `Dec.roundHalfUp_eq` — dropping digits is rounding to an integer.
* `Dec.quantize_eq` — **quantizing, by the value.**
* `Dec.roundedTo_iff` — there is one nearest number of an exponent and a sign.
* `Dec.quantize_eq_ok_iff` — **what is returned**, and when.
* `Dec.quantize_idem`, `Dec.RoundedTo.value_le` — quantizing again, and comparing.
-/

namespace Dec

/-! ### The operation -/

/-- Drop `k` digits of `c`; one more if the first of them is five or more. -/
def roundHalfUp (c k : ℕ) : ℕ :=
  if k = 0 then c
  else c / 10 ^ k + if 5 ≤ c / 10 ^ (k - 1) % 10 then 1 else 0

/-- The exponent of the first digit. -/
def adjusted (d : Dec) : ℤ := d.exp + numDigits d.coeff - 1

/-- The number at another exponent, rounded when digits are lost. -/
def rescale (d : Dec) (e : ℤ) : Dec :=
  if d.coeff = 0 then ⟨d.neg, 0, e⟩
  else if e ≤ d.exp then ⟨d.neg, d.coeff * 10 ^ (d.exp - e).toNat, e⟩
  else ⟨d.neg, roundHalfUp d.coeff (e - d.exp).toNat, e⟩

/-- `Decimal.quantize`, for an exponent and `ROUND_HALF_UP`. -/
def quantize (ctx : Context) (e : ℤ) (d : Dec) : Except Signal Dec :=
  if ¬ (ctx.etiny ≤ e ∧ e ≤ ctx.emax) then .error .invalidOperation
  else if d.coeff = 0 then fix ctx ⟨d.neg, 0, e⟩
  else if ctx.emax < d.adjusted then .error .invalidOperation
  else if ctx.prec < d.adjusted - e + 1 then .error .invalidOperation
  else if ctx.emax < (d.rescale e).adjusted then .error .invalidOperation
  else if ctx.prec < numDigits (d.rescale e).coeff then .error .invalidOperation
  else fix ctx (d.rescale e)

/-! ### The nearest integer -/

/-- The nearest integer to a number that is not negative, or of the two that are equally near
the larger one. -/
def halfUp (x : ℚ) : ℕ := ⌊x + 1 / 2⌋₊

theorem halfUp_eq_iff {x : ℚ} (hx : 0 ≤ x) {n : ℕ} :
    halfUp x = n ↔ (n : ℚ) - 1 / 2 ≤ x ∧ x < n + 1 / 2 := by
  rw [halfUp, Nat.floor_eq_iff (by linarith)]
  constructor
  · rintro ⟨h, h'⟩
    exact ⟨by linarith, by linarith⟩
  · rintro ⟨h, h'⟩
    exact ⟨by linarith, by linarith⟩

/-- It is at most a half away, and larger when it is a half away. -/
theorem halfUp_eq_iff_near {x : ℚ} (hx : 0 ≤ x) {n : ℕ} :
    halfUp x = n ↔ |n - x| ≤ 1 / 2 ∧ (|n - x| = 1 / 2 → x < n) := by
  rw [halfUp_eq_iff hx, abs_le]
  constructor
  · intro h
    obtain ⟨hlo, hhi⟩ := h
    refine ⟨⟨by linarith, by linarith⟩, ?_⟩
    intro htie
    by_contra hle
    rw [abs_of_nonpos (by linarith)] at htie
    linarith
  · intro h
    obtain ⟨⟨hlo, hhi⟩, htie⟩ := h
    refine ⟨by linarith, ?_⟩
    by_contra hle
    -- a half away, on the wrong side
    have hx : (n : ℚ) - x = -(1 / 2) := by linarith
    have := htie (by rw [hx, abs_neg, abs_of_pos (by norm_num)])
    linarith

@[simp] theorem halfUp_natCast (n : ℕ) : halfUp n = n :=
  (halfUp_eq_iff (Nat.cast_nonneg n)).mpr ⟨by linarith, by linarith⟩

theorem halfUp_mono {x y : ℚ} (h : x ≤ y) : halfUp x ≤ halfUp y :=
  Nat.floor_mono (by linarith)

theorem halfUp_lt_iff {x : ℚ} (hx : 0 ≤ x) {n : ℕ} : halfUp x < n ↔ x < n - 1 / 2 := by
  rw [halfUp, Nat.floor_lt (by linarith)]
  constructor <;> intro h <;> linarith

/-- **Dropping digits** of a coefficient is rounding to an integer. -/
theorem roundHalfUp_eq (c k : ℕ) : roundHalfUp c k = halfUp ((c : ℚ) / 10 ^ k) := by
  unfold roundHalfUp
  by_cases hk : k = 0
  · rw [if_pos hk, hk, pow_zero, div_one, halfUp_natCast]
  rw [if_neg hk]
  obtain ⟨j, rfl⟩ := Nat.exists_eq_succ_of_ne_zero hk
  rw [Nat.succ_eq_add_one, Nat.add_sub_cancel, pow_succ, pow_succ]
  generalize hm : 10 ^ j = m
  have hpos : 0 < m := hm ▸ by positivity
  have hcast : (10 : ℚ) ^ j = m := by
    rw [← hm]
    push_cast
    rfl
  -- the first digit that is dropped decides on which side of the half the rest is
  have hdigit : 5 ≤ c / m % 10 ↔ 5 * m ≤ c % (m * 10) := by
    rw [← Nat.mod_mul_right_div_self, Nat.le_div_iff_mul_le hpos]
  have hsplit : c = m * 10 * (c / (m * 10)) + c % (m * 10) := (Nat.div_add_mod ..).symm
  have hlt : c % (m * 10) < m * 10 := Nat.mod_lt _ (by omega)
  generalize c % (m * 10) = r at hdigit hsplit hlt
  generalize c / (m * 10) = q at hsplit
  have hm0 : (0 : ℚ) < m := by exact_mod_cast hpos
  have hc : (c : ℚ) = m * 10 * q + r := by exact_mod_cast hsplit
  have hr0 : (0 : ℚ) ≤ r := Nat.cast_nonneg r
  have hr : (r : ℚ) < m * 10 := by exact_mod_cast hlt
  rw [hcast, eq_comm, halfUp_eq_iff (by positivity), le_div_iff₀ (by positivity),
    div_lt_iff₀ (by positivity), hc]
  split
  · next h =>
    have hhalf : (5 : ℚ) * m ≤ r := by exact_mod_cast hdigit.mp h
    push_cast
    constructor <;> linarith
  · next h =>
    have hhalf : (r : ℚ) < 5 * m := by
      have := not_le.mp (mt hdigit.mpr h)
      exact_mod_cast this
    push_cast
    constructor <;> linarith

/-! ### The result -/

/-- The coefficient of a number at an exponent. -/
def quantum (d : Dec) (e : ℤ) : ℕ := halfUp (|d.value| / 10 ^ e)

theorem abs_value_div_nonneg (d : Dec) (e : ℤ) : 0 ≤ |d.value| / 10 ^ e := by positivity

theorem rescale_eq (d : Dec) (e : ℤ) : d.rescale e = ⟨d.neg, d.quantum e, e⟩ := by
  unfold rescale quantum
  by_cases hzero : d.coeff = 0
  · have hvalue : |d.value| / 10 ^ e = (0 : ℕ) := by
      rw [value_eq_zero_iff.mpr hzero, abs_zero, zero_div, Nat.cast_zero]
    rw [if_pos hzero, hvalue, halfUp_natCast]
  rw [if_neg hzero]
  split
  · next h =>
    -- zeros are added
    have hvalue : |d.value| / 10 ^ e = (d.coeff * 10 ^ (d.exp - e).toNat : ℕ) := by
      rw [div_eq_iff (Context.zpow_ten_pos e).ne', abs_value, zpow_ten_sub h]
      push_cast
      ring
    rw [hvalue, halfUp_natCast]
  · next h =>
    rw [abs_value_div_pow (not_le.mp h).le, roundHalfUp_eq]

theorem quantum_of_coeff_eq_zero {d : Dec} (h : d.coeff = 0) (e : ℤ) : d.quantum e = 0 := by
  have hrescale := rescale_eq d e
  rw [rescale, if_pos h] at hrescale
  exact (congrArg Dec.coeff hrescale).symm

/-- A number whose first digit is past the precision has too large a coefficient. -/
theorem pow_le_quantum {d : Dec} {e : ℤ} {k : ℕ} (h0 : d.coeff ≠ 0)
    (h : (k : ℤ) < d.adjusted - e + 1) : 10 ^ k ≤ d.quantum e := by
  have hpos : 0 < |d.value| := abs_pos.mpr (mt value_eq_zero_iff.mp h0)
  have hlog := log_abs_value h0
  have hself := Int.zpow_log_le_self (b := 10) (by norm_num) hpos
  push_cast at hself
  have hpow : ((10 ^ k : ℕ) : ℚ) ≤ |d.value| / 10 ^ e := by
    rw [le_div_iff₀ (Context.zpow_ten_pos e)]
    push_cast
    rw [← zpow_natCast, ← zpow_add₀ (by norm_num)]
    refine (Context.zpow_ten_le ?_).trans hself
    rw [adjusted] at h
    omega
  calc 10 ^ k = halfUp ((10 ^ k : ℕ) : ℚ) := (halfUp_natCast _).symm
    _ ≤ d.quantum e := halfUp_mono hpow

variable {ctx : Context} {e : ℤ}

/-- A number of few digits at the exponent is left alone, zeros included. -/
theorem fix_at {c : ℕ} (hlo : ctx.etiny ≤ e) (hhi : e ≤ ctx.etop) (hc : c < 10 ^ ctx.prec)
    (neg : Bool) : fix ctx ⟨neg, c, e⟩ = .ok ⟨neg, c, e⟩ := by
  have hprec := ctx.etop_add_prec
  have hpos := ctx.prec_pos
  by_cases hzero : c = 0
  · have hexp : min (max e ctx.etiny) ctx.emax = e := by omega
    rw [fix, if_pos hzero]
    dsimp only
    rw [hexp]
  · exact fix_eq_self hc hlo hhi hzero

theorem numDigits_le {c k : ℕ} (hk : 0 < k) : numDigits c ≤ k ↔ c < 10 ^ k := by
  by_cases hc : c = 0
  · rw [hc]
    exact iff_of_true hk (by positivity)
  · exact numDigits_le_iff hc

/-- **Quantizing, by the value**: the result has the sign of the number and the nearest
coefficient, when that has no more digits than the context. -/
theorem quantize_eq (hlo : ctx.etiny ≤ e) (hhi : e ≤ ctx.etop) (d : Dec) :
    quantize ctx e d =
      if d.quantum e < 10 ^ ctx.prec then .ok ⟨d.neg, d.quantum e, e⟩
      else .error .invalidOperation := by
  have hprec := ctx.etop_add_prec
  have hpos := ctx.prec_pos
  rw [quantize, if_neg (not_not.mpr ⟨hlo, by omega⟩)]
  by_cases hzero : d.coeff = 0
  · have hquantum := quantum_of_coeff_eq_zero hzero e
    rw [if_pos hzero, hquantum, if_pos (by positivity)]
    exact fix_at hlo hhi (by positivity) d.neg
  rw [if_neg hzero, rescale_eq]
  have hdigits := numDigits_le (c := d.quantum e) hpos
  by_cases hq : d.quantum e < 10 ^ ctx.prec
  · have hshort : ¬ (ctx.prec : ℤ) < d.adjusted - e + 1 := by
      intro hlong
      have := pow_le_quantum hzero hlong
      omega
    have hfirst : ¬ ctx.emax < adjusted ⟨d.neg, d.quantum e, e⟩ := by
      have := hdigits.mpr hq
      simp only [adjusted]
      omega
    rw [if_neg (by omega), if_neg hshort, if_neg hfirst, if_neg (not_lt.mpr (hdigits.mpr hq)),
      if_pos hq]
    exact fix_at hlo hhi hq d.neg
  · -- the last of the checks refuses what the others let through
    rw [if_neg hq, if_pos (show ctx.prec < numDigits (d.quantum e) by omega)]
    simp only [ite_self]

/-! ### The nearest number -/

/-- A number of an exponent that is nearest to another one, of the same sign; of two that
are equally near the one farther from zero. -/
structure RoundedTo (e : ℤ) (d q : Dec) : Prop where
  neg : q.neg = d.neg
  exp : q.exp = e
  near : |q.value - d.value| ≤ 10 ^ e / 2
  tie : |q.value - d.value| = 10 ^ e / 2 → |d.value| < |q.value|

/-- Numbers of one sign are as far from each other as their absolute values. -/
theorem abs_sub_of_neg_eq {q d : Dec} (h : q.neg = d.neg) :
    |q.value - d.value| = |(|q.value| - |d.value|)| := by
  rw [abs_value, abs_value, value_eq, value_eq d, h, ← mul_sub, abs_mul]
  split <;> simp

/-- The distance in units of the exponent. -/
theorem abs_sub_at (d : Dec) (c : ℕ) (e : ℤ) :
    |value ⟨d.neg, c, e⟩ - d.value| = |c - |d.value| / 10 ^ e| * 10 ^ e := by
  have hu := Context.zpow_ten_pos e
  have hsplit : |d.value| = |d.value| / 10 ^ e * 10 ^ e := (div_mul_cancel₀ _ hu.ne').symm
  have hsame := abs_sub_of_neg_eq (q := ⟨d.neg, c, e⟩) (d := d) rfl
  rw [hsame, abs_value ⟨d.neg, c, e⟩]
  conv_lhs => rw [hsplit]
  rw [← sub_mul, abs_mul, abs_of_pos hu]

/-- **There is one such number.** -/
theorem roundedTo_iff {d q : Dec} : RoundedTo e d q ↔ q = ⟨d.neg, d.quantum e, e⟩ := by
  have hu := Context.zpow_ten_pos e
  have hnear (c : ℕ) : |value ⟨d.neg, c, e⟩ - d.value| ≤ 10 ^ e / 2 ↔
      |c - |d.value| / 10 ^ e| ≤ 1 / 2 := by
    rw [abs_sub_at, div_eq_inv_mul (10 ^ e), mul_le_mul_iff_left₀ hu, one_div]
  have htie (c : ℕ) : |value ⟨d.neg, c, e⟩ - d.value| = 10 ^ e / 2 ↔
      |c - |d.value| / 10 ^ e| = 1 / 2 := by
    rw [abs_sub_at, div_eq_inv_mul (10 ^ e), mul_left_inj' hu.ne', one_div]
  have haway (c : ℕ) : |d.value| < |value ⟨d.neg, c, e⟩| ↔ |d.value| / 10 ^ e < c := by
    rw [abs_value ⟨d.neg, c, e⟩, div_lt_iff₀ hu]
  have hquantum (c : ℕ) := halfUp_eq_iff_near (abs_value_div_nonneg d e) (n := c)
  constructor
  · intro h
    obtain ⟨hneg, hexp, hle, hlt⟩ := h
    obtain ⟨neg, c, f⟩ := q
    obtain rfl : neg = d.neg := hneg
    obtain rfl : f = e := hexp
    rw [hnear] at hle
    rw [htie, haway] at hlt
    rw [quantum, (hquantum c).mpr ⟨hle, hlt⟩]
  · intro h
    obtain ⟨hle, hlt⟩ := (hquantum (d.quantum e)).mp rfl
    rw [h]
    exact ⟨rfl, rfl, (hnear _).mpr hle, fun hhalf => (haway _).mpr (hlt ((htie _).mp hhalf))⟩

/-- **What is returned**: the nearest number, unless the number is within half a unit of the
first one with too many digits. -/
theorem quantize_eq_ok_iff (hlo : ctx.etiny ≤ e) (hhi : e ≤ ctx.etop) {d q : Dec} :
    quantize ctx e d = .ok q ↔
      |d.value| < (10 ^ ctx.prec - 1 / 2) * 10 ^ e ∧ RoundedTo e d q := by
  have hlimit : d.quantum e < 10 ^ ctx.prec ↔ |d.value| < (10 ^ ctx.prec - 1 / 2) * 10 ^ e := by
    rw [quantum, halfUp_lt_iff (abs_value_div_nonneg d e), div_lt_iff₀ (Context.zpow_ten_pos e)]
    push_cast
    rfl
  rw [quantize_eq hlo hhi, roundedTo_iff, ← hlimit, eq_comm (a := q)]
  split
  · next h => simp [h]
  · next h => simp [h]

theorem quantize_eq_error {s : Signal} (hlo : ctx.etiny ≤ e) (hhi : e ≤ ctx.etop) {d : Dec}
    (h : quantize ctx e d = .error s) : s = .invalidOperation := by
  rw [quantize_eq hlo hhi] at h
  split at h
  · cases h
  · cases h
    rfl

/-- A number of the exponent is its own nearest. -/
theorem RoundedTo.refl (d : Dec) : RoundedTo d.exp d d := by
  have hu := Context.zpow_ten_pos d.exp
  refine ⟨rfl, rfl, ?_, ?_⟩
  · rw [sub_self, abs_zero]
    positivity
  · intro h
    rw [sub_self, abs_zero] at h
    linarith

/-- **Quantizing again** changes nothing. -/
theorem quantize_idem (hlo : ctx.etiny ≤ e) (hhi : e ≤ ctx.etop) {d q : Dec}
    (h : quantize ctx e d = .ok q) : quantize ctx e q = .ok q := by
  rw [quantize_eq hlo hhi] at h
  split at h
  · next hlt =>
    cases h
    have hself : quantum ⟨d.neg, d.quantum e, e⟩ e = d.quantum e :=
      (congrArg Dec.coeff (roundedTo_iff.mp (RoundedTo.refl ⟨d.neg, d.quantum e, e⟩))).symm
    rw [quantize_eq hlo hhi, hself, if_pos hlt]
  · cases h

/-- A number that has no digits past the exponent keeps its value. -/
theorem RoundedTo.value_eq {d q : Dec} (h : RoundedTo e d q) (he : e ≤ d.exp) :
    q.value = d.value := by
  by_cases hzero : d.coeff = 0
  · rw [roundedTo_iff.mp h, quantum_of_coeff_eq_zero hzero, value_eq_zero_iff.mpr hzero]
    exact value_eq_zero_iff.mpr rfl
  · have hrescale := rescale_eq d e
    rw [rescale, if_neg hzero, if_pos he] at hrescale
    rw [roundedTo_iff.mp h, ← hrescale, value_shift]
    exact congrArg value (eta_exp d (by omega))

theorem value_of_neg {d : Dec} (h : d.neg = true) : d.value = -|d.value| := by
  rw [abs_value, value_eq, if_pos h, neg_one_mul]

theorem value_of_not_neg {d : Dec} (h : d.neg = false) : d.value = |d.value| := by
  rw [abs_value, value_eq, h, if_neg Bool.false_ne_true, one_mul]

theorem RoundedTo.abs_value_eq {d q : Dec} (h : RoundedTo e d q) :
    |q.value| = d.quantum e * 10 ^ e := by
  rw [roundedTo_iff.mp h, abs_value]

/-- **Quantizing keeps the order.** -/
theorem RoundedTo.value_le {d d' q q' : Dec} (h : RoundedTo e d q) (h' : RoundedTo e d' q')
    (hle : d.value ≤ d'.value) : q.value ≤ q'.value := by
  have hu := Context.zpow_ten_pos e
  have habs := h.abs_value_eq
  have habs' := h'.abs_value_eq
  -- nearer to zero before, nearer to zero after
  have hmono {x y : Dec} (hxy : |x.value| ≤ |y.value|) :
      (x.quantum e : ℚ) * 10 ^ e ≤ y.quantum e * 10 ^ e := by
    have : x.quantum e ≤ y.quantum e := halfUp_mono (div_le_div_of_nonneg_right hxy hu.le)
    exact mul_le_mul_of_nonneg_right (by exact_mod_cast this) hu.le
  have hpos := abs_nonneg d.value
  have hpos' := abs_nonneg d'.value
  have hqpos := abs_nonneg q.value
  have hqpos' := abs_nonneg q'.value
  cases hneg : d.neg <;> cases hneg' : d'.neg
  · rw [value_of_not_neg hneg, value_of_not_neg hneg'] at hle
    rw [value_of_not_neg (h.neg.trans hneg), value_of_not_neg (h'.neg.trans hneg'), habs, habs']
    exact hmono hle
  · -- both are zero
    rw [value_of_not_neg hneg, value_of_neg hneg'] at hle
    have hzero : d.coeff = 0 := value_eq_zero_iff.mp (abs_eq_zero.mp (by linarith))
    have hzero' : d'.coeff = 0 := value_eq_zero_iff.mp (abs_eq_zero.mp (by linarith))
    rw [quantum_of_coeff_eq_zero hzero, Nat.cast_zero, zero_mul] at habs
    rw [quantum_of_coeff_eq_zero hzero', Nat.cast_zero, zero_mul] at habs'
    rw [abs_eq_zero.mp habs, abs_eq_zero.mp habs']
  · rw [value_of_neg (h.neg.trans hneg), value_of_not_neg (h'.neg.trans hneg')]
    linarith
  · rw [value_of_neg hneg, value_of_neg hneg'] at hle
    rw [value_of_neg (h.neg.trans hneg), value_of_neg (h'.neg.trans hneg'), habs, habs']
    exact neg_le_neg (hmono (by linarith))

end Dec
