import Mathlib.Data.Nat.Log
import Mathlib.Data.Rat.Cast.Order
import Mathlib.Algebra.Order.Field.Power
import Mathlib.Algebra.BigOperators.Group.List.Lemmas
import Mathlib.Tactic.Ring
import Mathlib.Tactic.Positivity
import Mathlib.Tactic.FieldSimp
import FinestVX.Lib.Checked

/-!
# Decimal floating point

Finite decimal numbers `± coeff · 10 ^ exp`, the exact comparisons on them, and
addition rounded to the precision of a context: half-even, with gradual
underflow and a trap on overflow.  Numbers are kept with their exponents, so
one value has many representations; a *cohort* is the set of numbers of one
value.

## Main definitions

* `Dec`, `Dec.value` — finite decimals and the rationals they denote.
* `Dec.Context` — precision and exponent range; `Dec.defaultContext` has 28
  digits and exponents up to `999999`.
* `Dec.fix` — rounding a number into a context.
* `Dec.add`, `Dec.sumFrom` — context addition, and the running sum of a list.
* `Dec.Fits` — the values a context represents exactly.

## Main results

* `Dec.fix_congr` — rounding depends on the value alone.
* `Dec.fix_exact`, `Dec.fix_fits` — rounding changes nothing exactly on the
  values that fit.
* `Dec.sumFrom_congr`, `Dec.sumFrom_exact` — the same two facts for sums.
-/

/-- A finite decimal number `± coeff · 10 ^ exp`. -/
structure Dec where
  /-- Whether the sign is minus; zeros are signed too. -/
  neg : Bool := false
  coeff : ℕ
  exp : ℤ
  deriving DecidableEq, Repr

namespace Dec

/-- The coefficient with its sign. -/
def signed (d : Dec) : ℤ := if d.neg then -(d.coeff : ℤ) else d.coeff

/-- The rational number a decimal denotes. -/
def value (d : Dec) : ℚ := d.signed * (10 : ℚ) ^ d.exp

/-- The signed coefficient at the smaller exponent `e`. -/
def scaled (d : Dec) (e : ℤ) : ℤ := d.signed * 10 ^ (d.exp - e).toNat

@[simp] theorem natAbs_signed (d : Dec) : d.signed.natAbs = d.coeff := by
  unfold signed
  split <;> simp

theorem signed_eq_zero_iff {d : Dec} : d.signed = 0 ↔ d.coeff = 0 := by
  rw [← Int.natAbs_eq_zero, natAbs_signed]

theorem value_eq_zero_iff {d : Dec} : d.value = 0 ↔ d.coeff = 0 := by
  have h10 : (10 : ℚ) ^ d.exp ≠ 0 := zpow_ne_zero _ (by norm_num)
  rw [value, mul_eq_zero, or_iff_left h10, Int.cast_eq_zero, signed_eq_zero_iff]

theorem zpow_ten_sub {e f : ℤ} (h : e ≤ f) :
    (10 : ℚ) ^ f = 10 ^ (f - e).toNat * 10 ^ e := by
  rw [← zpow_natCast, ← zpow_add₀ (by norm_num)]
  congr 1
  omega

theorem scaled_value {d : Dec} {e : ℤ} (h : e ≤ d.exp) :
    (d.scaled e : ℚ) * 10 ^ e = d.value := by
  rw [value, scaled, zpow_ten_sub h]
  push_cast
  ring

/-- Two numbers at a common exponent compare as their scaled coefficients. -/
theorem scaled_eq_scaled_iff {a b : Dec} {e : ℤ} (ha : e ≤ a.exp) (hb : e ≤ b.exp) :
    a.scaled e = b.scaled e ↔ a.value = b.value := by
  have h10 : (10 : ℚ) ^ e ≠ 0 := zpow_ne_zero _ (by norm_num)
  rw [← scaled_value ha, ← scaled_value hb, mul_left_inj' h10, Int.cast_inj]

theorem scaled_lt_scaled_iff {a b : Dec} {e : ℤ} (ha : e ≤ a.exp) (hb : e ≤ b.exp) :
    a.scaled e < b.scaled e ↔ a.value < b.value := by
  have h10 : (0 : ℚ) < 10 ^ e := zpow_pos (by norm_num) _
  rw [← scaled_value ha, ← scaled_value hb, mul_lt_mul_iff_left₀ h10, Int.cast_lt]

/-! ### Comparison -/

/-- Numeric equality: `a == b`. -/
def numEq (a b : Dec) : Bool := a.scaled (min a.exp b.exp) = b.scaled (min a.exp b.exp)

/-- Numeric order: `a < b`. -/
def numLt (a b : Dec) : Bool := a.scaled (min a.exp b.exp) < b.scaled (min a.exp b.exp)

@[simp] theorem numEq_iff {a b : Dec} : a.numEq b = true ↔ a.value = b.value := by
  rw [numEq, decide_eq_true_eq, scaled_eq_scaled_iff (min_le_left _ _) (min_le_right _ _)]

@[simp] theorem numLt_iff {a b : Dec} : a.numLt b = true ↔ a.value < b.value := by
  rw [numLt, decide_eq_true_eq, scaled_lt_scaled_iff (min_le_left _ _) (min_le_right _ _)]

/-- The decimal zero. -/
def zero : Dec := ⟨false, 0, 0⟩

/-- The decimal one. -/
def one : Dec := ⟨false, 1, 0⟩

@[simp] theorem value_zero : zero.value = 0 := value_eq_zero_iff.mpr rfl

@[simp] theorem value_one : one.value = 1 := by simp [one, value, signed]

/-! ### Contexts and rounding -/

/-- The arithmetic context: precision in digits and range of adjusted exponents. -/
structure Context where
  prec : ℕ
  emin : ℤ
  emax : ℤ
  prec_pos : 0 < prec
  emin_le_emax : emin ≤ emax

/-- The context a thread starts in: 28 digits, half-even, `Overflow` trapped. -/
def defaultContext : Context := ⟨28, -999999, 999999, by decide, by decide⟩

/-- The least exponent a rounded number can have. -/
def Context.etiny (ctx : Context) : ℤ := ctx.emin - (ctx.prec - 1)

/-- The largest exponent a number of full precision can have. -/
def Context.etop (ctx : Context) : ℤ := ctx.emax - (ctx.prec - 1)

theorem Context.etiny_le_etop (ctx : Context) : ctx.etiny ≤ ctx.etop := by
  have := ctx.emin_le_emax
  simp only [etiny, etop]
  omega

/-- The trapped conditions of decimal arithmetic. -/
inductive Signal
  | overflow
  | invalidOperation
  deriving DecidableEq, Repr

/-- The number of decimal digits of a nonzero natural number. -/
def numDigits (n : ℕ) : ℕ := Nat.log 10 n + 1

theorem numDigits_pos (n : ℕ) : 0 < numDigits n := Nat.succ_pos _

theorem numDigits_le_iff {n k : ℕ} (hn : n ≠ 0) : numDigits n ≤ k ↔ n < 10 ^ k := by
  rw [numDigits, Nat.add_one_le_iff, Nat.log_lt_iff_lt_pow (by norm_num) hn]

theorem numDigits_mul_pow {n : ℕ} (hn : n ≠ 0) (k : ℕ) :
    numDigits (n * 10 ^ k) = numDigits n + k := by
  induction k with
  | zero => simp
  | succ k ih =>
    have hne : n * 10 ^ k ≠ 0 := by positivity
    rw [pow_succ, ← mul_assoc, numDigits, Nat.log_mul_base (by norm_num) hne,
      ← Nat.add_assoc, ← ih, numDigits]

/-- Drop `k` digits of `c`, rounding half to even. -/
def roundHalfEven (c k : ℕ) : ℕ :=
  let q := c / 10 ^ k
  let r := c % 10 ^ k
  if 2 * r < 10 ^ k then q
  else if 10 ^ k < 2 * r then q + 1
  else q + q % 2

@[simp] theorem roundHalfEven_zero (c : ℕ) : roundHalfEven c 0 = c := by
  simp [roundHalfEven, Nat.mod_one]

/-- Trailing zeros beyond the rounding position do not matter. -/
theorem roundHalfEven_mul_pow (c j k : ℕ) :
    roundHalfEven (c * 10 ^ k) (j + k) = roundHalfEven c j := by
  have hk : 0 < 10 ^ k := by positivity
  have hdiv : c * 10 ^ k / 10 ^ (j + k) = c / 10 ^ j := by
    rw [pow_add, Nat.mul_div_mul_right _ _ hk]
  have hmod : c * 10 ^ k % 10 ^ (j + k) = c % 10 ^ j * 10 ^ k := by
    rw [pow_add, Nat.mul_mod_mul_right]
  have hlt : ∀ x y : ℕ, x * 10 ^ k < y * 10 ^ k ↔ x < y := fun x y =>
    Nat.mul_lt_mul_right hk
  simp only [roundHalfEven, hdiv, hmod]
  simp only [pow_add, ← Nat.mul_assoc, hlt]

/-- Dropping only zeros is exact. -/
theorem roundHalfEven_of_le (c : ℕ) {j k : ℕ} (h : j ≤ k) :
    roundHalfEven (c * 10 ^ k) j = c * 10 ^ (k - j) := by
  have hsplit : c * 10 ^ k = c * 10 ^ (k - j) * 10 ^ j := by
    rw [Nat.mul_assoc, ← pow_add, Nat.sub_add_cancel h]
  rw [hsplit]
  simpa using roundHalfEven_mul_pow (c * 10 ^ (k - j)) 0 j

/-- Rounding `c` to its top digits leaves at most one more than the largest
number of that many digits. -/
theorem roundHalfEven_le {c j p : ℕ} (h : c < 10 ^ (p + j)) : roundHalfEven c j ≤ 10 ^ p := by
  have hq : c / 10 ^ j < 10 ^ p := Nat.div_lt_of_lt_mul (by rwa [← pow_add, Nat.add_comm])
  have : c / 10 ^ j % 2 < 2 := Nat.mod_lt _ (by norm_num)
  simp only [roundHalfEven]
  split_ifs <;> omega

/-- Round a number into the context; a result above the largest number of the
context traps `Overflow`. -/
def fix (ctx : Context) (d : Dec) : Except Signal Dec :=
  if d.coeff = 0 then
    .ok { d with exp := min (max d.exp ctx.etiny) ctx.emax }
  else
    let expMin := numDigits d.coeff + d.exp - ctx.prec
    if ctx.etop < expMin then .error .overflow
    else
      let expMin := max expMin ctx.etiny
      if d.exp < expMin then
        let c := roundHalfEven d.coeff (expMin - d.exp).toNat
        -- a carry out of the top digit leaves `10 ^ prec`
        if 10 ^ ctx.prec ≤ c then
          if ctx.etop < expMin + 1 then .error .overflow
          else .ok { d with coeff := c / 10, exp := expMin + 1 }
        else .ok { d with coeff := c, exp := expMin }
      else .ok d

/-! ### Rounding depends on the value alone -/

theorem value_eq (d : Dec) :
    d.value = (if d.neg then -1 else 1) * ((d.coeff : ℚ) * 10 ^ d.exp) := by
  rw [value, signed]
  split <;> push_cast <;> ring

theorem abs_value (d : Dec) : |d.value| = (d.coeff : ℚ) * 10 ^ d.exp := by
  have hpos : (0 : ℚ) ≤ (d.coeff : ℚ) * 10 ^ d.exp := by positivity
  rw [value_eq]
  split <;> simp [abs_of_nonneg hpos]

/-- Trailing zeros of the coefficient can be moved into the exponent. -/
theorem value_shift (n : Bool) (c k : ℕ) (e : ℤ) :
    value ⟨n, c * 10 ^ k, e⟩ = value ⟨n, c, e + k⟩ := by
  rw [value_eq, value_eq, zpow_add₀ (by norm_num), zpow_natCast]
  push_cast
  ring

theorem neg_eq_decide {d : Dec} (h : d.coeff ≠ 0) : d.neg = decide (d.signed < 0) := by
  have hpos : (0 : ℤ) < d.coeff := by omega
  unfold signed
  cases d.neg
  · simp
  · simpa using hpos

theorem eta_exp (d : Dec) {e : ℤ} (h : e = d.exp) : (⟨d.neg, d.coeff, e⟩ : Dec) = d := by
  subst h
  rfl

/-- Two members of a cohort differ by trailing zeros. -/
theorem eq_shift_of_value_eq {d d' : Dec} (hv : d.value = d'.value) (hc : d'.coeff ≠ 0)
    (he : d.exp ≤ d'.exp) :
    d = ⟨d'.neg, d'.coeff * 10 ^ (d'.exp - d.exp).toNat, d.exp⟩ := by
  have hs : d.signed = d'.signed * 10 ^ (d'.exp - d.exp).toNat := by
    have h := (scaled_eq_scaled_iff le_rfl he).mpr hv
    simpa [scaled] using h
  have hcoeff : d.coeff = d'.coeff * 10 ^ (d'.exp - d.exp).toNat := by
    have h := congrArg Int.natAbs hs
    simpa [Int.natAbs_mul, Int.natAbs_pow] using h
  have hne : d.coeff ≠ 0 := by
    rw [hcoeff]
    positivity
  have hneg : d.neg = d'.neg := by
    have h10 : (0 : ℤ) < 10 ^ (d'.exp - d.exp).toNat := by positivity
    rw [neg_eq_decide hne, neg_eq_decide hc, hs, decide_eq_decide]
    simpa using mul_lt_mul_iff_left₀ (b := d'.signed) (c := 0) h10
  rw [← hneg, ← hcoeff]

theorem fix_of_coeff_eq_zero {ctx : Context} {d : Dec} (h : d.coeff = 0) :
    (fix ctx d).map value = .ok 0 := by
  rw [fix, if_pos h]
  exact congrArg Except.ok (value_eq_zero_iff.mpr h)

/-- Rounding a coefficient with trailing zeros. -/
theorem fix_shift (ctx : Context) (n : Bool) {c : ℕ} (hc : c ≠ 0) (k : ℕ) (e : ℤ) :
    (fix ctx ⟨n, c * 10 ^ k, e⟩).map value = (fix ctx ⟨n, c, e + k⟩).map value := by
  have hck : c * 10 ^ k ≠ 0 := by positivity
  have hdig : ((numDigits (c * 10 ^ k) : ℕ) : ℤ) + e - ctx.prec
      = (numDigits c : ℤ) + (e + k) - ctx.prec := by
    rw [numDigits_mul_pow hc]
    push_cast
    ring
  simp only [fix, hck, hc, if_false, hdig]
  split
  · rfl
  next htop =>
  set E := max ((numDigits c : ℤ) + (e + k) - ctx.prec) ctx.etiny with hE
  have hE0 : (numDigits c : ℤ) + (e + k) - ctx.prec ≤ E := le_max_left _ _
  by_cases h2 : e + k < E
  · -- Both numbers are rounded, at the same digit.
    have h1 : e < E := by omega
    have hj : (E - e).toNat = (E - (e + k)).toNat + k := by omega
    rw [if_pos h1, if_pos h2, hj, roundHalfEven_mul_pow]
  · rw [if_neg h2]
    by_cases h1 : e < E
    · -- Only trailing zeros are dropped.
      have hj : (E - e).toNat ≤ k := by omega
      have hlt : c * 10 ^ (k - (E - e).toNat) < 10 ^ ctx.prec := by
        rw [← numDigits_le_iff (by positivity), numDigits_mul_pow hc]
        omega
      rw [if_pos h1, roundHalfEven_of_le c hj, if_neg (by omega)]
      refine congrArg Except.ok ?_
      rw [value_shift]
      congr 2
      omega
    · rw [if_neg h1]
      exact congrArg Except.ok (value_shift n c k e)

/-- **Rounding depends on the value alone**, not on the representation. -/
theorem fix_congr (ctx : Context) {d d' : Dec} (h : d.value = d'.value) :
    (fix ctx d).map value = (fix ctx d').map value := by
  by_cases hc : d.coeff = 0
  · have hc' : d'.coeff = 0 := by rwa [← value_eq_zero_iff, ← h, value_eq_zero_iff]
    rw [fix_of_coeff_eq_zero hc, fix_of_coeff_eq_zero hc']
  · have hc' : d'.coeff ≠ 0 := by rwa [ne_eq, ← value_eq_zero_iff, ← h, value_eq_zero_iff]
    rcases le_total d.exp d'.exp with he | he
    · rw [eq_shift_of_value_eq h hc' he, fix_shift ctx _ hc', eta_exp d' (by omega)]
    · rw [eq_shift_of_value_eq h.symm hc he, fix_shift ctx _ hc, eta_exp d (by omega)]

/-! ### The values a context represents -/

/-- The values the context represents exactly: a coefficient within the
precision and an exponent within the range. -/
def Fits (ctx : Context) (v : ℚ) : Prop :=
  ∃ (c : ℕ) (e : ℤ), c < 10 ^ ctx.prec ∧ ctx.etiny ≤ e ∧ e ≤ ctx.etop ∧ |v| = (c : ℚ) * 10 ^ e

theorem fits_zero (ctx : Context) : Fits ctx 0 :=
  ⟨0, ctx.etiny, by positivity, le_rfl, ctx.etiny_le_etop, by simp⟩

/-- A number that is already within precision and range is left alone. -/
theorem fix_eq_self {ctx : Context} {d : Dec} (hc : d.coeff < 10 ^ ctx.prec)
    (hlo : ctx.etiny ≤ d.exp) (hhi : d.exp ≤ ctx.etop) (h0 : d.coeff ≠ 0) :
    fix ctx d = .ok d := by
  have hdig := (numDigits_le_iff h0).mpr hc
  rw [fix, if_neg h0]
  dsimp only
  rw [if_neg (by omega), if_neg (by omega)]

/-- **Rounding is exact on the values that fit.** -/
theorem fix_exact {ctx : Context} {d : Dec} (h : Fits ctx d.value) :
    ∃ r, fix ctx d = .ok r ∧ r.value = d.value := by
  obtain ⟨c, e, hc, hlo, hhi, hv⟩ := h
  have hval : d.value = value ⟨d.neg, c, e⟩ := by
    rw [value_eq d, ← abs_value d, hv, value_eq]
  have hmap : (fix ctx d).map value = .ok d.value := by
    rw [fix_congr ctx hval, hval]
    by_cases h0 : c = 0
    · rw [fix_of_coeff_eq_zero h0, value_eq_zero_iff.mpr h0]
    · rw [fix_eq_self hc hlo hhi h0]
      rfl
  cases hfix : fix ctx d with
  | error s =>
    rw [hfix] at hmap
    cases hmap
  | ok r =>
    rw [hfix] at hmap
    exact ⟨r, rfl, Except.ok.inj hmap⟩

/-- **A rounded number fits.** -/
theorem fix_fits {ctx : Context} {d r : Dec} (h : fix ctx d = .ok r) : Fits ctx r.value := by
  unfold fix at h
  split at h
  · next h0 =>
    cases h
    have hz : value ⟨d.neg, d.coeff, min (max d.exp ctx.etiny) ctx.emax⟩ = 0 :=
      value_eq_zero_iff.mpr h0
    rw [hz]
    exact fits_zero ctx
  next h0 =>
  dsimp only at h
  split at h
  · cases h
  next htop =>
  set E := max ((numDigits d.coeff : ℤ) + d.exp - ctx.prec) ctx.etiny with hE
  have hE0 : (numDigits d.coeff : ℤ) + d.exp - ctx.prec ≤ E := le_max_left _ _
  have hE1 : ctx.etiny ≤ E := le_max_right _ _
  have hE2 : E ≤ ctx.etop := max_le (by omega) ctx.etiny_le_etop
  split at h
  · next hlt =>
    split at h
    · split at h
      · cases h
      · -- the carry: the coefficient is `10 ^ prec`
        cases h
        have hle : roundHalfEven d.coeff (E - d.exp).toNat ≤ 10 ^ ctx.prec :=
          roundHalfEven_le ((numDigits_le_iff h0).mp (by omega))
        have hpos : 0 < 10 ^ ctx.prec := by positivity
        exact ⟨_, _, by dsimp only; omega, by dsimp only; omega, by dsimp only; omega, abs_value _⟩
    · cases h
      exact ⟨_, _, by dsimp only; omega, hE1, hE2, abs_value _⟩
  · -- no digit is dropped; a large exponent still leaves room in the coefficient
    cases h
    have hdig : numDigits d.coeff ≤ ctx.prec := by omega
    rcases le_total d.exp ctx.etop with he | he
    · exact ⟨d.coeff, d.exp, (numDigits_le_iff h0).mp hdig, by omega, he, abs_value d⟩
    · refine ⟨d.coeff * 10 ^ (d.exp - ctx.etop).toNat, ctx.etop, ?_, ctx.etiny_le_etop, le_rfl, ?_⟩
      · rw [← numDigits_le_iff (by positivity), numDigits_mul_pow h0]
        omega
      · rw [abs_value, zpow_ten_sub he]
        push_cast
        ring

/-! ### Sums -/

/-- The exact sum, at the smaller of the two exponents.  A zero sum is negative
only when both summands are. -/
def exactAdd (a b : Dec) : Dec :=
  let e := min a.exp b.exp
  let s := a.scaled e + b.scaled e
  ⟨if s = 0 then a.neg && b.neg else decide (s < 0), s.natAbs, e⟩

theorem signed_mk_natAbs {s : ℤ} {n : Bool} {e : ℤ} (hn : s ≠ 0 → n = decide (s < 0)) :
    signed ⟨n, s.natAbs, e⟩ = s := by
  by_cases hs : s = 0
  · simp [signed, hs]
  · rw [signed, hn hs]
    by_cases hlt : s < 0
    · simp only [hlt, decide_true, if_true]
      omega
    · simp only [hlt, decide_false, Bool.false_eq_true, if_false]
      omega

@[simp] theorem value_exactAdd (a b : Dec) : (exactAdd a b).value = a.value + b.value := by
  rw [exactAdd, value, signed_mk_natAbs fun h => by rw [if_neg h],
    ← scaled_value (min_le_left a.exp b.exp), ← scaled_value (min_le_right a.exp b.exp)]
  push_cast
  ring

/-- The sum rounded into the context. -/
def add (ctx : Context) (a b : Dec) : Except Signal Dec := fix ctx (exactAdd a b)

theorem add_congr (ctx : Context) {a a' b b' : Dec} (ha : a.value = a'.value)
    (hb : b.value = b'.value) : (add ctx a b).map value = (add ctx a' b').map value :=
  fix_congr ctx (by rw [value_exactAdd, value_exactAdd, ha, hb])

/-- The running sum of a list, rounded at each step. -/
def sumFrom (ctx : Context) : Dec → List Dec → Except Signal Dec
  | acc, [] => .ok acc
  | acc, d :: l => add ctx acc d >>= fun s => sumFrom ctx s l

/-- The exact sum of a list. -/
def valueSum (l : List Dec) : ℚ := (l.map value).sum

@[simp] theorem valueSum_nil : valueSum [] = 0 := rfl

@[simp] theorem valueSum_cons (d : Dec) (l : List Dec) :
    valueSum (d :: l) = d.value + valueSum l := by simp [valueSum]

theorem valueSum_perm {l l' : List Dec} (h : l.Perm l') : valueSum l = valueSum l' :=
  (h.map value).sum_eq

/-- **A running sum depends on the values alone.** -/
theorem sumFrom_congr (ctx : Context) {l l' : List Dec} (h : l.map value = l'.map value)
    {acc acc' : Dec} (hacc : acc.value = acc'.value) :
    (sumFrom ctx acc l).map value = (sumFrom ctx acc' l').map value := by
  induction l generalizing l' acc acc' with
  | nil =>
    obtain rfl : l' = [] := by simpa using h.symm
    exact congrArg Except.ok hacc
  | cons d l ih =>
    cases l' with
    | nil => simp at h
    | cons d' l' =>
      obtain ⟨hd, hl⟩ : d.value = d'.value ∧ l.map value = l'.map value := by simpa using h
      have hadd := add_congr ctx hacc hd
      simp only [sumFrom]
      cases hs : add ctx acc d <;> cases hs' : add ctx acc' d' <;>
        simp only [hs, hs', Except.map, Except.ok.injEq, Except.error.injEq, reduceCtorEq] at hadd
      · rw [hadd]
        rfl
      · exact ih hl hadd

/-- **A running sum is exact when every partial sum fits.** -/
theorem sumFrom_exact {ctx : Context} {acc : Dec} {l : List Dec}
    (h : ∀ p, p <+: l → Fits ctx (acc.value + valueSum p)) :
    ∃ r, sumFrom ctx acc l = .ok r ∧ r.value = acc.value + valueSum l := by
  induction l generalizing acc with
  | nil => exact ⟨acc, rfl, by simp⟩
  | cons d l ih =>
    have hd : Fits ctx (exactAdd acc d).value := by
      simpa using h [d] (List.prefix_iff_eq_take.mpr (by simp))
    obtain ⟨s, hs, hsv⟩ := fix_exact hd
    rw [value_exactAdd] at hsv
    have hpre : ∀ p, p <+: l → Fits ctx (s.value + valueSum p) := by
      intro p hp
      have := h (d :: p) (List.cons_prefix_cons.mpr ⟨rfl, hp⟩)
      rwa [valueSum_cons, ← add_assoc, ← hsv] at this
    obtain ⟨r, hr, hrv⟩ := ih hpre
    refine ⟨r, ?_, ?_⟩
    · rw [sumFrom, add, hs, Except.ok_bind, hr]
    · rw [hrv, hsv, valueSum_cons, add_assoc]

/-- A running sum that starts from a number that fits ends in one. -/
theorem sumFrom_fits {ctx : Context} {acc r : Dec} {l : List Dec} (hacc : Fits ctx acc.value)
    (h : sumFrom ctx acc l = .ok r) : Fits ctx r.value := by
  induction l generalizing acc with
  | nil =>
    cases h
    exact hacc
  | cons d l ih =>
    obtain ⟨s, hs, h⟩ := Except.bind_eq_ok.mp h
    exact ih (fix_fits hs) h

/-! ### Sums of numbers of a common scale -/

/-- A number that is not negative is a natural multiple of `10 ^ e` for each `e`
up to its exponent. -/
theorem exists_value_eq_mul {d : Dec} {e : ℤ} (hd : 0 ≤ d.value) (he : e ≤ d.exp) :
    ∃ n : ℕ, d.value = n * (10 : ℚ) ^ e := by
  refine ⟨(d.scaled e).toNat, ?_⟩
  have h10 : (0 : ℚ) < 10 ^ e := zpow_pos (by norm_num) _
  have hnonneg : 0 ≤ d.scaled e := by
    rw [← scaled_value he] at hd
    exact_mod_cast nonneg_of_mul_nonneg_left hd h10
  rw [← scaled_value he, ← Int.cast_natCast, Int.toNat_of_nonneg hnonneg]

theorem exists_valueSum_eq_mul {l : List Dec} {e : ℤ} (hl : ∀ d ∈ l, 0 ≤ d.value ∧ e ≤ d.exp) :
    ∃ n : ℕ, valueSum l = n * (10 : ℚ) ^ e := by
  induction l with
  | nil => exact ⟨0, by simp⟩
  | cons d l ih =>
    obtain ⟨n, hn⟩ := exists_value_eq_mul (hl d (by simp)).1 (hl d (by simp)).2
    obtain ⟨m, hm⟩ := ih fun x hx => hl x (by simp [hx])
    exact ⟨n + m, by rw [valueSum_cons, hn, hm]; push_cast; ring⟩

/-- A multiple of `10 ^ e` with few digits fits. -/
theorem fits_of_lt {ctx : Context} {n : ℕ} {e : ℤ} (hlo : ctx.etiny ≤ e) (hhi : e ≤ ctx.etop)
    (h : (n : ℚ) * 10 ^ e < 10 ^ ctx.prec * 10 ^ e) : Fits ctx (n * 10 ^ e) := by
  have h10 : (0 : ℚ) < 10 ^ e := zpow_pos (by norm_num) _
  have hn : n < 10 ^ ctx.prec := by
    exact_mod_cast lt_of_mul_lt_mul_right h h10.le
  exact ⟨n, e, hn, hlo, hhi, abs_of_nonneg (by positivity)⟩

/-- The sum of part of a list of numbers that are not negative is at most the sum. -/
theorem valueSum_le_of_subperm {l l' : List Dec} (h : l.Subperm l')
    (hl' : ∀ d ∈ l', 0 ≤ d.value) : valueSum l ≤ valueSum l' := by
  obtain ⟨m, hperm, hsub⟩ := h
  rw [← valueSum_perm hperm]
  refine (hsub.map value).sum_le_sum ?_
  intro v hv
  obtain ⟨d, hd, rfl⟩ := List.mem_map.mp hv
  exact hl' d hd

end Dec
