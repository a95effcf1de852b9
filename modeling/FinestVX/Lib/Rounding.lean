import FinestVX.Lib.Decimal
import Mathlib.Algebra.Order.Floor.Ring
import Mathlib.Data.Int.Log
import Mathlib.Data.Rat.Floor
import Mathlib.Tactic.Linarith

/-!
# Rounding as a function of the value

What a context makes of a number, as arithmetic of rationals.  The unit of a number is the
place of the last digit that is kept; the number is rounded to a multiple of it, half-even,
or overflows when it is too large.

## Main definitions

* `Dec.halfEven` — the nearest integer.
* `Dec.Context.unit`, `Dec.Context.round` — the place of the last digit kept, and the
  rounded number.
* `Dec.Context.limit` — the least number that overflows.

## Main results

* `Dec.fix_eq` — **rounding a decimal, by its value.**
* `Dec.Context.round_lt_iff` — what is rounded to a number of the context.
* `Dec.Context.round_le_pow_iff` — what is rounded to a power of ten or less.
-/

namespace Dec

/-! ### The nearest integer -/

/-- The nearest integer, or of the two that are equally near the even one. -/
def halfEven (x : ℚ) : ℤ :=
  if x - ⌊x⌋ < 1 / 2 then ⌊x⌋
  else if 1 / 2 < x - ⌊x⌋ then ⌊x⌋ + 1
  else ⌊x⌋ + ⌊x⌋ % 2

/-- A number that is rounded to `n` or less is below the half after `n`, or the half itself
when `n` is even. -/
theorem halfEven_le_iff {x : ℚ} {n : ℤ} :
    halfEven x ≤ n ↔ x < n + 1 / 2 ∨ x = n + 1 / 2 ∧ n % 2 = 0 := by
  have hlo := Int.floor_le x
  have hhi := Int.lt_floor_add_one x
  generalize hk : ⌊x⌋ = k at hlo hhi
  -- integers that are compared over the rationals
  have hcast : ∀ m : ℤ, k ≤ m → (k : ℚ) ≤ m := fun m h => by exact_mod_cast h
  have hcast' : ∀ m : ℤ, m ≤ k → (m : ℚ) ≤ k := fun m h => by exact_mod_cast h
  unfold halfEven
  rw [hk]
  split
  · constructor
    · intro h
      have := hcast n h
      exact .inl (by linarith)
    · intro h
      by_contra hlt
      have := hcast' (n + 1) (by omega)
      push_cast at this
      rcases h with h | ⟨h, -⟩ <;> linarith
  split
  · constructor
    · intro h
      have := hcast (n - 1) (by omega)
      push_cast at this
      exact .inl (by linarith)
    · intro h
      by_contra hlt
      have := hcast' n (by omega)
      rcases h with h | ⟨h, -⟩ <;> linarith
  · have hx : x = k + 1 / 2 := by linarith
    constructor
    · intro h
      rcases lt_or_ge k n with hlt | hge
      · have := hcast (n - 1) (by omega)
        push_cast at this
        exact .inl (by linarith)
      · obtain rfl : k = n := by omega
        exact .inr ⟨hx, by omega⟩
    · intro h
      rcases h with h | ⟨h, heven⟩
      · have hlt : (k : ℚ) < n := by linarith
        have : k < n := by exact_mod_cast hlt
        omega
      · have heq : (k : ℚ) = n := by linarith
        obtain rfl : k = n := by exact_mod_cast heq
        omega

theorem halfEven_le {x : ℚ} {n : ℤ} (h : x ≤ n) : halfEven x ≤ n :=
  halfEven_le_iff.mpr (.inl (by linarith))

theorem le_halfEven {x : ℚ} {n : ℤ} (h : n ≤ x) : n ≤ halfEven x := by
  by_contra hlt
  have hle : halfEven x ≤ n - 1 := by omega
  have := halfEven_le_iff.mp hle
  push_cast at this
  rcases this with h' | ⟨h', -⟩ <;> linarith

@[simp] theorem halfEven_intCast (n : ℤ) : halfEven n = n :=
  le_antisymm (halfEven_le le_rfl) (le_halfEven le_rfl)

/-- Dropping digits of a coefficient is rounding to an integer. -/
theorem halfEven_div_pow (c k : ℕ) : halfEven ((c : ℚ) / 10 ^ k) = roundHalfEven c k := by
  have hpos : (0 : ℚ) < 10 ^ k := by positivity
  have hsplit : (c : ℚ) = 10 ^ k * (c / 10 ^ k : ℕ) + (c % 10 ^ k : ℕ) := by
    exact_mod_cast (Nat.div_add_mod c (10 ^ k)).symm
  have hmod : ((c % 10 ^ k : ℕ) : ℚ) < 10 ^ k := by
    exact_mod_cast Nat.mod_lt c (by positivity)
  have hmod0 : (0 : ℚ) ≤ (c % 10 ^ k : ℕ) := Nat.cast_nonneg _
  have hfloor : ⌊(c : ℚ) / 10 ^ k⌋ = ((c / 10 ^ k : ℕ) : ℤ) := by
    rw [Int.floor_eq_iff, le_div_iff₀ hpos, div_lt_iff₀ hpos, Int.cast_natCast]
    constructor <;> nlinarith
  have hrest : (c : ℚ) / 10 ^ k - (c / 10 ^ k : ℕ) = (c % 10 ^ k : ℕ) / 10 ^ k := by
    field_simp
    linarith
  have hlt : ((c % 10 ^ k : ℕ) : ℚ) / 10 ^ k < 1 / 2 ↔ 2 * (c % 10 ^ k) < 10 ^ k := by
    rw [div_lt_div_iff₀ hpos two_pos, one_mul, mul_comm]
    exact_mod_cast Iff.rfl
  have hgt : 1 / 2 < ((c % 10 ^ k : ℕ) : ℚ) / 10 ^ k ↔ 10 ^ k < 2 * (c % 10 ^ k) := by
    rw [div_lt_div_iff₀ two_pos hpos, one_mul, mul_comm]
    exact_mod_cast Iff.rfl
  unfold halfEven roundHalfEven
  simp only [hfloor, Int.cast_natCast, hrest, hlt, hgt]
  split_ifs <;> push_cast <;> rfl

/-! ### Rounding to the unit -/

namespace Context

variable (ctx : Context) {x : ℚ} {j : ℤ}

/-- The place of the last digit that is kept of a number. -/
def unit (x : ℚ) : ℤ := max (Int.log 10 x + 1 - ctx.prec) ctx.etiny

/-- The multiple of the unit that is nearest to the number; the exponents have no upper
bound here. -/
def round (x : ℚ) : ℚ := halfEven (x / 10 ^ ctx.unit x) * 10 ^ ctx.unit x

/-- Half a unit past the largest number of the context. -/
def limit : ℚ := (10 ^ ctx.prec - 1 / 2) * 10 ^ ctx.etop

theorem zpow_ten_pos (e : ℤ) : (0 : ℚ) < 10 ^ e := zpow_pos (by norm_num) _

theorem log_le_unit (x : ℚ) : Int.log 10 x + 1 ≤ ctx.unit x + ctx.prec := by
  have := le_max_left (Int.log 10 x + 1 - ctx.prec) ctx.etiny
  rw [unit]
  omega

@[simp] theorem round_zero : ctx.round 0 = 0 := by
  have h : halfEven 0 = 0 := halfEven_intCast 0
  rw [round, zero_div, h]
  simp

/-- Rounding to a multiple of the unit or less. -/
theorem round_le_mul_iff {n : ℤ} :
    ctx.round x ≤ n * 10 ^ ctx.unit x ↔ halfEven (x / 10 ^ ctx.unit x) ≤ n := by
  rw [round, mul_le_mul_iff_left₀ (zpow_ten_pos _), Int.cast_le]

/-- A multiple of the unit is left alone. -/
theorem round_of_multiple {c : ℕ} {e : ℤ} (hx : x = c * 10 ^ e) (he : ctx.unit x ≤ e) :
    ctx.round x = x := by
  have hunits : x / 10 ^ ctx.unit x = ((c * 10 ^ (e - ctx.unit x).toNat : ℕ) : ℤ) := by
    rw [div_eq_iff (zpow_ten_pos _).ne']
    conv_lhs => rw [hx, zpow_ten_sub he]
    push_cast
    ring
  rw [round, hunits, halfEven_intCast, ← hunits, div_mul_cancel₀ _ (zpow_ten_pos _).ne']

/-- A power of ten from the unit on is a multiple of the unit. -/
theorem round_le_pow (hx : x ≤ 10 ^ j) (hj : ctx.unit x ≤ j) : ctx.round x ≤ 10 ^ j := by
  rw [zpow_ten_sub hj] at hx ⊢
  have hround := (ctx.round_le_mul_iff (x := x) (n := 10 ^ (j - ctx.unit x).toNat)).mpr
    (halfEven_le ?_)
  · push_cast at hround
    exact hround
  · rw [div_le_iff₀ (zpow_ten_pos _)]
    push_cast
    exact hx

theorem pow_le_round (hx : 10 ^ j ≤ x) (hj : ctx.unit x ≤ j) : 10 ^ j ≤ ctx.round x := by
  rw [zpow_ten_sub hj] at hx ⊢
  rw [round, mul_le_mul_iff_left₀ (zpow_ten_pos _)]
  have hround : (10 : ℤ) ^ (j - ctx.unit x).toNat ≤ halfEven (x / 10 ^ ctx.unit x) := by
    apply le_halfEven
    rw [le_div_iff₀ (zpow_ten_pos _)]
    push_cast
    exact hx
  exact_mod_cast hround

theorem zpow_ten_le {e f : ℤ} (h : e ≤ f) : (10 : ℚ) ^ e ≤ 10 ^ f :=
  zpow_le_zpow_right₀ (by norm_num) h

theorem etop_add_prec : ctx.etop + ctx.prec = ctx.emax + 1 := by
  rw [etop]
  omega

/-- The largest number of full precision is next to a power of ten. -/
theorem pow_prec_mul_etop : (10 : ℚ) ^ ctx.prec * 10 ^ ctx.etop = 10 ^ (ctx.emax + 1) := by
  rw [← zpow_natCast, ← zpow_add₀ (by norm_num), add_comm, ctx.etop_add_prec]

theorem limit_lt : ctx.limit < 10 ^ (ctx.emax + 1) := by
  rw [← ctx.pow_prec_mul_etop, limit]
  exact mul_lt_mul_of_pos_right (by linarith) (zpow_ten_pos _)

theorem pow_emax_le_limit : (10 : ℚ) ^ ctx.emax ≤ ctx.limit := by
  have hsplit : (10 : ℚ) ^ ctx.emax * 10 = 10 ^ ctx.prec * 10 ^ ctx.etop := by
    rw [ctx.pow_prec_mul_etop, zpow_add_one₀ (by norm_num)]
  have hone : (1 : ℚ) ≤ 10 ^ ctx.prec := one_le_pow₀ (by norm_num)
  have htop := zpow_ten_pos ctx.etop
  rw [limit]
  nlinarith

theorem pow_ten_even {k : ℕ} (hk : k ≠ 0) : (10 : ℤ) ^ k % 2 = 0 := by
  obtain ⟨m, rfl⟩ := Nat.exists_eq_succ_of_ne_zero hk
  rw [pow_succ]
  omega

/-- In the last place of the context, half a unit past the largest coefficient carries: the
coefficient after it is even. -/
theorem pow_prec_le_halfEven_iff {y : ℚ} :
    (10 : ℤ) ^ ctx.prec ≤ halfEven y ↔ (10 : ℚ) ^ ctx.prec - 1 / 2 ≤ y := by
  have heven := pow_ten_even ctx.prec_pos.ne'
  have hle : halfEven y ≤ 10 ^ ctx.prec - 1 ↔ y < (10 : ℚ) ^ ctx.prec - 1 / 2 := by
    rw [halfEven_le_iff]
    push_cast
    constructor
    · rintro (h | ⟨-, hodd⟩)
      · linarith
      · omega
    · intro h
      exact .inl (by linarith)
  rw [← not_lt (a := y), ← hle]
  omega

theorem unit_eq_etop (h : Int.log 10 x = ctx.emax) : ctx.unit x = ctx.etop := by
  have hprec := ctx.etop_add_prec
  rw [unit, h, max_eq_left]
  · omega
  · have := ctx.etiny_le_etop
    omega

theorem round_lt_of_lt_limit (hx : 0 < x) (hlimit : x < ctx.limit) :
    ctx.round x < 10 ^ (ctx.emax + 1) := by
  have hprec := ctx.etop_add_prec
  have hemax : Int.log 10 x < ctx.emax + 1 := by
    rw [← Int.lt_zpow_iff_log_lt (by norm_num) hx]
    push_cast
    exact hlimit.trans ctx.limit_lt
  rcases (Int.lt_add_one_iff.mp hemax).eq_or_lt with hlog | hlog
  · -- in the last place
    have hunit := ctx.unit_eq_etop hlog
    have hcarry : halfEven (x / 10 ^ ctx.unit x) < 10 ^ ctx.prec := by
      rw [← not_le, pow_prec_le_halfEven_iff, not_le, div_lt_iff₀ (zpow_ten_pos _), hunit]
      exact hlimit
    rw [← ctx.pow_prec_mul_etop, ← hunit, round]
    exact mul_lt_mul_of_pos_right (by exact_mod_cast hcarry) (zpow_ten_pos _)
  · have hbelow := Int.lt_zpow_succ_log_self (b := 10) (by norm_num) x
    have hemax : x ≤ 10 ^ ctx.emax := by
      push_cast at hbelow
      exact hbelow.le.trans (zpow_ten_le (by omega))
    have hunit : ctx.unit x ≤ ctx.emax := by
      have := ctx.etiny_le_etop
      have := ctx.prec_pos
      rw [unit]
      omega
    exact (ctx.round_le_pow hemax hunit).trans_lt
      (zpow_lt_zpow_right₀ (by norm_num) (by omega))

theorem pow_le_round_of_limit_le (hx : 0 < x) (hlimit : ctx.limit ≤ x) :
    10 ^ (ctx.emax + 1) ≤ ctx.round x := by
  have hemax : ctx.emax ≤ Int.log 10 x := by
    rw [← Int.zpow_le_iff_le_log (by norm_num) hx]
    push_cast
    exact ctx.pow_emax_le_limit.trans hlimit
  rcases hemax.eq_or_lt with hlog | hlog
  · -- in the last place
    have hunit := ctx.unit_eq_etop hlog.symm
    have hcarry : (10 : ℤ) ^ ctx.prec ≤ halfEven (x / 10 ^ ctx.unit x) := by
      rw [pow_prec_le_halfEven_iff, le_div_iff₀ (zpow_ten_pos _), hunit]
      exact hlimit
    rw [← ctx.pow_prec_mul_etop, ← hunit, round, mul_le_mul_iff_left₀ (zpow_ten_pos _)]
    exact_mod_cast hcarry
  · have hself := Int.zpow_log_le_self (b := 10) (by norm_num) hx
    push_cast at hself
    refine (zpow_ten_le hlog).trans (ctx.pow_le_round hself ?_)
    have hprec := ctx.etop_add_prec
    have := ctx.etiny_le_etop
    have := ctx.prec_pos
    rw [unit]
    omega

/-- A number is rounded past the context when it is at least the limit. -/
theorem round_lt_iff (hx : 0 < x) : ctx.round x < 10 ^ (ctx.emax + 1) ↔ x < ctx.limit := by
  constructor
  · intro hround
    by_contra hlimit
    exact not_le.mpr hround (ctx.pow_le_round_of_limit_le hx (not_lt.mp hlimit))
  · exact ctx.round_lt_of_lt_limit hx

/-- Half a unit past a power of ten is still rounded down to it. -/
theorem round_le_pow_iff (hprec : 2 ≤ ctx.prec) (hj : ctx.etiny ≤ j + 1 - ctx.prec) (hx : 0 ≤ x) :
    ctx.round x ≤ 10 ^ j ↔ x ≤ 10 ^ j + 10 ^ (j + 1 - ctx.prec) / 2 := by
  have hhalf := zpow_ten_pos (j + 1 - ctx.prec)
  rcases hx.eq_or_lt with rfl | hx
  · have := zpow_ten_pos j
    rw [ctx.round_zero]
    exact iff_of_true this.le (by positivity)
  have hlog := Int.zpow_log_le_self (b := 10) (by norm_num) hx
  have hlog' := Int.lt_zpow_succ_log_self (b := 10) (by norm_num) x
  push_cast at hlog hlog'
  rcases lt_trichotomy (Int.log 10 x) j with hlt | heq | hgt
  · -- below the power
    have hle : x ≤ 10 ^ j := hlog'.le.trans (zpow_ten_le hlt)
    refine iff_of_true (ctx.round_le_pow hle ?_) (by linarith)
    rw [unit]
    omega
  · have hunit : ctx.unit x = j + 1 - ctx.prec := by
      rw [unit, heq, max_eq_left hj]
    have hpow : (10 : ℚ) ^ j = ((10 ^ (ctx.prec - 1) : ℤ) : ℚ) * 10 ^ (j + 1 - ctx.prec) := by
      push_cast
      rw [← zpow_natCast, ← zpow_add₀ (by norm_num)]
      congr 1
      omega
    have heven : (10 : ℤ) ^ (ctx.prec - 1) % 2 = 0 := pow_ten_even (by omega)
    have hiff : ∀ n : ℤ, x / 10 ^ (j + 1 - ctx.prec) < n + 1 / 2 ∨
        x / 10 ^ (j + 1 - ctx.prec) = n + 1 / 2 ↔
          x ≤ n * 10 ^ (j + 1 - ctx.prec) + 10 ^ (j + 1 - ctx.prec) / 2 := by
      intro n
      rw [← le_iff_lt_or_eq, div_le_iff₀ hhalf]
      constructor <;> intro h <;> linarith
    rw [hpow, ← hunit, ctx.round_le_mul_iff, hunit, halfEven_le_iff, and_iff_left heven, hiff]
  · -- from the next power on
    have hnext : (10 : ℚ) ^ (j + 1) ≤ x := (zpow_ten_le hgt).trans hlog
    have hten : (10 : ℚ) ^ (j + 1) = 10 ^ j * 10 := zpow_add_one₀ (by norm_num) j
    have hround : (10 : ℚ) ^ (j + 1) ≤ ctx.round x := by
      refine (zpow_ten_le hgt).trans (ctx.pow_le_round hlog ?_)
      rw [unit]
      omega
    have hsmall : (10 : ℚ) ^ (j + 1 - ctx.prec) ≤ 10 ^ j := zpow_ten_le (by omega)
    have := zpow_ten_pos j
    refine iff_of_false ?_ ?_ <;> intro h <;> linarith

theorem limit_pos : 0 < ctx.limit := (zpow_ten_pos _).trans_le ctx.pow_emax_le_limit

end Context

/-! ### Rounding a decimal -/

variable {ctx : Context}

/-- The place of the first digit of a number. -/
theorem log_abs_value {d : Dec} (h : d.coeff ≠ 0) :
    Int.log 10 |d.value| + 1 = numDigits d.coeff + d.exp := by
  have hpos : 0 < |d.value| := abs_pos.mpr (mt value_eq_zero_iff.mp h)
  have hle : (10 : ℚ) ^ Nat.log 10 d.coeff ≤ d.coeff := by
    exact_mod_cast Nat.pow_log_le_self 10 h
  have hlt : (d.coeff : ℚ) < 10 ^ (Nat.log 10 d.coeff + 1) := by
    exact_mod_cast Nat.lt_pow_succ_log_self (by norm_num) d.coeff
  have h10 := Context.zpow_ten_pos d.exp
  have hlow : (Nat.log 10 d.coeff : ℤ) + d.exp ≤ Int.log 10 |d.value| := by
    rw [← Int.zpow_le_iff_le_log (by norm_num) hpos, abs_value]
    push_cast
    rw [zpow_add₀ (by norm_num), zpow_natCast]
    exact mul_le_mul_of_nonneg_right hle h10.le
  have hup : Int.log 10 |d.value| < (Nat.log 10 d.coeff + 1 : ℕ) + d.exp := by
    rw [← Int.lt_zpow_iff_log_lt (by norm_num) hpos, abs_value]
    push_cast
    rw [zpow_add₀ (by norm_num), ← Nat.cast_add_one, zpow_natCast]
    exact mul_lt_mul_of_pos_right hlt h10
  rw [numDigits]
  push_cast at hup ⊢
  omega

/-- The number of units in a number. -/
theorem abs_value_div_pow {d : Dec} {e : ℤ} (h : d.exp ≤ e) :
    |d.value| / 10 ^ e = (d.coeff : ℚ) / 10 ^ (e - d.exp).toNat := by
  have h10 := Context.zpow_ten_pos d.exp
  rw [abs_value, zpow_ten_sub h]
  field_simp

/-- The outcome of rounding, by the rounded value. -/
theorem outcome_eq {v : ℚ} (hv : 0 < v) :
    (if v < ctx.limit then .ok (ctx.round v) else .error .overflow : Except Signal ℚ) =
      if ctx.round v < 10 ^ (ctx.emax + 1) then .ok (ctx.round v) else .error .overflow := by
  simp only [ctx.round_lt_iff hv]

/-- A rounded coefficient that carries moves up by a place, and overflows past the last one. -/
theorem map_carry {neg : Bool} {q : ℕ} {u : ℤ} (hq : q ≤ 10 ^ ctx.prec) (hu : u ≤ ctx.etop) :
    (if 10 ^ ctx.prec ≤ q then
      if ctx.etop < u + 1 then .error .overflow else .ok ⟨neg, q / 10, u + 1⟩
    else .ok ⟨neg, q, u⟩ : Except Signal Dec).map (fun r => |r.value|) =
      if (q : ℚ) * 10 ^ u < 10 ^ (ctx.emax + 1) then .ok (q * 10 ^ u) else .error .overflow := by
  have hprec := ctx.etop_add_prec
  by_cases hcarry : 10 ^ ctx.prec ≤ q
  · obtain rfl : q = 10 ^ ctx.prec := le_antisymm hq hcarry
    have hpow : ((10 ^ ctx.prec : ℕ) : ℚ) * 10 ^ u = 10 ^ (u + ctx.prec) := by
      rw [zpow_add₀ (by norm_num), zpow_natCast]
      push_cast
      ring
    rw [if_pos hcarry, hpow]
    by_cases hover : ctx.etop < u + 1
    · rw [if_pos hover, if_neg (not_lt.mpr (Context.zpow_ten_le (by omega)))]
      rfl
    · have htenth : 10 ^ ctx.prec / 10 = 10 ^ (ctx.prec - 1) :=
        Nat.pow_div ctx.prec_pos (by norm_num)
      rw [if_neg hover, if_pos (zpow_lt_zpow_right₀ (by norm_num) (by omega)), Except.map,
        abs_value, htenth]
      push_cast
      rw [← zpow_natCast, ← zpow_add₀ (by norm_num)]
      congr 2
      have := ctx.prec_pos
      omega
  · have hlt : (q : ℚ) < 10 ^ ctx.prec := by exact_mod_cast not_le.mp hcarry
    have hbelow : (q : ℚ) * 10 ^ u < 10 ^ (ctx.emax + 1) := by
      rw [← ctx.pow_prec_mul_etop]
      exact mul_lt_mul hlt (Context.zpow_ten_le hu) (Context.zpow_ten_pos _) (by positivity)
    rw [if_neg hcarry, if_pos hbelow, Except.map, abs_value]

/-- **Rounding a decimal, by its value**: the sign is kept, and the rest is rounded to the
unit or overflows. -/
theorem fix_eq (ctx : Context) (d : Dec) :
    (fix ctx d).map (fun r => |r.value|) =
      if |d.value| < ctx.limit then .ok (ctx.round |d.value|) else .error .overflow := by
  by_cases h0 : d.coeff = 0
  · have hvalue : |d.value| = 0 := by rw [value_eq_zero_iff.mpr h0, abs_zero]
    have hfix : value ⟨d.neg, d.coeff, min (max d.exp ctx.etiny) ctx.emax⟩ = 0 :=
      value_eq_zero_iff.mpr h0
    rw [fix, if_pos h0, hvalue, if_pos ctx.limit_pos, ctx.round_zero, Except.map, hfix, abs_zero]
  have hpos : 0 < |d.value| := abs_pos.mpr (mt value_eq_zero_iff.mp h0)
  have hlog := log_abs_value h0
  have hprec := ctx.etop_add_prec
  have hunit : max (numDigits d.coeff + d.exp - ctx.prec) ctx.etiny = ctx.unit |d.value| := by
    rw [Context.unit, ← hlog]
  rw [fix, if_neg h0]
  dsimp only
  split
  · next htop =>
    -- the first digit is past the range
    have hself := Int.zpow_log_le_self (b := 10) (by norm_num) hpos
    push_cast at hself
    rw [if_neg]
    · rfl
    · rw [not_lt]
      exact ctx.limit_lt.le.trans ((Context.zpow_ten_le (by omega)).trans hself)
  next htop =>
  have hle : ctx.unit |d.value| ≤ ctx.etop := by
    rw [← hunit]
    exact max_le (not_lt.mp htop) ctx.etiny_le_etop
  have hdigits := ctx.log_le_unit |d.value|
  rw [outcome_eq hpos, hunit]
  split
  · next hexp =>
    -- digits are dropped
    have hround : ctx.round |d.value| =
        (roundHalfEven d.coeff (ctx.unit |d.value| - d.exp).toNat : ℕ) *
          10 ^ ctx.unit |d.value| := by
      rw [Context.round, abs_value_div_pow hexp.le, halfEven_div_pow, Int.cast_natCast]
    have hq : roundHalfEven d.coeff (ctx.unit |d.value| - d.exp).toNat ≤ 10 ^ ctx.prec := by
      refine roundHalfEven_le ((numDigits_le_iff h0).mp ?_)
      omega
    rw [hround]
    exact map_carry hq hle
  · next hexp =>
    -- the number is a multiple of its unit
    have hround : ctx.round |d.value| = |d.value| :=
      ctx.round_of_multiple (abs_value d) (not_lt.mp hexp)
    have hbelow := Int.lt_zpow_succ_log_self (b := 10) (by norm_num) |d.value|
    push_cast at hbelow
    rw [hround, if_pos (hbelow.trans_le (Context.zpow_ten_le (by omega)))]
    rfl

/-- A decimal can be rounded when it is below the limit. -/
theorem fix_succeeds_iff {d : Dec} : (fix ctx d).Succeeds ↔ |d.value| < ctx.limit := by
  have h := fix_eq ctx d
  cases hfix : fix ctx d with
  | ok r =>
    rw [hfix] at h
    by_cases hlt : |d.value| < ctx.limit
    · simp [hlt]
    · rw [if_neg hlt] at h
      cases h
  | error e =>
    rw [hfix] at h
    by_cases hlt : |d.value| < ctx.limit
    · rw [if_pos hlt] at h
      cases h
    · simp [hlt]

theorem abs_value_of_fix {d r : Dec} (h : fix ctx d = .ok r) :
    |r.value| = ctx.round |d.value| := by
  have hlt := fix_succeeds_iff.mp ⟨r, h⟩
  have hmap := fix_eq ctx d
  rw [h, if_pos hlt] at hmap
  exact Except.ok.inj hmap

theorem neg_of_fix {d r : Dec} (h : fix ctx d = .ok r) : r.neg = d.neg := by
  unfold fix at h
  dsimp only at h
  split_ifs at h <;> cases h <;> rfl

/-- Rounding keeps the sign. -/
theorem value_of_fix {d r : Dec} (h : fix ctx d = .ok r) (hd : 0 ≤ d.value) :
    r.value = ctx.round d.value := by
  have habs := abs_value_of_fix h
  rw [abs_of_nonneg hd] at habs
  rw [← habs]
  cases hneg : d.neg with
  | false =>
    refine (abs_of_nonneg ?_).symm
    rw [value_eq, neg_of_fix h, hneg]
    simp only [Bool.false_eq_true, if_false, one_mul]
    positivity
  | true =>
    -- the only number with a minus sign that is not negative is zero
    have hzero : d.value = 0 := by
      refine le_antisymm ?_ hd
      rw [value_eq, hneg, if_pos rfl, neg_one_mul, neg_nonpos]
      positivity
    rw [hzero, ctx.round_zero, abs_eq_zero] at habs
    rw [habs, abs_zero]

theorem round_nonneg {x : ℚ} (hx : 0 ≤ x) : 0 ≤ ctx.round x := by
  have h : (0 : ℤ) ≤ halfEven (x / 10 ^ ctx.unit x) := by
    apply le_halfEven
    rw [Int.cast_zero]
    exact div_nonneg hx (Context.zpow_ten_pos _).le
  exact mul_nonneg (by exact_mod_cast h) (Context.zpow_ten_pos _).le

/-! ### Products, differences and absolute values -/

/-- The exact product. -/
def exactMul (a b : Dec) : Dec := ⟨a.neg != b.neg, a.coeff * b.coeff, a.exp + b.exp⟩

@[simp] theorem value_exactMul (a b : Dec) : (exactMul a b).value = a.value * b.value := by
  rw [value_eq, value_eq a, value_eq b, exactMul, zpow_add₀ (by norm_num)]
  cases a.neg <;> cases b.neg <;> push_cast <;> simp <;> ring

/-- The product rounded into the context. -/
def mul (ctx : Context) (a b : Dec) : Except Signal Dec := fix ctx (exactMul a b)

/-- `-d`, exactly. -/
def negate (d : Dec) : Dec := { d with neg := !d.neg }

@[simp] theorem value_negate (d : Dec) : d.negate.value = -d.value := by
  rw [value_eq, value_eq d, negate]
  cases d.neg <;> simp

/-- The difference rounded into the context. -/
def sub (ctx : Context) (a b : Dec) : Except Signal Dec := fix ctx (exactAdd a b.negate)

/-- The absolute value rounded into the context. -/
def abs (ctx : Context) (d : Dec) : Except Signal Dec := fix ctx { d with neg := false }

theorem value_abs (d : Dec) : value { d with neg := false } = |d.value| := by
  rw [abs_value, value_eq]
  simp

/-- A rounded number keeps its absolute value. -/
theorem abs_of_fix {d r : Dec} (h : fix ctx d = .ok r) :
    ∃ a, abs ctx r = .ok a ∧ a.value = ctx.round |d.value| := by
  have hfits : Fits ctx (value { r with neg := false }) := by
    obtain ⟨c, e, hc, hlo, hhi, hv⟩ := fix_fits h
    exact ⟨c, e, hc, hlo, hhi, by rw [value_abs, abs_abs, hv]⟩
  obtain ⟨a, ha, hvalue⟩ := fix_exact hfits
  exact ⟨a, ha, by rw [hvalue, value_abs, abs_value_of_fix h]⟩

/-- The numbers of a context are left alone. -/
theorem Fits.round_eq {v : ℚ} (h : Fits ctx v) (hv : 0 ≤ v) : ctx.round v = v := by
  obtain ⟨c, e, -, -, -, habs⟩ := id h
  have hvalue : value ⟨false, c, e⟩ = v := by
    rw [← abs_of_nonneg hv, habs, value_eq]
    simp
  rw [← hvalue] at h hv ⊢
  obtain ⟨r, hr, hexact⟩ := fix_exact h
  rw [← value_of_fix hr hv, hexact]

/-- The numbers of a context are below its limit. -/
theorem Fits.lt_limit {v : ℚ} (h : Fits ctx v) : |v| < ctx.limit := by
  obtain ⟨c, e, hc, -, he, hv⟩ := h
  have hc' : (c : ℚ) ≤ 10 ^ ctx.prec - 1 := by
    have : ((c + 1 : ℕ) : ℚ) ≤ 10 ^ ctx.prec := by exact_mod_cast hc
    push_cast at this
    linarith
  have htop := Context.zpow_ten_pos ctx.etop
  have hle : (c : ℚ) * 10 ^ e ≤ (10 ^ ctx.prec - 1) * 10 ^ ctx.etop :=
    mul_le_mul hc' (Context.zpow_ten_le he) (Context.zpow_ten_pos _).le
      (le_trans (Nat.cast_nonneg c) hc')
  rw [hv, Context.limit]
  nlinarith

/-- So is the distance of two of them that are not negative. -/
theorem abs_sub_lt_limit {v w : ℚ} (hv : Fits ctx v) (hw : Fits ctx w) (hv0 : 0 ≤ v)
    (hw0 : 0 ≤ w) : |v - w| < ctx.limit := by
  have hvlt := hv.lt_limit
  have hwlt := hw.lt_limit
  rw [abs_of_nonneg hv0] at hvlt
  rw [abs_of_nonneg hw0] at hwlt
  rw [abs_lt]
  constructor <;> linarith

/-! ### Running sums -/

/-- The running sum of a list, rounded at each step, by the values. -/
def Context.runningSum (ctx : Context) (s : ℚ) (l : List Dec) : ℚ :=
  l.foldl (fun s d => ctx.round (s + d.value)) s

@[simp] theorem runningSum_cons (ctx : Context) (s : ℚ) (d : Dec) (l : List Dec) :
    ctx.runningSum s (d :: l) = ctx.runningSum (ctx.round (s + d.value)) l := rfl

section

variable {acc : Dec} {l : List Dec} (hacc : 0 ≤ acc.value) (hl : ∀ d ∈ l, 0 ≤ d.value)

include hacc hl

theorem value_of_sumFrom {r : Dec} (h : sumFrom ctx acc l = .ok r) :
    r.value = ctx.runningSum acc.value l := by
  induction l generalizing acc with
  | nil =>
    cases h
    rfl
  | cons d l ih =>
    obtain ⟨hd, hl⟩ := List.forall_mem_cons.mp hl
    obtain ⟨s, hs, h⟩ := Except.bind_eq_ok.mp h
    have hsum : 0 ≤ (exactAdd acc d).value := by
      rw [value_exactAdd]
      exact add_nonneg hacc hd
    have hvalue := value_of_fix hs hsum
    rw [value_exactAdd] at hsum hvalue
    rw [runningSum_cons, ← hvalue]
    exact ih (hvalue ▸ round_nonneg hsum) hl h

/-- A running sum goes through when no step of it reaches the limit. -/
theorem sumFrom_succeeds_iff :
    (sumFrom ctx acc l).Succeeds ↔
      ∀ p d, p ++ [d] <+: l → ctx.runningSum acc.value p + d.value < ctx.limit := by
  induction l generalizing acc with
  | nil =>
    refine iff_of_true ⟨acc, rfl⟩ ?_
    intro p d hp
    simp at hp
  | cons d l ih =>
    obtain ⟨hd, hl⟩ := List.forall_mem_cons.mp hl
    have hsum : 0 ≤ acc.value + d.value := add_nonneg hacc hd
    have hstep : (add ctx acc d).Succeeds ↔ acc.value + d.value < ctx.limit := by
      rw [add, fix_succeeds_iff, value_exactAdd, abs_of_nonneg hsum]
    rw [sumFrom, Except.succeeds_bind]
    constructor
    · rintro ⟨s, hs, h⟩
      have hvalue := value_of_fix hs (by rwa [value_exactAdd])
      rw [value_exactAdd] at hvalue
      have hrest := (ih (hvalue ▸ round_nonneg hsum) hl).mp h
      rw [hvalue] at hrest
      intro p x hp
      cases p with
      | nil =>
        obtain ⟨rfl, -⟩ := List.cons_prefix_cons.mp hp
        exact hstep.mp ⟨s, hs⟩
      | cons y p =>
        obtain ⟨rfl, hprefix⟩ := List.cons_prefix_cons.mp hp
        exact hrest p x hprefix
    · intro h
      obtain ⟨s, hs⟩ := hstep.mpr (h [] d (List.cons_prefix_cons.mpr ⟨rfl, List.nil_prefix⟩))
      have hvalue := value_of_fix hs (by rwa [value_exactAdd])
      rw [value_exactAdd] at hvalue
      refine ⟨s, hs, (ih (hvalue ▸ round_nonneg hsum) hl).mpr ?_⟩
      intro p x hp
      rw [hvalue]
      exact h (d :: p) x (List.cons_prefix_cons.mpr ⟨rfl, hp⟩)

end

end Dec
