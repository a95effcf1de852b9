import FinestVX.Lib.Decimal
import FinestVX.Lib.Text

/-!
# Decimal numbers as text

Decimals with their infinities and NaNs, positional notation
(`format(d, "f")`), and the reading of numeric strings (`Decimal(text)`).  The
exponents of the finite decimals have limits, and a text of a number past them is
not read.

Positional notation keeps the value, and keeps the exponent when it is not
positive; a positive exponent becomes trailing zeros.  `Dec.canon` is the
number that is read back.

## Main definitions

* `Dec.Held` — the finite numbers that decimals can hold.
* `Decimal` — finite decimals, infinities and NaN.
* `Dec.formatF`, `Decimal.repr` — positional notation, and `repr`.
* `Dec.canon` — the representation positional notation preserves.
* `Decimal.ofDec`, `Decimal.toDec?` — from finite numbers, and back.
* `Decimal.ofText?` — reading a numeric string.

## Main results

* `Decimal.ofText?_formatF` — what is written is read back.
* `Dec.value_canon`, `Dec.canon_canon` — the value is kept, and a number that
  was read back once does not change again.
-/

open Text

namespace Dec

/-- `MAX_EMAX`, the largest exponent of a first digit. -/
def maxEmax : ℤ := 999999999999999999

/-- `MIN_ETINY`, the least exponent of a last digit. -/
def minEtiny : ℤ := -1999999999999999997

/-- The number is within the limits of every context. -/
def Held (d : Dec) : Prop := minEtiny ≤ d.exp ∧ d.exp + numDigits d.coeff ≤ maxEmax + 1

instance (d : Dec) : Decidable d.Held := inferInstanceAs (Decidable (_ ∧ _))

end Dec

/-- A decimal number or a special value. -/
inductive Decimal
  | finite (d : Dec) (held : d.Held)
  | infinity (neg : Bool)
  | nan
  deriving DecidableEq, Repr

namespace Dec

/-- The number of digits after the point. -/
def places (d : Dec) : ℕ := (-d.exp).toNat

/-- The number with the zeros of a positive exponent written out. -/
def canon (d : Dec) : Dec := ⟨d.neg, d.coeff * 10 ^ d.exp.toNat, min d.exp 0⟩

/-- The characters of `format(d, "f")`. -/
def formatFChars (d : Dec) : List Char :=
  (if d.neg then ['-'] else []) ++
    Nat.toDigits 10 (d.canon.coeff / 10 ^ d.places) ++
    (if d.places = 0 then [] else '.' :: fixed d.places d.canon.coeff)

/-- Positional notation: `format(d, "f")`. -/
def formatF (d : Dec) : String := String.ofList d.formatFChars

/-- Scientific notation: `str(d)`.  The exponent is left out when it is not positive and at
most six places are between the point and the first digit. -/
def toSci (d : Dec) : String :=
  let digits := Nat.toDigits 10 d.coeff
  let left := d.exp + digits.length
  let point := if d.exp ≤ 0 ∧ -6 < left then left else 1
  let number :=
    if point ≤ 0 then '0' :: '.' :: (List.replicate (-point).toNat '0' ++ digits)
    else if digits.length ≤ point then
      digits ++ List.replicate (point - digits.length).toNat '0'
    else digits.take point.toNat ++ '.' :: digits.drop point.toNat
  let exponent :=
    if left = point then "" else (if left < point then "E" else "E+") ++ toString (left - point)
  (if d.neg then "-" else "") ++ String.ofList number ++ exponent

@[simp] theorem neg_canon (d : Dec) : d.canon.neg = d.neg := rfl

@[simp] theorem places_canon (d : Dec) : d.canon.places = d.places := by
  simp only [places, canon]
  omega

theorem exp_canon (d : Dec) : d.canon.exp = -(d.places : ℤ) := by
  simp only [places, canon]
  omega

@[simp] theorem canon_canon (d : Dec) : d.canon.canon = d.canon := by
  have h : (min d.exp 0).toNat = 0 := by omega
  simp [canon, h]

/-- Writing zeros out does not move the first digit. -/
theorem Held.canon {d : Dec} (h : d.Held) : d.canon.Held := by
  obtain ⟨hlo, hhi⟩ := h
  refine ⟨?_, ?_⟩
  · simp only [Dec.canon, minEtiny] at hlo ⊢
    omega
  · by_cases hzero : d.coeff = 0
    · have hdigits : numDigits (d.coeff * 10 ^ d.exp.toNat) = 1 := by
        rw [hzero, Nat.zero_mul]
        rfl
      simp only [Dec.canon, hdigits, maxEmax]
      omega
    · simp only [Dec.canon, numDigits_mul_pow hzero]
      have := numDigits_pos d.coeff
      omega

@[simp] theorem value_canon (d : Dec) : d.canon.value = d.value := by
  rw [canon, value_shift]
  have h : min d.exp 0 + d.exp.toNat = d.exp := by omega
  rw [h]

/-- Positional notation does not tell a number from its canonical form. -/
@[simp] theorem formatF_canon (d : Dec) : d.canon.formatF = d.formatF := by
  rw [formatF, formatF, formatFChars, formatFChars, canon_canon, places_canon, neg_canon]

/-- The integral digits, which are never missing. -/
theorem exists_digits_eq_cons (n : ℕ) :
    ∃ a r, Nat.toDigits 10 n = a :: r ∧ a.isDigit = true := by
  cases h : Nat.toDigits 10 n with
  | nil => exact absurd h Nat.toDigits_ne_nil
  | cons a r =>
    refine ⟨a, r, rfl, ?_⟩
    exact Nat.isDigit_of_mem_toDigits (b := 10) (n := n) (by norm_num) le_rfl (by simp [h])

/-- The digits on the two sides of the point are those of the coefficient. -/
theorem ofDigitChars_split (c k : ℕ) :
    Nat.ofDigitChars 10 (Nat.toDigits 10 (c / 10 ^ k) ++ fixed k c) 0 = c := by
  have hfixed : ∀ w acc, Nat.ofDigitChars 10 (fixed w c) acc = acc * 10 ^ w + c % 10 ^ w := by
    intro w
    induction w with
    | zero => intro acc; simp [fixed, Nat.mod_one]
    | succ w ih =>
      intro acc
      rw [fixed, Nat.ofDigitChars_cons_digitChar_of_lt_ten (Nat.mod_lt _ (by norm_num)), ih,
        pow_succ, Nat.mod_mul]
      ring
  rw [Nat.ofDigitChars_append, Nat.ofDigitChars_ten_toDigits, hfixed]
  exact Nat.div_add_mod' c (10 ^ k)

/-- A number is not written as the empty text. -/
theorem formatF_ne_empty (d : Dec) : d.formatF ≠ "" := by
  obtain ⟨a, l, hdigits, -⟩ := exists_digits_eq_cons (d.canon.coeff / 10 ^ d.places)
  intro h
  have hlist := congrArg String.toList h
  rw [formatF, String.toList_ofList, formatFChars, hdigits] at hlist
  simp at hlist

end Dec

namespace Decimal

/-- A number as a decimal.  No decimal holds a number past the limits. -/
def ofDec (d : Dec) : Decimal := if h : d.Held then finite d h else nan

/-- The number of a finite decimal. -/
def toDec? : Decimal → Option Dec
  | finite d _ => some d
  | _ => none

/-- A decimal as it is read back. -/
def canon : Decimal → Decimal
  | finite d held => finite d.canon held.canon
  | v => v

@[simp] theorem toDec?_finite (d : Dec) (held : d.Held) : (finite d held).toDec? = some d := rfl

@[simp] theorem toDec?_infinity (neg : Bool) : (infinity neg).toDec? = none := rfl

@[simp] theorem toDec?_nan : nan.toDec? = none := rfl

theorem toDec?_eq_some {v : Decimal} {d : Dec} :
    v.toDec? = some d ↔ ∃ held, v = finite d held := by
  cases v with
  | finite d' held =>
    constructor
    · intro h
      cases h
      exact ⟨held, rfl⟩
    · rintro ⟨held', h⟩
      cases h
      rfl
  | infinity neg => simp
  | nan => simp

theorem ofDec_of_held {d : Dec} (h : d.Held) : ofDec d = finite d h := dif_pos h

@[simp] theorem toDec?_canon (v : Decimal) : v.canon.toDec? = v.toDec?.map Dec.canon := by
  cases v <;> rfl

@[simp] theorem canon_canon (v : Decimal) : v.canon.canon = v.canon := by
  cases v <;> simp [canon]

/-! ### Reading -/

/-- The sign in front of a number. -/
def readSign : List Char → Bool × List Char
  | '-' :: s => (true, s)
  | '+' :: s => (false, s)
  | s => (false, s)

theorem readSign_of_isDigit {a : Char} {s : List Char} (h : a.isDigit = true) :
    readSign (a :: s) = (false, a :: s) := by
  unfold readSign
  split
  · next heq => cases heq; exact absurd h (by decide)
  · next heq => cases heq; exact absurd h (by decide)
  · rfl

/-- A nonempty text of digits. -/
def natural? (s : List Char) : Option ℕ :=
  if s ≠ [] ∧ s.all Char.isDigit then some (Nat.ofDigitChars 10 s 0) else none

/-- The exponent after the digits; a number without one has exponent zero. -/
def exponent? : List Char → Option ℤ
  | [] => some 0
  | c :: s =>
    if c.toLower = 'e' then
      (natural? (readSign s).2).map fun n => if (readSign s).1 then -(n : ℤ) else n
    else none

/-- The digits after the point, and what follows them. -/
def readFraction : List Char → List Char × List Char
  | '.' :: s => s.span Char.isDigit
  | s => ([], s)

/-- A number without sign: digits with an optional point and exponent. -/
def number? (neg : Bool) (s : List Char) : Option Dec :=
  let int := s.takeWhile Char.isDigit
  let fraction := readFraction (s.dropWhile Char.isDigit)
  if int ++ fraction.1 = [] then none
  else (exponent? fraction.2).map fun e =>
    ⟨neg, Nat.ofDigitChars 10 (int ++ fraction.1) 0, e - fraction.1.length⟩

/-- `repr(d)` -/
def repr (d : Decimal) : String :=
  "Decimal('" ++ (match d with
    | .finite d _ => d.toSci
    | .infinity neg => if neg then "-Infinity" else "Infinity"
    | .nan => "NaN") ++ "')"

/-- The names of the special values. -/
def special? (neg : Bool) (s : List Char) : Option Decimal :=
  let lower := s.map Char.toLower
  if lower = "inf".toList ∨ lower = "infinity".toList then some (.infinity neg)
  else if ∃ name ∈ ["nan".toList, "snan".toList],
      name <+: lower ∧ (lower.drop name.length).all Char.isDigit then some .nan
  else none

/-- `Decimal(text)`: white space around the number and underscores in it are ignored, and
the digits may be of any script.  A number past the limits is not read. -/
def ofText? (s : String) : Option Decimal :=
  let (neg, s) := readSign (((strip s).toList.filter (· ≠ '_')).map asciiDigit)
  match number? neg s with
  | some d => if held : d.Held then some (.finite d held) else none
  | none => special? neg s

/-! ### Reading positional notation -/

/-- A text of digits, an optional point and more digits is read as a number. -/
theorem number?_digits (neg : Bool) {int frac : List Char} (hint : int ≠ [])
    (hi : ∀ c ∈ int, c.isDigit = true) (hf : ∀ c ∈ frac, c.isDigit = true) :
    number? neg (int ++ if frac = [] then [] else '.' :: frac) =
      some ⟨neg, Nat.ofDigitChars 10 (int ++ frac) 0, -(frac.length : ℤ)⟩ := by
  set rest := if frac = [] then [] else '.' :: frac with hrest
  have hhead : rest.takeWhile Char.isDigit = [] := by
    rw [hrest]
    split
    · rfl
    · rw [List.takeWhile_cons_of_neg (by decide)]
  have hdrop : rest.dropWhile Char.isDigit = rest := by
    rw [hrest]
    split
    · rfl
    · rw [List.dropWhile_cons_of_neg (by decide)]
  have htake : (int ++ rest).takeWhile Char.isDigit = int := by
    rw [List.takeWhile_append_of_pos hi, hhead, List.append_nil]
  have hdw : (int ++ rest).dropWhile Char.isDigit = rest := by
    rw [List.dropWhile_append_of_pos hi, hdrop]
  have hfrac : readFraction rest = (frac, []) := by
    rw [hrest]
    split
    · next h => rw [h]; rfl
    · simp only [readFraction, List.span_eq_takeWhile_dropWhile]
      rw [List.takeWhile_eq_self_iff.mpr hf, List.dropWhile_eq_nil_iff.mpr hf]
  simp [number?, htake, hdw, hfrac, hint, exponent?]

theorem mem_formatFChars {d : Dec} {c : Char} (h : c ∈ d.formatFChars) :
    c.isDigit = true ∨ c = '-' ∨ c = '.' := by
  simp only [Dec.formatFChars, List.mem_append] at h
  rcases h with (h | h) | h
  · split at h <;> simp_all
  · exact .inl (Nat.isDigit_of_mem_toDigits (by norm_num) le_rfl h)
  · split at h
    · simp at h
    · rcases List.mem_cons.mp h with rfl | h
      · simp
      · exact .inl (isDigit_of_mem_fixed h)

theorem strip_formatF (d : Dec) : strip d.formatF = d.formatF := by
  apply strip_eq_self
  intro c hc
  rw [Dec.formatF, String.toList_ofList] at hc
  rcases mem_formatFChars hc with h | rfl | rfl
  · exact isSpace_of_isDigit h
  · rfl
  · rfl

theorem filter_formatFChars (d : Dec) : d.formatFChars.filter (· ≠ '_') = d.formatFChars := by
  apply List.filter_eq_self.mpr
  intro c hc
  rcases mem_formatFChars hc with h | rfl | rfl
  · rw [decide_eq_true_eq]
    rintro rfl
    exact absurd h (by decide)
  · rfl
  · rfl

theorem map_asciiDigit_formatFChars (d : Dec) :
    d.formatFChars.map asciiDigit = d.formatFChars := by
  apply map_asciiDigit_of_lt
  intro c hc
  rcases mem_formatFChars hc with h | rfl | rfl
  · have := toNat_of_isDigit h
    omega
  · decide
  · decide

/-- Positional notation is a sign, a whole part, and a fraction unless it has no digits. -/
theorem formatFChars_eq (d : Dec) :
    d.formatFChars = (if d.neg then ['-'] else []) ++
      (Nat.toDigits 10 (d.canon.coeff / 10 ^ d.places) ++
        if fixed d.places d.canon.coeff = [] then [] else '.' :: fixed d.places d.canon.coeff) := by
  rw [Dec.formatFChars, List.append_assoc]
  congr 2
  by_cases hk : d.places = 0
  · simp [hk, fixed]
  · have hne : fixed d.places d.canon.coeff ≠ [] := by
      rw [ne_eq, ← List.length_eq_zero_iff, length_fixed]
      exact hk
    rw [if_neg hk, if_neg hne]

/-- **What positional notation writes is read back**, up to trailing zeros. -/
theorem ofText?_formatF {d : Dec} (h : d.Held) :
    ofText? d.formatF = some (.finite d.canon h.canon) := by
  obtain ⟨a, r, hint, ha⟩ := Dec.exists_digits_eq_cons (d.canon.coeff / 10 ^ d.places)
  set body := Nat.toDigits 10 (d.canon.coeff / 10 ^ d.places) ++
    (if fixed d.places d.canon.coeff = [] then [] else '.' :: fixed d.places d.canon.coeff)
    with hbody
  have hsign : readSign d.formatFChars = (d.neg, body) := by
    rw [formatFChars_eq, ← hbody]
    cases d.neg with
    | true => rfl
    | false =>
      rw [if_neg (by simp), List.nil_append, hbody, hint, List.cons_append, readSign_of_isDigit ha]
  have hnumber : number? d.neg body = some d.canon := by
    rw [hbody, number?_digits d.neg Nat.toDigits_ne_nil
      (fun c hc => Nat.isDigit_of_mem_toDigits (by norm_num) le_rfl hc)
      (fun c hc => isDigit_of_mem_fixed hc), Dec.ofDigitChars_split, length_fixed, ← Dec.exp_canon]
    rfl
  rw [ofText?, strip_formatF, Dec.formatF, String.toList_ofList, filter_formatFChars,
    map_asciiDigit_formatFChars, hsign]
  simp only [hnumber, h.canon, dite_true]

end Decimal
