import Mathlib.Data.String.Basic
import Mathlib.Data.List.DropRight
import Mathlib.Tactic.NormNum
import Mathlib.Tactic.Positivity
import Mathlib.Tactic.Ring

/-!
# Text: trimming and digits

Stripping white space from both ends of a text, and writing and reading numbers
of a fixed width.

## Main definitions

* `Text.strip` — a text without the white space around it.
* `Text.asciiDigit` — a decimal digit of any script as an ASCII one.
* `Text.fixed` — the last `w` decimal digits of a number.
* `Text.readFixed` — reading a number of `w` digits off the front of a text.

## Main results

* `Text.strip_strip` — stripping is idempotent.
* `Text.readFixed_fixed` — reading inverts writing.
* `Text.fixed_append_lt_iff` — fixed-width numbers are ordered as their texts.
-/

namespace Text

/-! ### Trimming -/

/-- A list without the elements satisfying `p` at its two ends. -/
def trim {α : Type} (p : α → Bool) (l : List α) : List α := (l.dropWhile p).rdropWhile p

section

variable {α : Type} {p : α → Bool}

theorem not_of_dropWhile_eq_cons {l r : List α} {a : α} (h : l.dropWhile p = a :: r) :
    p a = false := by
  have hne : l.dropWhile p ≠ [] := by simp [h]
  have := List.head_dropWhile_not p hne
  simpa [h] using this

/-- Trimming on the right keeps the first element, unless nothing is left. -/
theorem dropWhile_rdropWhile {a : α} {r : List α} (ha : p a = false) :
    ((a :: r).rdropWhile p).dropWhile p = (a :: r).rdropWhile p := by
  cases h : (a :: r).rdropWhile p with
  | nil => rfl
  | cons b s =>
    obtain ⟨t, ht⟩ := List.rdropWhile_prefix p (l := a :: r)
    rw [h, List.cons_append, List.cons.injEq] at ht
    rw [List.dropWhile_cons, ht.1, ha]
    rfl

/-- Trimming is idempotent. -/
theorem trim_trim (l : List α) : trim p (trim p l) = trim p l := by
  unfold trim
  cases h : l.dropWhile p with
  | nil => rfl
  | cons a r =>
    rw [dropWhile_rdropWhile (not_of_dropWhile_eq_cons h), List.rdropWhile_idempotent]

theorem trim_eq_self {l : List α} (h : ∀ a ∈ l, p a = false) : trim p l = l := by
  have hdrop : l.dropWhile p = l := by
    cases l with
    | nil => rfl
    | cons a r => rw [List.dropWhile_cons, h a (by simp)]; rfl
  rw [trim, hdrop, List.rdropWhile_eq_self_iff]
  intro hl
  simp [h _ (List.getLast_mem hl)]

/-- A trimmed list followed by a trimmed list is trimmed. -/
theorem trim_append {l r : List α} (hl : trim p l = l) (hr : trim p r = r) (hlne : l ≠ [])
    (hrne : r ≠ []) : trim p (l ++ r) = l ++ r := by
  have hdrop : ∀ {s : List α}, trim p s = s → s ≠ [] →
      (∃ a t, s = a :: t ∧ p a = false) ∧ s.rdropWhile p = s := by
    intro s hs hne
    have hsuffix : s.dropWhile p = s := by
      refine (List.dropWhile_suffix p).eq_of_length_le ?_
      calc s.length = (trim p s).length := by rw [hs]
        _ ≤ (s.dropWhile p).length := (List.rdropWhile_prefix p _).length_le
    refine ⟨?_, by rwa [trim, hsuffix] at hs⟩
    cases s with
    | nil => exact (hne rfl).elim
    | cons a t => exact ⟨a, t, rfl, not_of_dropWhile_eq_cons hsuffix⟩
  obtain ⟨⟨a, t, rfl, ha⟩, -⟩ := hdrop hl hlne
  obtain ⟨-, hright⟩ := hdrop hr hrne
  have hlast := List.rdropWhile_eq_self_iff.mp hright hrne
  rw [trim, List.cons_append, List.dropWhile_cons, ha, if_neg (by simp), ← List.cons_append,
    List.rdropWhile_eq_self_iff]
  intro h
  rwa [List.getLast_append_of_ne_nil _ hrne]

end

/-- The white space of `str.strip`. -/
def isSpace (c : Char) : Bool :=
  let n := c.toNat
  (0x09 ≤ n && n ≤ 0x0d) || (0x1c ≤ n && n ≤ 0x20) || n == 0x85 || n == 0xa0 || n == 0x1680 ||
    (0x2000 ≤ n && n ≤ 0x200a) || n == 0x2028 || n == 0x2029 || n == 0x202f || n == 0x205f ||
    n == 0x3000

/-- The text without the white space around it. -/
def strip (s : String) : String := String.ofList (trim isSpace s.toList)

@[simp] theorem strip_strip (s : String) : strip (strip s) = strip s := by
  simp only [strip, String.toList_ofList, trim_trim]

/-- A stripped text followed by a stripped text is stripped. -/
theorem strip_append {s t : String} (hs : strip s = s) (ht : strip t = t) (hsne : s ≠ "")
    (htne : t ≠ "") : strip (s ++ t) = s ++ t := by
  have htrim : ∀ {s : String}, strip s = s → trim isSpace s.toList = s.toList := by
    intro s h
    have := congrArg String.toList h
    rwa [strip, String.toList_ofList] at this
  rw [strip, String.toList_append,
    trim_append (htrim hs) (htrim ht) (by simpa using hsne) (by simpa using htne),
    ← String.toList_append, String.ofList_toList]

/-- A text with a character that is no white space is not blank. -/
theorem strip_ne_empty {s : String} {c : Char} (hc : c ∈ s.toList) (h : isSpace c = false) :
    strip s ≠ "" := by
  intro hstrip
  have htrim : trim isSpace s.toList = [] := by
    have := congrArg String.toList hstrip
    rwa [strip, String.toList_ofList] at this
  have hrest : s.toList.dropWhile isSpace = [] := by
    cases hdrop : s.toList.dropWhile isSpace with
    | nil => rfl
    | cons a t =>
      -- what is left starts with a character that is kept
      rw [trim, hdrop, List.rdropWhile_eq_nil_iff] at htrim
      have ha := htrim a (List.mem_cons_self ..)
      rw [not_of_dropWhile_eq_cons hdrop] at ha
      cases ha
  rw [List.dropWhile_eq_nil_iff.mp hrest c hc] at h
  cases h

theorem strip_eq_self {s : String} (h : ∀ c ∈ s.toList, isSpace c = false) : strip s = s := by
  rw [strip, trim_eq_self h, String.ofList_toList]

theorem toNat_of_isUpper {c : Char} (h : c.isUpper = true) : 65 ≤ c.toNat ∧ c.toNat ≤ 90 := by
  have hval : 'A'.val ≤ c.val ∧ c.val ≤ 'Z'.val := of_decide_eq_true h
  exact ⟨UInt32.le_iff_toNat_le.mp hval.1, UInt32.le_iff_toNat_le.mp hval.2⟩

theorem isSpace_of_isUpper {c : Char} (h : c.isUpper = true) : isSpace c = false := by
  have h' := toNat_of_isUpper h
  simp only [isSpace, Bool.or_eq_false_iff, Bool.and_eq_false_iff, decide_eq_false_iff_not,
    beq_eq_false_iff_ne]
  omega

/-! ### Digits -/

/-- The zeros of the decimal digits outside ASCII (Unicode 16.0, category `Nd`); the other nine
digits of a script come after its zero. -/
def decimalZeros : List ℕ :=
  [0x660, 0x6f0, 0x7c0, 0x966, 0x9e6, 0xa66, 0xae6, 0xb66, 0xbe6, 0xc66, 0xce6, 0xd66, 0xde6,
   0xe50, 0xed0, 0xf20, 0x1040, 0x1090, 0x17e0, 0x1810, 0x1946, 0x19d0, 0x1a80, 0x1a90, 0x1b50,
   0x1bb0, 0x1c40, 0x1c50, 0xa620, 0xa8d0, 0xa900, 0xa9d0, 0xa9f0, 0xaa50, 0xabf0, 0xff10,
   0x104a0, 0x10d30, 0x10d40, 0x11066, 0x110f0, 0x11136, 0x111d0, 0x112f0, 0x11450, 0x114d0,
   0x11650, 0x116c0, 0x116d0, 0x116da, 0x11730, 0x118e0, 0x11950, 0x11bf0, 0x11c50, 0x11d50,
   0x11da0, 0x11f50, 0x16130, 0x16a60, 0x16ac0, 0x16b50, 0x16d70, 0x1ccf0, 0x1d7ce, 0x1d7d8,
   0x1d7e2, 0x1d7ec, 0x1d7f6, 0x1e140, 0x1e2f0, 0x1e4f0, 0x1e5f1, 0x1e950, 0x1fbf0]

/-- A decimal digit of any script as an ASCII one; other characters stay as they are. -/
def asciiDigit (c : Char) : Char :=
  if c.toNat < 128 then c
  else match decimalZeros.find? fun n => n ≤ c.toNat && c.toNat < n + 10 with
    | some n => (c.toNat - n).digitChar
    | none => c

theorem asciiDigit_of_lt {c : Char} (h : c.toNat < 128) : asciiDigit c = c := if_pos h

theorem map_asciiDigit_of_lt {s : List Char} (h : ∀ c ∈ s, c.toNat < 128) :
    s.map asciiDigit = s := by
  rw [List.map_congr_left fun c hc => asciiDigit_of_lt (h c hc), List.map_id']

theorem toNat_of_isDigit {c : Char} (h : c.isDigit = true) : 48 ≤ c.toNat ∧ c.toNat ≤ 57 := by
  simpa [Char.isDigit, UInt32.le_iff_toNat_le] using h

theorem isSpace_of_isDigit {c : Char} (h : c.isDigit = true) : isSpace c = false := by
  have h' := toNat_of_isDigit h
  simp only [isSpace, Bool.or_eq_false_iff, Bool.and_eq_false_iff, decide_eq_false_iff_not,
    beq_eq_false_iff_ne]
  omega

/-- The last `w` decimal digits of `n`, the most significant first. -/
def fixed : ℕ → ℕ → List Char
  | 0, _ => []
  | w + 1, n => (n / 10 ^ w % 10).digitChar :: fixed w n

@[simp] theorem length_fixed (w n : ℕ) : (fixed w n).length = w := by
  induction w with
  | zero => rfl
  | succ w ih => rw [fixed, List.length_cons, ih]

theorem isDigit_of_mem_fixed {w n : ℕ} {c : Char} (h : c ∈ fixed w n) : c.isDigit = true := by
  induction w with
  | zero => simp [fixed] at h
  | succ w ih =>
    rcases List.mem_cons.mp h with rfl | h
    · simp [Nat.isDigit_digitChar, Nat.mod_lt]
    · exact ih h

/-- The value of a digit. -/
def digit? (c : Char) : Option ℕ := if c.isDigit then some (c.toNat - 48) else none

theorem digit?_digitChar {n : ℕ} (h : n < 10) : digit? n.digitChar = some n := by
  simp [digit?, Nat.isDigit_digitChar, h, Nat.toNat_digitChar_sub_48_of_lt_ten]

/-- Read a number of `w` digits off the front of a text, onto the digits `acc`
already read. -/
def readFixed : ℕ → ℕ → List Char → Option (ℕ × List Char)
  | 0, acc, s => some (acc, s)
  | _ + 1, _, [] => none
  | w + 1, acc, c :: s => (digit? c).bind fun d => readFixed w (acc * 10 + d) s

theorem readFixed_fixed_mod (w acc n : ℕ) (s : List Char) :
    readFixed w acc (fixed w n ++ s) = some (acc * 10 ^ w + n % 10 ^ w, s) := by
  induction w generalizing acc with
  | zero => simp [fixed, readFixed, Nat.mod_one]
  | succ w ih =>
    rw [fixed, List.cons_append, readFixed, digit?_digitChar (Nat.mod_lt _ (by norm_num)),
      Option.bind_some, ih]
    congr 2
    rw [pow_succ, Nat.mod_mul]
    ring

/-- Reading inverts writing. -/
theorem readFixed_fixed {w n : ℕ} (h : n < 10 ^ w) (s : List Char) :
    readFixed w 0 (fixed w n ++ s) = some (n, s) := by
  rw [readFixed_fixed_mod, Nat.mod_eq_of_lt h, Nat.zero_mul, Nat.zero_add]

theorem digitChar_lt_digitChar {a b : ℕ} (ha : a < 10) (hb : b < 10) :
    a.digitChar < b.digitChar ↔ a < b := by
  rw [Char.lt_def, UInt32.lt_iff_toNat_lt]
  change a.digitChar.toNat < b.digitChar.toNat ↔ _
  rw [Nat.toNat_digitChar_of_lt_ten ha, Nat.toNat_digitChar_of_lt_ten hb]
  omega

theorem digitChar_inj {a b : ℕ} (ha : a < 10) (hb : b < 10) :
    a.digitChar = b.digitChar ↔ a = b := by
  constructor
  · intro h
    have := congrArg digit? h
    simpa [digit?_digitChar ha, digit?_digitChar hb] using this
  · rintro rfl
    rfl

/-- Fixed-width numbers are ordered as their texts. -/
theorem fixed_append_lt_iff {w n m : ℕ} (hn : n < 10 ^ w) (hm : m < 10 ^ w) (s t : List Char) :
    fixed w n ++ s < fixed w m ++ t ↔ n < m ∨ n = m ∧ s < t := by
  have key : fixed w n ++ s < fixed w m ++ t ↔
      n % 10 ^ w < m % 10 ^ w ∨ n % 10 ^ w = m % 10 ^ w ∧ s < t := by
    clear hn hm
    induction w with
    | zero => simp [fixed, Nat.mod_one]
    | succ w ih =>
      have h10 : 0 < 10 ^ w := by positivity
      have hn10 := Nat.mod_lt (n / 10 ^ w) (show 10 > 0 by norm_num)
      have hm10 := Nat.mod_lt (m / 10 ^ w) (show 10 > 0 by norm_num)
      have hnr := Nat.mod_lt n h10
      have hmr := Nat.mod_lt m h10
      rw [fixed, fixed, List.cons_append, List.cons_append, List.cons_lt_cons_iff, ih,
        digitChar_lt_digitChar hn10 hm10, digitChar_inj hn10 hm10, pow_succ, Nat.mod_mul,
        Nat.mod_mul]
      generalize n / 10 ^ w % 10 = a at *
      generalize m / 10 ^ w % 10 = b at *
      generalize n % 10 ^ w = x at *
      generalize m % 10 ^ w = y at *
      rcases lt_trichotomy a b with hab | rfl | hab
      · have : 10 ^ w * (a + 1) ≤ 10 ^ w * b := Nat.mul_le_mul_left _ hab
        rw [Nat.mul_succ] at this
        simp only [hab, true_or, true_iff]
        omega
      · simp
      · have : 10 ^ w * (b + 1) ≤ 10 ^ w * a := Nat.mul_le_mul_left _ hab
        rw [Nat.mul_succ] at this
        simp only [hab.not_gt, hab.ne', false_and, or_false, false_iff]
        omega
  rwa [Nat.mod_eq_of_lt hn, Nat.mod_eq_of_lt hm] at key

end Text
