import FinestVX.Lib.DecimalText

/-!
# Integers as text

The notation of integers, which Python writes (`str(n)`) and reads (`int(text)`) up to a
number of digits, and the lexical space of `xs:integer`.

## Main definitions

* `Integer.toText?`, `Integer.ofText?` — writing and reading.
* `Integer.isXsdInteger` — what `xs:integer` admits.

## Main results

* `Integer.ofText?_of_toText?` — what is written is read back.
* `Integer.toString_injective` — different numbers have different texts.
* `Integer.toText?_isSome_of_ofText?` — what was read can be written.
-/

namespace Integer

open Text Decimal

/-! ### Writing and reading -/

/-- The number of digits up to which integers are converted. -/
def maxStrDigits : ℕ := 4300

/-- The digits of an integer. -/
def digits (n : ℤ) : List Char := Nat.toDigits 10 n.natAbs

/-- `str(n)` -/
def toText? (n : ℤ) : Option String :=
  if (digits n).length ≤ maxStrDigits then
    some (String.ofList ((if n < 0 then ['-'] else []) ++ digits n))
  else none

/-- Digits, with single underscores between them. -/
def isNumeral : List Char → Bool
  | [] => false
  | [c] => c.isDigit
  | c :: d :: s => c.isDigit && if d = '_' then isNumeral s else isNumeral (d :: s)

/-- `int(text)`; the digits may be of any script. -/
def ofText? (text : String) : Option ℤ :=
  let (neg, s) := readSign ((strip text).toList.map asciiDigit)
  let ds := s.filter (· ≠ '_')
  if isNumeral s ∧ ds.length ≤ maxStrDigits then
    some (if neg then -(Nat.ofDigitChars 10 ds 0 : ℤ) else Nat.ofDigitChars 10 ds 0)
  else none

theorem isDigit_of_mem_digits {n : ℤ} {c : Char} (h : c ∈ digits n) : c.isDigit = true :=
  Nat.isDigit_of_mem_toDigits (b := 10) (by norm_num) le_rfl h

theorem digits_ne_nil (n : ℤ) : digits n ≠ [] := Nat.toDigits_ne_nil

theorem ne_underscore_of_isDigit {c : Char} (h : c.isDigit = true) : c ≠ '_' := by
  rintro rfl
  exact absurd h (by decide)

theorem isNumeral_of_isDigit {s : List Char} (hne : s ≠ []) (h : ∀ c ∈ s, c.isDigit = true) :
    isNumeral s = true := by
  induction s using isNumeral.induct with
  | case1 => exact (hne rfl).elim
  | case2 c => exact h c (List.mem_singleton.mpr rfl)
  | case3 c d s _ ih =>
    have hd : d ≠ '_' := ne_underscore_of_isDigit (h d (by simp))
    rw [isNumeral, h c (List.mem_cons_self ..), if_neg hd, Bool.true_and]
    exact ih (List.cons_ne_nil _ _) fun x hx => h x (List.mem_cons_of_mem _ hx)

/-- The sign and the digits of a text that was written. -/
theorem readSign_digits (n : ℤ) :
    readSign ((if n < 0 then ['-'] else []) ++ digits n) = (decide (n < 0), digits n) := by
  by_cases hneg : n < 0
  · simp [hneg, readSign]
  · obtain ⟨a, r, hdigits⟩ := List.exists_cons_of_ne_nil (digits_ne_nil n)
    have ha : a.isDigit = true := isDigit_of_mem_digits (hdigits ▸ List.mem_cons_self ..)
    rw [if_neg hneg, List.nil_append, hdigits, readSign_of_isDigit ha]
    simp [hneg]

theorem mem_chars {n : ℤ} {c : Char}
    (h : c ∈ (if n < 0 then ['-'] else []) ++ digits n) : c = '-' ∨ c.isDigit = true := by
  rcases List.mem_append.mp h with h | h
  · split at h
    · exact .inl (List.mem_singleton.mp h)
    · cases h
  · exact .inr (isDigit_of_mem_digits h)

/-- The characters of a text that was written. -/
theorem mem_of_toText? {n : ℤ} {s : String} (h : toText? n = some s) {c : Char}
    (hc : c ∈ s.toList) : c = '-' ∨ c.isDigit = true := by
  unfold toText? at h
  split at h
  · cases h
    rw [String.toList_ofList] at hc
    exact mem_chars hc
  · cases h

/-- **What is written is read back.** -/
theorem ofText?_of_toText? {n : ℤ} {s : String} (h : toText? n = some s) :
    ofText? s = some n := by
  unfold toText? at h
  split at h
  · next hlength =>
    cases h
    have hstrip : strip (String.ofList ((if n < 0 then ['-'] else []) ++ digits n)) =
        String.ofList ((if n < 0 then ['-'] else []) ++ digits n) := by
      refine strip_eq_self fun c hc => ?_
      rw [String.toList_ofList] at hc
      rcases mem_chars hc with rfl | hdigit
      · rfl
      · exact isSpace_of_isDigit hdigit
    have hascii : ((if n < 0 then ['-'] else []) ++ digits n).map asciiDigit =
        (if n < 0 then ['-'] else []) ++ digits n := by
      refine map_asciiDigit_of_lt fun c hc => ?_
      rcases mem_chars hc with rfl | hdigit
      · decide
      · have := toNat_of_isDigit hdigit
        omega
    have hfilter : (digits n).filter (· ≠ '_') = digits n := by
      refine List.filter_eq_self.mpr fun c hc => ?_
      exact decide_eq_true (ne_underscore_of_isDigit (isDigit_of_mem_digits hc))
    have hnumeral : isNumeral (digits n) = true :=
      isNumeral_of_isDigit (digits_ne_nil n) fun c hc => isDigit_of_mem_digits hc
    have hvalue : Nat.ofDigitChars 10 (digits n) 0 = n.natAbs := Nat.ofDigitChars_ten_toDigits
    rw [ofText?, hstrip, String.toList_ofList, hascii, readSign_digits]
    simp only [hfilter, hnumeral, hlength, hvalue, true_and, if_true, Option.some.injEq,
      decide_eq_true_eq]
    split <;> omega
  · cases h

/-! ### Numbers inside of a text -/

/-- `printf` writes a number as `str` does, whatever its size. -/
theorem toList_toString (n : ℤ) :
    (toString n).toList = (if n < 0 then ['-'] else []) ++ digits n := by
  cases n with
  | ofNat m =>
    rw [if_neg (by simp), List.nil_append]
    exact String.toList_ofList
  | negSucc m =>
    rw [if_pos (Int.negSucc_lt_zero m)]
    change ("-" ++ (m + 1).repr).toList = _
    rw [String.toList_append]
    exact congrArg (['-'] ++ ·) String.toList_ofList

theorem mem_toString {n : ℤ} {c : Char} (h : c ∈ (toString n).toList) :
    c = '-' ∨ c.isDigit = true :=
  mem_chars (toList_toString n ▸ h)

theorem toString_injective : Function.Injective (toString : ℤ → String) := by
  intro n m h
  have hlist := congrArg (fun s => readSign s.toList) h
  simp only [toList_toString, readSign_digits, Prod.mk.injEq, decide_eq_decide] at hlist
  have hn : Nat.ofDigitChars 10 (digits n) 0 = n.natAbs := Nat.ofDigitChars_ten_toDigits
  have hm : Nat.ofDigitChars 10 (digits m) 0 = m.natAbs := Nat.ofDigitChars_ten_toDigits
  have habs : n.natAbs = m.natAbs := by
    rw [← hn, ← hm, hlist.2]
  omega

/-! ### The digits of a number that was read -/

theorem ofDigitChars_lt {l : List Char} (h : ∀ c ∈ l, c.isDigit = true) (acc : ℕ) :
    Nat.ofDigitChars 10 l acc < (acc + 1) * 10 ^ l.length := by
  induction l generalizing acc with
  | nil => simp
  | cons c l ih =>
    have hc : c.toNat - '0'.toNat < 10 := by
      have hdigit := h c (List.mem_cons_self ..)
      have : 48 ≤ c.toNat ∧ c.toNat ≤ 57 := by
        simpa [Char.isDigit, UInt32.le_iff_toNat_le] using hdigit
      show c.toNat - 48 < 10
      omega
    have := ih (fun x hx => h x (List.mem_cons_of_mem _ hx)) (10 * acc + (c.toNat - '0'.toNat))
    rw [Nat.ofDigitChars_cons]
    refine this.trans_le ?_
    rw [List.length_cons, pow_succ', ← mul_assoc]
    exact Nat.mul_le_mul_right _ (by omega)

theorem isDigit_of_isNumeral {s : List Char} (h : isNumeral s = true) :
    (∀ c ∈ s.filter (· ≠ '_'), c.isDigit = true) ∧ s.filter (· ≠ '_') ≠ [] := by
  have hcons : ∀ {c : Char} (l : List Char), c.isDigit = true →
      (c :: l).filter (· ≠ '_') = c :: l.filter (· ≠ '_') := by
    intro c l hc
    exact List.filter_cons_of_pos (decide_eq_true (ne_underscore_of_isDigit hc))
  induction s using isNumeral.induct with
  | case1 => cases h
  | case2 c =>
    have hc : c.isDigit = true := h
    rw [hcons [] hc]
    exact ⟨by simpa using hc, List.cons_ne_nil _ _⟩
  | case3 c d s ih ih' =>
    rw [isNumeral, Bool.and_eq_true] at h
    obtain ⟨hc, hrest⟩ := h
    rw [hcons _ hc]
    refine ⟨List.forall_mem_cons.mpr ⟨hc, ?_⟩, List.cons_ne_nil _ _⟩
    by_cases hd : d = '_'
    · rw [if_pos hd] at hrest
      rw [List.filter_cons_of_neg (by simp [hd])]
      exact (ih hrest).1
    · rw [if_neg hd] at hrest
      exact (ih' hrest).1

/-- **What was read can be written**: it has no more digits than its text. -/
theorem toText?_isSome_of_ofText? {n : ℤ} {s : String} (h : ofText? s = some n) :
    (toText? n).isSome = true := by
  unfold ofText? at h
  split at h
  next neg l hsign =>
  dsimp only at h
  split at h
  · next hcond =>
    obtain ⟨hnumeral, hlength⟩ := hcond
    obtain ⟨hdigits, hne⟩ := isDigit_of_isNumeral hnumeral
    have hlt : n.natAbs < 10 ^ (l.filter (· ≠ '_')).length := by
      have := ofDigitChars_lt hdigits 0
      rw [zero_add, one_mul] at this
      cases neg <;> cases h <;> simpa using this
    have hle : (digits n).length ≤ (l.filter (· ≠ '_')).length :=
      (Nat.length_toDigits_le_iff (by norm_num) (List.length_pos_iff.mpr hne)).mpr hlt
    rw [toText?, if_pos (hle.trans hlength)]
    rfl
  · cases h

/-! ### `xs:integer` -/

/-- The white space of XML. -/
def isXmlSpace (c : Char) : Bool := c = ' ' || c = '\t' || c = '\n' || c = '\r'

/-- The texts of `xs:integer`: digits with an optional sign, and white space around them. -/
def isXsdInteger (text : String) : Bool :=
  let s := (readSign (trim isXmlSpace text.toList)).2
  !s.isEmpty && s.all Char.isDigit

/-- What is written is a text of `xs:integer`. -/
theorem isXsdInteger_of_toText? {n : ℤ} {s : String} (h : toText? n = some s) :
    isXsdInteger s = true := by
  unfold toText? at h
  split at h
  · cases h
    have htrim : trim isXmlSpace ((if n < 0 then ['-'] else []) ++ digits n) =
        (if n < 0 then ['-'] else []) ++ digits n := by
      refine trim_eq_self fun c hc => ?_
      rcases mem_chars hc with rfl | hdigit
      · rfl
      · by_contra hspace
        rw [Bool.not_eq_false, isXmlSpace] at hspace
        simp only [Bool.or_eq_true, decide_eq_true_eq] at hspace
        rcases hspace with ((rfl | rfl) | rfl) | rfl <;> exact absurd hdigit (by decide)
    rw [isXsdInteger, String.toList_ofList, htrim, readSign_digits]
    have hne : (digits n).isEmpty = false := by
      rw [List.isEmpty_eq_false_iff]
      exact digits_ne_nil n
    simp only [hne, Bool.not_false, Bool.true_and]
    exact List.all_eq_true.mpr fun c hc => isDigit_of_mem_digits hc
  · cases h

end Integer
