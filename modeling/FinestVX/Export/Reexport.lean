import FinestVX.Export.XmlRoundTrip

/-!
# Exporting an import

A document that `book_from_saft` accepts, against the document that `to_xml` makes of its
book.  The schema types nearly every attribute as a text, so that documents come in that the
export would not write; the import trims texts and puts numbers, dates and currency codes
in their normal form, which is no loss.  It does lose something where it compares
`allow-posting` and `active` with `true`, where it looks for one of the three attributes of a
period only, and where the reader of datetimes cuts a fraction off.

## Main definitions

* `Reading`, `SameText` — when two texts of an attribute say the same.
* `KeptAttribute`, `Kept` — the attributes that are read as what they say.

## Main results

* `setAttributes_reexports` — the attributes of one element.
* `account_reexports` and its siblings — the elements.
* `reexport_iff` — **an accepted document is exported again, the same up to spelling, exactly
  when** all of its attributes are kept.
-/

namespace FinestVX

open Except Xml Text

/-! ### Spellings -/

/-- The text is one of the boolean words, up to white space around it and upper case. -/
def SpellsBool (flag : Bool) (text : String) : Prop :=
  (strip text).toList.map Char.toLower = (if flag then "true" else "false").toList

instance (flag : Bool) (text : String) : Decidable (SpellsBool flag text) :=
  inferInstanceAs (Decidable (_ = _))

/-- The digits after the sixth one of each fraction in a datetime, which the reader cuts off,
without zeros at the end. -/
def lostDigits : List Char → List (List Char)
  | [] => []
  | c :: s =>
    let lost := ((s.takeWhile Char.isDigit).drop 6).rdropWhile (· = '0')
    if (c = '.' ∨ c = ',') ∧ lost ≠ [] then lost :: lostDigits s else lostDigits s

/-- What an attribute says. -/
inductive Reading
  | trimmed
  | currency
  | integer
  | periodPart
  | decimal
  | date
  | datetime
  | boolean
  deriving DecidableEq, Repr

/-- How the attributes of a ledger are read. -/
def readingOf (name : String) : Reading :=
  if name ∈ ["currency", "base-currency"] then .currency
  else if name ∈ ["fiscal-year", "quarter", "month", "period-fiscal-year",
      "fiscal-start-month"] then .integer
  else if name ∈ ["period-quarter", "period-month"] then .periodPart
  else if name ∈ ["amount", "tax-rate"] then .decimal
  else if name ∈ ["start-date", "end-date"] then .date
  else if name = "posted-at" then .datetime
  else if name ∈ ["allow-posting", "active"] then .boolean
  else .trimmed

section

variable [Platform]

/-- The second text is the first one, up to white space around it, upper case of a currency
code and the spelling of a number, a date or a boolean word. -/
def Reading.Same : Reading → String → String → Prop
  | trimmed, s, s' => s' = strip s
  | currency, s, s' => s' = Platform.upper (strip s)
  | integer, s, s' => ∃ n, Integer.ofText? s = some n ∧ Integer.ofText? s' = some n
  | periodPart, s, s' => ∃ n, Integer.ofText? s = some n ∧ Integer.ofText? s' = some n
  | decimal, s, s' => ∃ v v', Decimal.ofText? s = some v ∧ Decimal.ofText? s' = some v' ∧
      SameDecimal v v'
  | date, s, s' => ∃ d, dateFromIsoformat s = .ok d ∧ dateFromIsoformat s' = .ok d
  | datetime, s, s' => (∃ t, datetimeFromIsoformat s = .ok t ∧ datetimeFromIsoformat s' = .ok t) ∧
      lostDigits s.toList = lostDigits s'.toList
  | boolean, s, s' => ∃ flag, SpellsBool flag s ∧ SpellsBool flag s'

/-- Two texts of an attribute say the same. -/
def SameText (name : String) : String → String → Prop := (readingOf name).Same

/-! ### What is kept -/

omit [Platform] in
/-- An attribute is read as what it says: a boolean word other than `true` is `false`, no digits
of a datetime are cut off, and the attributes of a period come with its fiscal year or not
at all. -/
def KeptAttribute (e : Element) (name : String) : Prop :=
  match readingOf name with
  | .boolean => ∀ text ∈ e.get name, text = "true" ∨ SpellsBool false text
  | .datetime => ∀ text ∈ e.get name, lostDigits text.toList = []
  | .periodPart => (e.get name).isSome = (e.get "period-fiscal-year").isSome
  | _ => True

/-- The attributes of an element are kept: they are declared and read as what they say. -/
structure KeptElement (d : ElementDecl) (e : Element) : Prop where
  hints : ElementDecl.NoHints e
  attributes : ∀ name ∈ d.names, KeptAttribute e name

/-- The attributes of a document are kept. -/
structure Kept (root : Element) : Prop where
  book : KeptElement ledgerBookDecl root
  parts : ∀ part ∈ root.children, ElementDecl.NoHints part
  accounts : ∀ e ∈ partsOf root "accounts", KeptElement accountDecl e
  periods : ∀ e ∈ partsOf root "periods", KeptElement periodDecl e
  transactions : ∀ e ∈ partsOf root "transactions", KeptElement transactionDecl e ∧
    ∀ c ∈ e.children, KeptElement entryDecl c

instance (e : Element) (name : String) : Decidable (KeptAttribute e name) :=
  match h : readingOf name with
  | .boolean => decidable_of_iff (∀ text ∈ e.get name, text = "true" ∨ SpellsBool false text)
    (by rw [KeptAttribute, h])
  | .datetime => decidable_of_iff (∀ text ∈ e.get name, lostDigits text.toList = [])
    (by rw [KeptAttribute, h])
  | .periodPart => decidable_of_iff ((e.get name).isSome = (e.get "period-fiscal-year").isSome)
    (by rw [KeptAttribute, h])
  | .trimmed | .currency | .integer | .decimal | .date => isTrue (by rw [KeptAttribute, h]; trivial)

instance (d : ElementDecl) (e : Element) : Decidable (KeptElement d e) :=
  decidable_of_iff (ElementDecl.NoHints e ∧ ∀ name ∈ d.names, KeptAttribute e name)
    ⟨fun h => ⟨h.1, h.2⟩, fun h => ⟨h.hints, h.attributes⟩⟩

/-! ### Attributes -/

/-- An attribute that is set again: it can be, and it says the same when it was kept. -/
def Reexports (e : Element) (a : Attribute) : Prop :=
  ∃ value, a.value = .ok value ∧ (∀ s ∈ value, IsXmlText s) ∧
    (Option.Rel (SameText a.name) (e.get a.name) value ↔ KeptAttribute e a.name)

variable {e : Element} {name s : String}

omit [Platform] in
theorem rel_some_iff {r : String → String → Prop} {s s' : String} :
    Option.Rel r (some s) (some s') ↔ r s s' := by
  constructor
  · rintro ⟨h⟩
    exact h
  · exact .some

/-- An attribute that is kept whatever it says. -/
theorem reexports_text {value : String} (hget : e.get name = some s) (hxml : IsXmlText value)
    (hsame : SameText name s value) (hkept : KeptAttribute e name) :
    Reexports e (.text name value) := by
  refine ⟨some value, rfl, ?_, ?_⟩
  · rintro _ ⟨⟩
    exact hxml
  · show Option.Rel (SameText name) (e.get name) (some value) ↔ KeptAttribute e name
    rw [hget, rel_some_iff]
    exact ⟨fun _ => hkept, fun _ => hsame⟩

theorem reexports_trimmed {value : String} (hread : readingOf name = .trimmed)
    (hget : e.get name = some s) (hvalue : value = strip s) : Reexports e (.text name value) := by
  subst hvalue
  refine reexports_text hget (Element.isXmlText_of_get hget).strip ?_ ?_
  · rw [SameText, hread, Reading.Same]
  · rw [KeptAttribute, hread]
    trivial

theorem reexports_text? {value : Option String} (hread : readingOf name = .trimmed)
    (hvalue : value = (e.get name).map strip) : Reexports e (.text? name value) := by
  subst hvalue
  refine ⟨_, rfl, ?_, ?_⟩
  · intro s hs
    obtain ⟨t, ht, rfl⟩ := Option.mem_map.mp hs
    exact (Element.isXmlText_of_get ht).strip
  · show Option.Rel (SameText name) (e.get name) _ ↔ KeptAttribute e name
    rw [KeptAttribute, hread, SameText, hread]
    refine iff_true_intro ?_
    cases e.get name with
    | none => exact .none
    | some t => exact .some rfl

/-- A text of an enumeration, which is stripped. -/
theorem reexports_enumerated {value f : String} (hread : readingOf name = .trimmed)
    (hget : e.get name = some value) (hstrip : requireNonEmptyStr value f = .ok value) :
    Reexports e (.text name value) :=
  reexports_trimmed hread hget (requireNonEmptyStr_eq_ok.mp hstrip).2

theorem reexports_currency {value f : String} (hread : readingOf name = .currency)
    (hget : e.get name = some s) (hvalue : normalizeCurrency value f = .ok value)
    (hupper : value = Platform.upper (strip s)) : Reexports e (.text name value) := by
  refine reexports_text hget ?_ ?_ ?_
  · intro c hc
    have hvalid := isValidCurrencyCode_of_eq_ok hvalue
    exact isXmlChar_of_isUpper ((Platform.isUpper_of_isValidCurrencyCode _ hvalid).2 c hc)
  · rw [SameText, hread, Reading.Same, hupper]
  · rw [KeptAttribute, hread]
    trivial

omit [Platform] in
theorem isXmlText_of_toText? {n : ℤ} (h : Integer.toText? n = some s) : IsXmlText s := by
  intro c hc
  rcases Integer.mem_of_toText? h hc with rfl | hdigit
  · rfl
  · exact isXmlChar_of_isDigit hdigit

/-- An integer that was read is written, and what is written is read as the same integer. -/
theorem strInt_of_intOfText {n : ℤ} (h : intOfText s = .ok n) :
    ∃ s', strInt n = .ok s' ∧ IsXmlText s' ∧
      Integer.ofText? s = some n ∧ Integer.ofText? s' = some n := by
  unfold intOfText at h
  split at h
  · next n' hn =>
    cases h
    obtain ⟨s', hs'⟩ := Option.isSome_iff_exists.mp (Integer.toText?_isSome_of_ofText? hn)
    refine ⟨s', ?_, isXmlText_of_toText? hs', hn, Integer.ofText?_of_toText? hs'⟩
    rw [strInt, hs']
  · cases h

theorem reexports_int {n : ℤ} (hread : readingOf name = .integer)
    (hget : e.get name = some s) (hn : intOfText s = .ok n) : Reexports e (.int name n) := by
  obtain ⟨s', hs', hxml, hsame⟩ := strInt_of_intOfText hn
  refine ⟨some s', by rw [Attribute.int, hs']; rfl, ?_, ?_⟩
  · rintro _ ⟨⟩
    exact hxml
  · show Option.Rel (SameText name) (e.get name) (some s') ↔ KeptAttribute e name
    rw [hget, rel_some_iff, SameText, KeptAttribute, hread]
    exact iff_true_intro ⟨n, hsame⟩

omit [Platform] in
theorem isXmlText_formatF (d : Dec) : IsXmlText d.formatF := by
  intro c hc
  rw [Dec.formatF, String.toList_ofList] at hc
  rcases Decimal.mem_formatFChars hc with hdigit | rfl | rfl
  · exact isXmlChar_of_isDigit hdigit
  · rfl
  · rfl

/-- What is written of a number that was read is a text of the same number. -/
theorem sameDecimal_formatF {v : Decimal} {d : Dec} (h : requireDecimal s = .ok v)
    (hd : v.toDec? = some d) : Reading.decimal.Same s d.formatF := by
  obtain ⟨held, rfl⟩ := Decimal.toDec?_eq_some.mp hd
  unfold requireDecimal at h
  split at h
  · next v' hv =>
    cases h
    exact ⟨_, _, hv, Decimal.ofText?_formatF held, d, d.canon, rfl, rfl, (Dec.value_canon d).symm⟩
  · cases h

theorem reexports_decimal {v : Decimal} {d : Dec} (hread : readingOf name = .decimal)
    (hget : e.get name = some s) (hv : requireDecimal s = .ok v) (hd : v.toDec? = some d) :
    Reexports e (.text name d.formatF) := by
  refine reexports_text hget (isXmlText_formatF d) ?_ ?_
  · rw [SameText, hread]
    exact sameDecimal_formatF hv hd
  · rw [KeptAttribute, hread]
    trivial

theorem reexports_decimal? {r : Option Decimal} (hread : readingOf name = .decimal)
    (hr : optionalDecimal (e.get name) = .ok r) (hrate : IsTaxRate r) :
    Reexports e (.text? name (r.map Decimal.formatF)) := by
  refine ⟨_, rfl, ?_, ?_⟩
  · intro t ht
    obtain ⟨v, hv, rfl⟩ := Option.mem_map.mp ht
    obtain ⟨d, hd, -⟩ := hrate v hv
    rw [formatF_of_toDec? hd]
    exact isXmlText_formatF d
  · show Option.Rel (SameText name) (e.get name) _ ↔ KeptAttribute e name
    rw [KeptAttribute, hread, SameText, hread]
    refine iff_true_intro ?_
    cases hget : e.get name with
    | none =>
      rw [hget] at hr
      cases hr
      exact .none
    | some t =>
      rw [hget, optionalDecimal] at hr
      cases hd : requireDecimal t with
      | error err =>
        rw [hd] at hr
        cases hr
      | ok v =>
        rw [hd] at hr
        cases hr
        obtain ⟨d, hv, -⟩ := hrate v rfl
        rw [Option.map_some, formatF_of_toDec? hv]
        exact .some (sameDecimal_formatF hd hv)

/-! ### Dates -/

omit [Platform] in
theorem isXmlText_isoformat (d : Date) : IsXmlText d.isoformat := by
  intro c hc
  rw [Date.isoformat, String.toList_ofList] at hc
  rcases Date.mem_isoformatChars hc with hdigit | rfl
  · exact isXmlChar_of_isDigit hdigit
  · rfl

theorem reexports_date {d : Date} (hread : readingOf name = .date) (hget : e.get name = some s)
    (hd : dateFromIsoformat s = .ok d) : Reexports e (.text name d.isoformat) := by
  refine reexports_text hget (isXmlText_isoformat d) ?_ ?_
  · rw [SameText, hread]
    exact ⟨d, hd, Platform.dateFromIsoformat_isoformat d⟩
  · rw [KeptAttribute, hread]
    trivial

omit [Platform] in
/-- Texts without a fraction lose nothing. -/
theorem lostDigits_append {l : List Char} (h : ∀ c ∈ l, c ≠ '.' ∧ c ≠ ',') (r : List Char) :
    lostDigits (l ++ r) = lostDigits r := by
  induction l with
  | nil => rfl
  | cons c l ih =>
    obtain ⟨⟨hpoint, hcomma⟩, hrest⟩ := List.forall_mem_cons.mp h
    rw [List.cons_append, lostDigits, if_neg (by simp [hpoint, hcomma]), ih hrest]

omit [Platform] in
theorem ne_point_of_isDigit {c : Char} (h : c.isDigit = true) : c ≠ '.' ∧ c ≠ ',' := by
  constructor
  · rintro rfl
    exact absurd h (by decide)
  · rintro rfl
    exact absurd h (by decide)

omit [Platform] in
theorem lostDigits_fixed (w n : ℕ) (r : List Char) :
    lostDigits (fixed w n ++ r) = lostDigits r :=
  lostDigits_append (fun _ hc => ne_point_of_isDigit (isDigit_of_mem_fixed hc)) r

omit [Platform] in
theorem lostDigits_cons {c : Char} (h : c ≠ '.' ∧ c ≠ ',') (r : List Char) :
    lostDigits (c :: r) = lostDigits r :=
  lostDigits_append (l := [c]) (by simpa using h) r

omit [Platform] in
/-- A fraction that was written has six digits. -/
theorem lostDigits_fractionChars (us : ℕ) {r : List Char} (h : r.takeWhile Char.isDigit = []) :
    lostDigits (DateTime.fractionChars us ++ r) = lostDigits r := by
  unfold DateTime.fractionChars
  split
  · rfl
  · have hdigits : (fixed 6 us ++ r).takeWhile Char.isDigit = fixed 6 us := by
      rw [List.takeWhile_append_of_pos fun c hc => isDigit_of_mem_fixed hc, h, List.append_nil]
    have hlost : ((fixed 6 us).drop 6).rdropWhile (· = '0') = [] := by
      rw [List.drop_eq_nil_of_le (by rw [length_fixed])]
      rfl
    rw [List.cons_append, lostDigits, hdigits, hlost, if_neg (by simp), lostDigits_fixed]

omit [Platform] in
theorem lostDigits_offsetChars (o : Option ℤ) : lostDigits (DateTime.offsetChars o) = [] := by
  cases o with
  | none => rfl
  | some o =>
    have hsign : (if o < 0 then '-' else '+') ≠ '.' ∧ (if o < 0 then '-' else '+') ≠ ',' := by
      split <;> decide
    simp only [DateTime.offsetChars]
    rw [lostDigits_cons hsign, lostDigits_fixed, lostDigits_cons (by decide), lostDigits_fixed]
    split
    · rfl
    · have hfraction := lostDigits_fractionChars (o.natAbs % 1000000) (r := []) rfl
      rw [List.append_nil] at hfraction
      rw [lostDigits_cons (by decide), lostDigits_fixed, hfraction]
      rfl

omit [Platform] in
/-- The text of a datetime loses nothing. -/
theorem lostDigits_isoformat (t : DateTime) : lostDigits t.isoformat.toList = [] := by
  have hoffset : (DateTime.offsetChars t.utcoffset).takeWhile Char.isDigit = [] := by
    cases t.utcoffset with
    | none => rfl
    | some o =>
      simp only [DateTime.offsetChars]
      rw [List.takeWhile_cons_of_neg]
      split <;> decide
  have hdate : ∀ c ∈ t.date.isoformatChars, c ≠ '.' ∧ c ≠ ',' := by
    intro c hc
    rcases Date.mem_isoformatChars hc with hdigit | rfl
    · exact ne_point_of_isDigit hdigit
    · decide
  rw [DateTime.isoformat, String.toList_ofList, lostDigits_append hdate,
    lostDigits_cons (by decide), lostDigits_fixed, lostDigits_cons (by decide), lostDigits_fixed,
    lostDigits_cons (by decide), lostDigits_fixed, lostDigits_fractionChars _ hoffset,
    lostDigits_offsetChars]

omit [Platform] in
theorem isXmlText_isoformat_datetime (t : DateTime) : IsXmlText t.isoformat := by
  intro c hc
  rcases DateTime.mem_isoformat hc with hdigit | hsep
  · exact isXmlChar_of_isDigit hdigit
  · simp only [List.mem_cons, List.not_mem_nil, or_false] at hsep
    rcases hsep with rfl | rfl | rfl | rfl | rfl <;> rfl

/-- A datetime is kept when no digits were cut off. -/
theorem reexports_datetime {t : DateTime} (hread : readingOf name = .datetime)
    (hget : e.get name = some s) (ht : datetimeFromIsoformat s = .ok t) :
    Reexports e (.text name t.isoformat) := by
  refine ⟨_, rfl, ?_, ?_⟩
  · rintro _ ⟨⟩
    exact isXmlText_isoformat_datetime t
  · show Option.Rel (SameText name) (e.get name) (some t.isoformat) ↔ KeptAttribute e name
    rw [KeptAttribute, hread, SameText, hread, hget, rel_some_iff]
    show _ ∧ _ ↔ ∀ text ∈ some s, _
    rw [lostDigits_isoformat]
    constructor
    · rintro ⟨-, hlost⟩ _ ⟨⟩
      exact hlost
    · intro hlost
      exact ⟨⟨t, ht, Platform.datetimeFromIsoformat_isoformat t⟩, hlost s rfl⟩

/-! ### Flags and periods -/

omit [Platform] in
/-- A text spells one boolean word at most. -/
theorem SpellsBool.unique {flag flag' : Bool} (h : SpellsBool flag s) (h' : SpellsBool flag' s) :
    flag = flag' := by
  have hwords := (show _ = _ from h).symm.trans h'
  revert hwords
  cases flag <;> cases flag' <;> decide

/-- A flag is kept when it is `true` or spells `false`. -/
theorem reexports_bool (hread : readingOf name = .boolean) (hget : e.get name = some s) :
    Reexports e (.bool name (s == "true")) := by
  have hword : ∀ flag : Bool, IsXmlText (if flag then "true" else "false") ∧
      SpellsBool flag (if flag then "true" else "false") := by
    intro flag
    cases flag <;> decide
  refine ⟨_, rfl, ?_, ?_⟩
  · rintro _ ⟨⟩
    exact (hword _).1
  · show Option.Rel (SameText name) (e.get name) (some (if s == "true" then "true" else "false")) ↔
      KeptAttribute e name
    rw [KeptAttribute, hread, SameText, hread, hget, rel_some_iff]
    show (∃ flag, _) ↔ ∀ text ∈ some s, _
    constructor
    · rintro ⟨flag, hs, hexported⟩ _ ⟨⟩
      -- the word that is exported is the one that was read
      have hflag := hexported.unique (hword (s == "true")).2
      subst hflag
      by_cases htrue : s = "true"
      · exact .inl htrue
      · rw [beq_false_of_ne htrue] at hs
        exact .inr hs
    · intro hkept
      rcases hkept s rfl with rfl | hfalse
      · exact ⟨true, (hword true).2, (hword true).2⟩
      · have hne : s ≠ "true" := by
          rintro rfl
          exact absurd (hfalse.unique (hword true).2) (by decide)
        rw [beq_false_of_ne hne]
        exact ⟨false, hfalse, (hword false).2⟩

/-- A part of a period is kept when it is there, next to a fiscal year. -/
theorem reexports_periodPart {n : ℤ} (hread : readingOf name = .periodPart)
    (hyear : (e.get "period-fiscal-year").isSome = true)
    (hn : intOfText (e.getD name "0") = .ok n) : Reexports e (.int? name (some n)) := by
  obtain ⟨s', hs', hxml, hsame⟩ := strInt_of_intOfText hn
  refine ⟨some s', by rw [Attribute.int?, hs']; rfl, ?_, ?_⟩
  · rintro _ ⟨⟩
    exact hxml
  · show Option.Rel (SameText name) (e.get name) (some s') ↔ KeptAttribute e name
    rw [KeptAttribute, hread, hyear, SameText, hread]
    cases hget : e.get name with
    | none =>
      refine ⟨fun hrel => ?_, fun hkept => (Bool.false_ne_true hkept).elim⟩
      cases hrel
    | some s =>
      rw [Element.getD, hget, Option.getD_some] at hsame
      rw [rel_some_iff]
      exact ⟨fun _ => rfl, fun _ => ⟨n, hsame⟩⟩

/-- Without a fiscal year, a part of a period is kept when it is not there either. -/
theorem reexports_periodPart_none (hread : readingOf name = .periodPart)
    (hyear : e.get "period-fiscal-year" = none) : Reexports e (.int? name none) := by
  refine ⟨none, rfl, by simp, ?_⟩
  show Option.Rel (SameText name) (e.get name) none ↔ KeptAttribute e name
  rw [KeptAttribute, hread, hyear]
  cases e.get name with
  | none => exact ⟨fun _ => rfl, fun _ => .none⟩
  | some s =>
    refine ⟨fun hrel => ?_, fun hkept => (Bool.false_ne_true hkept.symm).elim⟩
    cases hrel

/-- The three attributes of the period of a transaction. -/
theorem reexports_period {p : Option FiscalPeriod} (h : parsePeriod e = .ok p) :
    Reexports e (.int? "period-fiscal-year" (p.map FiscalPeriod.fiscalYear)) ∧
      Reexports e (.int? "period-quarter" (p.map FiscalPeriod.quarter)) ∧
        Reexports e (.int? "period-month" (p.map FiscalPeriod.month)) := by
  unfold parsePeriod at h
  cases hyear : e.get "period-fiscal-year" with
  | none =>
    rw [hyear] at h
    cases h
    refine ⟨⟨none, rfl, by simp, ?_⟩, reexports_periodPart_none rfl hyear,
      reexports_periodPart_none rfl hyear⟩
    show Option.Rel _ (e.get "period-fiscal-year") none ↔ True
    rw [hyear]
    exact iff_true_intro .none
  | some s =>
    have hsome : (e.get "period-fiscal-year").isSome = true := by rw [hyear]; rfl
    rw [if_pos hsome] at h
    obtain ⟨y, hy, h⟩ := bind_eq_ok.mp h
    obtain ⟨q, hq, h⟩ := bind_eq_ok.mp h
    obtain ⟨m, hm, h⟩ := bind_eq_ok.mp h
    obtain ⟨period, hperiod, h⟩ := bind_eq_ok.mp h
    cases h
    obtain ⟨rfl, rfl, rfl⟩ := FiscalPeriod.fields_of_new hperiod
    rw [Element.getD, hyear, Option.getD_some] at hy
    exact ⟨reexports_int rfl hyear hy, reexports_periodPart rfl hsome hq,
      reexports_periodPart rfl hsome hm⟩

/-! ### Elements -/

/-- **The attributes of an element** are set again, to texts that say the same when the ones of
the element are kept. -/
theorem setAttributes_reexports {l : List Attribute} {d : ElementDecl} (hvalid : d.Admits e)
    (hfit : Fit l d) (hnodup : d.names.Nodup)
    (hnames : ∀ name ∈ d.names, name ∉ ElementDecl.schemaHints) (h : ∀ a ∈ l, Reexports e a) :
    ∃ attributes, setAttributes l [] = .ok attributes ∧ ∀ tag children,
      e.SameAttributes SameText ⟨tag, attributes, children⟩ ↔ KeptElement d e := by
  have hvalues : ∀ a ∈ l, ∃ value, a.value = .ok value ∧ ∀ s ∈ value, IsXmlText s := by
    intro a ha
    obtain ⟨value, hvalue, hxml, -⟩ := h a ha
    exact ⟨value, hvalue, hxml⟩
  obtain ⟨attributes, hset⟩ := setAttributes_succeeds hvalues []
  refine ⟨attributes, hset, fun tag children => ?_⟩
  have hshows := shows_of_setAttributes hset (hfit.names ▸ hnodup) tag children
  have hothers : ∀ name, name ∉ d.names → Element.get ⟨tag, attributes, children⟩ name = none :=
    fun name hname => hshows.others name (hfit.names ▸ hname)
  have hrel : ∀ a ∈ l, Option.Rel (SameText a.name) (e.get a.name)
      (Element.get ⟨tag, attributes, children⟩ a.name) ↔ KeptAttribute e a.name := by
    intro a ha
    obtain ⟨value, hvalue, -, hiff⟩ := h a ha
    rw [← Except.ok.inj (hvalue.symm.trans (hshows.value a ha))]
    exact hiff
  rw [ElementDecl.sameAttributes_iff hvalid hothers hnames]
  have hdeclared : (∀ a ∈ d.attributes, Option.Rel (SameText a.name) (e.get a.name)
      (Element.get ⟨tag, attributes, children⟩ a.name)) ↔
      ∀ name ∈ d.names, KeptAttribute e name := by
    rw [← List.forall_mem_map (f := AttributeDecl.name) (P := fun name =>
      Option.Rel (SameText name) (e.get name) (Element.get ⟨tag, attributes, children⟩ name))]
    show (∀ name ∈ d.names, _) ↔ _
    rw [← hfit.names, List.forall_mem_map, List.forall_mem_map]
    exact forall₂_congr hrel
  rw [hdeclared]
  exact ⟨fun h => ⟨h.1, h.2⟩, fun h => ⟨h.hints, h.attributes⟩⟩

/-- An element without content. -/
theorem leaf_reexports {l : List Attribute} {d : ElementDecl} (hvalid : ValidLeaf d e)
    (hfit : Fit l d) (hnodup : d.names.Nodup)
    (hnames : ∀ name ∈ d.names, name ∉ ElementDecl.schemaHints) (h : ∀ a ∈ l, Reexports e a) :
    ∃ e', leafElement d.tag l = .ok e' ∧ (e.Same SameText e' ↔ KeptElement d e) := by
  obtain ⟨attributes, hset, hiff⟩ := setAttributes_reexports hvalid.1 hfit hnodup hnames h
  refine ⟨⟨d.tag, attributes, []⟩, by rw [leafElement, hset]; rfl, ?_⟩
  rw [Element.same_iff, and_iff_right hvalid.1.1, hvalid.2, and_iff_left .nil]
  exact hiff d.tag []

theorem account_reexports {a : Account} (hvalid : ValidLeaf accountDecl e)
    (h : parseAccount e = .ok a) :
    ∃ e', accountElement a = .ok e' ∧ (e.Same SameText e' ↔ KeptElement accountDecl e) := by
  refine leaf_reexports hvalid (fit_account a) (by decide) (by decide) ?_
  obtain ⟨code, hcode⟩ : ∃ s, e.get "code" = some s := hvalid.1.exists_get (by decide)
  obtain ⟨name, hname⟩ : ∃ s, e.get "name" = some s := hvalid.1.exists_get (by decide)
  obtain ⟨side, hside⟩ : ∃ s, e.get "normal-side" = some s := hvalid.1.exists_get (by decide)
  obtain ⟨currency, hcurrency⟩ : ∃ s, e.get "currency" = some s := hvalid.1.exists_get (by decide)
  obtain ⟨posting, hposting⟩ : ∃ s, e.get "allow-posting" = some s :=
    hvalid.1.exists_get (by decide)
  obtain ⟨active, hactive⟩ : ∃ s, e.get "active" = some s := hvalid.1.exists_get (by decide)
  simp only [parseAccount, Element.getD, hcode, hname, hside, hcurrency, hposting, hactive,
    Option.getD_some] at h
  obtain ⟨normalSide, hnormal, hnew⟩ := bind_eq_ok.mp h
  obtain rfl := PostingSide.eq_value_of_ofValue hnormal
  obtain ⟨hfields, -⟩ := AccountFields.of_eq_ok (Built.new_eq_ok_iff.mp hnew)
  have hsideEq : a.fields.normalSide = normalSide := congrArg AccountFields.normalSide hfields
  have hpostingEq : a.fields.allowPosting = (posting == "true") :=
    congrArg AccountFields.allowPosting hfields
  have hactiveEq : a.fields.active = (active == "true") := congrArg AccountFields.active hfields
  simp only [accountAttributes, List.forall_mem_cons, hsideEq, hpostingEq, hactiveEq]
  exact ⟨reexports_trimmed rfl hcode (congrArg AccountFields.code hfields),
    reexports_trimmed rfl hname (congrArg AccountFields.name hfields),
    reexports_enumerated rfl hside (requireNonEmptyStr_side normalSide "normal_side"),
    reexports_currency rfl hcurrency (a.valid.currency "currency")
      (congrArg AccountFields.currency hfields),
    reexports_text? rfl (congrArg AccountFields.parentCode hfields),
    reexports_bool rfl hposting, reexports_bool rfl hactive, by simp⟩

theorem period_reexports {p : BookPeriod} (hvalid : ValidLeaf periodDecl e)
    (h : parseBookPeriod e = .ok p) :
    ∃ e', periodElement p = .ok e' ∧ (e.Same SameText e' ↔ KeptElement periodDecl e) := by
  refine leaf_reexports hvalid (fit_period p) (by decide) (by decide) ?_
  obtain ⟨year, hyear⟩ : ∃ s, e.get "fiscal-year" = some s := hvalid.1.exists_get (by decide)
  obtain ⟨quarter, hquarter⟩ : ∃ s, e.get "quarter" = some s := hvalid.1.exists_get (by decide)
  obtain ⟨month, hmonth⟩ : ∃ s, e.get "month" = some s := hvalid.1.exists_get (by decide)
  obtain ⟨first, hfirst⟩ : ∃ s, e.get "start-date" = some s := hvalid.1.exists_get (by decide)
  obtain ⟨last, hlast⟩ : ∃ s, e.get "end-date" = some s := hvalid.1.exists_get (by decide)
  obtain ⟨state, hstate⟩ : ∃ s, e.get "state" = some s := hvalid.1.exists_get (by decide)
  simp only [parseBookPeriod, Element.getD, hyear, hquarter, hmonth, hfirst, hlast, hstate,
    Option.getD_some] at h
  obtain ⟨y, hy, h⟩ := bind_eq_ok.mp h
  obtain ⟨q, hq, h⟩ := bind_eq_ok.mp h
  obtain ⟨m, hm, h⟩ := bind_eq_ok.mp h
  obtain ⟨period, hperiod, h⟩ := bind_eq_ok.mp h
  obtain ⟨startDate, hstart, h⟩ := bind_eq_ok.mp h
  obtain ⟨endDate, hend, h⟩ := bind_eq_ok.mp h
  obtain ⟨periodState, hperiodState, hnew⟩ := bind_eq_ok.mp h
  obtain rfl := FiscalPeriodState.eq_value_of_ofValue hperiodState
  obtain ⟨rfl, rfl, rfl⟩ := FiscalPeriod.fields_of_new hperiod
  obtain ⟨hfields, -⟩ := BookPeriodFields.postInit_eq_ok.mp (Built.new_eq_ok_iff.mp hnew)
  simp only [periodAttributes, ← hfields, List.forall_mem_cons]
  exact ⟨reexports_int rfl hyear hy, reexports_int rfl hquarter hq, reexports_int rfl hmonth hm,
    reexports_date rfl hfirst hstart, reexports_date rfl hlast hend,
    reexports_enumerated rfl hstate (requireNonEmptyStr_periodState periodState "state"), by simp⟩

theorem entry_reexports {x : LedgerEntry} (hvalid : ValidLeaf entryDecl e)
    (h : parseEntry e = .ok x) :
    ∃ e', entryElement x = .ok e' ∧ (e.Same SameText e' ↔ KeptElement entryDecl e) := by
  refine leaf_reexports hvalid (fit_entry x) (by decide) (by decide) ?_
  obtain ⟨account, haccount⟩ : ∃ s, e.get "account-code" = some s :=
    hvalid.1.exists_get (by decide)
  obtain ⟨side, hside⟩ : ∃ s, e.get "side" = some s := hvalid.1.exists_get (by decide)
  obtain ⟨amount, hamount⟩ : ∃ s, e.get "amount" = some s := hvalid.1.exists_get (by decide)
  obtain ⟨currency, hcurrency⟩ : ∃ s, e.get "currency" = some s := hvalid.1.exists_get (by decide)
  simp only [parseEntry, Element.getD, haccount, hside, hamount, hcurrency, Option.getD_some] at h
  obtain ⟨postingSide, hpostingSide, h⟩ := bind_eq_ok.mp h
  obtain ⟨decimal, hdecimal, h⟩ := bind_eq_ok.mp h
  obtain ⟨rate, hrate, hnew⟩ := bind_eq_ok.mp h
  obtain rfl := PostingSide.eq_value_of_ofValue hpostingSide
  obtain ⟨hfields, -⟩ := LedgerEntryFields.of_eq_ok (Built.new_eq_ok_iff.mp hnew)
  have hsideEq : x.fields.side = postingSide := congrArg LedgerEntryFields.side hfields
  have hrateEq : x.fields.taxRate = rate := congrArg LedgerEntryFields.taxRate hfields
  -- the constructor lets only finite amounts through
  have hvalue : decimal.toDec? = some x.decimalValue := by
    rw [← x.valid.amount, congrArg LedgerEntryFields.amount hfields]
    exact congrArg Decimal.toDec? (Platform.decimalValue_makeFluentNumber decimal).symm
  simp only [entryAttributes, List.forall_mem_cons, hsideEq]
  exact ⟨reexports_trimmed rfl haccount (congrArg LedgerEntryFields.accountCode hfields),
    reexports_enumerated rfl hside (requireNonEmptyStr_side postingSide "side"),
    reexports_decimal rfl hamount hdecimal hvalue,
    reexports_currency rfl hcurrency (x.valid.currency "currency")
      (congrArg LedgerEntryFields.currency hfields),
    reexports_text? rfl (congrArg LedgerEntryFields.description hfields),
    reexports_decimal? rfl (hrateEq ▸ hrate) x.valid.taxRate, by simp⟩

theorem transaction_reexports {t : JournalTransaction} (hvalid : ValidTransaction e)
    (h : parseTransaction e = .ok t) :
    ∃ e', transactionElement t = .ok e' ∧ (e.Same SameText e' ↔
      KeptElement transactionDecl e ∧ ∀ c ∈ e.children, KeptElement entryDecl c) := by
  obtain ⟨reference, hreference⟩ : ∃ s, e.get "reference" = some s :=
    hvalid.1.exists_get (by decide)
  obtain ⟨posted, hposted⟩ : ∃ s, e.get "posted-at" = some s := hvalid.1.exists_get (by decide)
  obtain ⟨state, hstate⟩ : ∃ s, e.get "state" = some s := hvalid.1.exists_get (by decide)
  obtain ⟨description, hdescription⟩ : ∃ s, e.get "description" = some s :=
    hvalid.1.exists_get (by decide)
  simp only [parseTransaction, Element.getD, hreference, hposted, hstate, hdescription,
    Option.getD_some] at h
  obtain ⟨period, hperiod, h⟩ := bind_eq_ok.mp h
  obtain ⟨postedAt, hpostedAt, h⟩ := bind_eq_ok.mp h
  obtain ⟨txState, htxState, h⟩ := bind_eq_ok.mp h
  obtain ⟨entries, hentries, hnew⟩ := bind_eq_ok.mp h
  obtain rfl := TransactionState.eq_value_of_ofValue htxState
  obtain ⟨hfields, -⟩ := JournalTransactionFields.of_eq_ok (Built.new_eq_ok_iff.mp hnew)
  have hpostedEq : t.fields.postedAt = postedAt :=
    congrArg JournalTransactionFields.postedAt hfields
  have hstateEq : t.fields.state = txState := congrArg JournalTransactionFields.state hfields
  have hperiodEq : t.fields.period = period := congrArg JournalTransactionFields.period hfields
  have hentriesEq : t.fields.entries = entries := congrArg JournalTransactionFields.entries hfields
  obtain ⟨hyear, hquarter, hmonth⟩ := reexports_period hperiod
  have hattributes : ∀ a ∈ transactionAttributes t, Reexports e a := by
    simp only [transactionAttributes, List.forall_mem_cons, hpostedEq, hstateEq, hperiodEq]
    exact ⟨reexports_trimmed rfl hreference (congrArg JournalTransactionFields.reference hfields),
      reexports_datetime rfl hposted hpostedAt,
      reexports_enumerated rfl hstate (requireNonEmptyStr_state txState "state"),
      reexports_trimmed rfl hdescription (congrArg JournalTransactionFields.description hfields),
      reexports_text? rfl (congrArg JournalTransactionFields.reversalOf hfields),
      hyear, hquarter, hmonth, by simp⟩
  obtain ⟨attributes, hset, hsame⟩ :=
    setAttributes_reexports hvalid.1 (fit_transaction t) (by decide) (by decide) hattributes
  obtain ⟨children, hchildren, hall⟩ := mapM_of_mapM_forall₂_iff hentries fun c hc x hx =>
    entry_reexports (hvalid.2 c hc) hx
  refine ⟨⟨"transaction", attributes, children⟩, ?_, ?_⟩
  · rw [transactionElement, hset, ok_bind, hentriesEq, hchildren]
    rfl
  · refine Element.same_iff.trans ((and_iff_right hvalid.1.1).trans ?_)
    exact and_congr (hsame "transaction" children) hall

/-- A part of a book, which has no attributes of its own. -/
theorem part_reexports {tag : String} {valid kept : Element → Prop} {children : List Element}
    (hvalid : ValidPart tag valid e)
    (hall : List.Forall₂ (Element.Same SameText) e.children children ↔ ∀ c ∈ e.children, kept c) :
    e.Same SameText ⟨tag, [], children⟩ ↔
      ElementDecl.NoHints e ∧ ∀ c ∈ e.children, kept c := by
  have hattributes : e.SameAttributes SameText ⟨tag, [], children⟩ ↔ ElementDecl.NoHints e := by
    rw [ElementDecl.sameAttributes_iff hvalid.1 (fun _ _ => rfl) (by simp [ElementDecl.names])]
    exact and_iff_left (by simp)
  exact Element.same_iff.trans ((and_iff_right hvalid.1.1).trans (and_congr hattributes hall))

omit [Platform] in
/-- The parts of a valid document. -/
theorem ValidLedgerBook.exists_parts {root : Element} (h : ValidLedgerBook root) :
    ∃ accounts periods transactions, root.children = [accounts, periods, transactions] ∧
      ValidPart "accounts" (ValidLeaf accountDecl) accounts ∧
      ValidPart "periods" (ValidLeaf periodDecl) periods ∧
      ValidPart "transactions" ValidTransaction transactions ∧
      partsOf root "accounts" = accounts.children ∧ partsOf root "periods" = periods.children ∧
      partsOf root "transactions" = transactions.children := by
  obtain ⟨-, hparts⟩ := h
  split at hparts
  · next accounts periods transactions hchildren =>
    obtain ⟨haccounts, hperiods, htransactions⟩ := hparts
    have htagA : accounts.tag = "accounts" := haccounts.1.1
    have htagP : periods.tag = "periods" := hperiods.1.1
    have htagT : transactions.tag = "transactions" := htransactions.1.1
    refine ⟨accounts, periods, transactions, hchildren, haccounts, hperiods, htransactions, ?_⟩
    simp [partsOf, Element.find, hchildren, htagA, htagP, htagT]
  · exact hparts.elim

/-! ### Documents -/

variable {root : Element} {book : Book}

/-- The parts of an imported book are those of the document. -/
theorem mapM_of_bookFromElement (h : bookFromElement root = .ok book) :
    (partsOf root "accounts").mapM parseAccount = .ok book.fields.accounts ∧
      (partsOf root "periods").mapM parseBookPeriod = .ok book.fields.periods ∧
        (partsOf root "transactions").mapM parseTransaction = .ok book.fields.transactions := by
  obtain ⟨_, -, h⟩ := bind_eq_ok.mp h
  obtain ⟨_, -, h⟩ := bind_eq_ok.mp h
  obtain ⟨accounts, haccounts, h⟩ := bind_eq_ok.mp h
  obtain ⟨periods, hperiods, h⟩ := bind_eq_ok.mp h
  obtain ⟨transactions, htransactions, h⟩ := bind_eq_ok.mp h
  have hfields := BookFields.kept_of_eq_ok (Built.new_eq_ok_iff.mp h)
  rw [hfields.1, hfields.2.1, hfields.2.2]
  exact ⟨haccounts, hperiods, htransactions⟩

theorem bookAttributes_reexport (hvalid : ledgerBookDecl.Admits root)
    (h : bookFromElement root = .ok book) : ∀ a ∈ bookAttributes book.fields, Reexports root a := by
  obtain ⟨code, hcode⟩ : ∃ s, root.get "code" = some s := hvalid.exists_get (by decide)
  obtain ⟨name, hname⟩ : ∃ s, root.get "name" = some s := hvalid.exists_get (by decide)
  obtain ⟨currency, hcurrency⟩ : ∃ s, root.get "base-currency" = some s :=
    hvalid.exists_get (by decide)
  obtain ⟨pack, hpack⟩ : ∃ s, root.get "legislative-pack" = some s :=
    hvalid.exists_get (by decide)
  obtain ⟨month, hmonth⟩ : ∃ s, root.get "fiscal-start-month" = some s :=
    hvalid.exists_get (by decide)
  simp only [bookFromElement, Element.getD, hcode, hname, hcurrency, hpack, hmonth,
    Option.getD_some] at h
  obtain ⟨startMonth, hstartMonth, h⟩ := bind_eq_ok.mp h
  obtain ⟨calendar, hcalendar, h⟩ := bind_eq_ok.mp h
  obtain ⟨_, -, h⟩ := bind_eq_ok.mp h
  obtain ⟨_, -, h⟩ := bind_eq_ok.mp h
  obtain ⟨_, -, h⟩ := bind_eq_ok.mp h
  obtain ⟨hfields, -⟩ := BookFields.of_eq_ok (Built.new_eq_ok_iff.mp h)
  have hcalendarEq : book.fields.fiscalCalendar.startMonth = startMonth := by
    rw [congrArg BookFields.fiscalCalendar hfields]
    exact FiscalCalendar.startMonth_of_new hcalendar
  simp only [bookAttributes, List.forall_mem_cons, hcalendarEq]
  exact ⟨reexports_trimmed rfl hcode (congrArg BookFields.code hfields),
    reexports_trimmed rfl hname (congrArg BookFields.name hfields),
    reexports_currency rfl hcurrency (book.valid.baseCurrency "base_currency")
      (congrArg BookFields.baseCurrency hfields),
    reexports_trimmed rfl hpack (congrArg BookFields.legislativePack hfields),
    reexports_int rfl hmonth hstartMonth, by simp⟩

/-- The parts of a document are written again, element by element. -/
theorem children_reexport (hvalid : ValidLedgerBook root) (h : bookFromElement root = .ok book) :
    ∃ accounts periods transactions,
      book.fields.accounts.mapM accountElement = .ok accounts ∧
      book.fields.periods.mapM periodElement = .ok periods ∧
      book.fields.transactions.mapM transactionElement = .ok transactions ∧
      (List.Forall₂ (Element.Same SameText) root.children [⟨"accounts", [], accounts⟩,
          ⟨"periods", [], periods⟩, ⟨"transactions", [], transactions⟩] ↔
        (∀ part ∈ root.children, ElementDecl.NoHints part) ∧
        (∀ e ∈ partsOf root "accounts", KeptElement accountDecl e) ∧
        (∀ e ∈ partsOf root "periods", KeptElement periodDecl e) ∧
        ∀ e ∈ partsOf root "transactions", KeptElement transactionDecl e ∧
          ∀ c ∈ e.children, KeptElement entryDecl c) := by
  obtain ⟨partA, partP, partT, hchildren, hvalidA, hvalidP, hvalidT, hpartA, hpartP, hpartT⟩ :=
    hvalid.exists_parts
  obtain ⟨haccounts, hperiods, htransactions⟩ := mapM_of_bookFromElement h
  rw [hpartA] at haccounts
  rw [hpartP] at hperiods
  rw [hpartT] at htransactions
  obtain ⟨accounts, hwrittenA, hallA⟩ := mapM_of_mapM_forall₂_iff haccounts fun e he a ha =>
    account_reexports (hvalidA.2 e he) ha
  obtain ⟨periods, hwrittenP, hallP⟩ := mapM_of_mapM_forall₂_iff hperiods fun e he p hp =>
    period_reexports (hvalidP.2 e he) hp
  obtain ⟨transactions, hwrittenT, hallT⟩ :=
    mapM_of_mapM_forall₂_iff htransactions fun e he t ht =>
      transaction_reexports (hvalidT.2 e he) ht
  refine ⟨accounts, periods, transactions, hwrittenA, hwrittenP, hwrittenT, ?_⟩
  rw [hchildren, hpartA, hpartP, hpartT]
  simp only [List.forall₂_cons, List.forall₂_nil_right_iff, and_true, List.forall_mem_cons,
    part_reexports hvalidA hallA, part_reexports hvalidP hallP, part_reexports hvalidT hallT]
  constructor
  · rintro ⟨⟨hhintsA, hkeptA⟩, ⟨hhintsP, hkeptP⟩, hhintsT, hkeptT⟩
    exact ⟨⟨hhintsA, hhintsP, hhintsT, by simp⟩, hkeptA, hkeptP, hkeptT⟩
  · rintro ⟨⟨hhintsA, hhintsP, hhintsT, -⟩, hkeptA, hkeptP, hkeptT⟩
    exact ⟨⟨hhintsA, hkeptA⟩, ⟨hhintsP, hkeptP⟩, hhintsT, hkeptT⟩

omit [Platform] in
theorem kept_iff : Kept root ↔ KeptElement ledgerBookDecl root ∧
    (∀ part ∈ root.children, ElementDecl.NoHints part) ∧
    (∀ e ∈ partsOf root "accounts", KeptElement accountDecl e) ∧
    (∀ e ∈ partsOf root "periods", KeptElement periodDecl e) ∧
    ∀ e ∈ partsOf root "transactions", KeptElement transactionDecl e ∧
      ∀ c ∈ e.children, KeptElement entryDecl c := by
  constructor
  · rintro ⟨hbook, hparts, haccounts, hperiods, htransactions⟩
    exact ⟨hbook, hparts, haccounts, hperiods, htransactions⟩
  · rintro ⟨hbook, hparts, haccounts, hperiods, htransactions⟩
    exact ⟨hbook, hparts, haccounts, hperiods, htransactions⟩

/-- **An accepted document is exported again, the same up to spelling, exactly when** its
attributes are kept. -/
theorem reexport_iff (h : bookFromSaft (.document root) = .ok book) :
    (∃ artifact, toXml book = .ok artifact ∧ root.Same SameText artifact.content) ↔ Kept root := by
  obtain ⟨hvalid, hbook⟩ := bookFromSaft_eq_ok.mp h
  obtain ⟨attributes, hset, hsame⟩ := setAttributes_reexports hvalid.1 (fit_book book.fields)
    (by decide) (by decide) (bookAttributes_reexport hvalid.1 hbook)
  obtain ⟨accounts, periods, transactions, haccounts, hperiods, htransactions, hparts⟩ :=
    children_reexport hvalid hbook
  have hdocument : bookElement book.fields = .ok ⟨"ledger-book", attributes,
      [⟨"accounts", [], accounts⟩, ⟨"periods", [], periods⟩,
        ⟨"transactions", [], transactions⟩]⟩ := by
    rw [bookElement, hset, ok_bind, haccounts, ok_bind, hperiods, ok_bind, htransactions]
    rfl
  have hexported := toXml_eq_ok.mpr ⟨_, hdocument, rfl⟩
  have hroot : root.Same SameText ⟨"ledger-book", attributes,
      [⟨"accounts", [], accounts⟩, ⟨"periods", [], periods⟩,
        ⟨"transactions", [], transactions⟩]⟩ ↔ Kept root := by
    refine Element.same_iff.trans ((and_iff_right hvalid.1.1).trans ?_)
    exact (and_congr (hsame _ _) hparts).trans kept_iff.symm
  rw [← hroot]
  constructor
  · rintro ⟨artifact, hartifact, hsame⟩
    cases hexported.symm.trans hartifact
    exact hsame
  · intro hsame
    exact ⟨_, hexported, hsame⟩

end

/-! ### Evaluated -/

namespace Reference

/-- An account of the document. -/
def chartAccount (code normalSide posting active : XmlText) : Element where
  tag := "account"
  attributes := [("code", code), ("name", ⟨"Cash", by decide⟩), ("normal-side", normalSide),
    ("currency", ⟨"EUR", by decide⟩), ("allow-posting", posting), ("active", active)]
  children := []

/-- An entry of the document. -/
def chartEntry (account side amount : XmlText) : Element where
  tag := "entry"
  attributes := [("account-code", account), ("side", side), ("amount", amount),
    ("currency", ⟨"eur", by decide⟩), ("tax-rate", ⟨"2_1e-2", by decide⟩)]
  children := []

/-- A document with two accounts, a period and a transaction of two entries. -/
def chart (posting active : XmlText) : Element where
  tag := "ledger-book"
  attributes := [("code", ⟨"BK", by decide⟩), ("name", ⟨" Bank ", by decide⟩),
    ("base-currency", ⟨"eur", by decide⟩), ("legislative-pack", ⟨"lv", by decide⟩),
    ("fiscal-start-month", ⟨"+01", by decide⟩)]
  children := [
    { tag := "accounts"
      attributes := []
      children := [chartAccount ⟨"1000", by decide⟩ ⟨"Dr", by decide⟩ posting active,
        chartAccount ⟨"2000", by decide⟩ ⟨"Cr", by decide⟩ ⟨"true", by decide⟩
          ⟨"true", by decide⟩] },
    { tag := "periods"
      attributes := []
      children := [
        { tag := "period"
          attributes := [("fiscal-year", ⟨"2026", by decide⟩), ("quarter", ⟨"1", by decide⟩),
            ("month", ⟨" 1", by decide⟩), ("start-date", ⟨"2026-01-01", by decide⟩),
            ("end-date", ⟨"2026-01-31", by decide⟩), ("state", ⟨"open", by decide⟩)]
          children := [] }] },
    { tag := "transactions"
      attributes := []
      children := [
        { tag := "transaction"
          attributes := [("reference", ⟨" T1", by decide⟩),
            ("posted-at", ⟨"2026-01-15T12:00:00+00:00", by decide⟩),
            ("state", ⟨"posted", by decide⟩), ("description", ⟨"A sale", by decide⟩),
            ("period-fiscal-year", ⟨"2026", by decide⟩), ("period-quarter", ⟨"1", by decide⟩),
            ("period-month", ⟨"01", by decide⟩)]
          children := [chartEntry ⟨"1000", by decide⟩ ⟨"Dr", by decide⟩ ⟨" 1e1 ", by decide⟩,
            chartEntry ⟨"2000", by decide⟩ ⟨"Cr", by decide⟩ ⟨"١٠.00", by decide⟩] }] }]

/-- A document that was not written by the export is kept by an import and an export. -/
theorem chart_kept : ∃ book,
    bookFromSaft (.document (chart ⟨"true", by decide⟩ ⟨" False", by decide⟩)) = .ok book ∧
      ∃ artifact, toXml book = .ok artifact ∧
        (chart ⟨"true", by decide⟩ ⟨" False", by decide⟩).Same SameText artifact.content := by
  obtain ⟨book, h⟩ :
      (bookFromSaft (.document (chart ⟨"true", by decide⟩ ⟨" False", by decide⟩))).Succeeds :=
    ⟨_, by rfl⟩
  exact ⟨book, h, (reexport_iff h).mpr (kept_iff.mpr (by decide))⟩

/-- An account open to postings is closed by an import and an export. -/
theorem chart_closed : ∃ book artifact,
    bookFromSaft (.document (chart ⟨"TRUE", by decide⟩ ⟨"true", by decide⟩)) = .ok book ∧
      toXml book = .ok artifact ∧
        ¬ (chart ⟨"TRUE", by decide⟩ ⟨"true", by decide⟩).Same SameText artifact.content := by
  refine ⟨_, _, by rfl, by rfl, fun hsame => ?_⟩
  obtain ⟨-, -, hparts⟩ := Element.same_iff.mp hsame
  obtain ⟨-, -, haccounts⟩ := Element.same_iff.mp (List.forall₂_cons.mp hparts).1
  obtain ⟨-, hattributes, -⟩ := Element.same_iff.mp (List.forall₂_cons.mp haccounts).1
  obtain ⟨flag, himported, hexported⟩ : Reading.boolean.Same "TRUE" "false" :=
    rel_some_iff.mp (hattributes "allow-posting")
  cases flag
  · exact absurd himported (by decide)
  · exact absurd hexported (by decide)

end Reference

end FinestVX
