import FinestVX.Core.JsonMappings
import FinestVX.Export.XmlRoundTrip

/-!
# Ledger JSON

The export of a book as JSON, and what a reader of JSON makes of it.

## Main definitions

* `TextArtifact` — an artifact of the exporter, as bytes.
* `toJson` — `LedgerExporter.to_json`.
* `readJson` — `book_from_mapping(json.loads(content))`.

## Main results

* `toJson_succeeds_iff` — what is exported.
* `readJson_toJson_iff` — **an exported book is read back** exactly when its periods have
  plain dates.
* `toJson_eq_iff` — **the text identifies the book**, up to the spelling of amounts.
* `deserialized` — which values are books.
-/

namespace FinestVX

open Except JsonText

/-- An artifact of the exporter, as bytes. -/
structure TextArtifact where
  formatName : String
  mediaType : String
  content : ByteArray

/-- The value of a JSON document in UTF-8. -/
def loadsUtf8? (content : ByteArray) : Option Value := (String.fromUTF8? content).bind loads?

theorem fromUTF8?_toByteArray (s : String) : String.fromUTF8? s.toByteArray = some s :=
  dif_pos s.isValidUTF8

/-! ### The integers of a book -/

def PeriodPayload.integers (p : PeriodPayload) : List ℤ := [p.fiscalYear, p.quarter, p.month]

/-- The integers of a book: its first month, and those of the periods. -/
def BookPayload.integers (b : BookPayload) : List ℤ :=
  b.startMonth :: (b.periods.flatMap (·.period.integers) ++
    b.transactions.flatMap fun t => t.period.elim [] PeriodPayload.integers)

/-- The integer has no more digits than can be converted to a text. -/
def IsConvertible (n : ℤ) : Prop := (Integer.digits n).length ≤ Integer.maxStrDigits

instance : DecidablePred IsConvertible := fun _ => Nat.decLe _ _

@[simp] theorem convertible_ofText? (s : Option String) : (Value.ofText? s).convertible = true := by
  cases s <;> rfl

theorem PeriodPayload.convertible_toValue (p : PeriodPayload) :
    p.toValue.convertible = true ↔ ∀ n ∈ p.integers, IsConvertible n := by
  simp [toValue, members, Value.convertible, convertibleMembers, integers, IsConvertible]

theorem EntryPayload.convertible_toValue (e : EntryPayload) : e.toValue.convertible = true := by
  simp [toValue, members, Value.convertible, convertibleMembers]

theorem TransactionPayload.convertible_toValue (t : TransactionPayload) :
    t.toValue.convertible = true ↔ ∀ n ∈ t.period.elim [] PeriodPayload.integers,
      IsConvertible n := by
  have hentries : convertibleItems (t.entries.map EntryPayload.toValue) = true :=
    convertibleItems_iff.mpr (List.forall_mem_map.mpr fun e _ => e.convertible_toValue)
  have hperiod : (PeriodPayload.toValue? t.period).convertible = true ↔
      ∀ n ∈ t.period.elim [] PeriodPayload.integers, IsConvertible n := by
    cases t.period with
    | none => simp [PeriodPayload.toValue?, Value.convertible]
    | some p => exact p.convertible_toValue
  rw [← hperiod]
  simp [toValue, members, Value.convertible, convertibleMembers, hentries]

theorem BookPayload.convertible_toValue (b : BookPayload) :
    b.toValue.convertible = true ↔ ∀ n ∈ b.integers, IsConvertible n := by
  have haccounts : convertibleItems (b.accounts.map AccountPayload.toValue) = true := by
    refine convertibleItems_iff.mpr (List.forall_mem_map.mpr fun a _ => ?_)
    simp [AccountPayload.toValue, AccountPayload.members, Value.convertible, convertibleMembers]
  have hperiods : convertibleItems (b.periods.map BookPeriodPayload.toValue) = true ↔
      ∀ n ∈ b.periods.flatMap (·.period.integers), IsConvertible n := by
    rw [convertibleItems_iff, List.forall_mem_map, List.forall_mem_flatMap]
    refine forall₂_congr fun p _ => ?_
    rw [← p.period.convertible_toValue]
    simp [BookPeriodPayload.toValue, BookPeriodPayload.members, Value.convertible,
      convertibleMembers]
  have htransactions : convertibleItems (b.transactions.map TransactionPayload.toValue) = true ↔
      ∀ n ∈ b.transactions.flatMap fun t => t.period.elim [] PeriodPayload.integers,
        IsConvertible n := by
    rw [convertibleItems_iff, List.forall_mem_map, List.forall_mem_flatMap]
    exact forall₂_congr fun t _ => t.convertible_toValue
  rw [integers, List.forall_mem_cons, List.forall_mem_append, ← hperiods, ← htransactions]
  simp [toValue, members, calendar, Value.convertible, convertibleMembers, haccounts, IsConvertible]

/-! ### No object has a key twice -/

theorem PeriodPayload.distinct_toValue (p : PeriodPayload) : p.toValue.distinct :=
  ⟨p.nodup, trivial, trivial, trivial, trivial⟩

@[simp] theorem distinct_ofText? (s : Option String) : (Value.ofText? s).distinct := by
  cases s <;> trivial

theorem EntryPayload.distinct_toValue (e : EntryPayload) : e.toValue.distinct :=
  ⟨e.nodup, trivial, trivial, trivial, trivial, distinct_ofText? _, distinct_ofText? _, trivial⟩

theorem TransactionPayload.distinct_toValue (t : TransactionPayload) : t.toValue.distinct := by
  have hentries : distinctItems (t.entries.map EntryPayload.toValue) :=
    distinctItems_iff.mpr (List.forall_mem_map.mpr fun e _ => e.distinct_toValue)
  have hperiod : (PeriodPayload.toValue? t.period).distinct := by
    cases t.period with
    | none => trivial
    | some p => exact p.distinct_toValue
  exact ⟨t.nodup, trivial, trivial, trivial, hentries, hperiod, trivial, distinct_ofText? _,
    trivial⟩

theorem AccountPayload.distinct_toValue (a : AccountPayload) : a.toValue.distinct :=
  ⟨a.nodup, trivial, trivial, trivial, trivial, distinct_ofText? _, trivial, trivial, trivial⟩

theorem BookPeriodPayload.distinct_toValue (p : BookPeriodPayload) : p.toValue.distinct :=
  ⟨p.nodup, p.period.distinct_toValue, trivial, trivial, trivial, trivial⟩

theorem BookPayload.distinct_toValue (b : BookPayload) : b.toValue.distinct := by
  have hcalendar : (Value.object b.calendar).distinct :=
    ⟨(by decide : ["start_month"].Nodup), trivial, trivial⟩
  have haccounts : distinctItems (b.accounts.map AccountPayload.toValue) :=
    distinctItems_iff.mpr (List.forall_mem_map.mpr fun a _ => a.distinct_toValue)
  have hperiods : distinctItems (b.periods.map BookPeriodPayload.toValue) :=
    distinctItems_iff.mpr (List.forall_mem_map.mpr fun p _ => p.distinct_toValue)
  have htransactions : distinctItems (b.transactions.map TransactionPayload.toValue) :=
    distinctItems_iff.mpr (List.forall_mem_map.mpr fun t _ => t.distinct_toValue)
  exact ⟨b.nodup, trivial, trivial, trivial, hcalendar, trivial, haccounts, hperiods,
    htransactions, trivial⟩

/-! ### Export -/

section

variable [Platform]

/-- `LedgerExporter.to_json` -/
def toJson (book : Book) : Except PyError TextArtifact :=
  match dumps? false (bookToMapping book).toValue with
  | some text => .ok ⟨"json", "application/json", text.toByteArray⟩
  | none => .error (.valueError "Exceeds the limit (4300 digits) for integer string conversion")

theorem toJson_eq_ok {book : Book} {artifact : TextArtifact} : toJson book = .ok artifact ↔
    ∃ text, dumps? false (bookToMapping book).toValue = some text ∧
      artifact = ⟨"json", "application/json", text.toByteArray⟩ := by
  unfold toJson
  cases dumps? false (bookToMapping book).toValue with
  | none => simp
  | some text => simp [eq_comm]

/-- **What is exported**: the books whose integers can be converted to texts. -/
theorem toJson_succeeds_iff {book : Book} :
    (toJson book).Succeeds ↔ ∀ n ∈ (bookToMapping book).integers, IsConvertible n := by
  rw [← BookPayload.convertible_toValue]
  constructor
  · rintro ⟨artifact, h⟩
    obtain ⟨text, htext, -⟩ := toJson_eq_ok.mp h
    by_contra hnot
    rw [dumps?, if_neg hnot] at htext
    cases htext
  · intro h
    exact ⟨_, toJson_eq_ok.mpr ⟨_, if_pos h, rfl⟩⟩

/-- A reader of JSON gets the mapping of the book. -/
theorem loads_toJson {book : Book} {artifact : TextArtifact} (h : toJson book = .ok artifact) :
    loadsUtf8? artifact.content = some (bookToMapping book).toValue.sortKeys := by
  obtain ⟨text, htext, rfl⟩ := toJson_eq_ok.mp h
  rw [loadsUtf8?, fromUTF8?_toByteArray, Option.bind_some]
  exact loads?_dumps? (BookPayload.distinct_toValue _) htext

/-! ### Which books have the same text -/

theorem isoformat_injective : Function.Injective DateValue.isoformat := by
  have hne : ∀ (d : Date) (t : DateTime), d.isoformat ≠ t.isoformat := by
    intro d t h
    obtain ⟨msg, hmsg⟩ := Platform.dateFromIsoformat_datetime t
    have hread := Platform.dateFromIsoformat_isoformat d
    rw [h, hmsg] at hread
    cases hread
  intro a b h
  cases a with
  | date d =>
    cases b with
    | date e =>
      have hd := Platform.dateFromIsoformat_isoformat d
      rw [show d.isoformat = e.isoformat from h, Platform.dateFromIsoformat_isoformat] at hd
      cases hd
      rfl
    | datetime t => exact absurd h (hne d t)
  | datetime t =>
    cases b with
    | date e => exact absurd h.symm (hne e t)
    | datetime u =>
      have ht := Platform.datetimeFromIsoformat_isoformat t
      rw [show t.isoformat = u.isoformat from h, Platform.datetimeFromIsoformat_isoformat] at ht
      cases ht
      rfl

theorem accountToMapping_injective : Function.Injective accountToMapping := by
  intro a b h
  have ha := accountFromMapping_accountToMapping a
  rw [h, accountFromMapping_accountToMapping] at ha
  exact (Except.ok.inj ha).symm

theorem bookPeriodToMapping_injective : Function.Injective bookPeriodToMapping := by
  intro p q h
  simp only [bookPeriodToMapping, BookPeriodPayload.mk.injEq] at h
  obtain ⟨hperiod, hstart, hend, hstate⟩ := h
  have hvalue := congrArg FiscalPeriodState.ofValue hstate
  rw [FiscalPeriodState.ofValue_value, FiscalPeriodState.ofValue_value, ok.injEq] at hvalue
  obtain ⟨⟨period, start, stop, state⟩, hbuilt⟩ := p
  obtain ⟨⟨period', start', stop', state'⟩, hbuilt'⟩ := q
  obtain rfl : period = period' := periodToMapping_injective hperiod
  obtain rfl : start = start' := isoformat_injective hstart
  obtain rfl : stop = stop' := isoformat_injective hend
  obtain rfl : state = state' := hvalue
  rfl

/-- Two transactions have the same mapping if they are read back as the same one. -/
theorem transactionToMapping_eq_iff {t u : JournalTransaction} :
    transactionToMapping t = transactionToMapping u ↔ t.readBack = u.readBack := by
  constructor
  · intro h
    have ht := transactionFromMapping_transactionToMapping t
    rw [h, transactionFromMapping_transactionToMapping] at ht
    exact (ok.inj ht).symm
  · intro h
    rw [← transactionToMapping_readBack t, h, transactionToMapping_readBack]

omit [Platform] in
theorem map_eq_map_iff_of {α β γ : Type} {f : α → β} {g : α → γ}
    (h : ∀ a b, f a = f b ↔ g a = g b) (l l' : List α) : l.map f = l'.map f ↔ l.map g = l'.map g := by
  induction l generalizing l' with
  | nil => cases l' <;> simp
  | cons a l ih =>
    cases l' with
    | nil => simp
    | cons b l' => simp [h, ih]

/-- **The mapping identifies the book**, up to the spelling of amounts. -/
theorem bookToMapping_eq_iff {b c : Book} :
    bookToMapping b = bookToMapping c ↔ b.fields.readBack = c.fields.readBack := by
  have htransactions := map_eq_map_iff_of (fun t u => transactionToMapping_eq_iff (t := t) (u := u))
    b.fields.transactions c.fields.transactions
  constructor
  · intro h
    simp only [bookToMapping, BookFields.toMapping, BookPayload.mk.injEq] at h
    obtain ⟨hcode, hname, hcurrency, hmonth, hpack, haccounts, hperiods, htransactions'⟩ := h
    rw [htransactions] at htransactions'
    have haccounts' := List.map_injective_iff.mpr accountToMapping_injective haccounts
    have hperiods' := List.map_injective_iff.mpr bookPeriodToMapping_injective hperiods
    have hcalendar : b.fields.fiscalCalendar = c.fields.fiscalCalendar := by
      have hb := b.fields.fiscalCalendar.new_fields
      rw [hmonth, FiscalCalendar.new_fields] at hb
      exact (ok.inj hb).symm
    simp only [BookFields.readBack, BookFields.mk.injEq]
    exact ⟨hcode, hname, hcurrency, hcalendar, hpack, haccounts', hperiods', htransactions'⟩
  · intro h
    simp only [BookFields.readBack, BookFields.mk.injEq] at h
    obtain ⟨hcode, hname, hcurrency, hcalendar, hpack, haccounts, hperiods, hreadBack⟩ := h
    simp only [bookToMapping, BookFields.toMapping, BookPayload.mk.injEq]
    exact ⟨hcode, hname, hcurrency, by rw [hcalendar], hpack, by rw [haccounts], by rw [hperiods],
      htransactions.mpr hreadBack⟩

/-- **The text identifies the book**: two books are exported as the same bytes just when they
agree in everything, up to the spelling of amounts. -/
theorem toJson_eq_iff {b c : Book} {artifact : TextArtifact} (h : toJson b = .ok artifact) :
    toJson c = .ok artifact ↔ c.fields.readBack = b.fields.readBack := by
  rw [← bookToMapping_eq_iff]
  constructor
  · intro hc
    have hload := loads_toJson hc
    rw [loads_toJson h, Option.some_inj] at hload
    have hpayload := congrArg bookPayload? hload
    rw [bookPayload?_toValue, bookPayload?_toValue, Option.some_inj] at hpayload
    exact hpayload.symm
  · intro heq
    rw [toJson, heq]
    exact h

/-- What was read back is read back once more. -/
theorem BookFields.readBack_readBack (b : BookFields) : b.readBack.readBack = b.readBack := by
  simp only [readBack, List.map_map]
  congr 1
  refine List.map_congr_left fun t _ => ?_
  exact transactionToMapping_eq_iff.mp (transactionToMapping_readBack t)

end

/-! ### Reading -/

section

variable [ValuePlatform]

/-- `book_from_mapping(json.loads(content))` -/
def readJson (content : ByteArray) : Except PyError Book :=
  match loadsUtf8? content with
  | some v => bookFromValue v
  | none => .error (.valueError "the content is no JSON text")

theorem readJson_toJson {book : Book} {artifact : TextArtifact} (h : toJson book = .ok artifact) :
    readJson artifact.content = bookFromMapping (bookToMapping book) := by
  rw [readJson, loads_toJson h]
  exact bookFromValue_of_payload (bookPayload?_toValue _)

/-- A book that comes back from JSON. -/
structure JsonRoundTrip (book : Book) (artifact : TextArtifact) (imported : Book) : Prop where
  read : readJson artifact.content = .ok imported
  /-- Everything is kept, amounts with their values. -/
  fields : imported.fields = book.fields.readBack
  /-- The same bytes are exported again. -/
  again : toJson imported = .ok artifact
  /-- No other book has these bytes. -/
  identified : ∀ other : Book, toJson other = .ok artifact ↔
    other.fields.readBack = imported.fields

/-- A book with plain periods comes back. -/
theorem exists_jsonRoundTrip {book : Book} {artifact : TextArtifact}
    (h : toJson book = .ok artifact) (hplain : ∀ p ∈ book.fields.periods, p.IsPlain) :
    ∃ imported, JsonRoundTrip book artifact imported := by
  have hnamed : book.fields.Named :=
    { code := book.valid.code
      name := book.valid.name
      baseCurrencyText := book.valid.baseCurrencyText
      legislativePack := book.valid.legislativePack }
  have hread : bookFromMapping (bookToMapping book) =
      .ok ⟨book.fields.readBack, book.fields.readBack, book.valid.readBack.postInit⟩ :=
    (bookFromMapping_toMapping hnamed hplain).trans
      (Built.new_eq_ok_iff.mpr book.valid.readBack.postInit)
  refine ⟨_, (readJson_toJson h).trans hread, rfl, ?_, fun other => toJson_eq_iff h⟩
  exact (toJson_eq_iff h).mpr book.fields.readBack_readBack

/-- **An exported book is read back** exactly when the bounds of its periods are dates and
not datetimes. -/
theorem readJson_toJson_iff {book : Book} {artifact : TextArtifact}
    (h : toJson book = .ok artifact) :
    (∃ imported, JsonRoundTrip book artifact imported) ↔
      ∀ p ∈ book.fields.periods, p.IsPlain := by
  constructor
  · rintro ⟨imported, hround⟩ p hp
    by_contra hplain
    have hread := hround.read
    rw [readJson_toJson h] at hread
    exact bookFromMapping_toMapping_fails hp hplain ⟨_, hread⟩
  · exact exists_jsonRoundTrip h

/-! ### Which values are books -/

theorem isPlain_of_bookPeriodFromMapping {data : BookPeriodPayload} {p : BookPeriod}
    (h : bookPeriodFromMapping data = .ok p) : p.IsPlain := by
  obtain ⟨_, -, h⟩ := bind_eq_ok.mp h
  obtain ⟨start, -, h⟩ := bind_eq_ok.mp h
  obtain ⟨_, -, h⟩ := bind_eq_ok.mp h
  obtain ⟨_, -, h⟩ := bind_eq_ok.mp h
  obtain ⟨_, -, h⟩ := bind_eq_ok.mp h
  have hfields := (BookPeriodFields.postInit_eq_ok.mp (Built.new_eq_ok_iff.mp h)).1
  exact ⟨start, by rw [← hfields]⟩

/-- The periods of a book that was read are plain. -/
theorem isPlain_of_bookFromMapping {data : BookPayload} {b : Book}
    (h : bookFromMapping data = .ok b) : ∀ p ∈ b.fields.periods, p.IsPlain := by
  obtain ⟨_, -, h⟩ := bind_eq_ok.mp h
  obtain ⟨_, -, h⟩ := bind_eq_ok.mp h
  obtain ⟨_, -, h⟩ := bind_eq_ok.mp h
  obtain ⟨_, -, h⟩ := bind_eq_ok.mp h
  obtain ⟨_, -, h⟩ := bind_eq_ok.mp h
  obtain ⟨_, -, h⟩ := bind_eq_ok.mp h
  obtain ⟨periods, hperiods, h⟩ := bind_eq_ok.mp h
  obtain ⟨_, -, h⟩ := bind_eq_ok.mp h
  have hkept := (BookFields.kept_of_eq_ok (Built.new_eq_ok_iff.mp h)).2.1
  intro p hp
  rw [hkept] at hp
  obtain ⟨data, -, hread⟩ := exists_of_mapM_eq_ok hperiods p hp
  exact isPlain_of_bookPeriodFromMapping hread

/-- What the deserializer makes of a value. -/
structure Deserialized (v : Value) : Prop where
  /-- A value that shows a book is treated as this book, errors included. -/
  shown : ∀ p, bookPayload? v = some p → bookFromValue v = bookFromMapping p
  /-- Anything else is refused. -/
  refused : bookPayload? v = none → ¬ (bookFromValue v).Succeeds
  /-- What was accepted is exported in a form that is read back and exported unchanged. -/
  stable : ∀ book artifact, bookFromValue v = .ok book → toJson book = .ok artifact →
    ∃ imported, JsonRoundTrip book artifact imported

/-- **Which values are books**: those of the right shape whose payload is accepted. -/
theorem deserialized (v : Value) : Deserialized v where
  shown _ := bookFromValue_of_payload
  refused := by
    rintro hnone ⟨b, hb⟩
    obtain ⟨p, hp⟩ := exists_bookPayload hb
    rw [hnone] at hp
    cases hp
  stable book artifact hbook hartifact := by
    obtain ⟨p, hp⟩ := exists_bookPayload hbook
    rw [bookFromValue_of_payload hp] at hbook
    exact exists_jsonRoundTrip hartifact (isPlain_of_bookFromMapping hbook)

end

/-! ### Evaluated -/

namespace Reference

/-- The external checks on values, implemented. -/
scoped instance valuePlatform : ValuePlatform where
  toPlatform := platform
  requireStr v f :=
    match v with
    | .string s => requireNonEmptyStr s f
    | v => .error (.typeError s!"{f} must be str, got {typeName v}")
  normalizeOptional v f :=
    match v with
    | .null => .ok none
    | .string s => (requireNonEmptyStr s f).map some
    | v => .error (.typeError s!"{f} must be str, got {typeName v}")
  requireInt v f :=
    match v with
    | .number n => .ok n
    | v => .error (.typeError s!"{f} must be int, got {typeName v}")
  requireStr_string _ _ := rfl
  requireStr_other v f hv := by
    cases v with
    | string s => exact absurd rfl (hv s)
    | null | bool b | number n | float bits | array l | object d => exact ⟨_, rfl⟩
  normalizeOptional_ofText s f := by cases s <;> rfl
  normalizeOptional_other v f hv := by
    cases v with
    | null => exact absurd rfl (hv none)
    | string s => exact absurd rfl (hv (some s))
    | bool b | number n | float bits | array l | object d => exact ⟨_, rfl⟩
  requireInt_number _ _ := rfl
  requireInt_other v f hv := by
    cases v with
    | number n => exact absurd rfl (hv n)
    | null | bool b | float bits | string s | array l | object d => exact ⟨_, rfl⟩

theorem toJson_plainBook : (toJson plainBook).Succeeds := toJson_succeeds_iff.mpr (by decide)

/-- A book that is exported is read back. -/
theorem readJson_plainBook : ∃ artifact imported, toJson plainBook = .ok artifact ∧
    JsonRoundTrip plainBook artifact imported := by
  obtain ⟨artifact, h⟩ := toJson_plainBook
  obtain ⟨imported, hround⟩ := (readJson_toJson_iff h).mpr (by decide)
  exact ⟨artifact, imported, h, hround⟩

end Reference

end FinestVX
