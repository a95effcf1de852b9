import FinestVX.Export.LedgerXml
import FinestVX.Persistence.RoundTrip

/-!
# The XML round trip

A book that `to_xml` has exported is imported again by `book_from_saft`, with its parts in
the order they were in, when its periods are bounded by dates.  The constructor of a period
takes datetimes for dates, though; the text of a datetime is exported as a `start-date`, and
no such text is read back as a date.

## Main definitions

* `SameInOrder` — two books that differ at most in the notation of their decimals.
* `XmlRoundTrip` — the import of an exported document returned the same book.

## Main results

* `parseAccount_accountElement` and its siblings — each element is read back.
* `xmlRoundTrip_iff` — **an exported book is imported again exactly when** the bounds of its
  periods are dates.
-/

namespace FinestVX

open Except Xml

section

variable [Platform]

/-! ### Attributes -/

/-- An integer that was written is read. -/
theorem intOfText_int {name : String} {n : ℤ} {e : Element}
    (h : (Attribute.int name n).value = .ok (e.get name)) (default : String) :
    intOfText (e.getD name default) = .ok n := by
  obtain ⟨s, hs, htext⟩ := Attribute.int_value h
  rw [Element.getD, hs, Option.getD_some, intOfText, Integer.ofText?_of_toText? htext]

omit [Platform] in
/-- A text that was written is read. -/
theorem getD_text {name value : String} {e : Element}
    (h : (Attribute.text name value).value = .ok (e.get name)) (default : String) :
    e.getD name default = value := by
  rw [Element.getD, ← Except.ok.inj h, Option.getD_some]

omit [Platform] in
/-- A text or its absence is read. -/
theorem get_text? {name : String} {value : Option String} {e : Element}
    (h : (Attribute.text? name value).value = .ok (e.get name)) : e.get name = value :=
  (Except.ok.inj h).symm

/-! ### Elements -/

/-- An account that was written is read. -/
theorem parseAccount_accountElement {a : Account} {e : Element} (h : accountElement a = .ok e) :
    parseAccount e = .ok a := by
  obtain ⟨-, -, hshows⟩ := accountElement_eq_ok h
  have hvalues := hshows.value
  simp only [accountAttributes, List.forall_mem_cons] at hvalues
  obtain ⟨hcode, hname, hside, hcurrency, hparent, hposting, hactive, -⟩ := hvalues
  have hflag : ∀ flag : Bool, ((if flag then "true" else "false") == "true") = flag := by decide
  simp only [parseAccount, getD_text hcode, getD_text hname, getD_text hside,
    getD_text hcurrency, get_text? hparent, getD_text hposting, getD_text hactive,
    PostingSide.ofValue_value, ok_bind, hflag]
  exact Built.new_fields (fun _ _ => AccountFields.postInit_of_eq_ok) a

/-- The texts of a period that was written. -/
theorem parseBookPeriod_eq {p : BookPeriod} {e : Element} (h : periodElement p = .ok e) :
    parseBookPeriod e = (do
      let startDate ← dateFromIsoformat p.fields.startDate.isoformat
      let endDate ← dateFromIsoformat p.fields.endDate.isoformat
      Built.new BookPeriodFields.postInit
        { period := p.fields.period, startDate := .date startDate, endDate := .date endDate,
          state := p.fields.state }) := by
  obtain ⟨-, -, hshows⟩ := periodElement_eq_ok h
  have hvalues := hshows.value
  simp only [periodAttributes, List.forall_mem_cons] at hvalues
  obtain ⟨hyear, hquarter, hmonth, hstart, hend, hstate, -⟩ := hvalues
  simp only [parseBookPeriod, intOfText_int hyear, intOfText_int hquarter, intOfText_int hmonth,
    getD_text hstart, getD_text hend, getD_text hstate, ok_bind, FiscalPeriod.new_fields,
    FiscalPeriodState.ofValue_value]

/-- A period with plain dates that was written is read. -/
theorem parseBookPeriod_ok {p : BookPeriod} {e : Element} (h : periodElement p = .ok e)
    (hplain : p.IsPlain) : parseBookPeriod e = .ok p := by
  obtain ⟨s, hs⟩ := hplain
  obtain ⟨t, ht⟩ := BookPeriod.IsPlain.endDate ⟨s, hs⟩
  rw [parseBookPeriod_eq h, hs, ht]
  simp only [DateValue.isoformat, Platform.dateFromIsoformat_isoformat, ok_bind]
  refine Built.new_eq_ok_iff.mpr (BookPeriodFields.postInit_eq_ok.mpr ⟨?_, p.valid⟩)
  rw [← hs, ← ht]

/-- A period with a datetime for a bound that was written is not read. -/
theorem parseBookPeriod_fails {p : BookPeriod} {e : Element} (h : periodElement p = .ok e)
    (hplain : ¬ p.IsPlain) : ¬ (parseBookPeriod e).Succeeds := by
  rw [parseBookPeriod_eq h]
  cases hs : p.fields.startDate with
  | date d => exact absurd ⟨d, hs⟩ hplain
  | datetime t =>
    obtain ⟨msg, hmsg⟩ := Platform.dateFromIsoformat_datetime t
    rw [DateValue.isoformat, show dateFromIsoformat t.isoformat = _ from hmsg, error_bind]
    exact not_succeeds_error _

/-- An entry that was written is read, its numbers in positional notation. -/
theorem parseEntry_entryElement {x : LedgerEntry} {e : Element} (h : entryElement x = .ok e) :
    parseEntry e = .ok x.readBack := by
  obtain ⟨-, -, hshows⟩ := entryElement_eq_ok h
  have hvalues := hshows.value
  simp only [entryAttributes, List.forall_mem_cons] at hvalues
  obtain ⟨haccount, hside, hamount, hcurrency, hdescription, hrate, -⟩ := hvalues
  simp only [parseEntry, getD_text haccount, getD_text hside, getD_text hamount,
    getD_text hcurrency, get_text? hdescription, get_text? hrate, PostingSide.ofValue_value,
    ok_bind, requireDecimal_formatF x.valid.amount, optionalDecimal_formatF x.valid.taxRate]
  exact Built.new_eq_ok_iff.mpr x.valid_readBackFields.postInit

/-- The period of a transaction that was written is read. -/
theorem parsePeriod_transactionElement {t : JournalTransaction} {e : Element}
    (h : Shows (transactionAttributes t) e) : parsePeriod e = .ok t.fields.period := by
  have hvalues := h.value
  simp only [transactionAttributes, List.forall_mem_cons] at hvalues
  obtain ⟨-, -, -, -, -, hyear, hquarter, hmonth, -⟩ := hvalues
  unfold parsePeriod
  cases hperiod : t.fields.period with
  | none =>
    rw [hperiod] at hyear
    rw [← show none = e.get "period-fiscal-year" from Except.ok.inj hyear]
    rfl
  | some p =>
    rw [hperiod] at hyear hquarter hmonth
    have hsome : (e.get "period-fiscal-year").isSome = true := by
      obtain ⟨s, hs, -⟩ := Attribute.int_value hyear
      rw [show e.get "period-fiscal-year" = _ from hs]
      rfl
    rw [if_pos hsome, intOfText_int hyear, ok_bind, intOfText_int hquarter, ok_bind,
      intOfText_int hmonth, ok_bind, FiscalPeriod.new_fields]
    rfl

/-- A transaction that was written is read. -/
theorem parseTransaction_transactionElement {t : JournalTransaction} {e : Element}
    (h : transactionElement t = .ok e) : parseTransaction e = .ok t.readBack := by
  obtain ⟨-, hentries, hshows⟩ := transactionElement_eq_ok h
  have hread : e.children.mapM parseEntry = .ok (t.fields.entries.map LedgerEntry.readBack) :=
    mapM_of_mapM_eq_ok hentries fun x _ el hel => parseEntry_entryElement hel
  have hvalues := hshows.value
  simp only [transactionAttributes, List.forall_mem_cons] at hvalues
  obtain ⟨hreference, hposted, hstate, hdescription, hreversal, -⟩ := hvalues
  simp only [parseTransaction, parsePeriod_transactionElement hshows, getD_text hreference,
    getD_text hposted, getD_text hstate, getD_text hdescription, ok_bind,
    Platform.datetimeFromIsoformat_isoformat, TransactionState.ofValue_value, hread,
    get_text? hreversal]
  exact Built.new_eq_ok_iff.mpr t.valid_readBackFields.postInit

/-! ### Books -/

/-- `imported` is `book`, with its parts in the same order. -/
structure SameInOrder (book imported : Book) : Prop where
  code : imported.fields.code = book.fields.code
  name : imported.fields.name = book.fields.name
  baseCurrency : imported.fields.baseCurrency = book.fields.baseCurrency
  fiscalCalendar : imported.fields.fiscalCalendar = book.fields.fiscalCalendar
  legislativePack : imported.fields.legislativePack = book.fields.legislativePack
  accounts : imported.fields.accounts = book.fields.accounts
  periods : imported.fields.periods = book.fields.periods
  transactions : List.Forall₂ SameTransaction book.fields.transactions
    imported.fields.transactions

/-- Importing a document returned the book that was exported. -/
def XmlRoundTrip (book : Book) (result : Except PyError Book) : Prop :=
  ∃ imported, result = .ok imported ∧ SameInOrder book imported

/-- The import of a valid document is the construction of its book. -/
theorem bookFromSaft_eq_ok {root : Element} {book : Book} :
    bookFromSaft (.document root) = .ok book ↔
      ValidLedgerBook root ∧ bookFromElement root = .ok book := by
  rw [bookFromSaft, assertValid]
  by_cases hvalid : ValidLedgerBook root
  · rw [if_pos hvalid]
    cases hbook : bookFromElement root with
    | ok b => simp [hvalid, Except.mapError]
    | error e => simp [Except.mapError]
  · rw [if_neg hvalid]
    simp [hvalid, Except.mapError]

variable {b : BookFields} {root : Element} {accounts periods transactions : List Element}

/-- The parts of a document are found. -/
theorem DocumentOf.partsOf_eq (h : DocumentOf b root accounts periods transactions) :
    partsOf root "accounts" = accounts ∧ partsOf root "periods" = periods ∧
      partsOf root "transactions" = transactions := by
  simp [partsOf, Element.find, h.children]

/-- Reading a document with plain dates runs the constructor on what was written. -/
theorem bookFromElement_eq (h : DocumentOf b root accounts periods transactions)
    (hplain : ∀ p ∈ b.periods, p.IsPlain) :
    bookFromElement root = Built.new BookFields.postInit b.readBack := by
  have hvalues := h.attributes.value
  simp only [bookAttributes, List.forall_mem_cons] at hvalues
  obtain ⟨hcode, hname, hcurrency, hpack, hmonth, -⟩ := hvalues
  have haccounts : accounts.mapM parseAccount = .ok (b.accounts.map id) :=
    mapM_of_mapM_eq_ok h.accounts fun a _ e he => parseAccount_accountElement he
  have hperiods : periods.mapM parseBookPeriod = .ok (b.periods.map id) :=
    mapM_of_mapM_eq_ok h.periods fun p hp e he => parseBookPeriod_ok he (hplain p hp)
  have htransactions : transactions.mapM parseTransaction =
      .ok (b.transactions.map JournalTransaction.readBack) :=
    mapM_of_mapM_eq_ok h.transactions fun t _ e he => parseTransaction_transactionElement he
  obtain ⟨hpartsA, hpartsP, hpartsT⟩ := h.partsOf_eq
  simp only [bookFromElement, intOfText_int hmonth, getD_text hcode, getD_text hname,
    getD_text hcurrency, getD_text hpack, ok_bind, FiscalCalendar.new_fields, hpartsA, hpartsP,
    hpartsT, haccounts, hperiods, htransactions, List.map_id]
  rfl

/-- A document of a book with a datetime for a bound of a period cannot be read. -/
theorem bookFromElement_fails (h : DocumentOf b root accounts periods transactions)
    {p : BookPeriod} (hp : p ∈ b.periods) (hplain : ¬ p.IsPlain) :
    ¬ (bookFromElement root).Succeeds := by
  rintro ⟨r, hr⟩
  obtain ⟨_, -, hr⟩ := bind_eq_ok.mp hr
  obtain ⟨_, -, hr⟩ := bind_eq_ok.mp hr
  obtain ⟨_, -, hr⟩ := bind_eq_ok.mp hr
  obtain ⟨_, hread, -⟩ := bind_eq_ok.mp hr
  rw [h.partsOf_eq.2.1] at hread
  obtain ⟨e, hmem, he⟩ := mem_of_mapM_eq_ok h.periods p hp
  exact parseBookPeriod_fails he hplain (succeeds_of_mapM_eq_ok hread e hmem)

/-- **An exported book is imported again exactly when** the bounds of its periods are dates
and not datetimes. -/
theorem xmlRoundTrip_iff {book : Book} {artifact : ExportArtifact}
    (h : toXml book = .ok artifact) :
    XmlRoundTrip book (bookFromSaft (.document artifact.content)) ↔
      ∀ p ∈ book.fields.periods, p.IsPlain := by
  obtain ⟨root, hroot, rfl⟩ := toXml_eq_ok.mp h
  obtain ⟨accounts, periods, transactions, hdocument⟩ := bookElement_eq_ok hroot
  constructor
  · rintro ⟨imported, himport, -⟩ p hp
    by_contra hplain
    exact bookFromElement_fails hdocument hp hplain ⟨_, (bookFromSaft_eq_ok.mp himport).2⟩
  · intro hplain
    have hread : bookFromElement root = .ok ⟨book.fields.readBack, book.fields.readBack,
        book.valid.readBack.postInit⟩ := by
      rw [bookFromElement_eq hdocument hplain]
      exact Built.new_eq_ok_iff.mpr book.valid.readBack.postInit
    refine ⟨_, bookFromSaft_eq_ok.mpr ⟨validLedgerBook_of_bookElement hroot, hread⟩, ?_⟩
    exact
      { code := rfl
        name := rfl
        baseCurrency := rfl
        fiscalCalendar := rfl
        legislativePack := rfl
        accounts := rfl
        periods := rfl
        transactions := List.forall₂_map_right_iff.mpr
          (List.forall₂_same.mpr fun t _ => sameTransaction_readBack t) }

end

/-! ### Evaluated -/

namespace Reference

/-- A book that is exported is imported again. -/
theorem xmlRoundTrip_plainBook : ∃ artifact, toXml plainBook = .ok artifact ∧
    XmlRoundTrip plainBook (bookFromSaft (.document artifact.content)) := by
  obtain ⟨artifact, h⟩ : (toXml plainBook).Succeeds := ⟨_, by rfl⟩
  exact ⟨artifact, h, (xmlRoundTrip_iff h).mpr (by decide)⟩

/-- A book the constructor accepts is exported and cannot be imported. -/
theorem clockedBook_not_imported : ∃ artifact, toXml clockedBook = .ok artifact ∧
    ¬ XmlRoundTrip clockedBook (bookFromSaft (.document artifact.content)) := by
  have hfails : ∃ artifact, toXml clockedBook = .ok artifact ∧
      (bookFromSaft (.document artifact.content)).toOption = none := ⟨_, by rfl, by rfl⟩
  obtain ⟨artifact, h, hnone⟩ := hfails
  refine ⟨artifact, h, ?_⟩
  rintro ⟨imported, himport, -⟩
  rw [himport] at hnone
  cases hnone

end Reference

end FinestVX
