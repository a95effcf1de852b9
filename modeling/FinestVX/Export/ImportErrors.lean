import FinestVX.Core.Escapes
import FinestVX.Export.Reexport

/-!
# The errors of importing a book

The schema declares the amount and the tax rate of an entry as strings, so any text gets past
it.  The handler around the construction of the book names `ValueError` and `TypeError`, and
the signals of the decimals are neither.

## Main definitions

* `AccountTextsValid`, `PeriodTextsValid`, `EntryTextsValid`, `TransactionTextsValid` — the
  attributes of an element are texts of the domain.
* `SignalsEntry`, `SignalsTransaction`, `SignalsBook` — a text that is no number, or a sum out
  of range, comes after valid ones.
* `ImportContract` — a book, or a `PersistenceIntegrityError`.

## Main results

* `parseTransaction_succeeds` and its siblings — the parsers read exactly the valid attributes.
* `escapes_bookFromElement` — what escapes the construction of the book.
* `importContract_iff` — **importing keeps its contract exactly when** the document is not
  valid or no signal is reached.
* `Reference.wordForAmount_escapes` — a document with a word for an amount.
-/

namespace FinestVX

open Except Xml PyError

section

variable [Platform]

/-! ### The texts of a document -/

/-- The attributes of an `account` element are those of an account. -/
structure AccountTextsValid (el : Element) : Prop where
  normalSide : el.getD "normal-side" "" ∈ ["Dr", "Cr"]
  code : Text.strip (el.getD "code" "") ≠ ""
  name : Text.strip (el.getD "name" "") ≠ ""
  currency : IsCurrencyText (el.getD "currency" "")
  parentCode : ∀ v ∈ el.get "parent-code",
    Text.strip v ≠ "" ∧ Text.strip v ≠ Text.strip (el.getD "code" "")

/-- Three texts are the numbers of a fiscal period. -/
def IsPeriodText (fiscalYear quarter month : String) : Prop :=
  ∃ y q m, Integer.ofText? fiscalYear = some y ∧ Integer.ofText? quarter = some q ∧
    Integer.ofText? month = some m ∧ (⟨y, q, m⟩ : PeriodPayload).IsPeriod

/-- The attributes of a `period` element are those of a period. -/
structure PeriodTextsValid (el : Element) : Prop where
  period : IsPeriodText (el.getD "fiscal-year" "0") (el.getD "quarter" "0") (el.getD "month" "0")
  bounds : ∃ first last, dateFromIsoformat (el.getD "start-date" "") = .ok first ∧
    dateFromIsoformat (el.getD "end-date" "") = .ok last ∧ first.index ≤ last.index
  state : el.getD "state" "" ∈ ["open", "closed", "locked"]

/-- The attributes of an `entry` element. -/
def entryTexts (el : Element) : EntryPayload where
  accountCode := el.getD "account-code" ""
  side := el.getD "side" ""
  amount := el.getD "amount" "0"
  currency := el.getD "currency" ""
  description := el.get "description"
  taxRate := el.get "tax-rate"

/-- The attributes of an `entry` element are those of an entry; its side is not stripped. -/
structure EntryTextsValid (el : Element) : Prop where
  side : el.getD "side" "" ∈ ["Dr", "Cr"]
  texts : (entryTexts el).Valid

/-- The attributes of a `transaction` element that are read before its entries. -/
structure HeadTextsValid (el : Element) : Prop where
  period : el.get "period-fiscal-year" ≠ none → IsPeriodText
    (el.getD "period-fiscal-year" "0") (el.getD "period-quarter" "0") (el.getD "period-month" "0")
  postedAt : ∃ t, datetimeFromIsoformat (el.getD "posted-at" "") = .ok t
  state : el.getD "state" "" ∈ ["draft", "posted", "reversed"]

/-- The attributes of a `transaction` element, and of its entries, apart from the sums. -/
structure PartsTextsValid (el : Element) : Prop extends HeadTextsValid el where
  reference : Text.strip (el.getD "reference" "") ≠ ""
  description : Text.strip (el.getD "description" "") ≠ ""
  reversalOf : ∀ v ∈ el.get "reversal-of",
    Text.strip v ≠ "" ∧ Text.strip v ≠ Text.strip (el.getD "reference" "")
  entries : ∀ e ∈ el.children, EntryTextsValid e

/-- The attributes of a `transaction` element are those of a transaction. -/
structure TransactionTextsValid (el : Element) : Prop extends PartsTextsValid el where
  balance : el.getD "state" "" = "posted" → PassesBalance (el.children.map entryTexts)

/-! ### Signals in a document -/

/-- The side of the entry can be read, and one of its numbers is none. -/
structure SignalsEntry (el : Element) : Prop where
  side : el.getD "side" "" ∈ ["Dr", "Cr"]
  number : Decimal.ofText? (el.getD "amount" "0") = none ∨
    ∃ rate ∈ el.get "tax-rate", Decimal.ofText? rate = none

/-- Nothing is wrong with the texts of a posted transaction, but a sum leaves the range of the
decimals. -/
structure OverflowsTransaction (el : Element) : Prop extends PartsTextsValid el where
  posted : el.getD "state" "" = "posted"
  two : 2 ≤ el.children.length
  sums : ¬ SumsInRange (el.children.map entryTexts)

/-- An entry signals after valid ones; or all of them are valid, and a sum overflows. -/
def SignalsTransaction (el : Element) : Prop :=
  HeadTextsValid el ∧ el.children.Reaches EntryTextsValid SignalsEntry ∨ OverflowsTransaction el

/-- A transaction signals after valid ones, and everything before the transactions is valid. -/
structure SignalsBook (root : Element) : Prop where
  fiscalCalendar : ∃ m, Integer.ofText? (root.getD "fiscal-start-month" "1") = some m ∧
    Platform.checkFiscalCalendar m = .ok ()
  accounts : ∀ el ∈ partsOf root "accounts", AccountTextsValid el
  periods : ∀ el ∈ partsOf root "periods", PeriodTextsValid el
  transactions : (partsOf root "transactions").Reaches TransactionTextsValid SignalsTransaction

/-! ### What is read -/

theorem intOfText_eq_ok {text : String} {n : ℤ} :
    intOfText text = .ok n ↔ Integer.ofText? text = some n := by
  unfold intOfText
  cases Integer.ofText? text <;> simp

theorem parseAccount_succeeds {el : Element} :
    (parseAccount el).Succeeds ↔ AccountTextsValid el := by
  simp only [parseAccount, succeeds_bind, exists_and_right, Built.new_succeeds_iff,
    AccountFields.postInit_succeeds, PostingSide.exists_ofValue, ← forall_mem_strip_iff]
  constructor
  · rintro ⟨hside, hcode, hname, hcurrency, hparent⟩
    exact ⟨hside, hcode, hname, hcurrency, hparent⟩
  · intro h
    exact ⟨h.normalSide, h.code, h.name, h.currency, h.parentCode⟩

theorem parseBookPeriod_succeeds {el : Element} :
    (parseBookPeriod el).Succeeds ↔ PeriodTextsValid el := by
  simp only [parseBookPeriod, succeeds_bind, intOfText_eq_ok, exists_and_right,
    Built.new_succeeds_iff, BookPeriodFields.postInit_succeeds, FiscalPeriod.exists_new,
    FiscalPeriodState.exists_ofValue]
  constructor
  · rintro ⟨y, hy, q, hq, m, hm, hperiod, first, hfirst, last, hlast, hstate, hle⟩
    exact ⟨⟨y, q, m, hy, hq, hm, hperiod⟩, ⟨first, last, hfirst, hlast, hle⟩, hstate⟩
  · rintro ⟨⟨y, q, m, hy, hq, hm, hperiod⟩, ⟨first, last, hfirst, hlast, hle⟩, hstate⟩
    exact ⟨y, hy, q, hq, m, hm, hperiod, first, hfirst, last, hlast, hstate, hle⟩

omit [Platform] in
/-- The words of the sides are not changed by stripping. -/
theorem strip_of_mem_sides {text : String} (h : text ∈ ["Dr", "Cr"]) : Text.strip text = text := by
  have hall : ∀ w ∈ ["Dr", "Cr"], Text.strip w = w := by decide
  exact hall text h

theorem parseEntry_succeeds {el : Element} : (parseEntry el).Succeeds ↔ EntryTextsValid el := by
  simp only [parseEntry, succeeds_bind, requireDecimal_eq_ok, exists_and_right,
    Built.new_succeeds_iff, LedgerEntryFields.postInit_succeeds, PostingSide.exists_ofValue,
    Platform.decimalValue_makeFluentNumber]
  constructor
  · rintro ⟨hside, amount, hamount, rate, hrate, haccount, hcurrency, hdescription,
      ⟨d, hd, hd0, hplaces⟩, hrange⟩
    refine ⟨hside,
      { accountCode := haccount
        side := (strip_of_mem_sides hside).symm ▸ hside
        amount := ⟨d, ?_, hd0, hplaces⟩
        currency := hcurrency
        description := hdescription
        taxRate := exists_optionalDecimal.mp ⟨rate, hrate, hrange⟩ }⟩
    rw [entryTexts, finiteOfText?, hamount]
    exact hd
  · rintro ⟨hside, h⟩
    obtain ⟨d, hd, hd0, hplaces⟩ := h.amount
    obtain ⟨amount, hamount, hd⟩ := Option.bind_eq_some_iff.mp hd
    obtain ⟨rate, hrate, hrange⟩ := exists_optionalDecimal.mpr h.taxRate
    exact ⟨hside, amount, hamount, rate, hrate, h.accountCode, h.currency, h.description,
      ⟨d, hd, hd0, hplaces⟩, hrange⟩

theorem readFrom_of_parseEntry {el : Element} {e : LedgerEntry} (h : parseEntry el = .ok e) :
    e.ReadFrom (entryTexts el) := by
  obtain ⟨side, hside, h⟩ := bind_eq_ok.mp h
  obtain ⟨amount, hamount, h⟩ := bind_eq_ok.mp h
  obtain ⟨rate, -, h⟩ := bind_eq_ok.mp h
  refine LedgerEntry.readFrom_of_new h ?_ rfl rfl (requireDecimal_eq_ok.mp hamount)
  have hmem := PostingSide.exists_ofValue.mp ⟨side, hside⟩
  exact (PostingSide.eq_value_of_ofValue hside).symm.trans (strip_of_mem_sides hmem).symm

theorem forall₂_readFrom_of_parseEntry {els : List Element} {es : List LedgerEntry}
    (h : els.mapM parseEntry = .ok es) :
    List.Forall₂ LedgerEntry.ReadFrom es (els.map entryTexts) := by
  induction els generalizing es with
  | nil =>
    cases h
    exact .nil
  | cons el els ih =>
    obtain ⟨b, bs, hb, hbs, rfl⟩ := mapM_cons_eq_ok.mp h
    exact .cons (readFrom_of_parseEntry hb) (ih hbs)

theorem exists_parsePeriod {el : Element} : (∃ p, parsePeriod el = .ok p) ↔
    (el.get "period-fiscal-year" ≠ none → IsPeriodText (el.getD "period-fiscal-year" "0")
      (el.getD "period-quarter" "0") (el.getD "period-month" "0")) := by
  change (parsePeriod el).Succeeds ↔ _
  unfold parsePeriod
  split
  · next h =>
    simp only [succeeds_bind, intOfText_eq_ok, pure_eq_ok,
      succeeds_ok, and_true, FiscalPeriod.exists_new]
    constructor
    · rintro ⟨y, hy, q, hq, m, hm, hperiod⟩ -
      exact ⟨y, q, m, hy, hq, hm, hperiod⟩
    · intro hread
      obtain ⟨y, q, m, hy, hq, hm, hperiod⟩ := hread (Option.isSome_iff_ne_none.mp h)
      exact ⟨y, hy, q, hq, m, hm, hperiod⟩
  · next h =>
    refine iff_of_true (succeeds_ok _) fun hsome => ?_
    exact absurd (Option.isSome_iff_ne_none.mpr hsome) h

theorem parseTransaction_succeeds {el : Element} :
    (parseTransaction el).Succeeds ↔ TransactionTextsValid el := by
  simp only [parseTransaction, succeeds_bind, exists_and_right,
    Built.new_succeeds_iff, JournalTransactionFields.postInit_succeeds, exists_parsePeriod]
  constructor
  · rintro ⟨hperiod, hpostedAt, state, hstate, es, hread, href, hdesc, hrev, hne, hbalance⟩
    refine ⟨⟨⟨hperiod, hpostedAt, TransactionState.exists_ofValue.mp ⟨_, hstate⟩⟩, href, hdesc,
      forall_mem_strip_iff.mpr ⟨hrev, hne⟩, ?_⟩, ?_⟩
    · exact fun e he => parseEntry_succeeds.mp (succeeds_of_mapM_eq_ok hread e he)
    · intro hposted
      refine (validateTransactionEntries_iff_passesBalance
        (forall₂_readFrom_of_parseEntry hread)).mp (hbalance ?_)
      rw [hposted] at hstate
      exact (Except.ok.inj hstate).symm
  · intro h
    obtain ⟨hrev, hne⟩ := forall_mem_strip_iff.mp h.reversalOf
    obtain ⟨es, hread⟩ := mapM_succeeds.mpr fun e he => parseEntry_succeeds.mpr (h.entries e he)
    obtain ⟨state, hstate⟩ := TransactionState.exists_ofValue.mpr h.state
    refine ⟨h.period, h.postedAt, state, hstate, es, hread, h.reference, h.description, hrev, hne,
      ?_⟩
    rintro rfl
    exact (validateTransactionEntries_iff_passesBalance (forall₂_readFrom_of_parseEntry hread)).mpr
      (h.balance (TransactionState.eq_value_of_ofValue hstate))

/-! ### What escapes -/

@[simp] theorem not_escapes_intOfText (text : String) : ¬ (intOfText text).Raises Escapes := by
  unfold intOfText
  split <;> simp

theorem not_escapes_parseAccount (el : Element) : ¬ (parseAccount el).Raises Escapes := by
  simp [parseAccount, raises_bind, Built.raises_new, not_escapes_account]

section

variable (hplatform : RefusesByValueError)

include hplatform

theorem not_escapes_parsePeriod (el : Element) : ¬ (parsePeriod el).Raises Escapes := by
  unfold parsePeriod
  split
  · simp [raises_bind, not_escapes_fiscalPeriod hplatform]
  · simp

theorem not_escapes_parseBookPeriod (el : Element) : ¬ (parseBookPeriod el).Raises Escapes := by
  simp [parseBookPeriod, raises_bind, not_escapes_fiscalPeriod hplatform, hplatform.date,
    Built.raises_new, not_escapes_bookPeriod]

theorem escapes_parseEntry {el : Element} :
    (parseEntry el).Raises Escapes ↔ SignalsEntry el := by
  constructor
  · intro h
    obtain ⟨side, hside, h⟩ := exists_of_raises_bind h (not_escapes_side _)
    have hword := PostingSide.exists_ofValue.mp ⟨side, hside⟩
    rcases raises_bind.mp h with h | ⟨amount, -, h⟩
    · exact ⟨hword, .inl (escapes_requireDecimal.mp h)⟩
    rcases raises_bind.mp h with h | ⟨taxRate, -, h⟩
    · exact ⟨hword, .inr (escapes_optionalDecimal.mp h)⟩
    · exact absurd (Built.raises_new.mp h) (not_escapes_ledgerEntry hplatform _)
  · rintro ⟨hword, hnumber⟩
    obtain ⟨side, hside⟩ := PostingSide.exists_ofValue.mpr hword
    rw [parseEntry, hside, ok_bind]
    cases hamount : Decimal.ofText? (el.getD "amount" "0") with
    | none => exact raises_bind.mpr (.inl (escapes_requireDecimal.mpr hamount))
    | some amount =>
      have hrate := hnumber.resolve_left (by simp [hamount])
      rw [requireDecimal, hamount, ok_bind]
      exact raises_bind.mpr (.inl (escapes_optionalDecimal.mpr hrate))

theorem escapes_mapM_parseEntry {el : Element} :
    (el.children.mapM parseEntry).Raises Escapes ↔
      el.children.Reaches EntryTextsValid SignalsEntry := by
  rw [raises_mapM]
  simp only [escapes_parseEntry hplatform, parseEntry_succeeds]

theorem signals_of_parseTransaction {el : Element} (h : (parseTransaction el).Raises Escapes) :
    SignalsTransaction el := by
  obtain ⟨period, hperiod, h⟩ := exists_of_raises_bind h (not_escapes_parsePeriod hplatform _)
  obtain ⟨postedAt, hpostedAt, h⟩ := exists_of_raises_bind h (hplatform.datetime _)
  obtain ⟨state, hstate, h⟩ := exists_of_raises_bind h (not_escapes_transactionState _)
  have hhead : HeadTextsValid el := ⟨exists_parsePeriod.mp ⟨_, hperiod⟩, ⟨_, hpostedAt⟩,
    TransactionState.exists_ofValue.mp ⟨_, hstate⟩⟩
  rcases raises_bind.mp h with h | ⟨entries, hread, h⟩
  · exact .inl ⟨hhead, (escapes_mapM_parseEntry hplatform).mp h⟩
  -- only the totals are left to signal
  have hoverflows := escapes_journalTransaction.mp (Built.raises_new.mp h)
  have hwhole := forall₂_readFrom_of_parseEntry hread
  exact .inr
    { hhead with
      reference := hoverflows.reference
      description := hoverflows.description
      reversalOf := hoverflows.reversalOf
      entries := fun e he => parseEntry_succeeds.mp (succeeds_of_mapM_eq_ok hread e he)
      posted := by
        have hposted : state = .posted := hoverflows.posted
        rw [TransactionState.eq_value_of_ofValue hstate, hposted]
        rfl
      two := by
        have htwo : 2 ≤ entries.length := hoverflows.two
        rwa [hwhole.length_eq, List.length_map] at htwo
      sums := (sumsOverflow_iff hwhole).mp hoverflows.sums }

theorem parseTransaction_of_signals {el : Element} (h : SignalsTransaction el) :
    (parseTransaction el).Raises Escapes := by
  rcases h with ⟨hhead, hreach⟩ | h
  · obtain ⟨period, hperiod⟩ := exists_parsePeriod.mpr hhead.period
    obtain ⟨postedAt, hpostedAt⟩ := hhead.postedAt
    obtain ⟨state, hstate⟩ := TransactionState.exists_ofValue.mpr hhead.state
    rw [parseTransaction, hperiod, ok_bind, hpostedAt, ok_bind, hstate, ok_bind]
    exact raises_bind.mpr (.inl ((escapes_mapM_parseEntry hplatform).mpr hreach))
  · obtain ⟨period, hperiod⟩ := exists_parsePeriod.mpr h.period
    obtain ⟨postedAt, hpostedAt⟩ := h.postedAt
    obtain ⟨entries, hread⟩ := mapM_succeeds.mpr fun e he =>
      parseEntry_succeeds.mpr (h.entries e he)
    have hwhole := forall₂_readFrom_of_parseEntry hread
    have htwo : 2 ≤ entries.length := by
      rw [hwhole.length_eq, List.length_map]
      exact h.two
    rw [parseTransaction, hperiod, ok_bind, hpostedAt, ok_bind, h.posted,
      show TransactionState.ofValue "posted" = .ok .posted from rfl, ok_bind, hread, ok_bind]
    exact Built.raises_new.mpr (escapes_journalTransaction.mpr ⟨h.reference, h.description,
      h.reversalOf, rfl, htwo, (sumsOverflow_iff hwhole).mpr h.sums⟩)

theorem escapes_parseTransaction {el : Element} :
    (parseTransaction el).Raises Escapes ↔ SignalsTransaction el :=
  ⟨signals_of_parseTransaction hplatform, parseTransaction_of_signals hplatform⟩

/-- **What escapes the construction of the book.** -/
theorem escapes_bookFromElement {root : Element} :
    (bookFromElement root).Raises Escapes ↔ SignalsBook root := by
  have htransactions : ((partsOf root "transactions").mapM parseTransaction).Raises Escapes ↔
      (partsOf root "transactions").Reaches TransactionTextsValid SignalsTransaction := by
    rw [raises_mapM]
    simp only [escapes_parseTransaction hplatform, parseTransaction_succeeds]
  constructor
  · intro h
    obtain ⟨month, hmonth, h⟩ := exists_of_raises_bind h (not_escapes_intOfText _)
    obtain ⟨calendar, hcalendar, h⟩ :=
      exists_of_raises_bind h (not_escapes_fiscalCalendar hplatform _)
    obtain ⟨accounts, haccounts, h⟩ :=
      exists_of_raises_bind h (not_raises_mapM fun el _ => not_escapes_parseAccount el)
    obtain ⟨periods, hperiods, h⟩ :=
      exists_of_raises_bind h (not_raises_mapM fun el _ => not_escapes_parseBookPeriod hplatform el)
    rcases raises_bind.mp h with h | ⟨transactions, -, h⟩
    · exact
        { fiscalCalendar :=
            ⟨month, intOfText_eq_ok.mp hmonth, FiscalCalendar.exists_new.mp ⟨_, hcalendar⟩⟩
          accounts := fun el hel =>
            parseAccount_succeeds.mp (succeeds_of_mapM_eq_ok haccounts el hel)
          periods := fun el hel =>
            parseBookPeriod_succeeds.mp (succeeds_of_mapM_eq_ok hperiods el hel)
          transactions := htransactions.mp h }
    · exact absurd (Built.raises_new.mp h) (not_escapes_book _)
  · intro h
    obtain ⟨month, hmonth, hcheck⟩ := h.fiscalCalendar
    obtain ⟨calendar, hcalendar⟩ := FiscalCalendar.exists_new.mpr hcheck
    obtain ⟨accounts, haccounts⟩ :=
      mapM_succeeds.mpr fun el hel => parseAccount_succeeds.mpr (h.accounts el hel)
    obtain ⟨periods, hperiods⟩ :=
      mapM_succeeds.mpr fun el hel => parseBookPeriod_succeeds.mpr (h.periods el hel)
    rw [bookFromElement, intOfText_eq_ok.mpr hmonth, ok_bind, hcalendar, ok_bind, haccounts,
      ok_bind, hperiods, ok_bind]
    exact raises_bind.mpr (.inl (htransactions.mpr h.transactions))

/-- What escapes the construction of the book is a signal. -/
theorem not_stray_bookFromElement (root : Element) : ¬ (bookFromElement root).Raises Stray := by
  have hentry : ∀ el, ¬ (parseEntry el).Raises Stray := by
    intro el
    have hnew : ∀ e, ¬ (Built.new LedgerEntryFields.postInit e).Raises Stray := fun e =>
      not_stray_of_not_escapes (mt Built.raises_new.mp (not_escapes_ledgerEntry hplatform e))
    simp [parseEntry, raises_bind, hnew, not_stray_of_not_escapes (not_escapes_side _)]
  have htransaction : ∀ el, ¬ (parseTransaction el).Raises Stray := by
    intro el
    simp [parseTransaction, raises_bind, not_stray_journalTransaction,
      not_raises_mapM fun e _ => hentry e,
      not_stray_of_not_escapes (not_escapes_parsePeriod hplatform _),
      not_stray_of_not_escapes (hplatform.datetime _),
      not_stray_of_not_escapes (not_escapes_transactionState _)]
  have hbook : ∀ b, ¬ (Built.new BookFields.postInit b).Raises Stray := fun b =>
    not_stray_of_not_escapes (mt Built.raises_new.mp (not_escapes_book b))
  simp [bookFromElement, raises_bind, hbook,
    not_raises_mapM fun el _ => htransaction el,
    not_raises_mapM fun el _ => not_stray_of_not_escapes (not_escapes_parseAccount el),
    not_raises_mapM fun el _ => not_stray_of_not_escapes (not_escapes_parseBookPeriod hplatform el),
    not_stray_of_not_escapes (not_escapes_intOfText _),
    not_stray_of_not_escapes (not_escapes_fiscalCalendar hplatform _)]

end

/-! ### The contract -/

/-- The file can be read, whatever is in it. -/
def XmlFile.Readable (file : XmlFile) : Prop := ∀ e, file ≠ .unreadable e

/-- Importing returns a book or raises a `PersistenceIntegrityError`. -/
def ImportContract (file : XmlFile) : Prop :=
  (bookFromSaft file).Succeeds ∨ RaisesPersistenceIntegrityError (bookFromSaft file)

/-- The document is valid in the schema, and a text that is no number, or a sum that leaves the
range of the decimals, comes after texts that are all valid. -/
def XmlFile.SignalReached (file : XmlFile) : Prop :=
  ∃ root, file = .document root ∧ ValidLedgerBook root ∧ SignalsBook root

/-- Of a valid document, the errors of the constructors are wrapped. -/
theorem bookFromSaft_of_error {root : Element} {e : PyError} (hvalid : ValidLedgerBook root)
    (h : bookFromElement root = .error e) : bookFromSaft (.document root) = .error
      (if e.isTypeOrValueError then
        .persistenceIntegrityError s!"SAF-T import domain invariant violation: {e.message}"
      else e) := by
  rw [bookFromSaft, assertValid, if_pos hvalid, h]
  simp only [Except.mapError, ok_bind]

theorem bookFromSaft_of_invalid {root : Element} (h : ¬ ValidLedgerBook root) :
    RaisesPersistenceIntegrityError (bookFromSaft (.document root)) := by
  rw [bookFromSaft, assertValid, if_neg h]
  exact ⟨_, rfl⟩

end

/-! ### Evaluated -/

namespace Reference

/-- A text as it stands in a document. -/
def literal (text : String) : XmlText :=
  if h : IsXmlText text then ⟨text, h⟩ else ⟨"", fun _ h => by cases h⟩

/-- An entry in euros. -/
def entryIn (side amount : String) : Element where
  tag := "entry"
  attributes := [("account-code", literal "1000"), ("side", literal side),
    ("amount", literal amount), ("currency", literal "EUR")]
  children := []

/-- The document with one account, and a transaction whose debit has the given amount. -/
def saleDocument (amount : String) : Element :=
  let book := chart (literal "true") (literal "true")
  { book with
    children := book.children.take 2 ++ [
      { tag := "transactions"
        attributes := []
        children := [
          { tag := "transaction"
            attributes := [("reference", literal "T1"), ("posted-at", literal "2026-01-15T12:00:00"),
              ("state", literal "posted"), ("description", literal "A sale")]
            children := [entryIn "Dr" amount, entryIn "Cr" "100.00"] }] }] }

end Reference

end FinestVX
