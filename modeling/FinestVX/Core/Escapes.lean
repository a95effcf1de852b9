import FinestVX.Core.Reference
import FinestVX.Core.Texts

/-!
# Exceptions that escape

A caller that reads a book from a file or a database wraps the errors of the domain by
`except (TypeError, ValueError)`.  The constructors raise nothing else themselves, but two
things they call do: `Decimal(text)` signals a text that is not a number, and the addition of
the totals signals an overflow.  Neither signal is a `ValueError`.

## Main definitions

* `PyError.Escapes` — the exception gets past the handler.
* `RaisesPersistenceIntegrityError` — what the handler makes of the exceptions it catches.
* `RefusesByValueError` — the external validators raise what the handler catches.
* `EntryPayload.Signals`, `TransactionPayload.Signals`, `BookPayload.Signals` — a signal is
  raised before anything else is found wrong.

## Main results

* `escapes_validateTransactionEntries` — the balance check signals when the sum of some
  currency overflows.
* `escapes_bookFromMapping` — **what escapes the deserializer of a book.**
-/

namespace FinestVX

open Except

/-- The exception gets past `except (TypeError, ValueError)`. -/
def PyError.Escapes (e : PyError) : Prop := e.isTypeOrValueError = false

namespace PyError

@[simp] theorem not_escapes_typeError (msg : String) : ¬ (typeError msg).Escapes := by
  simp [Escapes, isTypeOrValueError]

@[simp] theorem not_escapes_valueError (msg : String) : ¬ (valueError msg).Escapes := by
  simp [Escapes, isTypeOrValueError]

@[simp] theorem escapes_decimalSignal (signal : Dec.Signal) : (decimalSignal signal).Escapes := rfl

end PyError

/-- A `PersistenceIntegrityError` is raised. -/
def RaisesPersistenceIntegrityError {α : Type} (outcome : Except PyError α) : Prop :=
  ∃ msg, outcome = .error (.persistenceIntegrityError msg)

open PyError

section

variable [Platform]

/-- The external validators refuse an argument by a `TypeError` or a `ValueError`. -/
structure RefusesByValueError : Prop where
  decimalRange : ∀ v lo hi f, ¬ (normalizeOptionalDecimalRange v lo hi f).Raises Escapes
  fiscalPeriod : ∀ y q m, ¬ (Platform.checkFiscalPeriod y q m).Raises Escapes
  fiscalCalendar : ∀ m, ¬ (Platform.checkFiscalCalendar m).Raises Escapes
  date : ∀ text, ¬ (dateFromIsoformat text).Raises Escapes
  datetime : ∀ text, ¬ (datetimeFromIsoformat text).Raises Escapes

/-! ### Texts and enumerations -/

@[simp] theorem not_escapes_requireNonEmptyStr (v f : String) :
    ¬ (requireNonEmptyStr v f).Raises Escapes := by
  rw [Platform.requireNonEmptyStr_eq]
  split <;> simp

@[simp] theorem not_escapes_normalizeOptionalStr (v : Option String) (f : String) :
    ¬ (normalizeOptionalStr v f).Raises Escapes := by
  cases v with
  | none => simp
  | some v => simp [Platform.normalizeOptionalStr_some]

@[simp] theorem not_escapes_normalizeCurrency (v f : String) :
    ¬ (normalizeCurrency v f).Raises Escapes := by
  intro h
  obtain ⟨text, -, h⟩ := exists_of_raises_bind h (not_escapes_requireNonEmptyStr _ _)
  revert h
  dsimp only
  split <;> simp

omit [Platform] in
@[simp] theorem not_escapes_side (text : String) :
    ¬ (PostingSide.ofValue text).Raises Escapes := by
  unfold PostingSide.ofValue
  split_ifs <;> simp

omit [Platform] in
@[simp] theorem not_escapes_periodState (text : String) :
    ¬ (FiscalPeriodState.ofValue text).Raises Escapes := by
  unfold FiscalPeriodState.ofValue
  split_ifs <;> simp

omit [Platform] in
@[simp] theorem not_escapes_transactionState (text : String) :
    ¬ (TransactionState.ofValue text).Raises Escapes := by
  unfold TransactionState.ofValue
  split_ifs <;> simp

omit [Platform] in
/-- A text that is not a number escapes. -/
@[simp] theorem escapes_requireDecimal {text : String} :
    (requireDecimal text).Raises Escapes ↔ Decimal.ofText? text = none := by
  unfold requireDecimal
  cases Decimal.ofText? text <;> simp

omit [Platform] in
@[simp] theorem escapes_optionalDecimal {text : Option String} :
    (optionalDecimal text).Raises Escapes ↔ ∃ v ∈ text, Decimal.ofText? v = none := by
  cases text <;> simp [optionalDecimal]

/-! ### The constructors -/

section

variable (hplatform : RefusesByValueError)

include hplatform

theorem not_escapes_fiscalPeriod (y q m : ℤ) : ¬ (FiscalPeriod.new y q m).Raises Escapes := by
  unfold FiscalPeriod.new
  split
  · simp
  · next e he =>
    intro h
    exact hplatform.fiscalPeriod y q m ⟨e, he, raises_error.mp h⟩

theorem not_escapes_fiscalCalendar (m : ℤ) : ¬ (FiscalCalendar.new m).Raises Escapes := by
  unfold FiscalCalendar.new
  split
  · simp
  · next e he =>
    intro h
    exact hplatform.fiscalCalendar m ⟨e, he, raises_error.mp h⟩

theorem not_escapes_ledgerEntry (e : LedgerEntryFields) : ¬ e.postInit.Raises Escapes := by
  have hamount : ¬ (requireAmount e.amount).Raises Escapes := by
    unfold requireAmount
    split
    · split_ifs <;> simp
    · simp
  have hplaces : ∀ d c, ¬ (requirePlaces d c).Raises Escapes := by
    intro d c
    unfold requirePlaces
    split
    · simp
    · split_ifs <;> simp
  simp [LedgerEntryFields.postInit, raises_bind, hamount, hplaces, hplatform.decimalRange]

end

theorem not_escapes_account (a : AccountFields) : ¬ a.postInit.Raises Escapes := by
  simp [AccountFields.postInit, raises_bind, raises_guard]

omit [Platform] in
theorem not_escapes_le? (a b : DateValue) : ¬ (a.le? b).Raises Escapes := by
  unfold DateValue.le?
  split_ifs <;> simp

theorem not_escapes_bookPeriod (p : BookPeriodFields) : ¬ p.postInit.Raises Escapes := by
  simp [BookPeriodFields.postInit, DateValue.lt?, raises_bind, raises_guard, not_escapes_le?]

/-! ### The checks of a book -/

theorem not_escapes_validateAccountCollection (accounts : List Account) :
    ¬ (validateAccountCollection accounts).Raises Escapes := by
  have hparent : ∀ codes (a : Account), ¬ (requireParent codes a).Raises Escapes := by
    intro codes a
    unfold requireParent
    split
    · simp
    · split_ifs <;> simp
  have hcycle : ∀ parents code, ¬ (requireNoCycle parents code).Raises Escapes := by
    intro parents code
    unfold requireNoCycle
    split <;> simp
  intro h
  obtain ⟨_, -, h⟩ := exists_of_raises_bind h (not_raises_checkDistinct (by simp))
  obtain ⟨_, -, h⟩ := exists_of_raises_bind h (not_raises_checkAll fun a _ => hparent _ a)
  exact not_raises_checkAll (fun c _ => hcycle _ c) h

theorem not_escapes_validatePeriodCollection (periods : List BookPeriod) :
    ¬ (validatePeriodCollection periods).Raises Escapes := by
  have hsorted : ¬ (sortedPeriods periods).Raises Escapes := by
    unfold sortedPeriods
    split_ifs <;> simp
  have hdisjoint : ∀ pq, ¬ (requireDisjoint pq).Raises Escapes := by
    intro pq
    simp [requireDisjoint, raises_bind, raises_guard, not_escapes_le?]
  intro h
  obtain ⟨_, -, h⟩ := exists_of_raises_bind h (not_raises_checkDistinct (by simp))
  obtain ⟨ordered, -, h⟩ := exists_of_raises_bind h hsorted
  exact not_raises_checkAll (fun pq _ => hdisjoint pq) h

theorem not_escapes_requirePostable (codes : List String) (t : JournalTransaction) :
    ¬ (requirePostable codes t).Raises Escapes := by
  unfold requirePostable
  split
  · simp
  · refine not_raises_checkAll fun e _ => ?_
    split_ifs <;> simp

theorem not_escapes_requireKnownPeriod (periods : List FiscalPeriod) (t : JournalTransaction) :
    ¬ (requireKnownPeriod periods t).Raises Escapes := by
  unfold requireKnownPeriod
  split
  · simp
  · split_ifs <;> simp

/-- The constructor of a book only sees transactions whose totals were computed. -/
theorem not_escapes_book (b : BookFields) : ¬ b.postInit.Raises Escapes := by
  have hpostable : ¬ (validateTransactionsAgainstAccounts b.transactions
      (b.accounts.map Account.code)).Raises Escapes :=
    not_raises_checkAll fun t _ => not_escapes_requirePostable _ t
  have hknown : ¬ (checkAll (requireKnownPeriod (b.periods.map BookPeriod.period))
      b.transactions).Raises Escapes :=
    not_raises_checkAll fun t _ => not_escapes_requireKnownPeriod _ t
  simp [BookFields.postInit, raises_bind, not_escapes_validateAccountCollection,
    not_escapes_validatePeriodCollection, hpostable, hknown]

/-! ### Totals -/

/-- The running sum of one side in one currency leaves the range of the decimals. -/
def SumsOverflow (entries : List LedgerEntry) : Prop :=
  ∃ s c, ¬ (sideTotal s c entries).Succeeds

/-- No step of a running sum of one side in one currency reaches the limit of the decimals. -/
def TotalsInRange (entries : List LedgerEntry) : Prop :=
  ∀ s c p d, p ++ [d] <+: amounts s c entries →
    Dec.defaultContext.runningSum 0 p + d.value < Dec.defaultContext.limit

/-- The sums of what was read overflow when those of the texts leave the range. -/
theorem sumsOverflow_iff {es : List LedgerEntry} {data : List EntryPayload}
    (h : List.Forall₂ LedgerEntry.ReadFrom es data) : SumsOverflow es ↔ ¬ SumsInRange data := by
  rw [← sideTotals_succeed_iff h, SumsOverflow]
  simp only [not_forall]

theorem not_sumsOverflow_iff {entries : List LedgerEntry} :
    ¬ SumsOverflow entries ↔ TotalsInRange entries := by
  simp only [SumsOverflow, not_exists, not_not, sideTotal_succeeds_iff]
  rfl

/-- The addition of the totals raises signals only. -/
theorem signal_of_totalsFrom {side : Option PostingSide} {totals : Dict String Dec}
    {entries : List LedgerEntry} {e : PyError} (h : totalsFrom side totals entries = .error e) :
    ∃ signal, e = .decimalSignal signal := by
  induction entries generalizing totals with
  | nil => cases h
  | cons x entries ih =>
    rw [totalsFrom] at h
    split at h
    · exact ih h
    · unfold addDecimal at h
      cases hadd : Dec.add Dec.defaultContext ((totals.get? x.currency).getD .zero)
          x.decimalValue with
      | error signal =>
        rw [hadd] at h
        cases h
        exact ⟨signal, rfl⟩
      | ok total =>
        rw [hadd] at h
        exact ih h

theorem succeeds_totalsByCurrency {s : PostingSide} {entries : List LedgerEntry} :
    (totalsByCurrency entries (some s)).Succeeds ↔ ∀ c, (sideTotal s c entries).Succeeds := by
  constructor
  · rintro ⟨t, h⟩ c
    exact ⟨_, sideTotal_of_totalsByCurrency h c⟩
  · exact exists_totalsByCurrency

section

variable {p : PyError → Prop} (hsignal : ∀ signal, p (.decimalSignal signal))

include hsignal

theorem raises_totalsByCurrency {s : PostingSide} {entries : List LedgerEntry} :
    (totalsByCurrency entries (some s)).Raises p ↔ ∃ c, ¬ (sideTotal s c entries).Succeeds := by
  have hraised : ∀ e, totalsFrom (some s) [] entries = .error e → p e := by
    intro e he
    obtain ⟨signal, rfl⟩ := signal_of_totalsFrom he
    exact hsignal signal
  rw [totalsByCurrency, raises_iff_not_succeeds hraised]
  change ¬ (totalsByCurrency entries (some s)).Succeeds ↔ _
  rw [succeeds_totalsByCurrency, not_forall]

/-- Of the errors that are no `ValueError`, the balance check raises the signal of a total
that overflows, and no other. -/
theorem raises_validateTransactionEntries (hvalue : ∀ msg, ¬ p (.valueError msg))
    {entries : List LedgerEntry} :
    (validateTransactionEntries entries).Raises p ↔
      2 ≤ entries.length ∧ SumsOverflow entries := by
  unfold validateTransactionEntries
  constructor
  · intro h
    obtain ⟨hlen, h⟩ := of_raises_guard h (hvalue _)
    refine ⟨not_lt.mp hlen, ?_⟩
    rcases raises_bind.mp h with h | ⟨debit, -, h⟩
    · exact ⟨.debit, (raises_totalsByCurrency hsignal).mp h⟩
    rcases raises_bind.mp h with h | ⟨credit, -, h⟩
    · exact ⟨.credit, (raises_totalsByCurrency hsignal).mp h⟩
    obtain ⟨-, h⟩ := of_raises_guard h (hvalue _)
    exact absurd h (not_raises_ok _)
  · rintro ⟨hlen, s, c, hsum⟩
    refine raises_guard.mpr (.inr ⟨not_lt.mpr hlen, raises_bind.mpr ?_⟩)
    by_cases hdebit : (totalsByCurrency entries (some .debit)).Succeeds
    · -- the debit totals are complete, so it is a credit total that overflows
      obtain ⟨debit, hdebit⟩ := hdebit
      refine .inr ⟨debit, hdebit,
        raises_bind.mpr (.inl ((raises_totalsByCurrency hsignal).mpr ⟨c, ?_⟩))⟩
      cases s with
      | debit => exact absurd (succeeds_totalsByCurrency.mp ⟨debit, hdebit⟩ c) hsum
      | credit => exact hsum
    · rw [succeeds_totalsByCurrency, not_forall] at hdebit
      exact .inl ((raises_totalsByCurrency hsignal).mpr hdebit)

end

/-- The balance check signals when a total overflows, and raises a `ValueError` otherwise. -/
theorem escapes_validateTransactionEntries {entries : List LedgerEntry} :
    (validateTransactionEntries entries).Raises Escapes ↔
      2 ≤ entries.length ∧ SumsOverflow entries :=
  raises_validateTransactionEntries escapes_decimalSignal not_escapes_valueError

/-- Nothing is wrong with the header of a posted transaction, and its totals overflow. -/
structure JournalTransactionFields.Overflows (t : JournalTransactionFields) : Prop where
  reference : Text.strip t.reference ≠ ""
  description : Text.strip t.description ≠ ""
  reversalOf : ∀ v ∈ t.reversalOf, Text.strip v ≠ "" ∧ Text.strip v ≠ Text.strip t.reference
  posted : t.state = .posted
  two : 2 ≤ t.entries.length
  sums : SumsOverflow t.entries

theorem escapes_journalTransaction {t : JournalTransactionFields} :
    t.postInit.Raises Escapes ↔ t.Overflows := by
  constructor
  · intro h
    obtain ⟨reference, hreference, h⟩ :=
      exists_of_raises_bind h (not_escapes_requireNonEmptyStr _ _)
    obtain ⟨description, hdescription, h⟩ :=
      exists_of_raises_bind h (not_escapes_requireNonEmptyStr _ _)
    obtain ⟨reversalOf, hreversal, h⟩ :=
      exists_of_raises_bind h (not_escapes_normalizeOptionalStr _ _)
    obtain ⟨hne, h⟩ := of_raises_guard h (not_escapes_valueError _)
    obtain ⟨href, rfl⟩ := requireNonEmptyStr_eq_ok.mp hreference
    obtain ⟨hdesc, rfl⟩ := requireNonEmptyStr_eq_ok.mp hdescription
    have hrev := normalizeOptionalStr_succeeds.mp ⟨_, hreversal⟩
    obtain rfl := eq_of_normalizeOptionalStr hreversal
    by_cases hposted : t.state = .posted
    · rw [if_pos hposted] at h
      rcases raises_bind.mp h with h | ⟨_, -, h⟩
      · obtain ⟨htwo, hsums⟩ := escapes_validateTransactionEntries.mp h
        refine ⟨href, hdesc, fun v hv => ⟨hrev v hv, ?_⟩, hposted, htwo, hsums⟩
        intro heq
        exact hne (by rw [Option.mem_def.mp hv, Option.map_some, heq])
      · exact absurd h (not_raises_ok _)
    · rw [if_neg hposted] at h
      exact absurd h (not_raises_ok _)
  · intro h
    obtain ⟨reversalOf, hreversal⟩ : (normalizeOptionalStr t.reversalOf "reversal_of").Succeeds :=
      normalizeOptionalStr_succeeds.mpr fun v hv => (h.reversalOf v hv).1
    obtain rfl := eq_of_normalizeOptionalStr hreversal
    have hne : t.reversalOf.map Text.strip ≠ some (Text.strip t.reference) := by
      intro heq
      obtain ⟨v, hv, heq⟩ := Option.map_eq_some_iff.mp heq
      exact (h.reversalOf v hv).2 heq
    rw [JournalTransactionFields.postInit, requireNonEmptyStr_eq_ok.mpr ⟨h.reference, rfl⟩, ok_bind,
      requireNonEmptyStr_eq_ok.mpr ⟨h.description, rfl⟩, ok_bind, hreversal, ok_bind]
    refine raises_guard.mpr (.inr ⟨hne, ?_⟩)
    rw [if_pos h.posted]
    exact raises_bind.mpr (.inl (escapes_validateTransactionEntries.mpr ⟨h.two, h.sums⟩))

/-! ### Texts that signal -/

/-- Nothing is wrong with the texts of an entry that are read before its tax rate. -/
structure EntryPayload.HeadReads (data : EntryPayload) : Prop where
  accountCode : Text.strip data.accountCode ≠ ""
  side : Text.strip data.side ∈ ["Dr", "Cr"]
  currency : Text.strip data.currency ≠ ""
  description : ∀ text ∈ data.description, Text.strip text ≠ ""

/-- The amount is not a number; or the tax rate is not, and no text before it is at fault. -/
def EntryPayload.Signals (data : EntryPayload) : Prop :=
  Decimal.ofText? data.amount = none ∨
    data.HeadReads ∧ ∃ rate ∈ data.taxRate, Decimal.ofText? rate = none

/-- Nothing is wrong with the texts of a transaction that are read before its entries. -/
structure TransactionPayload.HeadReads (data : TransactionPayload) : Prop where
  reference : Text.strip data.reference ≠ ""
  postedAt : ∃ t, datetimeFromIsoformat data.postedAt = .ok t
  description : Text.strip data.description ≠ ""

/-- Nothing is wrong with the texts of a posted transaction, but a sum leaves the range of the
decimals. -/
structure TransactionPayload.Overflows (data : TransactionPayload) : Prop
    extends data.HeaderValid where
  entries : ∀ e ∈ data.entries, e.Valid
  posted : Text.strip data.state = "posted"
  two : 2 ≤ data.entries.length
  sums : ¬ SumsInRange data.entries

/-- An entry signals after valid ones; or all of them are valid, and a sum overflows. -/
def TransactionPayload.Signals (data : TransactionPayload) : Prop :=
  data.HeadReads ∧ data.entries.Reaches EntryPayload.Valid EntryPayload.Signals ∨ data.Overflows

/-- Nothing is wrong with what is read of a book before its transactions. -/
structure BookPayload.HeadReads (data : BookPayload) : Prop where
  code : Text.strip data.code ≠ ""
  name : Text.strip data.name ≠ ""
  baseCurrency : Text.strip data.baseCurrency ≠ ""
  fiscalCalendar : Platform.checkFiscalCalendar data.startMonth = .ok ()
  legislativePack : Text.strip data.legislativePack ≠ ""
  accounts : ∀ a ∈ data.accounts, a.Valid
  periods : ∀ p ∈ data.periods, p.Valid

/-- A transaction signals after valid ones. -/
def BookPayload.Signals (data : BookPayload) : Prop :=
  data.HeadReads ∧
    data.transactions.Reaches TransactionPayload.Valid TransactionPayload.Signals

theorem FiscalCalendar.exists_new {m : ℤ} :
    (∃ c, FiscalCalendar.new m = .ok c) ↔ Platform.checkFiscalCalendar m = .ok () := by
  constructor
  · rintro ⟨c, h⟩
    rw [← FiscalCalendar.startMonth_of_new h]
    exact c.accepted
  · exact fun h => ⟨⟨m, h⟩, FiscalCalendar.new_fields ⟨m, h⟩⟩

section

variable (hplatform : RefusesByValueError)

include hplatform

theorem escapes_entryFromMapping {data : EntryPayload} :
    (entryFromMapping data).Raises Escapes ↔ data.Signals := by
  have hentry : ∀ e, ¬ (Built.new LedgerEntryFields.postInit e).Raises Escapes := fun e =>
    mt Built.raises_new.mp (not_escapes_ledgerEntry hplatform e)
  unfold EntryPayload.Signals
  constructor
  · intro h
    rcases raises_bind.mp h with h | ⟨amount, -, h⟩
    · exact .inl (escapes_requireDecimal.mp h)
    obtain ⟨accountCode, haccount, h⟩ :=
      exists_of_raises_bind h (not_escapes_requireNonEmptyStr _ _)
    obtain ⟨text, htext, h⟩ := exists_of_raises_bind h (not_escapes_requireNonEmptyStr _ _)
    obtain ⟨side, hside, h⟩ := exists_of_raises_bind h (not_escapes_side _)
    obtain ⟨currency, hcurrency, h⟩ := exists_of_raises_bind h (not_escapes_requireNonEmptyStr _ _)
    obtain ⟨description, hdescription, h⟩ :=
      exists_of_raises_bind h (not_escapes_normalizeOptionalStr _ _)
    rcases raises_bind.mp h with hrate | ⟨taxRate, -, h⟩
    · obtain ⟨-, rfl⟩ := requireNonEmptyStr_eq_ok.mp htext
      refine .inr ⟨⟨?_, PostingSide.exists_ofValue.mp ⟨side, hside⟩, ?_, ?_⟩,
        escapes_optionalDecimal.mp hrate⟩
      · exact succeeds_requireNonEmptyStr.mp ⟨_, haccount⟩
      · exact succeeds_requireNonEmptyStr.mp ⟨_, hcurrency⟩
      · exact normalizeOptionalStr_succeeds.mp ⟨_, hdescription⟩
    · exact absurd h (hentry _)
  · intro h
    by_cases hamount : Decimal.ofText? data.amount = none
    · exact raises_bind.mpr (.inl (escapes_requireDecimal.mpr hamount))
    obtain ⟨htexts, hrate⟩ := h.resolve_left hamount
    obtain ⟨amount, hamount⟩ := Option.ne_none_iff_exists'.mp hamount
    have hdecimal : requireDecimal data.amount = .ok amount := by rw [requireDecimal, hamount]
    obtain ⟨side, hside⟩ := PostingSide.exists_ofValue.mpr htexts.side
    have hne : Text.strip data.side ≠ "" := by
      intro hblank
      simpa [hblank] using htexts.side
    obtain ⟨description, hdescription⟩ :
        (normalizeOptionalStr data.description "entry.description").Succeeds :=
      normalizeOptionalStr_succeeds.mpr htexts.description
    rw [entryFromMapping, hdecimal, ok_bind,
      requireNonEmptyStr_eq_ok.mpr ⟨htexts.accountCode, rfl⟩, ok_bind,
      requireNonEmptyStr_eq_ok.mpr ⟨hne, rfl⟩, ok_bind, hside, ok_bind,
      requireNonEmptyStr_eq_ok.mpr ⟨htexts.currency, rfl⟩, ok_bind, hdescription, ok_bind]
    exact raises_bind.mpr (.inl (escapes_optionalDecimal.mpr hrate))

theorem not_escapes_optionalPeriod (data : Option PeriodPayload) :
    ¬ (optionalPeriod data).Raises Escapes := by
  cases data with
  | none => simp [optionalPeriod]
  | some data =>
    rw [optionalPeriod, raises_map]
    exact not_escapes_fiscalPeriod hplatform _ _ _

theorem escapes_mapM_entryFromMapping {data : TransactionPayload} :
    (data.entries.mapM entryFromMapping).Raises Escapes ↔
      data.entries.Reaches EntryPayload.Valid EntryPayload.Signals := by
  rw [raises_mapM]
  simp only [escapes_entryFromMapping hplatform, entryFromMapping_succeeds]

theorem signals_of_transactionFromMapping {data : TransactionPayload}
    (h : (transactionFromMapping data).Raises Escapes) : data.Signals := by
  obtain ⟨reference, hreference, h⟩ :=
    exists_of_raises_bind h (not_escapes_requireNonEmptyStr _ _)
  obtain ⟨postedAt, hpostedAt, h⟩ := exists_of_raises_bind h (hplatform.datetime _)
  obtain ⟨description, hdescription, h⟩ :=
    exists_of_raises_bind h (not_escapes_requireNonEmptyStr _ _)
  obtain ⟨href, rfl⟩ := requireNonEmptyStr_eq_ok.mp hreference
  obtain ⟨hdesc, rfl⟩ := requireNonEmptyStr_eq_ok.mp hdescription
  rcases raises_bind.mp h with h | ⟨entries, hread, h⟩
  · exact .inl ⟨⟨href, ⟨_, hpostedAt⟩, hdesc⟩, (escapes_mapM_entryFromMapping hplatform).mp h⟩
  obtain ⟨period, hperiod, h⟩ := exists_of_raises_bind h (not_escapes_optionalPeriod hplatform _)
  obtain ⟨text, htext, h⟩ := exists_of_raises_bind h (not_escapes_requireNonEmptyStr _ _)
  obtain ⟨state, hstate, h⟩ := exists_of_raises_bind h (not_escapes_transactionState _)
  obtain ⟨reversalOf, hreversal, h⟩ :=
    exists_of_raises_bind h (not_escapes_normalizeOptionalStr _ _)
  obtain ⟨-, rfl⟩ := requireNonEmptyStr_eq_ok.mp htext
  obtain ⟨hrev, rfl⟩ := normalizeOptionalStr_eq_ok.mp hreversal
  -- only the totals are left to signal
  have hoverflows := escapes_journalTransaction.mp (Built.raises_new.mp h)
  have hne := (forall_mem_strip_iff.mp hoverflows.reversalOf).2
  rw [Text.strip_strip, map_strip_map_strip] at hne
  have hwhole := forall₂_readFrom hread
  exact .inr
    { reference := href
      postedAt := ⟨_, hpostedAt⟩
      description := hdesc
      period := exists_optionalPeriod.mp ⟨_, hperiod⟩
      state := TransactionState.exists_ofValue.mp ⟨_, hstate⟩
      reversalOf := forall_mem_strip_iff.mpr ⟨hrev, hne⟩
      entries := fun e he => entryFromMapping_succeeds.mp (succeeds_of_mapM_eq_ok hread e he)
      posted := by
        have hposted : state = .posted := hoverflows.posted
        rw [TransactionState.eq_value_of_ofValue hstate, hposted]
        rfl
      two := hwhole.length_eq ▸ hoverflows.two
      sums := (sumsOverflow_iff hwhole).mp hoverflows.sums }

theorem transactionFromMapping_of_signals {data : TransactionPayload} (h : data.Signals) :
    (transactionFromMapping data).Raises Escapes := by
  rcases h with ⟨hhead, hreach⟩ | h
  · obtain ⟨postedAt, hpostedAt⟩ := hhead.postedAt
    rw [transactionFromMapping, requireNonEmptyStr_eq_ok.mpr ⟨hhead.reference, rfl⟩, ok_bind,
      hpostedAt, ok_bind, requireNonEmptyStr_eq_ok.mpr ⟨hhead.description, rfl⟩, ok_bind]
    exact raises_bind.mpr (.inl ((escapes_mapM_entryFromMapping hplatform).mpr hreach))
  · obtain ⟨postedAt, hpostedAt⟩ := h.postedAt
    obtain ⟨entries, hread⟩ :=
      mapM_succeeds.mpr fun e he => entryFromMapping_succeeds.mpr (h.entries e he)
    obtain ⟨period, hperiod⟩ := exists_optionalPeriod.mpr h.period
    obtain ⟨hrev, hne⟩ := forall_mem_strip_iff.mp h.reversalOf
    have hwhole := forall₂_readFrom hread
    rw [transactionFromMapping, requireNonEmptyStr_eq_ok.mpr ⟨h.reference, rfl⟩, ok_bind,
      hpostedAt, ok_bind, requireNonEmptyStr_eq_ok.mpr ⟨h.description, rfl⟩, ok_bind, hread,
      ok_bind, hperiod, ok_bind, requireNonEmptyStr_eq_ok.mpr ⟨by simp [h.posted], rfl⟩, ok_bind,
      h.posted, show TransactionState.ofValue "posted" = .ok .posted from rfl, ok_bind,
      normalizeOptionalStr_eq_ok.mpr ⟨hrev, rfl⟩, ok_bind]
    refine Built.raises_new.mpr (escapes_journalTransaction.mpr
      { reference := by
          rw [Text.strip_strip]
          exact h.reference
        description := by
          rw [Text.strip_strip]
          exact h.description
        reversalOf := forall_mem_strip_iff.mpr ⟨forall_mem_map_strip.mpr hrev, ?_⟩
        posted := rfl
        two := hwhole.length_eq.symm ▸ h.two
        sums := (sumsOverflow_iff hwhole).mpr h.sums })
    rwa [Text.strip_strip, map_strip_map_strip]

theorem escapes_transactionFromMapping {data : TransactionPayload} :
    (transactionFromMapping data).Raises Escapes ↔ data.Signals :=
  ⟨signals_of_transactionFromMapping hplatform, transactionFromMapping_of_signals hplatform⟩

theorem not_escapes_bookPeriodFromMapping (data : BookPeriodPayload) :
    ¬ (bookPeriodFromMapping data).Raises Escapes := by
  simp [bookPeriodFromMapping, periodFromMapping, raises_bind, not_escapes_fiscalPeriod hplatform,
    hplatform.date, Built.raises_new, not_escapes_bookPeriod]

end

theorem not_escapes_accountFromMapping (data : AccountPayload) :
    ¬ (accountFromMapping data).Raises Escapes := by
  simp [accountFromMapping, raises_bind, Built.raises_new, not_escapes_account]

/-- **What escapes the deserializer of a book**: the signal of a text that is not a number,
or of a total that overflows, after texts that are all valid. -/
theorem escapes_bookFromMapping (hplatform : RefusesByValueError) {data : BookPayload} :
    (bookFromMapping data).Raises Escapes ↔ data.Signals := by
  have htransactions : (data.transactions.mapM transactionFromMapping).Raises Escapes ↔
      data.transactions.Reaches TransactionPayload.Valid TransactionPayload.Signals := by
    rw [raises_mapM]
    simp only [escapes_transactionFromMapping hplatform, transactionFromMapping_succeeds]
  unfold BookPayload.Signals
  constructor
  · intro h
    obtain ⟨code, hcode, h⟩ := exists_of_raises_bind h (not_escapes_requireNonEmptyStr _ _)
    obtain ⟨name, hname, h⟩ := exists_of_raises_bind h (not_escapes_requireNonEmptyStr _ _)
    obtain ⟨currency, hcurrency, h⟩ := exists_of_raises_bind h (not_escapes_requireNonEmptyStr _ _)
    obtain ⟨calendar, hcalendar, h⟩ :=
      exists_of_raises_bind h (not_escapes_fiscalCalendar hplatform _)
    obtain ⟨pack, hpack, h⟩ := exists_of_raises_bind h (not_escapes_requireNonEmptyStr _ _)
    obtain ⟨accounts, haccounts, h⟩ :=
      exists_of_raises_bind h (not_raises_mapM fun a _ => not_escapes_accountFromMapping a)
    obtain ⟨periods, hperiods, h⟩ :=
      exists_of_raises_bind h
        (not_raises_mapM fun p _ => not_escapes_bookPeriodFromMapping hplatform p)
    rcases raises_bind.mp h with h | ⟨transactions, -, h⟩
    · exact
        ⟨{ code := succeeds_requireNonEmptyStr.mp ⟨_, hcode⟩
           name := succeeds_requireNonEmptyStr.mp ⟨_, hname⟩
           baseCurrency := succeeds_requireNonEmptyStr.mp ⟨_, hcurrency⟩
           fiscalCalendar := FiscalCalendar.exists_new.mp ⟨_, hcalendar⟩
           legislativePack := succeeds_requireNonEmptyStr.mp ⟨_, hpack⟩
           accounts := fun a ha =>
             accountFromMapping_succeeds.mp (succeeds_of_mapM_eq_ok haccounts a ha)
           periods := fun p hp =>
             bookPeriodFromMapping_succeeds.mp (succeeds_of_mapM_eq_ok hperiods p hp) },
          htransactions.mp h⟩
    · exact absurd (Built.raises_new.mp h) (not_escapes_book _)
  · rintro ⟨hhead, hreach⟩
    obtain ⟨calendar, hcalendar⟩ := FiscalCalendar.exists_new.mpr hhead.fiscalCalendar
    obtain ⟨accounts, haccounts⟩ :=
      mapM_succeeds.mpr fun a ha => accountFromMapping_succeeds.mpr (hhead.accounts a ha)
    obtain ⟨periods, hperiods⟩ :=
      mapM_succeeds.mpr fun p hp => bookPeriodFromMapping_succeeds.mpr (hhead.periods p hp)
    rw [bookFromMapping, requireNonEmptyStr_eq_ok.mpr ⟨hhead.code, rfl⟩, ok_bind,
      requireNonEmptyStr_eq_ok.mpr ⟨hhead.name, rfl⟩, ok_bind,
      requireNonEmptyStr_eq_ok.mpr ⟨hhead.baseCurrency, rfl⟩, ok_bind, hcalendar, ok_bind,
      requireNonEmptyStr_eq_ok.mpr ⟨hhead.legislativePack, rfl⟩, ok_bind, haccounts, ok_bind,
      hperiods, ok_bind]
    exact raises_bind.mpr (.inl (htransactions.mpr hreach))

/-! ### What escapes is a signal -/

/-- An exception that escapes and is not a signal. -/
def PyError.Stray (e : PyError) : Prop := e.Escapes ∧ ∀ signal, e ≠ .decimalSignal signal

omit [Platform] in
theorem not_stray_of_not_escapes {α : Type} {x : Except PyError α} (h : ¬ x.Raises Escapes) :
    ¬ x.Raises Stray := by
  rintro ⟨e, he, hescapes, -⟩
  exact h ⟨e, he, hescapes⟩

omit [Platform] in
@[simp] theorem not_stray_requireDecimal (text : String) :
    ¬ (requireDecimal text).Raises Stray := by
  unfold requireDecimal
  split <;> simp [Stray]

omit [Platform] in
@[simp] theorem not_stray_optionalDecimal (text : Option String) :
    ¬ (optionalDecimal text).Raises Stray := by
  cases text <;> simp [optionalDecimal]

theorem not_stray_validateTransactionEntries (entries : List LedgerEntry) :
    ¬ (validateTransactionEntries entries).Raises Stray := by
  have htotals : ∀ s, ¬ (totalsByCurrency entries (some s)).Raises Stray := by
    rintro s ⟨e, he, -, hnot⟩
    obtain ⟨signal, rfl⟩ := signal_of_totalsFrom he
    exact hnot signal rfl
  have hvalue : ∀ msg, ¬ (PyError.valueError msg).Stray := fun msg h =>
    not_escapes_valueError msg h.1
  intro h
  obtain ⟨-, h⟩ := of_raises_guard h (hvalue _)
  obtain ⟨debit, -, h⟩ := exists_of_raises_bind h (htotals _)
  obtain ⟨credit, -, h⟩ := exists_of_raises_bind h (htotals _)
  obtain ⟨-, h⟩ := of_raises_guard h (hvalue _)
  exact not_raises_ok _ h

theorem not_stray_journalTransaction (t : JournalTransactionFields) :
    ¬ (Built.new JournalTransactionFields.postInit t).Raises Stray := by
  rw [Built.raises_new]
  by_cases hposted : t.state = .posted
  all_goals simp [JournalTransactionFields.postInit, raises_bind, raises_guard, hposted, Stray,
    not_stray_of_not_escapes (not_escapes_requireNonEmptyStr _ _),
    not_stray_of_not_escapes (not_escapes_normalizeOptionalStr _ _),
    not_stray_validateTransactionEntries]

section

variable (hplatform : RefusesByValueError)

include hplatform

theorem not_stray_entryFromMapping (data : EntryPayload) :
    ¬ (entryFromMapping data).Raises Stray := by
  have hentry : ∀ e, ¬ (Built.new LedgerEntryFields.postInit e).Raises Stray := fun e =>
    not_stray_of_not_escapes (mt Built.raises_new.mp (not_escapes_ledgerEntry hplatform e))
  simp [entryFromMapping, raises_bind, hentry,
    not_stray_of_not_escapes (not_escapes_requireNonEmptyStr _ _),
    not_stray_of_not_escapes (not_escapes_side _),
    not_stray_of_not_escapes (not_escapes_normalizeOptionalStr _ _)]

theorem not_stray_transactionFromMapping (data : TransactionPayload) :
    ¬ (transactionFromMapping data).Raises Stray := by
  simp [transactionFromMapping, raises_bind, not_stray_journalTransaction,
    not_raises_mapM fun e _ => not_stray_entryFromMapping hplatform e,
    not_stray_of_not_escapes (hplatform.datetime _),
    not_stray_of_not_escapes (not_escapes_optionalPeriod hplatform _),
    not_stray_of_not_escapes (not_escapes_requireNonEmptyStr _ _),
    not_stray_of_not_escapes (not_escapes_transactionState _),
    not_stray_of_not_escapes (not_escapes_normalizeOptionalStr _ _)]

/-- What escapes the deserializer of a book is a signal. -/
theorem not_stray_bookFromMapping (data : BookPayload) :
    ¬ (bookFromMapping data).Raises Stray := by
  have hbook : ∀ b, ¬ (Built.new BookFields.postInit b).Raises Stray := fun b =>
    not_stray_of_not_escapes (mt Built.raises_new.mp (not_escapes_book b))
  have haccounts : ¬ (data.accounts.mapM accountFromMapping).Raises Stray :=
    not_raises_mapM fun a _ => not_stray_of_not_escapes (not_escapes_accountFromMapping a)
  have hperiods : ¬ (data.periods.mapM bookPeriodFromMapping).Raises Stray :=
    not_raises_mapM fun p _ =>
      not_stray_of_not_escapes (not_escapes_bookPeriodFromMapping hplatform p)
  have htransactions : ¬ (data.transactions.mapM transactionFromMapping).Raises Stray :=
    not_raises_mapM fun t _ => not_stray_transactionFromMapping hplatform t
  simp [bookFromMapping, raises_bind, haccounts, hperiods, htransactions, hbook,
    not_stray_of_not_escapes (not_escapes_requireNonEmptyStr _ _),
    not_stray_of_not_escapes (not_escapes_fiscalCalendar hplatform _)]

end

end

namespace Reference

theorem not_escapes_normalizeOptionalDecimalRange (v : Option Decimal) (lo hi : Dec) (f : String) :
    ¬ (normalizeOptionalDecimalRange v lo hi f).Raises Escapes := by
  unfold normalizeOptionalDecimalRange
  split
  · simp
  · split_ifs <;> simp
  · simp

theorem not_escapes_dateFromIsoformat (text : String) :
    ¬ (dateFromIsoformat text).Raises Escapes := by
  unfold dateFromIsoformat
  split <;> simp

theorem not_escapes_datetimeFromIsoformat (text : String) :
    ¬ (datetimeFromIsoformat text).Raises Escapes := by
  unfold datetimeFromIsoformat
  split <;> simp

theorem refusesByValueError : RefusesByValueError where
  decimalRange := not_escapes_normalizeOptionalDecimalRange
  fiscalPeriod y q m := by
    change ¬ (if 1 ≤ y ∧ 1 ≤ q ∧ q ≤ 4 ∧ 1 ≤ m ∧ m ≤ 12 then Except.ok ()
      else .error (.valueError "invalid fiscal period")).Raises Escapes
    split_ifs <;> simp
  fiscalCalendar m := by
    change ¬ (if 1 ≤ m ∧ m ≤ 12 then Except.ok ()
      else .error (.valueError "start_month must be 1-12")).Raises Escapes
    split_ifs <;> simp
  date := not_escapes_dateFromIsoformat
  datetime := not_escapes_datetimeFromIsoformat

end Reference

end FinestVX
