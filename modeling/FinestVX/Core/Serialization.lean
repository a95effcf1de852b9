import FinestVX.Core.Books

/-!
# Serialization of the domain models

Domain objects as mappings of texts and numbers, and the deserializers that run
the domain constructors again.  A decimal is written in positional notation, so
what is read back has the values that were written, with the zeros of a positive
exponent spelt out; everything else comes back unchanged.

## Main definitions

* `EntryPayload`, `TransactionPayload`, `AccountPayload`, `BookPeriodPayload`,
  `BookPayload` — the mappings.
* `entryToMapping`, `transactionToMapping` and `entryFromMapping`,
  `transactionFromMapping`, `bookFromMapping` — the two directions.
* `LedgerEntry.readBack`, `JournalTransaction.readBack` — what is read back.

## Main results

* `transactionFromMapping_transactionToMapping` — reading what was written.
* `bookPeriodFromMapping_ok`, `bookPeriodFromMapping_error` — a period is read
  back exactly when its bounds are plain dates.
-/

namespace FinestVX

open Except

variable [Platform]

/-! ### Decimals -/

/-- `format(value, "f")` -/
def Decimal.formatF : Decimal → String
  | .finite d _ => d.formatF
  | .infinity neg => if neg then "-Infinity" else "Infinity"
  | .nan => "NaN"

omit [Platform] in
theorem formatF_of_toDec? {v : Decimal} {d : Dec} (h : v.toDec? = some d) :
    Decimal.formatF v = d.formatF := by
  obtain ⟨held, rfl⟩ := Decimal.toDec?_eq_some.mp h
  rfl

/-- `_require_decimal` -/
def requireDecimal (text : String) : Except PyError Decimal :=
  match Decimal.ofText? text with
  | some d => .ok d
  | none => .error (.decimalSignal .invalidOperation)

omit [Platform] in
/-- What is written of a finite decimal is read back. -/
theorem requireDecimal_formatF {v : Decimal} {d : Dec} (h : v.toDec? = some d) :
    requireDecimal d.formatF = .ok v.canon := by
  obtain ⟨held, rfl⟩ := Decimal.toDec?_eq_some.mp h
  rw [requireDecimal, Decimal.ofText?_formatF held]
  rfl

/-- A tax rate as it is read back. -/
def canonRate : Option Decimal → Option Decimal := Option.map Decimal.canon

omit [Platform] in
theorem isTaxRate_canonRate {r : Option Decimal} (h : IsTaxRate r) : IsTaxRate (canonRate r) := by
  intro v hv
  obtain ⟨w, hw, rfl⟩ := Option.mem_map.mp hv
  obtain ⟨d, hd, h0, h1⟩ := h w hw
  refine ⟨d.canon, ?_, by rwa [Dec.value_canon], by rwa [Dec.value_canon]⟩
  rw [Decimal.toDec?_canon, hd, Option.map_some]

/-! ### Entries -/

/-- The mapping of an entry. -/
structure EntryPayload where
  accountCode : String
  side : String
  amount : String
  currency : String
  description : Option String
  taxRate : Option String
  deriving DecidableEq

/-- `_entry_to_mapping` -/
def entryToMapping (e : LedgerEntry) : EntryPayload where
  accountCode := e.fields.accountCode
  side := e.fields.side.value
  amount := e.decimalValue.formatF
  currency := e.fields.currency
  description := e.fields.description
  taxRate := e.fields.taxRate.map Decimal.formatF

/-- The optional decimal of a mapping. -/
def optionalDecimal : Option String → Except PyError (Option Decimal)
  | none => .ok none
  | some text => (requireDecimal text).map some

/-- `_entry_from_mapping` -/
def entryFromMapping (data : EntryPayload) : Except PyError LedgerEntry := do
  let amount ← requireDecimal data.amount
  let accountCode ← requireNonEmptyStr data.accountCode "entry.account_code"
  let side ← PostingSide.ofValue (← requireNonEmptyStr data.side "entry.side")
  let currency ← requireNonEmptyStr data.currency "entry.currency"
  let description ← normalizeOptionalStr data.description "entry.description"
  let taxRate ← optionalDecimal data.taxRate
  Built.new LedgerEntryFields.postInit
    { accountCode, side, amount := makeFluentNumber amount, currency, description, taxRate }

namespace LedgerEntry

/-- The fields of an entry as they are read back. -/
def readBackFields (e : LedgerEntry) : LedgerEntryFields :=
  { e.fields with
    amount := makeFluentNumber e.fields.amount.decimalValue.canon
    taxRate := canonRate e.fields.taxRate }

theorem valid_readBackFields (e : LedgerEntry) : e.readBackFields.Valid e.decimalValue.canon :=
  { e.valid with
    amount := by
      rw [readBackFields, Platform.decimalValue_makeFluentNumber, Decimal.toDec?_canon,
        e.valid.amount, Option.map_some]
    nonneg := by
      rw [Dec.value_canon]
      exact e.valid.nonneg
    places := fun max hmax => by
      rw [Dec.places_canon]
      exact e.valid.places max hmax
    taxRate := isTaxRate_canonRate e.valid.taxRate }

/-- An entry as it is read back: the amounts of the same value, in canonical form. -/
def readBack (e : LedgerEntry) : LedgerEntry :=
  ⟨e.readBackFields, e.readBackFields, e.valid_readBackFields.postInit⟩

@[simp] theorem decimalValue_readBack (e : LedgerEntry) :
    e.readBack.decimalValue = e.decimalValue.canon :=
  Option.some.inj (e.readBack.valid.amount.symm.trans e.valid_readBackFields.amount)

theorem samePosting_readBack (e : LedgerEntry) : SamePosting e e.readBack :=
  ⟨rfl, rfl, by rw [decimalValue_readBack, Dec.value_canon]⟩

end LedgerEntry

omit [Platform] in
theorem optionalDecimal_formatF {r : Option Decimal} (h : IsTaxRate r) :
    optionalDecimal (r.map Decimal.formatF) = .ok (canonRate r) := by
  cases r with
  | none => rfl
  | some v =>
    obtain ⟨d, hd, -⟩ := h v rfl
    rw [Option.map_some, formatF_of_toDec? hd, optionalDecimal, requireDecimal_formatF hd]
    rfl

theorem entryFromMapping_entryToMapping (e : LedgerEntry) :
    entryFromMapping (entryToMapping e) = .ok e.readBack := by
  simp only [entryFromMapping, entryToMapping, requireDecimal_formatF e.valid.amount, ok_bind,
    e.valid.accountCode, requireNonEmptyStr_side, PostingSide.ofValue_value, e.valid.currencyText,
    e.valid.description, optionalDecimal_formatF e.valid.taxRate]
  exact Built.new_eq_ok_iff.mpr e.valid_readBackFields.postInit

/-- What is written of an entry that was read back is what was read. -/
@[simp] theorem entryToMapping_readBack (e : LedgerEntry) :
    entryToMapping e.readBack = entryToMapping e := by
  have hrate : (canonRate e.fields.taxRate).map Decimal.formatF =
      e.fields.taxRate.map Decimal.formatF := by
    rw [canonRate, Option.map_map]
    congr 1
    funext v
    cases v <;> simp [Decimal.formatF, Decimal.canon]
  simp only [entryToMapping, LedgerEntry.decimalValue_readBack, Dec.formatF_canon]
  simp only [LedgerEntry.readBack, LedgerEntry.readBackFields, hrate]

/-! ### Transactions -/

/-- The mapping of a fiscal period. -/
structure PeriodPayload where
  fiscalYear : ℤ
  quarter : ℤ
  month : ℤ
  deriving DecidableEq

/-- `_period_to_mapping` -/
def periodToMapping (p : FiscalPeriod) : PeriodPayload := ⟨p.fiscalYear, p.quarter, p.month⟩

/-- `_period_from_mapping` -/
def periodFromMapping (data : PeriodPayload) : Except PyError FiscalPeriod :=
  FiscalPeriod.new data.fiscalYear data.quarter data.month

@[simp] theorem periodFromMapping_periodToMapping (p : FiscalPeriod) :
    periodFromMapping (periodToMapping p) = .ok p :=
  p.new_fields

theorem periodToMapping_injective : Function.Injective periodToMapping := by
  intro p q h
  obtain ⟨_, _, _, _⟩ := p
  obtain ⟨_, _, _, _⟩ := q
  cases h
  rfl

/-- The optional period of a mapping. -/
def optionalPeriod : Option PeriodPayload → Except PyError (Option FiscalPeriod)
  | none => .ok none
  | some data => (periodFromMapping data).map some

@[simp] theorem optionalPeriod_periodToMapping (p : Option FiscalPeriod) :
    optionalPeriod (p.map periodToMapping) = .ok p := by
  cases p <;> simp [optionalPeriod, Except.map]

/-- The mapping of a transaction. -/
structure TransactionPayload where
  reference : String
  postedAt : String
  description : String
  entries : List EntryPayload
  period : Option PeriodPayload
  state : String
  reversalOf : Option String
  deriving DecidableEq

/-- `transaction_to_mapping` -/
def transactionToMapping (t : JournalTransaction) : TransactionPayload where
  reference := t.fields.reference
  postedAt := t.fields.postedAt.isoformat
  description := t.fields.description
  entries := t.fields.entries.map entryToMapping
  period := t.fields.period.map periodToMapping
  state := t.fields.state.value
  reversalOf := t.fields.reversalOf

/-- `transaction_from_mapping` -/
def transactionFromMapping (data : TransactionPayload) : Except PyError JournalTransaction := do
  let reference ← requireNonEmptyStr data.reference "transaction.reference"
  let postedAt ← datetimeFromIsoformat data.postedAt
  let description ← requireNonEmptyStr data.description "transaction.description"
  let entries ← data.entries.mapM entryFromMapping
  let period ← optionalPeriod data.period
  let state ← TransactionState.ofValue (← requireNonEmptyStr data.state "transaction.state")
  let reversalOf ← normalizeOptionalStr data.reversalOf "transaction.reversal_of"
  Built.new JournalTransactionFields.postInit
    { reference, postedAt, description, entries, period, state, reversalOf }

namespace JournalTransaction

/-- The fields of a transaction as they are read back. -/
def readBackFields (t : JournalTransaction) : JournalTransactionFields :=
  { t.fields with entries := t.fields.entries.map LedgerEntry.readBack }

theorem valid_readBackFields (t : JournalTransaction) : t.readBackFields.Valid :=
  { t.valid with
    balanced := fun hposted => by
      refine validateTransactionEntries_congr ?_ (t.valid.balanced hposted)
      exact List.forall₂_map_right_iff.mpr
        (List.forall₂_same.mpr fun e _ => e.samePosting_readBack) }

/-- A transaction as it is read back. -/
def readBack (t : JournalTransaction) : JournalTransaction :=
  ⟨t.readBackFields, t.readBackFields, t.valid_readBackFields.postInit⟩

end JournalTransaction

/-- **A transaction that was written is read back.** -/
theorem transactionFromMapping_transactionToMapping (t : JournalTransaction) :
    transactionFromMapping (transactionToMapping t) = .ok t.readBack := by
  have hentries : (t.fields.entries.map entryToMapping).mapM entryFromMapping =
      .ok (t.fields.entries.map LedgerEntry.readBack) :=
    mapM_map_eq_ok fun e _ => entryFromMapping_entryToMapping e
  simp only [transactionFromMapping, transactionToMapping, t.valid.reference, ok_bind,
    Platform.datetimeFromIsoformat_isoformat, t.valid.description, hentries,
    optionalPeriod_periodToMapping, requireNonEmptyStr_state, TransactionState.ofValue_value,
    t.valid.reversalOf]
  exact Built.new_eq_ok_iff.mpr t.valid_readBackFields.postInit

/-- What is written of a transaction that was read back is what was read. -/
@[simp] theorem transactionToMapping_readBack (t : JournalTransaction) :
    transactionToMapping t.readBack = transactionToMapping t := by
  have hentries : (t.fields.entries.map LedgerEntry.readBack).map entryToMapping =
      t.fields.entries.map entryToMapping := by
    rw [List.map_map]
    exact List.map_congr_left fun e _ => entryToMapping_readBack e
  simp only [transactionToMapping]
  simp only [JournalTransaction.readBack, JournalTransaction.readBackFields, hentries]

/-! ### Accounts and periods -/

/-- The mapping of an account. -/
structure AccountPayload where
  code : String
  name : String
  normalSide : String
  currency : String
  parentCode : Option String
  allowPosting : Bool
  active : Bool
  deriving DecidableEq

/-- `_account_to_mapping` -/
def accountToMapping (a : Account) : AccountPayload where
  code := a.fields.code
  name := a.fields.name
  normalSide := a.fields.normalSide.value
  currency := a.fields.currency
  parentCode := a.fields.parentCode
  allowPosting := a.fields.allowPosting
  active := a.fields.active

/-- `_account_from_mapping` -/
def accountFromMapping (data : AccountPayload) : Except PyError Account := do
  let code ← requireNonEmptyStr data.code "account.code"
  let name ← requireNonEmptyStr data.name "account.name"
  let normalSide ← PostingSide.ofValue (← requireNonEmptyStr data.normalSide "account.normal_side")
  let currency ← requireNonEmptyStr data.currency "account.currency"
  let parentCode ← normalizeOptionalStr data.parentCode "account.parent_code"
  Built.new AccountFields.postInit
    { code, name, normalSide, currency, parentCode, allowPosting := data.allowPosting,
      active := data.active }

theorem accountFromMapping_accountToMapping (a : Account) :
    accountFromMapping (accountToMapping a) = .ok a := by
  simp only [accountFromMapping, accountToMapping, a.valid.code, ok_bind, a.valid.name,
    requireNonEmptyStr_side, PostingSide.ofValue_value, a.valid.currencyText, a.valid.parentCode]
  exact Built.new_fields (fun _ _ => AccountFields.postInit_of_eq_ok) a

/-- The mapping of a period of a book. -/
structure BookPeriodPayload where
  period : PeriodPayload
  startDate : String
  endDate : String
  state : String
  deriving DecidableEq

/-- `_book_period_to_mapping` -/
def bookPeriodToMapping (p : BookPeriod) : BookPeriodPayload where
  period := periodToMapping p.fields.period
  startDate := p.fields.startDate.isoformat
  endDate := p.fields.endDate.isoformat
  state := p.fields.state.value

/-- `_book_period_from_mapping` -/
def bookPeriodFromMapping (data : BookPeriodPayload) : Except PyError BookPeriod := do
  let period ← periodFromMapping data.period
  let startDate ← dateFromIsoformat data.startDate
  let endDate ← dateFromIsoformat data.endDate
  let state ← FiscalPeriodState.ofValue (← requireNonEmptyStr data.state "book_period.state")
  Built.new BookPeriodFields.postInit
    { period, startDate := .date startDate, endDate := .date endDate, state }

namespace BookPeriod

/-- The bounds of the period are dates and not datetimes. -/
def IsPlain (p : BookPeriod) : Prop := p.fields.startDate.IsPlain

instance : DecidablePred IsPlain := fun p =>
  inferInstanceAs (Decidable p.fields.startDate.IsPlain)

/-- The two bounds of a period are of one kind. -/
theorem IsPlain.endDate {p : BookPeriod} (h : p.IsPlain) : p.fields.endDate.IsPlain := by
  obtain ⟨d, hd⟩ := h
  have hkind := p.valid.1
  rw [hd] at hkind
  cases hend : p.fields.endDate with
  | date e => exact ⟨e, rfl⟩
  | datetime t =>
    rw [hend, DateValue.kind, DateValue.kind] at hkind
    split at hkind <;> cases hkind

end BookPeriod

theorem bookPeriodFromMapping_ok {p : BookPeriod} (h : p.IsPlain) :
    bookPeriodFromMapping (bookPeriodToMapping p) = .ok p := by
  obtain ⟨s, hs⟩ := h
  obtain ⟨e, he⟩ := BookPeriod.IsPlain.endDate ⟨s, hs⟩
  simp only [bookPeriodFromMapping, bookPeriodToMapping, hs, he, DateValue.isoformat,
    periodFromMapping_periodToMapping, Platform.dateFromIsoformat_isoformat, ok_bind,
    requireNonEmptyStr_periodState, FiscalPeriodState.ofValue_value]
  refine Built.new_eq_ok_iff.mpr (BookPeriodFields.postInit_eq_ok.mpr ⟨?_, p.valid⟩)
  rw [← hs, ← he]

theorem bookPeriodFromMapping_error {p : BookPeriod} (h : ¬ p.IsPlain) :
    ∃ msg, bookPeriodFromMapping (bookPeriodToMapping p) = .error (.valueError msg) := by
  cases hs : p.fields.startDate with
  | date d => exact absurd ⟨d, hs⟩ h
  | datetime t =>
    obtain ⟨msg, hmsg⟩ := Platform.dateFromIsoformat_datetime t
    refine ⟨msg, ?_⟩
    simp only [bookPeriodFromMapping, bookPeriodToMapping, hs, DateValue.isoformat,
      periodFromMapping_periodToMapping, ok_bind]
    rw [show dateFromIsoformat t.isoformat = _ from hmsg, error_bind]

/-! ### Books -/

/-- The mapping of a book. -/
structure BookPayload where
  code : String
  name : String
  baseCurrency : String
  /-- `fiscal_calendar.start_month` -/
  startMonth : ℤ
  legislativePack : String
  accounts : List AccountPayload
  periods : List BookPeriodPayload
  transactions : List TransactionPayload
  deriving DecidableEq

/-- The mapping of the fields of a book. -/
def BookFields.toMapping (b : BookFields) : BookPayload where
  code := b.code
  name := b.name
  baseCurrency := b.baseCurrency
  startMonth := b.fiscalCalendar.startMonth
  legislativePack := b.legislativePack
  accounts := b.accounts.map accountToMapping
  periods := b.periods.map bookPeriodToMapping
  transactions := b.transactions.map transactionToMapping

/-- `book_to_mapping` -/
def bookToMapping (b : Book) : BookPayload := b.fields.toMapping

/-- `book_from_mapping` -/
def bookFromMapping (data : BookPayload) : Except PyError Book := do
  let code ← requireNonEmptyStr data.code "book.code"
  let name ← requireNonEmptyStr data.name "book.name"
  let baseCurrency ← requireNonEmptyStr data.baseCurrency "book.base_currency"
  let fiscalCalendar ← FiscalCalendar.new data.startMonth
  let legislativePack ← requireNonEmptyStr data.legislativePack "book.legislative_pack"
  let accounts ← data.accounts.mapM accountFromMapping
  let periods ← data.periods.mapM bookPeriodFromMapping
  let transactions ← data.transactions.mapM transactionFromMapping
  Built.new BookFields.postInit
    { code, name, baseCurrency, fiscalCalendar, legislativePack, accounts, periods, transactions }

/-- The texts of a book are normalised. -/
structure BookFields.Named (b : BookFields) : Prop where
  code : ∀ f, requireNonEmptyStr b.code f = .ok b.code
  name : ∀ f, requireNonEmptyStr b.name f = .ok b.name
  baseCurrencyText : ∀ f, requireNonEmptyStr b.baseCurrency f = .ok b.baseCurrency
  legislativePack : ∀ f, requireNonEmptyStr b.legislativePack f = .ok b.legislativePack

/-- A book as it is read back. -/
def BookFields.readBack (b : BookFields) : BookFields :=
  { b with transactions := b.transactions.map JournalTransaction.readBack }

/-- Reading back keeps what makes a transaction postable. -/
theorem Postable.readBack {codes : List String} {t : JournalTransaction} (h : Postable codes t) :
    Postable codes t.readBack where
  posted := h.posted
  accounts e he := by
    obtain ⟨e', he', rfl⟩ := List.mem_map.mp he
    exact h.accounts e' he'

/-- What is read back of a book passes the checks of the constructor. -/
theorem BookFields.Valid.readBack {b : BookFields} (h : b.Valid) : b.readBack.Valid :=
  { h with
    postable := by
      intro x hx
      obtain ⟨t, ht, rfl⟩ := List.mem_map.mp hx
      exact (h.postable t ht).readBack
    knownPeriods := by
      intro x hx
      obtain ⟨t, ht, rfl⟩ := List.mem_map.mp hx
      exact h.knownPeriods t ht }

/-- Reading a book with plain dates runs its constructor on what was written. -/
theorem bookFromMapping_toMapping {b : BookFields} (hnamed : b.Named)
    (hplain : ∀ p ∈ b.periods, p.IsPlain) :
    bookFromMapping b.toMapping = Built.new BookFields.postInit b.readBack := by
  have haccounts := mapM_map_eq_ok_self fun a (_ : a ∈ b.accounts) =>
    accountFromMapping_accountToMapping a
  have hperiods := mapM_map_eq_ok_self fun p (hp : p ∈ b.periods) =>
    bookPeriodFromMapping_ok (hplain p hp)
  have htransactions := mapM_map_eq_ok fun t (_ : t ∈ b.transactions) =>
    transactionFromMapping_transactionToMapping t
  simp only [bookFromMapping, BookFields.toMapping, hnamed.code, hnamed.name,
    hnamed.baseCurrencyText, hnamed.legislativePack, FiscalCalendar.new_fields, haccounts,
    hperiods, htransactions, ok_bind]
  rfl

/-- A book with a datetime for a bound of a period cannot be read. -/
theorem bookFromMapping_toMapping_fails {b : BookFields} {p : BookPeriod} (hp : p ∈ b.periods)
    (hplain : ¬ p.IsPlain) : ¬ (bookFromMapping b.toMapping).Succeeds := by
  rintro ⟨r, hr⟩
  obtain ⟨_, -, hr⟩ := bind_eq_ok.mp hr
  obtain ⟨_, -, hr⟩ := bind_eq_ok.mp hr
  obtain ⟨_, -, hr⟩ := bind_eq_ok.mp hr
  obtain ⟨_, -, hr⟩ := bind_eq_ok.mp hr
  obtain ⟨_, -, hr⟩ := bind_eq_ok.mp hr
  obtain ⟨_, -, hr⟩ := bind_eq_ok.mp hr
  obtain ⟨_, hperiods, -⟩ := bind_eq_ok.mp hr
  have hsucc := succeeds_of_mapM_eq_ok hperiods _ (List.mem_map_of_mem hp)
  obtain ⟨msg, hmsg⟩ := bookPeriodFromMapping_error hplain
  rw [hmsg] at hsucc
  exact not_succeeds_error _ hsucc

end FinestVX
