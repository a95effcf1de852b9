import FinestVX.Core.Platform
import FinestVX.Lib.Collections
import Mathlib.Data.Prod.Lex

/-!
# The domain models

The immutable objects of the bookkeeping core that a book is made of: accounts, fiscal
periods and ledger entries.  Each class has a structure of raw fields with a `postInit` that
checks and normalises them; its objects are `Built` from it, so that an object that exists
has passed its checks.

## Main definitions

* `PostingSide`, `FiscalPeriodState`, `TransactionState` — the enumerations.
* `AccountFields`, `BookPeriodFields`, `LedgerEntryFields`, each with its `postInit`.
* `Account`, `BookPeriod`, `LedgerEntry` — the objects.

## Main results

* `AccountFields.of_eq_ok` and its siblings — what a constructor makes of its arguments,
  and what it has checked.
* `AccountFields.postInit_of_eq_ok` and its siblings — constructing an object
  from its own fields returns it unchanged.
-/

namespace FinestVX

open Except

/-! ### Enumerations -/

/-- Debit or credit side. -/
inductive PostingSide
  | debit
  | credit
  deriving DecidableEq, Repr

namespace PostingSide

def value : PostingSide → String
  | debit => "Dr"
  | credit => "Cr"

/-- `PostingSide(text)` -/
def ofValue (text : String) : Except PyError PostingSide :=
  if text = "Dr" then .ok debit
  else if text = "Cr" then .ok credit
  else .error (.valueError s!"{text} is not a valid PostingSide")

/-- The opposite side. -/
def flip : PostingSide → PostingSide
  | debit => credit
  | credit => debit

@[simp] theorem ofValue_value (s : PostingSide) : ofValue s.value = .ok s := by cases s <;> rfl

theorem eq_value_of_ofValue {text : String} {s : PostingSide} (h : ofValue text = .ok s) :
    text = s.value := by
  unfold ofValue at h
  split at h
  · next htext => cases h; exact htext
  · split at h
    · next htext => cases h; exact htext
    · cases h

end PostingSide

/-- Lifecycle state of a fiscal period. -/
inductive FiscalPeriodState
  | opened
  | closed
  | locked
  deriving DecidableEq, Repr

namespace FiscalPeriodState

def value : FiscalPeriodState → String
  | opened => "open"
  | closed => "closed"
  | locked => "locked"

/-- `FiscalPeriodState(text)` -/
def ofValue (text : String) : Except PyError FiscalPeriodState :=
  if text = "open" then .ok opened
  else if text = "closed" then .ok closed
  else if text = "locked" then .ok locked
  else .error (.valueError s!"{text} is not a valid FiscalPeriodState")

@[simp] theorem ofValue_value (s : FiscalPeriodState) : ofValue s.value = .ok s := by
  cases s <;> rfl

theorem eq_value_of_ofValue {text : String} {s : FiscalPeriodState} (h : ofValue text = .ok s) :
    text = s.value := by
  unfold ofValue at h
  split at h
  · next htext => cases h; exact htext
  · split at h
    · next htext => cases h; exact htext
    · split at h
      · next htext => cases h; exact htext
      · cases h

end FiscalPeriodState

/-- Lifecycle state of a journal transaction. -/
inductive TransactionState
  | draft
  | posted
  | reversed
  deriving DecidableEq, Repr

namespace TransactionState

def value : TransactionState → String
  | draft => "draft"
  | posted => "posted"
  | reversed => "reversed"

/-- `TransactionState(text)` -/
def ofValue (text : String) : Except PyError TransactionState :=
  if text = "draft" then .ok draft
  else if text = "posted" then .ok posted
  else if text = "reversed" then .ok reversed
  else .error (.valueError s!"{text} is not a valid TransactionState")

@[simp] theorem ofValue_value (s : TransactionState) : ofValue s.value = .ok s := by
  cases s <;> rfl

theorem eq_value_of_ofValue {text : String} {s : TransactionState} (h : ofValue text = .ok s) :
    text = s.value := by
  unfold ofValue at h
  split at h
  · next htext => cases h; exact htext
  · split at h
    · next htext => cases h; exact htext
    · split at h
      · next htext => cases h; exact htext
      · cases h

end TransactionState

variable [Platform]

/-- The texts of the enumerations are normalised. -/
theorem requireNonEmptyStr_value {v : String} (h : v ∈ ["Dr", "Cr", "open", "closed", "locked",
    "draft", "posted", "reversed"]) (f : String) : requireNonEmptyStr v f = .ok v := by
  have hall : ∀ v ∈ ["Dr", "Cr", "open", "closed", "locked", "draft", "posted", "reversed"],
      Text.strip v ≠ "" ∧ v = Text.strip v := by decide
  exact requireNonEmptyStr_eq_ok.mpr (hall v h)

@[simp] theorem requireNonEmptyStr_side (s : PostingSide) (f : String) :
    requireNonEmptyStr s.value f = .ok s.value :=
  requireNonEmptyStr_value (by cases s <;> simp [PostingSide.value]) f

@[simp] theorem requireNonEmptyStr_periodState (s : FiscalPeriodState) (f : String) :
    requireNonEmptyStr s.value f = .ok s.value :=
  requireNonEmptyStr_value (by cases s <;> simp [FiscalPeriodState.value]) f

@[simp] theorem requireNonEmptyStr_state (s : TransactionState) (f : String) :
    requireNonEmptyStr s.value f = .ok s.value :=
  requireNonEmptyStr_value (by cases s <;> simp [TransactionState.value]) f

/-! ### Accounts -/

/-- The fields of an `Account`. -/
structure AccountFields where
  code : String
  name : String
  normalSide : PostingSide
  currency : String
  parentCode : Option String := none
  allowPosting : Bool := true
  active : Bool := true
  deriving DecidableEq

/-- `Account.__post_init__` -/
def AccountFields.postInit (a : AccountFields) : Except PyError AccountFields := do
  let code ← requireNonEmptyStr a.code "code"
  let name ← requireNonEmptyStr a.name "name"
  let currency ← normalizeCurrency a.currency "currency"
  let parentCode ← normalizeOptionalStr a.parentCode "parent_code"
  if parentCode = some code then
    throw (.valueError "Account cannot be its own parent")
  return { a with code, name, currency, parentCode }

/-- Chart-of-accounts node. -/
abbrev Account := Built AccountFields.postInit

/-- What the fields of an account have passed. -/
structure AccountFields.Valid (a : AccountFields) : Prop where
  code : ∀ f, requireNonEmptyStr a.code f = .ok a.code
  name : ∀ f, requireNonEmptyStr a.name f = .ok a.name
  currency : ∀ f, normalizeCurrency a.currency f = .ok a.currency
  currencyText : ∀ f, requireNonEmptyStr a.currency f = .ok a.currency
  parentCode : ∀ f, normalizeOptionalStr a.parentCode f = .ok a.parentCode
  parent_ne : a.parentCode ≠ some a.code

/-- What the constructor of an account makes of its arguments, and what it has checked. -/
theorem AccountFields.of_eq_ok {raw a : AccountFields} (h : raw.postInit = .ok a) :
    a = { raw with
      code := Text.strip raw.code
      name := Text.strip raw.name
      currency := Platform.upper (Text.strip raw.currency)
      parentCode := raw.parentCode.map Text.strip } ∧ a.Valid := by
  obtain ⟨code, hcode, h⟩ := bind_eq_ok.mp h
  obtain ⟨name, hname, h⟩ := bind_eq_ok.mp h
  obtain ⟨currency, hcurrency, h⟩ := bind_eq_ok.mp h
  obtain ⟨parent, hparent, h⟩ := bind_eq_ok.mp h
  obtain ⟨hne, h⟩ := guard_eq_ok.mp h
  cases h
  constructor
  · rw [(requireNonEmptyStr_eq_ok.mp hcode).2, (requireNonEmptyStr_eq_ok.mp hname).2,
      eq_of_normalizeCurrency hcurrency, eq_of_normalizeOptionalStr hparent]
  · exact
      { code := requireNonEmptyStr_of_eq_ok hcode
        name := requireNonEmptyStr_of_eq_ok hname
        currency := normalizeCurrency_of_eq_ok hcurrency
        currencyText := requireNonEmptyStr_currency hcurrency
        parentCode := normalizeOptionalStr_of_eq_ok hparent
        parent_ne := hne }

theorem AccountFields.Valid.postInit {a : AccountFields} (h : a.Valid) : a.postInit = .ok a := by
  simp [AccountFields.postInit, h.code, h.name, h.currency, h.parentCode, h.parent_ne]

theorem AccountFields.postInit_of_eq_ok {raw a : AccountFields} (h : raw.postInit = .ok a) :
    a.postInit = .ok a :=
  (of_eq_ok h).2.postInit

namespace Account

theorem valid (a : Account) : a.fields.Valid := by
  obtain ⟨raw, h⟩ := a.built
  exact (AccountFields.of_eq_ok h).2

def code (a : Account) : String := a.fields.code

def parentCode (a : Account) : Option String := a.fields.parentCode

end Account

/-! ### Fiscal periods of a book -/

/-- The fields of a `BookPeriod`. -/
structure BookPeriodFields where
  period : FiscalPeriod
  startDate : DateValue
  endDate : DateValue
  state : FiscalPeriodState := .opened
  deriving DecidableEq

/-- `BookPeriod.__post_init__` -/
def BookPeriodFields.postInit (p : BookPeriodFields) : Except PyError BookPeriodFields := do
  if ← p.endDate.lt? p.startDate then
    throw (.valueError "end_date must be on or after start_date")
  return p

/-- A fiscal period with its dates and state. -/
abbrev BookPeriod := Built BookPeriodFields.postInit

theorem BookPeriodFields.postInit_eq_ok {raw p : BookPeriodFields} :
    raw.postInit = .ok p ↔
      raw = p ∧ p.startDate.kind = p.endDate.kind ∧ p.startDate.key ≤ p.endDate.key := by
  unfold postInit DateValue.lt? DateValue.le?
  by_cases hk : raw.startDate.kind = raw.endDate.kind
  · by_cases hle : raw.startDate.key ≤ raw.endDate.key
    · simp only [hk, hle, if_true, Except.map, decide_true, Bool.not_true, ok_bind,
        Bool.false_eq_true, if_false, pure_eq_ok, Except.ok.injEq]
      constructor
      · rintro rfl
        exact ⟨rfl, hk, hle⟩
      · exact And.left
    · simp only [hk, hle, if_true, Except.map, decide_false, Bool.not_false, ok_bind,
        throw_eq_error, error_bind, reduceCtorEq, false_iff]
      rintro ⟨rfl, -, h⟩
      exact hle h
  · -- bounds of different kinds are not compared
    have : raw.postInit ≠ .ok p := by
      unfold postInit DateValue.lt? DateValue.le?
      rw [if_neg hk]
      split <;> simp [Except.map]
    simp only [postInit, DateValue.lt?, DateValue.le?] at this
    simp only [this, false_iff]
    rintro ⟨rfl, h, -⟩
    exact hk h

namespace BookPeriod

/-- The two bounds of a period are of one kind, the end not before the start. -/
theorem valid (p : BookPeriod) : p.fields.startDate.kind = p.fields.endDate.kind ∧
    p.fields.startDate.key ≤ p.fields.endDate.key := by
  obtain ⟨raw, h⟩ := p.built
  exact (BookPeriodFields.postInit_eq_ok.mp h).2

def period (p : BookPeriod) : FiscalPeriod := p.fields.period

end BookPeriod

/-! ### Ledger entries -/

/-- The fields of a `LedgerEntry`. -/
structure LedgerEntryFields where
  accountCode : String
  side : PostingSide
  amount : FluentNumber
  currency : String
  description : Option String := none
  taxRate : Option Decimal := none
  deriving DecidableEq

/-- The check of `amount`: a finite decimal that is not negative. -/
def requireAmount (amount : FluentNumber) : Except PyError Dec :=
  match amount.decimalValue with
  | .finite d _ =>
    if d.numLt .zero then .error (.valueError "amount must be non-negative") else .ok d
  | _ => .error (.valueError "amount value must be finite")

/-- The check of the number of decimal places. -/
def requirePlaces (d : Dec) (currency : String) : Except PyError Unit :=
  match getCurrencyDecimalDigits currency with
  | none => .ok ()
  | some max =>
    if max < d.places then
      .error (.valueError s!"amount has {d.places} decimal places but {currency} supports at most {max}")
    else .ok ()

/-- `LedgerEntry.__post_init__` -/
def LedgerEntryFields.postInit (e : LedgerEntryFields) : Except PyError LedgerEntryFields := do
  let accountCode ← requireNonEmptyStr e.accountCode "account_code"
  let d ← requireAmount e.amount
  let currency ← normalizeCurrency e.currency "currency"
  requirePlaces d currency
  let description ← normalizeOptionalStr e.description "description"
  let taxRate ← normalizeOptionalDecimalRange e.taxRate .zero .one "tax_rate"
  return { e with accountCode, currency, description, taxRate }

/-- Single debit or credit posting. -/
abbrev LedgerEntry := Built LedgerEntryFields.postInit

/-- A tax rate is absent or a finite number between zero and one. -/
def IsTaxRate (r : Option Decimal) : Prop :=
  ∀ v ∈ r, ∃ d, v.toDec? = some d ∧ 0 ≤ d.value ∧ d.value ≤ 1

theorem normalizeOptionalDecimalRange_eq_ok {r r' : Option Decimal} {f : String} :
    normalizeOptionalDecimalRange r .zero .one f = .ok r' ↔ r' = r ∧ IsTaxRate r := by
  cases r with
  | none => simp [IsTaxRate, eq_comm]
  | some v =>
    rw [Platform.normalizeOptionalDecimalRange_some]
    simp [IsTaxRate]

/-- What the fields of an entry have passed. -/
structure LedgerEntryFields.Valid (e : LedgerEntryFields) (d : Dec) : Prop where
  accountCode : ∀ f, requireNonEmptyStr e.accountCode f = .ok e.accountCode
  amount : e.amount.decimalValue.toDec? = some d
  nonneg : 0 ≤ d.value
  currency : ∀ f, normalizeCurrency e.currency f = .ok e.currency
  currencyText : ∀ f, requireNonEmptyStr e.currency f = .ok e.currency
  places : ∀ max ∈ getCurrencyDecimalDigits e.currency, d.places ≤ max
  description : ∀ f, normalizeOptionalStr e.description f = .ok e.description
  taxRate : IsTaxRate e.taxRate

omit [Platform] in
theorem requireAmount_eq_ok {a : FluentNumber} {d : Dec} :
    requireAmount a = .ok d ↔ a.decimalValue.toDec? = some d ∧ 0 ≤ d.value := by
  unfold requireAmount
  split
  · next d' held hd =>
    rw [hd, Decimal.toDec?_finite, guard_eq_ok, Dec.numLt_iff, Dec.value_zero, not_lt]
    constructor
    · rintro ⟨h0, h⟩
      cases h
      exact ⟨rfl, h0⟩
    · rintro ⟨h, h0⟩
      cases h
      exact ⟨h0, rfl⟩
  · next hd =>
    simp only [reduceCtorEq, false_iff]
    rintro ⟨h, -⟩
    obtain ⟨held, h⟩ := Decimal.toDec?_eq_some.mp h
    exact hd d held h

theorem requirePlaces_eq_ok {d : Dec} {c : String} :
    requirePlaces d c = .ok () ↔ ∀ max ∈ getCurrencyDecimalDigits c, d.places ≤ max := by
  unfold requirePlaces
  cases getCurrencyDecimalDigits c with
  | none => simp
  | some max => simp

/-- What the constructor of an entry makes of its arguments, and what it has checked. -/
theorem LedgerEntryFields.of_eq_ok {raw e : LedgerEntryFields} (h : raw.postInit = .ok e) :
    e = { raw with
      accountCode := Text.strip raw.accountCode
      currency := Platform.upper (Text.strip raw.currency)
      description := raw.description.map Text.strip } ∧ ∃ d, e.Valid d := by
  obtain ⟨account, haccount, h⟩ := bind_eq_ok.mp h
  obtain ⟨d, hd, h⟩ := bind_eq_ok.mp h
  obtain ⟨currency, hcurrency, h⟩ := bind_eq_ok.mp h
  obtain ⟨_, hplaces, h⟩ := bind_eq_ok.mp h
  obtain ⟨description, hdescription, h⟩ := bind_eq_ok.mp h
  obtain ⟨tax, htax, h⟩ := bind_eq_ok.mp h
  obtain ⟨rfl, hrate⟩ := normalizeOptionalDecimalRange_eq_ok.mp htax
  obtain ⟨hamount, hnonneg⟩ := requireAmount_eq_ok.mp hd
  cases h
  constructor
  · rw [(requireNonEmptyStr_eq_ok.mp haccount).2, eq_of_normalizeCurrency hcurrency,
      eq_of_normalizeOptionalStr hdescription]
  · exact ⟨d,
      { accountCode := requireNonEmptyStr_of_eq_ok haccount
        amount := hamount
        nonneg := hnonneg
        currency := normalizeCurrency_of_eq_ok hcurrency
        currencyText := requireNonEmptyStr_currency hcurrency
        places := requirePlaces_eq_ok.mp hplaces
        description := normalizeOptionalStr_of_eq_ok hdescription
        taxRate := hrate }⟩

theorem LedgerEntryFields.Valid.postInit {e : LedgerEntryFields} {d : Dec} (h : e.Valid d) :
    e.postInit = .ok e := by
  have hamount : requireAmount e.amount = .ok d := requireAmount_eq_ok.mpr ⟨h.amount, h.nonneg⟩
  have hplaces : requirePlaces d e.currency = .ok () := requirePlaces_eq_ok.mpr h.places
  have htax : normalizeOptionalDecimalRange e.taxRate .zero .one "tax_rate" = .ok e.taxRate :=
    normalizeOptionalDecimalRange_eq_ok.mpr ⟨rfl, h.taxRate⟩
  simp [LedgerEntryFields.postInit, h.accountCode, hamount, h.currency, hplaces, h.description,
    htax]

theorem LedgerEntryFields.postInit_of_eq_ok {raw e : LedgerEntryFields}
    (h : raw.postInit = .ok e) : e.postInit = .ok e := by
  obtain ⟨-, d, hd⟩ := of_eq_ok h
  exact hd.postInit

namespace LedgerEntry

def accountCode (e : LedgerEntry) : String := e.fields.accountCode

def side (e : LedgerEntry) : PostingSide := e.fields.side

def currency (e : LedgerEntry) : String := e.fields.currency

/-- `LedgerEntry.decimal_value`; the constructor lets only finite amounts through. -/
def decimalValue (e : LedgerEntry) : Dec :=
  match e.fields.amount.decimalValue with
  | .finite d _ => d
  | _ => .zero

theorem valid (e : LedgerEntry) : e.fields.Valid e.decimalValue := by
  obtain ⟨raw, h⟩ := e.built
  obtain ⟨-, d, hd⟩ := LedgerEntryFields.of_eq_ok h
  obtain ⟨held, hamount⟩ := Decimal.toDec?_eq_some.mp hd.amount
  have : e.decimalValue = d := by rw [decimalValue, hamount]
  rwa [this]

/-- The amount of an entry is its number. -/
theorem exists_held (e : LedgerEntry) :
    ∃ held, e.fields.amount.decimalValue = .finite e.decimalValue held :=
  Decimal.toDec?_eq_some.mp e.valid.amount

theorem held (e : LedgerEntry) : e.decimalValue.Held := e.exists_held.1

end LedgerEntry

end FinestVX
