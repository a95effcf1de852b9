import FinestVX.Core.Serialization
import FinestVX.Lib.JsonText

/-!
# Mappings as JSON values

The mappings of the serializer as JSON values, and the deserializers on values of any shape.
A value is read in two ways at once: the code checks the shape of a field when it comes to
it; here the shape of the whole value is described first.

## Main definitions

* `BookPayload.toValue` and its siblings — the mappings as values.
* `ValuePlatform` — the external checks on values that need not be texts.
* `bookFromValue`, `transactionFromValue` — `book_from_mapping`, `transaction_from_mapping`.
* `bookPayload?`, `transactionPayload?` — the payload that a value of the right shape shows.

## Main results

* `bookFromValue_of_payload`, `exists_bookPayload` — **what the deserializer accepts**: the
  values that show a payload, and of these what it accepts of the payload.
* `bookPayload?_toValue` — the values that are written show what was written.
-/

namespace FinestVX

open Except JsonText

/-! ### The mappings as values -/

namespace PeriodPayload

def members (p : PeriodPayload) : Dict String Value :=
  [("fiscal_year", .number p.fiscalYear), ("quarter", .number p.quarter),
    ("month", .number p.month)]

def toValue (p : PeriodPayload) : Value := .object p.members

/-- `None`, or a period. -/
def toValue? : Option PeriodPayload → Value
  | none => .null
  | some p => p.toValue

end PeriodPayload

namespace EntryPayload

def members (e : EntryPayload) : Dict String Value :=
  [("account_code", .string e.accountCode), ("side", .string e.side),
    ("amount", .string e.amount), ("currency", .string e.currency),
    ("description", .ofText? e.description), ("tax_rate", .ofText? e.taxRate)]

def toValue (e : EntryPayload) : Value := .object e.members

end EntryPayload

namespace TransactionPayload

def members (t : TransactionPayload) : Dict String Value :=
  [("reference", .string t.reference), ("posted_at", .string t.postedAt),
    ("description", .string t.description), ("entries", .array (t.entries.map EntryPayload.toValue)),
    ("period", PeriodPayload.toValue? t.period), ("state", .string t.state),
    ("reversal_of", .ofText? t.reversalOf)]

def toValue (t : TransactionPayload) : Value := .object t.members

end TransactionPayload

namespace AccountPayload

def members (a : AccountPayload) : Dict String Value :=
  [("code", .string a.code), ("name", .string a.name),
    ("normal_side", .string a.normalSide), ("currency", .string a.currency),
    ("parent_code", .ofText? a.parentCode), ("allow_posting", .bool a.allowPosting),
    ("active", .bool a.active)]

def toValue (a : AccountPayload) : Value := .object a.members

end AccountPayload

namespace BookPeriodPayload

def members (p : BookPeriodPayload) : Dict String Value :=
  [("period", p.period.toValue), ("start_date", .string p.startDate),
    ("end_date", .string p.endDate), ("state", .string p.state)]

def toValue (p : BookPeriodPayload) : Value := .object p.members

end BookPeriodPayload

namespace BookPayload

/-- The `fiscal_calendar` of a book. -/
def calendar (b : BookPayload) : Dict String Value := [("start_month", .number b.startMonth)]

def members (b : BookPayload) : Dict String Value :=
  [("code", .string b.code), ("name", .string b.name), ("base_currency", .string b.baseCurrency),
    ("fiscal_calendar", .object b.calendar), ("legislative_pack", .string b.legislativePack),
    ("accounts", .array (b.accounts.map AccountPayload.toValue)),
    ("periods", .array (b.periods.map BookPeriodPayload.toValue)),
    ("transactions", .array (b.transactions.map TransactionPayload.toValue))]

def toValue (b : BookPayload) : Value := .object b.members

end BookPayload

/-! ### Checks on values -/

/-- The checks of `ftllexengine` on values that need not be texts. -/
class ValuePlatform extends Platform where
  /-- `ftllexengine.require_non_empty_str` -/
  requireStr : Value → String → Except PyError String
  /-- `ftllexengine.normalize_optional_str` -/
  normalizeOptional : Value → String → Except PyError (Option String)
  /-- `ftllexengine.require_int` -/
  requireInt : Value → String → Except PyError ℤ
  requireStr_string : ∀ s f, requireStr (.string s) f = requireNonEmptyStr s f
  /-- What is no text is refused. -/
  requireStr_other : ∀ v f, (∀ s, v ≠ .string s) → ∃ msg, requireStr v f = .error (.typeError msg)
  normalizeOptional_ofText : ∀ s f, normalizeOptional (.ofText? s) f = normalizeOptionalStr s f
  /-- What is neither `None` nor a text is refused. -/
  normalizeOptional_other : ∀ v f, (∀ s, v ≠ .ofText? s) →
    ∃ msg, normalizeOptional v f = .error (.typeError msg)
  requireInt_number : ∀ n f, requireInt (.number n) f = .ok n
  /-- What is no integer is refused, booleans included. -/
  requireInt_other : ∀ v f, (∀ n, v ≠ .number n) → ∃ msg, requireInt v f = .error (.typeError msg)

export ValuePlatform (requireStr normalizeOptional requireInt)

attribute [simp] ValuePlatform.requireStr_string ValuePlatform.normalizeOptional_ofText
  ValuePlatform.requireInt_number

/-- `type(value).__name__` -/
def typeName : Value → String
  | .null => "NoneType"
  | .bool _ => "bool"
  | .number _ => "int"
  | .float _ => "float"
  | .string _ => "str"
  | .array _ => "list"
  | .object _ => "dict"

/-- `_require_mapping` -/
def requireMapping (value : Value) (fieldName : String) : Except PyError (Dict String Value) :=
  match value with
  | .object members => .ok members
  | v => .error (.typeError s!"{fieldName} must be a mapping, got {typeName v}")

/-- `_require_sequence` -/
def requireSequence (value : Value) (fieldName : String) : Except PyError (List Value) :=
  match value with
  | .array items => .ok items
  | v => .error (.typeError s!"{fieldName} must be a sequence, got {typeName v}")

/-- `data[key]` -/
def getItem (data : Dict String Value) (key : String) : Except PyError Value :=
  match data.get? key with
  | some v => .ok v
  | none => .error (.keyError key)

/-- `data.get(key)` -/
def getItem? (data : Dict String Value) (key : String) : Value := (data.get? key).getD .null

/-- `bool(value)`; of the floats only the two zeros are false. -/
def truthy : Value → Bool
  | .null => false
  | .bool b => b
  | .number n => n ≠ 0
  | .float bits => bits.toNat % 2 ^ 63 ≠ 0
  | .string s => s ≠ ""
  | .array items => !items.isEmpty
  | .object members => !members.isEmpty

section

variable [Platform]

/-- `_require_date` -/
def requireDate (value : Value) (fieldName : String) : Except PyError Date :=
  match value with
  | .string s => dateFromIsoformat s
  | v => .error (.typeError s!"{fieldName} must be ISO date text, got {typeName v}")

/-- `_require_datetime` -/
def requireDatetime (value : Value) (fieldName : String) : Except PyError DateTime :=
  match value with
  | .string s => datetimeFromIsoformat s
  | v => .error (.typeError s!"{fieldName} must be ISO datetime text, got {typeName v}")

end

/-- `_require_decimal` -/
def requireDecimalOf (value : Value) (fieldName : String) : Except PyError Decimal :=
  match value with
  | .string s => requireDecimal s
  | v => .error (.typeError s!"{fieldName} must be decimal text, got {typeName v}")

/-- The tax rate of an entry, or `None`. -/
def optionalRateFromValue : Value → Except PyError (Option Decimal)
  | .null => .ok none
  | rate => (requireDecimalOf rate "entry.tax_rate").map some

/-! ### The deserializers -/

section

variable [ValuePlatform]

/-- `_period_from_mapping` -/
def periodFromValue (payload : Value) (fieldName : String) : Except PyError FiscalPeriod := do
  let data ← requireMapping payload fieldName
  let fiscalYear ← requireInt (← getItem data "fiscal_year") s!"{fieldName}.fiscal_year"
  let quarter ← requireInt (← getItem data "quarter") s!"{fieldName}.quarter"
  let month ← requireInt (← getItem data "month") s!"{fieldName}.month"
  FiscalPeriod.new fiscalYear quarter month

/-- The period of a transaction, or `None`. -/
def optionalPeriodFromValue : Value → Except PyError (Option FiscalPeriod)
  | .null => .ok none
  | period => (periodFromValue period "transaction.period").map some

/-- `_entry_from_mapping` -/
def entryFromValue (payload : Value) : Except PyError LedgerEntry := do
  let data ← requireMapping payload "entry"
  let amount ← requireDecimalOf (← getItem data "amount") "entry.amount"
  let accountCode ← requireStr (← getItem data "account_code") "entry.account_code"
  let side ← PostingSide.ofValue (← requireStr (← getItem data "side") "entry.side")
  let currency ← requireStr (← getItem data "currency") "entry.currency"
  let description ← normalizeOptional (getItem? data "description") "entry.description"
  let taxRate ← optionalRateFromValue (getItem? data "tax_rate")
  Built.new LedgerEntryFields.postInit
    { accountCode, side, amount := makeFluentNumber amount, currency, description, taxRate }

/-- `transaction_from_mapping` -/
def transactionFromValue (payload : Value) : Except PyError JournalTransaction := do
  let data ← requireMapping payload "transaction"
  let reference ← requireStr (← getItem data "reference") "transaction.reference"
  let postedAt ← requireDatetime (← getItem data "posted_at") "transaction.posted_at"
  let description ← requireStr (← getItem data "description") "transaction.description"
  let entries ← (← requireSequence (← getItem data "entries") "transaction.entries").mapM
    entryFromValue
  let period ← optionalPeriodFromValue (getItem? data "period")
  let state ← TransactionState.ofValue (← requireStr (← getItem data "state") "transaction.state")
  let reversalOf ← normalizeOptional (getItem? data "reversal_of") "transaction.reversal_of"
  Built.new JournalTransactionFields.postInit
    { reference, postedAt, description, entries, period, state, reversalOf }

/-- `_account_from_mapping` -/
def accountFromValue (payload : Value) : Except PyError Account := do
  let data ← requireMapping payload "account"
  let code ← requireStr (← getItem data "code") "account.code"
  let name ← requireStr (← getItem data "name") "account.name"
  let normalSide ← PostingSide.ofValue
    (← requireStr (← getItem data "normal_side") "account.normal_side")
  let currency ← requireStr (← getItem data "currency") "account.currency"
  let parentCode ← normalizeOptional (getItem? data "parent_code") "account.parent_code"
  Built.new AccountFields.postInit
    { code, name, normalSide, currency, parentCode
      allowPosting := truthy ((data.get? "allow_posting").getD (.bool true))
      active := truthy ((data.get? "active").getD (.bool true)) }

/-- `_book_period_from_mapping` -/
def bookPeriodFromValue (payload : Value) : Except PyError BookPeriod := do
  let data ← requireMapping payload "book_period"
  let period ← periodFromValue (← getItem data "period") "book_period.period"
  let startDate ← requireDate (← getItem data "start_date") "book_period.start_date"
  let endDate ← requireDate (← getItem data "end_date") "book_period.end_date"
  let state ← FiscalPeriodState.ofValue (← requireStr (← getItem data "state") "book_period.state")
  Built.new BookPeriodFields.postInit
    { period, startDate := .date startDate, endDate := .date endDate, state }

/-- `book_from_mapping` -/
def bookFromValue (payload : Value) : Except PyError Book := do
  let data ← requireMapping payload "book"
  let calendar ← requireMapping (← getItem data "fiscal_calendar") "book.fiscal_calendar"
  let code ← requireStr (← getItem data "code") "book.code"
  let name ← requireStr (← getItem data "name") "book.name"
  let baseCurrency ← requireStr (← getItem data "base_currency") "book.base_currency"
  let fiscalCalendar ← FiscalCalendar.new
    (← requireInt (← getItem calendar "start_month") "book.fiscal_calendar.start_month")
  let legislativePack ← requireStr (← getItem data "legislative_pack") "book.legislative_pack"
  let accounts ← (← requireSequence (← getItem data "accounts") "book.accounts").mapM
    accountFromValue
  let periods ← (← requireSequence (← getItem data "periods") "book.periods").mapM
    bookPeriodFromValue
  let transactions ← (← requireSequence (← getItem data "transactions") "book.transactions").mapM
    transactionFromValue
  Built.new BookFields.postInit
    { code, name, baseCurrency, fiscalCalendar, legislativePack, accounts, periods, transactions }

end

/-! ### Values of the right shape -/

/-- The members of an object. -/
def members? : Value → Option (Dict String Value)
  | .object members => some members
  | _ => none

/-- The items of an array. -/
def items? : Value → Option (List Value)
  | .array items => some items
  | _ => none

/-- A text. -/
def string? : Value → Option String
  | .string s => some s
  | _ => none

/-- A text or `None`. -/
def optionalText? : Value → Option (Option String)
  | .null => some none
  | .string s => some (some s)
  | _ => none

/-- An integer. -/
def integer? : Value → Option ℤ
  | .number n => some n
  | _ => none

/-- The period that a value shows. -/
def periodPayload? (v : Value) : Option PeriodPayload := do
  let data ← members? v
  let fiscalYear ← (data.get? "fiscal_year").bind integer?
  let quarter ← (data.get? "quarter").bind integer?
  let month ← (data.get? "month").bind integer?
  return { fiscalYear, quarter, month }

/-- The entry that a value shows. -/
def entryPayload? (v : Value) : Option EntryPayload := do
  let data ← members? v
  let amount ← (data.get? "amount").bind string?
  let accountCode ← (data.get? "account_code").bind string?
  let side ← (data.get? "side").bind string?
  let currency ← (data.get? "currency").bind string?
  let description ← optionalText? (getItem? data "description")
  let taxRate ← optionalText? (getItem? data "tax_rate")
  return { accountCode, side, amount, currency, description, taxRate }

/-- The period that a value shows, or `None`. -/
def optionalPeriodPayload? : Value → Option (Option PeriodPayload)
  | .null => some none
  | v => (periodPayload? v).map some

/-- The transaction that a value shows. -/
def transactionPayload? (v : Value) : Option TransactionPayload := do
  let data ← members? v
  let reference ← (data.get? "reference").bind string?
  let postedAt ← (data.get? "posted_at").bind string?
  let description ← (data.get? "description").bind string?
  let items ← (data.get? "entries").bind items?
  let entries ← items.mapM entryPayload?
  let period ← optionalPeriodPayload? (getItem? data "period")
  let state ← (data.get? "state").bind string?
  let reversalOf ← optionalText? (getItem? data "reversal_of")
  return { reference, postedAt, description, entries, period, state, reversalOf }

/-- The account that a value shows; the two flags may be anything, and may be missing. -/
def accountPayload? (v : Value) : Option AccountPayload := do
  let data ← members? v
  let code ← (data.get? "code").bind string?
  let name ← (data.get? "name").bind string?
  let normalSide ← (data.get? "normal_side").bind string?
  let currency ← (data.get? "currency").bind string?
  let parentCode ← optionalText? (getItem? data "parent_code")
  return { code, name, normalSide, currency, parentCode
           allowPosting := truthy ((data.get? "allow_posting").getD (.bool true))
           active := truthy ((data.get? "active").getD (.bool true)) }

/-- The period of a book that a value shows. -/
def bookPeriodPayload? (v : Value) : Option BookPeriodPayload := do
  let data ← members? v
  let period ← (data.get? "period").bind periodPayload?
  let startDate ← (data.get? "start_date").bind string?
  let endDate ← (data.get? "end_date").bind string?
  let state ← (data.get? "state").bind string?
  return { period, startDate, endDate, state }

/-- The book that a value shows. -/
def bookPayload? (v : Value) : Option BookPayload := do
  let data ← members? v
  let calendar ← (data.get? "fiscal_calendar").bind members?
  let code ← (data.get? "code").bind string?
  let name ← (data.get? "name").bind string?
  let baseCurrency ← (data.get? "base_currency").bind string?
  let startMonth ← (calendar.get? "start_month").bind integer?
  let legislativePack ← (data.get? "legislative_pack").bind string?
  let accountItems ← (data.get? "accounts").bind items?
  let accounts ← accountItems.mapM accountPayload?
  let periodItems ← (data.get? "periods").bind items?
  let periods ← periodItems.mapM bookPeriodPayload?
  let transactionItems ← (data.get? "transactions").bind items?
  let transactions ← transactionItems.mapM transactionPayload?
  return { code, name, baseCurrency, startMonth, legislativePack, accounts, periods, transactions }

section

variable {v : Value}

@[simp] theorem members?_eq_some {d : Dict String Value} : members? v = some d ↔ v = .object d := by
  cases v <;> simp [members?]

@[simp] theorem items?_eq_some {l : List Value} : items? v = some l ↔ v = .array l := by
  cases v <;> simp [items?]

@[simp] theorem string?_eq_some {s : String} : string? v = some s ↔ v = .string s := by
  cases v <;> simp [string?]

@[simp] theorem optionalText?_eq_some {s : Option String} :
    optionalText? v = some s ↔ v = .ofText? s := by
  cases v <;> cases s <;> simp [optionalText?, Value.ofText?]

@[simp] theorem integer?_eq_some {n : ℤ} : integer? v = some n ↔ v = .number n := by
  cases v <;> simp [integer?]

end

theorem getItem_eq_ok {data : Dict String Value} {key : String} {v : Value} :
    getItem data key = .ok v ↔ data.get? key = some v := by
  unfold getItem
  cases data.get? key <;> simp

theorem requireMapping_eq_ok {v : Value} {fieldName : String} {d : Dict String Value} :
    requireMapping v fieldName = .ok d ↔ v = .object d := by
  cases v <;> simp [requireMapping]

theorem requireSequence_eq_ok {v : Value} {fieldName : String} {l : List Value} :
    requireSequence v fieldName = .ok l ↔ v = .array l := by
  cases v <;> simp [requireSequence]

/-- The steps of a traversal that agree with those of another one. -/
theorem mapM_congr_of_mapM_eq_some {α β γ : Type} {f : α → Option β} {g : α → Except PyError γ}
    {h : β → Except PyError γ} (hfg : ∀ a b, f a = some b → g a = h b) {l : List α}
    {l' : List β} (hl : l.mapM f = some l') : l.mapM g = l'.mapM h := by
  induction l generalizing l' with
  | nil =>
    cases hl
    rfl
  | cons a l ih =>
    rw [List.mapM_cons] at hl
    obtain ⟨b, hb, hl⟩ := Option.bind_eq_some_iff.mp hl
    obtain ⟨bs, hbs, hl⟩ := Option.bind_eq_some_iff.mp hl
    cases hl
    rw [List.mapM_cons, List.mapM_cons, hfg a b hb, ih hbs]

/-- A traversal of which every step has a result. -/
theorem exists_mapM_eq_some {α β : Type} {f : α → Option β} {l : List α}
    (h : ∀ a ∈ l, ∃ b, f a = some b) : ∃ l', l.mapM f = some l' := by
  induction l with
  | nil => exact ⟨[], rfl⟩
  | cons a l ih =>
    obtain ⟨⟨b, hb⟩, hl⟩ := List.forall_mem_cons.mp h
    obtain ⟨bs, hbs⟩ := ih hl
    exact ⟨b :: bs, by simp [List.mapM_cons, hb, hbs]⟩

/-! ### What the deserializers accept -/

section

variable [ValuePlatform] {v : Value}

/-- A field that is checked to be a text is one. -/
theorem exists_textItem {α : Type} {data : Dict String Value} {key f : String}
    {k : String → Except PyError α} {r : α}
    (h : (getItem data key >>= fun v => requireStr v f >>= k) = .ok r) :
    ∃ s, (data.get? key).bind string? = some s ∧ ∃ s', k s' = .ok r := by
  obtain ⟨v, hv, h⟩ := bind_eq_ok.mp h
  obtain ⟨s', hs', hrest⟩ := bind_eq_ok.mp h
  obtain ⟨s, rfl⟩ : ∃ s, v = .string s := by
    by_contra hne
    obtain ⟨msg, hmsg⟩ := ValuePlatform.requireStr_other v f fun s hs => hne ⟨s, hs⟩
    rw [hmsg] at hs'
    cases hs'
  exact ⟨s, by rw [getItem_eq_ok.mp hv]; rfl, s', hrest⟩

/-- A field that is checked to be an integer is one. -/
theorem exists_integerItem {α : Type} {data : Dict String Value} {key f : String}
    {k : ℤ → Except PyError α} {r : α}
    (h : (getItem data key >>= fun v => requireInt v f >>= k) = .ok r) :
    ∃ n, (data.get? key).bind integer? = some n ∧ ∃ n', k n' = .ok r := by
  obtain ⟨v, hv, h⟩ := bind_eq_ok.mp h
  obtain ⟨n', hn', hrest⟩ := bind_eq_ok.mp h
  obtain ⟨n, rfl⟩ : ∃ n, v = .number n := by
    by_contra hne
    obtain ⟨msg, hmsg⟩ := ValuePlatform.requireInt_other v f fun n hn => hne ⟨n, hn⟩
    rw [hmsg] at hn'
    cases hn'
  exact ⟨n, by rw [getItem_eq_ok.mp hv]; rfl, n', hrest⟩

omit [ValuePlatform] in
/-- A field that is checked to be a sequence, and read item by item. -/
theorem exists_sequenceItem {α β : Type} {data : Dict String Value} {key f : String}
    {read : Value → Except PyError α} {k : List α → Except PyError β} {r : β}
    (h : (getItem data key >>= fun v => requireSequence v f >>= fun l => l.mapM read >>= k) =
      .ok r) :
    ∃ l, (data.get? key).bind items? = some l ∧ (∀ v ∈ l, ∃ a, read v = .ok a) ∧
      ∃ as, k as = .ok r := by
  obtain ⟨v, hv, h⟩ := bind_eq_ok.mp h
  obtain ⟨l, hl, hrest⟩ := bind_eq_ok.mp h
  obtain ⟨as, has, hrest⟩ := bind_eq_ok.mp hrest
  obtain rfl := requireSequence_eq_ok.mp hl
  exact ⟨l, by rw [getItem_eq_ok.mp hv]; rfl, succeeds_of_mapM_eq_ok has, as, hrest⟩

theorem exists_of_normalizeOptional {f : String} {s : Option String}
    (h : normalizeOptional v f = .ok s) : ∃ s, v = .ofText? s := by
  by_contra hne
  obtain ⟨msg, hmsg⟩ := ValuePlatform.normalizeOptional_other v f fun s hs => hne ⟨s, hs⟩
  rw [hmsg] at h
  cases h

/-- A period that a value shows. -/
theorem periodFromValue_of_payload {p : PeriodPayload} (h : periodPayload? v = some p)
    (f : String) : periodFromValue v f = periodFromMapping p := by
  simp only [periodPayload?, Option.bind_eq_bind, Option.bind_eq_some_iff, members?_eq_some,
    integer?_eq_some] at h
  obtain ⟨data, rfl, y, ⟨_, hy, rfl⟩, q, ⟨_, hq, rfl⟩, m, ⟨_, hm, rfl⟩, hp⟩ := h
  cases hp
  simp only [periodFromValue, requireMapping, getItem, hy, hq, hm, ok_bind,
    ValuePlatform.requireInt_number]
  rfl

theorem exists_periodPayload {f : String} {r : FiscalPeriod} (h : periodFromValue v f = .ok r) :
    ∃ p, periodPayload? v = some p := by
  obtain ⟨data, hdata, h⟩ := bind_eq_ok.mp h
  obtain ⟨y, hy, _, h⟩ := exists_integerItem h
  obtain ⟨q, hq, _, h⟩ := exists_integerItem h
  obtain ⟨m, hm, -⟩ := exists_integerItem h
  obtain rfl := requireMapping_eq_ok.mp hdata
  exact ⟨⟨y, q, m⟩, by simp [periodPayload?, members?, hy, hq, hm]⟩

theorem optionalPeriodFromValue_of_ne (h : v ≠ .null) :
    optionalPeriodFromValue v = (periodFromValue v "transaction.period").map some := by
  cases v with
  | null => exact absurd rfl h
  | bool b | number n | float bits | string s | array l | object d => rfl

omit [ValuePlatform] in
theorem optionalPeriodPayload?_of_ne (h : v ≠ .null) :
    optionalPeriodPayload? v = (periodPayload? v).map some := by
  cases v with
  | null => exact absurd rfl h
  | bool b | number n | float bits | string s | array l | object d => rfl

/-- A period that a value shows, or `None`. -/
theorem optionalPeriodFromValue_of_payload {p : Option PeriodPayload}
    (h : optionalPeriodPayload? v = some p) : optionalPeriodFromValue v = optionalPeriod p := by
  by_cases hnull : v = .null
  · subst hnull
    cases h
    rfl
  · rw [optionalPeriodPayload?_of_ne hnull] at h
    obtain ⟨q, hq, rfl⟩ := Option.map_eq_some_iff.mp h
    rw [optionalPeriodFromValue_of_ne hnull, periodFromValue_of_payload hq]
    rfl

theorem exists_optionalPeriodPayload {r : Option FiscalPeriod}
    (h : optionalPeriodFromValue v = .ok r) : ∃ p, optionalPeriodPayload? v = some p := by
  by_cases hnull : v = .null
  · exact ⟨none, by rw [hnull]; rfl⟩
  · rw [optionalPeriodFromValue_of_ne hnull] at h
    cases hread : periodFromValue v "transaction.period" with
    | error e =>
      rw [hread] at h
      cases h
    | ok q =>
      obtain ⟨p, hp⟩ := exists_periodPayload hread
      exact ⟨some p, by rw [optionalPeriodPayload?_of_ne hnull, hp]; rfl⟩

omit [ValuePlatform] in
@[simp] theorem optionalRateFromValue_ofText (s : Option String) :
    optionalRateFromValue (.ofText? s) = optionalDecimal s := by
  cases s <;> rfl

omit [ValuePlatform] in
theorem exists_of_optionalRateFromValue {r : Option Decimal}
    (h : optionalRateFromValue v = .ok r) : ∃ s, v = .ofText? s := by
  cases v with
  | null => exact ⟨none, rfl⟩
  | string s => exact ⟨some s, rfl⟩
  | bool b | number n | float bits | array l | object d => cases h

/-- An entry that a value shows. -/
theorem entryFromValue_of_payload {p : EntryPayload} (h : entryPayload? v = some p) :
    entryFromValue v = entryFromMapping p := by
  simp only [entryPayload?, Option.bind_eq_bind, Option.bind_eq_some_iff, members?_eq_some,
    string?_eq_some, optionalText?_eq_some] at h
  obtain ⟨data, rfl, amount, ⟨_, hamount, rfl⟩, code, ⟨_, hcode, rfl⟩, side, ⟨_, hside, rfl⟩,
    currency, ⟨_, hcurrency, rfl⟩, description, hdescription, rate, hrate, hp⟩ := h
  cases hp
  simp only [entryFromValue, requireMapping, getItem, hamount, hcode, hside, hcurrency, ok_bind,
    ValuePlatform.requireStr_string, hdescription, ValuePlatform.normalizeOptional_ofText, hrate,
    optionalRateFromValue_ofText, requireDecimalOf]
  rfl

theorem exists_entryPayload {e : LedgerEntry} (h : entryFromValue v = .ok e) :
    ∃ p, entryPayload? v = some p := by
  obtain ⟨data, hdata, h⟩ := bind_eq_ok.mp h
  obtain ⟨vamount, hamount, h⟩ := bind_eq_ok.mp h
  obtain ⟨_, hamount', h⟩ := bind_eq_ok.mp h
  obtain ⟨code, hcode, _, h⟩ := exists_textItem h
  obtain ⟨side, hside, _, h⟩ := exists_textItem h
  obtain ⟨_, -, h⟩ := bind_eq_ok.mp h
  obtain ⟨currency, hcurrency, _, h⟩ := exists_textItem h
  obtain ⟨_, hdescription, h⟩ := bind_eq_ok.mp h
  obtain ⟨_, hrate, -⟩ := bind_eq_ok.mp h
  obtain rfl := requireMapping_eq_ok.mp hdata
  obtain ⟨amount, rfl⟩ : ∃ s, vamount = .string s := by
    cases vamount <;> first | exact ⟨_, rfl⟩ | cases hamount'
  obtain ⟨description, hdescription⟩ := exists_of_normalizeOptional hdescription
  obtain ⟨rate, hrate⟩ := exists_of_optionalRateFromValue hrate
  have hdescription' := optionalText?_eq_some.mpr hdescription
  have hrate' := optionalText?_eq_some.mpr hrate
  exact ⟨⟨code, side, amount, currency, description, rate⟩, by
    simp [entryPayload?, members?, string?, getItem_eq_ok.mp hamount, hcode, hside, hcurrency,
      hdescription', hrate']⟩

/-- A transaction that a value shows. -/
theorem transactionFromValue_of_payload {p : TransactionPayload}
    (h : transactionPayload? v = some p) : transactionFromValue v = transactionFromMapping p := by
  simp only [transactionPayload?, Option.bind_eq_bind, Option.bind_eq_some_iff, members?_eq_some,
    string?_eq_some, items?_eq_some, optionalText?_eq_some] at h
  obtain ⟨data, rfl, reference, ⟨_, hreference, rfl⟩, postedAt, ⟨_, hpostedAt, rfl⟩, description,
    ⟨_, hdescription, rfl⟩, items, ⟨_, hitems, rfl⟩, entries, hentries, period, hperiod, state,
    ⟨_, hstate, rfl⟩, reversalOf, hreversal, hp⟩ := h
  cases hp
  have hread := mapM_congr_of_mapM_eq_some (fun _ _ => entryFromValue_of_payload) hentries
  simp only [transactionFromValue, requireMapping, requireSequence, getItem, hreference,
    hpostedAt, hdescription, hitems, hstate, hread, ok_bind, ValuePlatform.requireStr_string,
    requireDatetime, hreversal, ValuePlatform.normalizeOptional_ofText,
    optionalPeriodFromValue_of_payload hperiod]
  rfl

theorem exists_transactionPayload {t : JournalTransaction} (h : transactionFromValue v = .ok t) :
    ∃ p, transactionPayload? v = some p := by
  obtain ⟨data, hdata, h⟩ := bind_eq_ok.mp h
  obtain ⟨reference, hreference, _, h⟩ := exists_textItem h
  obtain ⟨vpostedAt, hpostedAt, h⟩ := bind_eq_ok.mp h
  obtain ⟨_, hpostedAt', h⟩ := bind_eq_ok.mp h
  obtain ⟨description, hdescription, _, h⟩ := exists_textItem h
  obtain ⟨items, hitems, hentries, _, h⟩ := exists_sequenceItem h
  obtain ⟨_, hperiod, h⟩ := bind_eq_ok.mp h
  obtain ⟨state, hstate, _, h⟩ := exists_textItem h
  obtain ⟨_, -, h⟩ := bind_eq_ok.mp h
  obtain ⟨_, hreversal, -⟩ := bind_eq_ok.mp h
  obtain rfl := requireMapping_eq_ok.mp hdata
  obtain ⟨postedAt, rfl⟩ : ∃ s, vpostedAt = .string s := by
    cases vpostedAt <;> first | exact ⟨_, rfl⟩ | cases hpostedAt'
  obtain ⟨entries, hentries⟩ := exists_mapM_eq_some fun x hx =>
    exists_entryPayload (hentries x hx).choose_spec
  obtain ⟨period, hperiod⟩ := exists_optionalPeriodPayload hperiod
  obtain ⟨reversalOf, hreversal⟩ := exists_of_normalizeOptional hreversal
  have hreversal' := optionalText?_eq_some.mpr hreversal
  exact ⟨⟨reference, postedAt, description, entries, period, state, reversalOf⟩, by
    simp [transactionPayload?, members?, string?, hreference, getItem_eq_ok.mp hpostedAt,
      hdescription, hitems, hentries, hperiod, hstate, hreversal']⟩

/-- An account that a value shows. -/
theorem accountFromValue_of_payload {p : AccountPayload} (h : accountPayload? v = some p) :
    accountFromValue v = accountFromMapping p := by
  simp only [accountPayload?, Option.bind_eq_bind, Option.bind_eq_some_iff, members?_eq_some,
    string?_eq_some, optionalText?_eq_some] at h
  obtain ⟨data, rfl, code, ⟨_, hcode, rfl⟩, name, ⟨_, hname, rfl⟩, side, ⟨_, hside, rfl⟩,
    currency, ⟨_, hcurrency, rfl⟩, parent, hparent, hp⟩ := h
  cases hp
  simp only [accountFromValue, requireMapping, getItem, hcode, hname, hside, hcurrency, ok_bind,
    ValuePlatform.requireStr_string, hparent, ValuePlatform.normalizeOptional_ofText]
  rfl

theorem exists_accountPayload {a : Account} (h : accountFromValue v = .ok a) :
    ∃ p, accountPayload? v = some p := by
  obtain ⟨data, hdata, h⟩ := bind_eq_ok.mp h
  obtain ⟨code, hcode, _, h⟩ := exists_textItem h
  obtain ⟨name, hname, _, h⟩ := exists_textItem h
  obtain ⟨side, hside, _, h⟩ := exists_textItem h
  obtain ⟨_, -, h⟩ := bind_eq_ok.mp h
  obtain ⟨currency, hcurrency, _, h⟩ := exists_textItem h
  obtain ⟨_, hparent, -⟩ := bind_eq_ok.mp h
  obtain rfl := requireMapping_eq_ok.mp hdata
  obtain ⟨parent, hparent⟩ := exists_of_normalizeOptional hparent
  have hparent' := optionalText?_eq_some.mpr hparent
  exact ⟨_, by simp [accountPayload?, members?, hcode, hname, hside, hcurrency, hparent']; rfl⟩

/-- A period of a book that a value shows. -/
theorem bookPeriodFromValue_of_payload {p : BookPeriodPayload} (h : bookPeriodPayload? v = some p) :
    bookPeriodFromValue v = bookPeriodFromMapping p := by
  simp only [bookPeriodPayload?, Option.bind_eq_bind, Option.bind_eq_some_iff, members?_eq_some,
    string?_eq_some] at h
  obtain ⟨data, rfl, period, ⟨vperiod, hperiod, hshown⟩, start, ⟨_, hstart, rfl⟩, stop,
    ⟨_, hstop, rfl⟩, state, ⟨_, hstate, rfl⟩, hp⟩ := h
  cases hp
  simp only [bookPeriodFromValue, requireMapping, getItem, hperiod, hstart, hstop, hstate, ok_bind,
    periodFromValue_of_payload hshown, requireDate, ValuePlatform.requireStr_string]
  rfl

theorem exists_bookPeriodPayload {r : BookPeriod} (h : bookPeriodFromValue v = .ok r) :
    ∃ p, bookPeriodPayload? v = some p := by
  obtain ⟨data, hdata, h⟩ := bind_eq_ok.mp h
  obtain ⟨vperiod, hperiod, h⟩ := bind_eq_ok.mp h
  obtain ⟨_, hperiod', h⟩ := bind_eq_ok.mp h
  obtain ⟨vstart, hstart, h⟩ := bind_eq_ok.mp h
  obtain ⟨_, hstart', h⟩ := bind_eq_ok.mp h
  obtain ⟨vstop, hstop, h⟩ := bind_eq_ok.mp h
  obtain ⟨_, hstop', h⟩ := bind_eq_ok.mp h
  obtain ⟨state, hstate, -⟩ := exists_textItem h
  obtain rfl := requireMapping_eq_ok.mp hdata
  have htext : ∀ {w : Value} {f : String} {d : Date}, requireDate w f = .ok d →
      ∃ s, w = .string s := by
    intro w f d hw
    cases w <;> first | exact ⟨_, rfl⟩ | cases hw
  obtain ⟨period, hshown⟩ := exists_periodPayload hperiod'
  obtain ⟨start, rfl⟩ := htext hstart'
  obtain ⟨stop, rfl⟩ := htext hstop'
  exact ⟨⟨period, start, stop, state⟩, by
    simp [bookPeriodPayload?, members?, string?, getItem_eq_ok.mp hperiod, hshown,
      getItem_eq_ok.mp hstart, getItem_eq_ok.mp hstop, hstate]⟩

/-- **A book that a value shows**: the deserializer treats the value as the book. -/
theorem bookFromValue_of_payload {p : BookPayload} (h : bookPayload? v = some p) :
    bookFromValue v = bookFromMapping p := by
  simp only [bookPayload?, Option.bind_eq_bind, Option.bind_eq_some_iff, members?_eq_some,
    string?_eq_some, items?_eq_some, integer?_eq_some] at h
  obtain ⟨data, rfl, calendar, ⟨_, hcalendar, rfl⟩, code, ⟨_, hcode, rfl⟩, name, ⟨_, hname, rfl⟩,
    currency, ⟨_, hcurrency, rfl⟩, month, ⟨_, hmonth, rfl⟩, pack, ⟨_, hpack, rfl⟩, accountItems,
    ⟨_, haccounts, rfl⟩, accounts, haccounts', periodItems, ⟨_, hperiods, rfl⟩, periods,
    hperiods', transactionItems, ⟨_, htransactions, rfl⟩, transactions, htransactions', hp⟩ := h
  cases hp
  simp only [bookFromValue, requireMapping, requireSequence, getItem, hcalendar, hcode, hname,
    hcurrency, hmonth, hpack, haccounts, hperiods, htransactions, ok_bind,
    ValuePlatform.requireStr_string, ValuePlatform.requireInt_number,
    mapM_congr_of_mapM_eq_some (fun _ _ => accountFromValue_of_payload) haccounts',
    mapM_congr_of_mapM_eq_some (fun _ _ => bookPeriodFromValue_of_payload) hperiods',
    mapM_congr_of_mapM_eq_some (fun _ _ => transactionFromValue_of_payload) htransactions']
  rfl

theorem exists_bookPayload {b : Book} (h : bookFromValue v = .ok b) :
    ∃ p, bookPayload? v = some p := by
  obtain ⟨data, hdata, h⟩ := bind_eq_ok.mp h
  obtain ⟨vcalendar, hcalendar, h⟩ := bind_eq_ok.mp h
  obtain ⟨calendar, hcalendar', h⟩ := bind_eq_ok.mp h
  obtain ⟨code, hcode, _, h⟩ := exists_textItem h
  obtain ⟨name, hname, _, h⟩ := exists_textItem h
  obtain ⟨currency, hcurrency, _, h⟩ := exists_textItem h
  obtain ⟨month, hmonth, _, h⟩ := exists_integerItem h
  obtain ⟨_, -, h⟩ := bind_eq_ok.mp h
  obtain ⟨pack, hpack, _, h⟩ := exists_textItem h
  obtain ⟨accountItems, hitems₁, haccounts, _, h⟩ := exists_sequenceItem h
  obtain ⟨periodItems, hitems₂, hperiods, _, h⟩ := exists_sequenceItem h
  obtain ⟨transactionItems, hitems₃, htransactions, -⟩ := exists_sequenceItem h
  obtain rfl := requireMapping_eq_ok.mp hdata
  obtain rfl := requireMapping_eq_ok.mp hcalendar'
  obtain ⟨accounts, haccounts⟩ := exists_mapM_eq_some fun x hx =>
    exists_accountPayload (haccounts x hx).choose_spec
  obtain ⟨periods, hperiods⟩ := exists_mapM_eq_some fun x hx =>
    exists_bookPeriodPayload (hperiods x hx).choose_spec
  obtain ⟨transactions, htransactions⟩ := exists_mapM_eq_some fun x hx =>
    exists_transactionPayload (htransactions x hx).choose_spec
  exact ⟨⟨code, name, currency, month, pack, accounts, periods, transactions⟩, by
    simp [bookPayload?, members?, getItem_eq_ok.mp hcalendar, hcode, hname, hcurrency, hmonth,
      hpack, hitems₁, haccounts, hitems₂, hperiods, hitems₃, htransactions]⟩

end

/-! ### What is written has the right shape -/

/-- The fields of a sorted object. -/
theorem get?_sorted {members : Dict String Value} (h : (members.map Prod.fst).Nodup)
    (k : String) : Dict.get? (orderBy Prod.fst (sortMembers members)) k =
      (members.get? k).map Value.sortKeys := by
  rw [get?_orderBy (by rwa [keys_sortMembers]), get?_sortMembers]

theorem getItem?_sorted {members : Dict String Value} (h : (members.map Prod.fst).Nodup)
    (k : String) : getItem? (orderBy Prod.fst (sortMembers members)) k =
      (getItem? members k).sortKeys := by
  rw [getItem?, get?_sorted h, getItem?]
  cases Dict.get? members k <;> rfl

@[simp] theorem sortKeys_ofText? (s : Option String) :
    (Value.ofText? s).sortKeys = .ofText? s := by
  cases s <;> rfl

theorem optionalText?_ofText? (s : Option String) : optionalText? (.ofText? s) = some s :=
  optionalText?_eq_some.mpr rfl

/-- A traversal of values that were written. -/
theorem mapM_sortItems {α : Type} {toValue : α → Value} {read : Value → Option α}
    (h : ∀ a, read (toValue a).sortKeys = some a) (l : List α) :
    (sortItems (l.map toValue)).mapM read = some l := by
  rw [sortItems_eq, List.map_map]
  induction l with
  | nil => rfl
  | cons a l ih => simp [List.mapM_cons, h, ih]

theorem PeriodPayload.nodup (p : PeriodPayload) : (p.members.map Prod.fst).Nodup :=
  (by decide : ["fiscal_year", "quarter", "month"].Nodup)

theorem EntryPayload.nodup (e : EntryPayload) : (e.members.map Prod.fst).Nodup :=
  (by decide :
    ["account_code", "side", "amount", "currency", "description", "tax_rate"].Nodup)

theorem TransactionPayload.nodup (t : TransactionPayload) : (t.members.map Prod.fst).Nodup :=
  (by decide : ["reference", "posted_at", "description", "entries", "period", "state",
    "reversal_of"].Nodup)

theorem AccountPayload.nodup (a : AccountPayload) : (a.members.map Prod.fst).Nodup :=
  (by decide :
    ["code", "name", "normal_side", "currency", "parent_code", "allow_posting", "active"].Nodup)

theorem BookPeriodPayload.nodup (p : BookPeriodPayload) : (p.members.map Prod.fst).Nodup :=
  (by decide : ["period", "start_date", "end_date", "state"].Nodup)

theorem BookPayload.nodup (b : BookPayload) : (b.members.map Prod.fst).Nodup :=
  (by decide : ["code", "name", "base_currency", "fiscal_calendar", "legislative_pack",
    "accounts", "periods", "transactions"].Nodup)

@[simp] theorem periodPayload?_toValue (p : PeriodPayload) :
    periodPayload? p.toValue.sortKeys = some p := by
  simp only [periodPayload?, PeriodPayload.toValue, Value.sortKeys, members?, Option.bind_eq_bind,
    Option.bind_some, get?_sorted p.nodup]
  rfl

theorem optionalPeriodPayload?_toValue (p : Option PeriodPayload) :
    optionalPeriodPayload? (PeriodPayload.toValue? p).sortKeys = some p := by
  cases p with
  | none => rfl
  | some p =>
    have hne : p.toValue.sortKeys ≠ .null := Value.noConfusion
    rw [PeriodPayload.toValue?, optionalPeriodPayload?_of_ne hne, periodPayload?_toValue]
    rfl

theorem entryPayload?_toValue (e : EntryPayload) :
    entryPayload? e.toValue.sortKeys = some e := by
  have hdescription : getItem? e.members "description" = .ofText? e.description := rfl
  have hrate : getItem? e.members "tax_rate" = .ofText? e.taxRate := rfl
  simp only [entryPayload?, EntryPayload.toValue, Value.sortKeys, members?, Option.bind_eq_bind,
    Option.bind_some, get?_sorted e.nodup, getItem?_sorted e.nodup, hdescription, hrate,
    sortKeys_ofText?, optionalText?_ofText?]
  rfl

theorem transactionPayload?_toValue (t : TransactionPayload) :
    transactionPayload? t.toValue.sortKeys = some t := by
  have hperiod : getItem? t.members "period" = PeriodPayload.toValue? t.period := rfl
  have hreversal : getItem? t.members "reversal_of" = .ofText? t.reversalOf := rfl
  have hentries : (Dict.get? t.members "entries").map Value.sortKeys =
      some (.array (sortItems (t.entries.map EntryPayload.toValue))) := rfl
  simp only [transactionPayload?, TransactionPayload.toValue, Value.sortKeys, members?,
    Option.bind_eq_bind, Option.bind_some, get?_sorted t.nodup, getItem?_sorted t.nodup, hperiod,
    hreversal, hentries, items?, mapM_sortItems entryPayload?_toValue,
    optionalPeriodPayload?_toValue, sortKeys_ofText?, optionalText?_ofText?]
  rfl

theorem accountPayload?_toValue (a : AccountPayload) :
    accountPayload? a.toValue.sortKeys = some a := by
  have hparent : getItem? a.members "parent_code" = .ofText? a.parentCode := rfl
  simp only [accountPayload?, AccountPayload.toValue, Value.sortKeys, members?, Option.bind_eq_bind,
    Option.bind_some, get?_sorted a.nodup, getItem?_sorted a.nodup, hparent, sortKeys_ofText?,
    optionalText?_ofText?]
  rfl

theorem bookPeriodPayload?_toValue (p : BookPeriodPayload) :
    bookPeriodPayload? p.toValue.sortKeys = some p := by
  have hperiod : (Dict.get? p.members "period").map Value.sortKeys =
      some p.period.toValue.sortKeys := rfl
  simp only [bookPeriodPayload?, BookPeriodPayload.toValue, Value.sortKeys, members?,
    Option.bind_eq_bind, Option.bind_some, get?_sorted p.nodup, hperiod, periodPayload?_toValue]
  rfl

/-- **What is written of a book shows the book.** -/
theorem bookPayload?_toValue (b : BookPayload) :
    bookPayload? b.toValue.sortKeys = some b := by
  have hcalendar : (Dict.get? b.members "fiscal_calendar").map Value.sortKeys =
      some (.object (orderBy Prod.fst (sortMembers b.calendar))) := rfl
  have haccounts : (Dict.get? b.members "accounts").map Value.sortKeys =
      some (.array (sortItems (b.accounts.map AccountPayload.toValue))) := rfl
  have hperiods : (Dict.get? b.members "periods").map Value.sortKeys =
      some (.array (sortItems (b.periods.map BookPeriodPayload.toValue))) := rfl
  have htransactions : (Dict.get? b.members "transactions").map Value.sortKeys =
      some (.array (sortItems (b.transactions.map TransactionPayload.toValue))) := rfl
  have hmonth : (b.calendar.map Prod.fst).Nodup := (by decide : ["start_month"].Nodup)
  simp only [bookPayload?, BookPayload.toValue, Value.sortKeys, members?, Option.bind_eq_bind,
    Option.bind_some, get?_sorted b.nodup, hcalendar, haccounts, hperiods, htransactions, items?,
    get?_sorted hmonth, mapM_sortItems accountPayload?_toValue,
    mapM_sortItems bookPeriodPayload?_toValue, mapM_sortItems transactionPayload?_toValue]
  rfl

end FinestVX
