import FinestVX.Core.Serialization

/-!
# The ledger database

The five append-only tables with the constraints SQLite enforces on an
`INSERT`, and the audit log the triggers write.  A table is the list of its
rows in insertion order.

## Main definitions

* `BookRow`, `AccountRow`, `PeriodRow`, `TransactionRow`, `EntryRow`,
  `CoreRow` — the rows.
* `Tables`, `Database` — the core tables, and the tables with the audit log.
* `Tables.Admits` — the constraints checked at once; `Tables.ParentsExist` the
  foreign key that is checked at commit.
* `Tables.push`, `Database.insert` — the effect of an `INSERT` and its trigger.

## Main results

* `Tables.pushAll_eq` — what a sequence of inserts does to each table.
* `Tables.admitsAll_append` — constraints of a sequence of inserts.
-/

namespace FinestVX

open Except

/-! ### Rows -/

structure BookRow where
  bookCode : String
  name : String
  baseCurrency : String
  fiscalStartMonth : ℤ
  legislativePack : String
  deriving DecidableEq

structure AccountRow where
  bookCode : String
  code : String
  name : String
  normalSide : String
  currency : String
  parentCode : Option String
  allowPosting : ℤ
  active : ℤ
  deriving DecidableEq

structure PeriodRow where
  bookCode : String
  fiscalYear : ℤ
  quarter : ℤ
  month : ℤ
  startDate : String
  endDate : String
  state : String
  deriving DecidableEq

structure TransactionRow where
  bookCode : String
  reference : String
  postedAt : String
  description : String
  state : String
  periodFiscalYear : Option ℤ
  periodQuarter : Option ℤ
  periodMonth : Option ℤ
  reversalOf : Option String
  deriving DecidableEq

structure EntryRow where
  bookCode : String
  transactionReference : String
  lineNo : ℤ
  accountCode : String
  side : String
  amount : String
  currency : String
  description : Option String
  taxRate : Option String
  deriving DecidableEq

/-- A row of one of the core tables. -/
inductive CoreRow
  | book (r : BookRow)
  | account (r : AccountRow)
  | period (r : PeriodRow)
  | transaction (r : TransactionRow)
  | entry (r : EntryRow)
  deriving DecidableEq

/-- The core tables, each in insertion order. -/
structure Tables where
  books : List BookRow := []
  accounts : List AccountRow := []
  periods : List PeriodRow := []
  transactions : List TransactionRow := []
  entries : List EntryRow := []
  deriving DecidableEq

/-! ### Constraints -/

/-- SQLite integers are 64-bit; the driver refuses to bind others. -/
def BindsInt (n : ℤ) : Prop := -2 ^ 63 ≤ n ∧ n < 2 ^ 63

/-- `text NOT LIKE '-%'` -/
def NotLikeMinus (text : String) : Prop := text.toList.head? ≠ some '-'

instance (n : ℤ) : Decidable (BindsInt n) := inferInstanceAs (Decidable (_ ∧ _))

instance (text : String) : Decidable (NotLikeMinus text) := inferInstanceAs (Decidable (¬ _))

namespace Tables

/-- The `books` table: the primary key and the `CHECK` clauses. -/
def AdmitsBook (t : Tables) (r : BookRow) : Prop :=
  (1 ≤ r.fiscalStartMonth ∧ r.fiscalStartMonth ≤ 12) ∧ ∀ b ∈ t.books, b.bookCode ≠ r.bookCode

/-- The foreign key `book_code`. -/
def HasBook (t : Tables) (code : String) : Prop := ∃ b ∈ t.books, b.bookCode = code

/-- The `accounts` table. -/
def AdmitsAccount (t : Tables) (r : AccountRow) : Prop :=
  r.normalSide ∈ ["Dr", "Cr"] ∧ r.allowPosting ∈ [0, 1] ∧ r.active ∈ [0, 1] ∧
    (∀ a ∈ t.accounts, ¬ (a.bookCode = r.bookCode ∧ a.code = r.code)) ∧ t.HasBook r.bookCode

/-- The `periods` table. -/
def AdmitsPeriod (t : Tables) (r : PeriodRow) : Prop :=
  BindsInt r.fiscalYear ∧ (1 ≤ r.quarter ∧ r.quarter ≤ 4) ∧ (1 ≤ r.month ∧ r.month ≤ 12) ∧
    r.state ∈ ["open", "closed", "locked"] ∧
    (∀ p ∈ t.periods, ¬ (p.bookCode = r.bookCode ∧ p.fiscalYear = r.fiscalYear ∧
      p.quarter = r.quarter ∧ p.month = r.month)) ∧ t.HasBook r.bookCode

/-- The `transactions` table. -/
def AdmitsTransaction (t : Tables) (r : TransactionRow) : Prop :=
  (∀ n ∈ r.periodFiscalYear, BindsInt n) ∧ (∀ n ∈ r.periodQuarter, BindsInt n) ∧
    (∀ n ∈ r.periodMonth, BindsInt n) ∧ r.state ∈ ["draft", "posted", "reversed"] ∧
    ((r.periodFiscalYear = none ∧ r.periodQuarter = none ∧ r.periodMonth = none) ∨
      (r.periodFiscalYear ≠ none ∧ r.periodQuarter ≠ none ∧ r.periodMonth ≠ none)) ∧
    (∀ x ∈ t.transactions, ¬ (x.bookCode = r.bookCode ∧ x.reference = r.reference)) ∧
    t.HasBook r.bookCode

/-- The `entries` table. -/
def AdmitsEntry (t : Tables) (r : EntryRow) : Prop :=
  0 ≤ r.lineNo ∧ r.side ∈ ["Dr", "Cr"] ∧ (r.amount ≠ "" ∧ NotLikeMinus r.amount) ∧
    (∀ v ∈ r.taxRate, NotLikeMinus v) ∧
    (∀ e ∈ t.entries, ¬ (e.bookCode = r.bookCode ∧
      e.transactionReference = r.transactionReference ∧ e.lineNo = r.lineNo)) ∧
    (∃ x ∈ t.transactions, x.bookCode = r.bookCode ∧ x.reference = r.transactionReference) ∧
    ∃ a ∈ t.accounts, a.bookCode = r.bookCode ∧ a.code = r.accountCode

instance (t : Tables) (r : BookRow) : Decidable (t.AdmitsBook r) :=
  inferInstanceAs (Decidable (_ ∧ _))

instance (t : Tables) (code : String) : Decidable (t.HasBook code) :=
  inferInstanceAs (Decidable (∃ b ∈ t.books, _))

instance (t : Tables) (r : AccountRow) : Decidable (t.AdmitsAccount r) :=
  inferInstanceAs (Decidable (_ ∧ _))

instance (t : Tables) (r : PeriodRow) : Decidable (t.AdmitsPeriod r) :=
  inferInstanceAs (Decidable (_ ∧ _))

instance (t : Tables) (r : TransactionRow) : Decidable (t.AdmitsTransaction r) :=
  inferInstanceAs (Decidable (_ ∧ _))

instance (t : Tables) (r : EntryRow) : Decidable (t.AdmitsEntry r) :=
  inferInstanceAs (Decidable (_ ∧ _))

/-- What SQLite checks before it inserts a row. -/
def Admits (t : Tables) : CoreRow → Prop
  | .book r => t.AdmitsBook r
  | .account r => t.AdmitsAccount r
  | .period r => t.AdmitsPeriod r
  | .transaction r => t.AdmitsTransaction r
  | .entry r => t.AdmitsEntry r

instance (t : Tables) : (r : CoreRow) → Decidable (t.Admits r)
  | .book r => inferInstanceAs (Decidable (t.AdmitsBook r))
  | .account r => inferInstanceAs (Decidable (t.AdmitsAccount r))
  | .period r => inferInstanceAs (Decidable (t.AdmitsPeriod r))
  | .transaction r => inferInstanceAs (Decidable (t.AdmitsTransaction r))
  | .entry r => inferInstanceAs (Decidable (t.AdmitsEntry r))

/-- The deferred foreign key: the parent of an account is an account of its book. -/
def ParentsExist (t : Tables) : Prop :=
  ∀ a ∈ t.accounts, ∀ p ∈ a.parentCode, ∃ b ∈ t.accounts, b.bookCode = a.bookCode ∧ b.code = p

instance (t : Tables) : Decidable t.ParentsExist :=
  inferInstanceAs (Decidable (∀ a ∈ t.accounts, _))

/-! ### Inserting -/

/-- The tables with one more row. -/
def push (t : Tables) : CoreRow → Tables
  | .book r => { t with books := t.books ++ [r] }
  | .account r => { t with accounts := t.accounts ++ [r] }
  | .period r => { t with periods := t.periods ++ [r] }
  | .transaction r => { t with transactions := t.transactions ++ [r] }
  | .entry r => { t with entries := t.entries ++ [r] }

/-- The tables with more rows. -/
def pushAll (t : Tables) (rows : List CoreRow) : Tables := rows.foldl push t

/-- Each row is admitted by the tables it is inserted into. -/
def AdmitsAll (t : Tables) : List CoreRow → Prop
  | [] => True
  | r :: rows => t.Admits r ∧ (t.push r).AdmitsAll rows

end Tables

namespace CoreRow

def book? : CoreRow → Option BookRow
  | book r => some r
  | _ => none

def account? : CoreRow → Option AccountRow
  | account r => some r
  | _ => none

def period? : CoreRow → Option PeriodRow
  | period r => some r
  | _ => none

def transaction? : CoreRow → Option TransactionRow
  | transaction r => some r
  | _ => none

def entry? : CoreRow → Option EntryRow
  | entry r => some r
  | _ => none

/-- The book a row belongs to. -/
def bookCode : CoreRow → String
  | book r => r.bookCode
  | account r => r.bookCode
  | period r => r.bookCode
  | transaction r => r.bookCode
  | entry r => r.bookCode

end CoreRow

namespace Tables

@[simp] theorem pushAll_nil (t : Tables) : t.pushAll [] = t := rfl

@[simp] theorem pushAll_cons (t : Tables) (r : CoreRow) (rows : List CoreRow) :
    t.pushAll (r :: rows) = (t.push r).pushAll rows := rfl

theorem pushAll_append (t : Tables) (rows rows' : List CoreRow) :
    t.pushAll (rows ++ rows') = (t.pushAll rows).pushAll rows' :=
  List.foldl_append

theorem admitsAll_append {t : Tables} {rows rows' : List CoreRow} :
    t.AdmitsAll (rows ++ rows') ↔ t.AdmitsAll rows ∧ (t.pushAll rows).AdmitsAll rows' := by
  induction rows generalizing t with
  | nil => simp [AdmitsAll]
  | cons r rows ih => rw [List.cons_append, AdmitsAll, AdmitsAll, ih, pushAll_cons, and_assoc]

/-- Each table grows by the inserted rows that are its own. -/
theorem pushAll_eq (t : Tables) (rows : List CoreRow) : t.pushAll rows =
    { books := t.books ++ rows.filterMap CoreRow.book?
      accounts := t.accounts ++ rows.filterMap CoreRow.account?
      periods := t.periods ++ rows.filterMap CoreRow.period?
      transactions := t.transactions ++ rows.filterMap CoreRow.transaction?
      entries := t.entries ++ rows.filterMap CoreRow.entry? } := by
  induction rows generalizing t with
  | nil => simp
  | cons r rows ih =>
    rw [pushAll_cons, ih]
    cases r <;> simp [push, List.filterMap_cons, CoreRow.book?, CoreRow.account?, CoreRow.period?,
      CoreRow.transaction?, CoreRow.entry?]

@[simp] theorem transactions_pushAll (t : Tables) (rows : List CoreRow) :
    (t.pushAll rows).transactions =
      t.transactions ++ rows.filterMap CoreRow.transaction? := by rw [pushAll_eq]

end Tables

/-! ### The audit log -/

/-- A row of `audit_log`.  The payload, a JSON text, is kept as the value it
denotes. -/
structure AuditRow where
  seq : ℤ
  tableName : String
  operation : String
  rowPk : String
  actor : String
  reason : String
  sessionId : Option String
  monotonicMs : ℤ
  rowSignature : String
  rowPayload : Json

/-- The database: the core tables and the audit log. -/
structure Database where
  tables : Tables := {}
  auditLog : List AuditRow := []

namespace CoreRow

/-- The table a row is inserted into. -/
def tableName : CoreRow → String
  | book _ => "books"
  | account _ => "accounts"
  | period _ => "periods"
  | transaction _ => "transactions"
  | entry _ => "entries"

/-- What `printf` writes for `%s`: a text up to the first NUL. -/
def printed (text : String) : String := String.ofList (text.toList.takeWhile (· ≠ Char.ofNat 0))

/-- The primary key, as the trigger of the table prints it. -/
def rowPk : CoreRow → String
  | book r => r.bookCode
  | account r => s!"{printed r.bookCode}:{printed r.code}"
  | period r => s!"{printed r.bookCode}:{r.fiscalYear}:{r.quarter}:{r.month}"
  | transaction r => s!"{printed r.bookCode}:{printed r.reference}"
  | entry r => s!"{printed r.bookCode}:{printed r.transactionReference}:{r.lineNo}"

/-- The columns, as the trigger of the table lists them. -/
def payload : CoreRow → Json
  | book r => .object
      [("book_code", .text r.bookCode), ("name", .text r.name),
        ("base_currency", .text r.baseCurrency), ("fiscal_start_month", .int r.fiscalStartMonth),
        ("legislative_pack", .text r.legislativePack)]
  | account r => .object
      [("book_code", .text r.bookCode), ("code", .text r.code), ("name", .text r.name),
        ("normal_side", .text r.normalSide), ("currency", .text r.currency),
        ("parent_code", .ofText? r.parentCode), ("allow_posting", .int r.allowPosting),
        ("active", .int r.active)]
  | period r => .object
      [("book_code", .text r.bookCode), ("fiscal_year", .int r.fiscalYear),
        ("quarter", .int r.quarter), ("month", .int r.month), ("start_date", .text r.startDate),
        ("end_date", .text r.endDate), ("state", .text r.state)]
  | transaction r => .object
      [("book_code", .text r.bookCode), ("reference", .text r.reference),
        ("posted_at", .text r.postedAt), ("description", .text r.description),
        ("state", .text r.state), ("period_fiscal_year", .ofInt? r.periodFiscalYear),
        ("period_quarter", .ofInt? r.periodQuarter), ("period_month", .ofInt? r.periodMonth),
        ("reversal_of", .ofText? r.reversalOf)]
  | entry r => .object
      [("book_code", .text r.bookCode), ("transaction_reference", .text r.transactionReference),
        ("line_no", .int r.lineNo), ("account_code", .text r.accountCode), ("side", .text r.side),
        ("amount", .text r.amount), ("currency", .text r.currency),
        ("description", .ofText? r.description), ("tax_rate", .ofText? r.taxRate)]

end CoreRow

end FinestVX
