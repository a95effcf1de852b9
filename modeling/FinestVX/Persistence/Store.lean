import FinestVX.Persistence.Schema

/-!
# The ledger store

`SqliteLedgerStore`: the four write operations, each a group of checks and then
one SQLite transaction of `INSERT`s, and the loading of a book.

## Main definitions

* `AuditContext`, `World` — who writes, and what the environment does meanwhile.
* `Database.insert` — an `INSERT` together with its audit trigger.
* `withConnection`, `executeWrite` — one SQLite transaction.
* `createBook`, `appendTransaction`, `appendReversal`,
  `appendLegislativeResult` — the write operations.
* `loadBookFrom`, `loadBook`, `listBookCodes` — the read operations.

## Main results

* `writeRows_ok`, `executeWrite_error` — a write that returns has inserted all its
  rows, each one admitted; a write that raises has changed nothing.
-/

namespace FinestVX

open Except

variable [Platform]

/-! ### The environment of a call -/

/-- The fields of an `AuditContext`. -/
structure AuditContextFields where
  actor : String
  reason : String
  sessionId : Option String := none
  deriving DecidableEq

/-- `AuditContext.__post_init__` -/
def AuditContextFields.postInit (c : AuditContextFields) : Except PyError AuditContextFields := do
  let actor ← requireNonEmptyStr c.actor "actor"
  let reason ← requireNonEmptyStr c.reason "reason"
  return { c with actor, reason }

/-- Who writes, and why. -/
abbrev AuditContext := Built AuditContextFields.postInit

/-- What the environment does during one call: the clock, and the faults of the
database at a query, at `BEGIN`, at each `INSERT` and at `COMMIT`. -/
structure World where
  clock : ℕ → ℤ := fun _ => 0
  selectFault : Option PyError := none
  beginFault : Option PyError := none
  insertFault : ℕ → Option PyError := fun _ => none
  commitFault : Option PyError := none

/-- Raise a fault, if there is one. -/
def raising : Option PyError → Except PyError Unit
  | none => .ok ()
  | some e => .error e

omit [Platform] in
@[simp] theorem raising_none : raising none = .ok () := rfl

/-! ### Inserting -/

/-- The next value of `INTEGER PRIMARY KEY`: one past the largest, which is below `2^63 - 1`.  A
log with the largest number of all is not modelled: there SQLite takes any number that is
free. -/
def nextSeq (log : List AuditRow) : ℤ := ((log.map AuditRow.seq).max?.map (· + 1)).getD 1

/-- The audit row the trigger of a core table writes. -/
def auditInsert (ctx : AuditContext) (ms : ℤ) (log : List AuditRow) (r : CoreRow) : AuditRow where
  seq := nextSeq log
  tableName := r.tableName
  operation := "INSERT"
  rowPk := r.rowPk
  actor := ctx.fields.actor
  reason := ctx.fields.reason
  sessionId := ctx.fields.sessionId
  monotonicMs := ms
  rowSignature := Platform.blake2Hex (Platform.jsonText r.payload)
  rowPayload := r.payload

/-- The effect of an `INSERT` and its trigger. -/
def Database.insert (ctx : AuditContext) (ms : ℤ) (r : CoreRow) (db : Database) : Database where
  tables := db.tables.push r
  auditLog := db.auditLog ++ [auditInsert ctx ms db.auditLog r]

/-- Execute an `INSERT`. -/
def execute (ctx : AuditContext) (ms : ℤ) (r : CoreRow) (db : Database) : Except PyError Database :=
  if db.tables.Admits r then .ok (db.insert ctx ms r)
  else .error (.constraintError (r.tableName ++ ": constraint failed"))

/-- Execute the `INSERT`s of an operation, the first of which is number `i`. -/
def insertRows (w : World) (ctx : AuditContext) :
    ℕ → List CoreRow → Database → Except PyError Database
  | _, [], db => .ok db
  | i, r :: rows, db => do
    raising (w.insertFault i)
    let db ← execute ctx (w.clock i) r db
    insertRows w ctx (i + 1) rows db

/-- `COMMIT`, which checks the deferred foreign key. -/
def commit (w : World) (db : Database) : Except PyError Database := do
  raising w.commitFault
  if db.tables.ParentsExist then return db
  else throw (.constraintError "FOREIGN KEY constraint failed")

/-- `BEGIN`, the statements of the body, and `COMMIT`. -/
def runTransaction (w : World) (body : Database → Except PyError Database) (db : Database) :
    Except PyError Database := do
  raising w.beginFault
  let db ← body db
  commit w db

/-- `with connection:` — a transaction, rolled back when anything raises. -/
def withConnection (w : World) (body : Database → Except PyError Database) (db : Database) :
    Except PyError Unit × Database :=
  match runTransaction w body db with
  | .ok db' => (.ok (), db')
  | .error e => (.error e, db)

/-- What a receipt says about the changed tables.  The changeset and the patchset, the version of
the data, the memory used and the last WAL commit are left out. -/
structure StoreWriteReceipt where
  changedTables : List String
  changeCount : ℕ
  indirectChangeCount : ℕ
  deriving DecidableEq

/-- `_build_write_receipt`: every core row is a change, and so is, indirectly,
the audit row its trigger writes. -/
def buildWriteReceipt (rows : List CoreRow) : StoreWriteReceipt where
  changedTables := (rows.flatMap fun r => [r.tableName, "audit_log"]).eraseDups
  changeCount := 2 * rows.length
  indirectChangeCount := rows.length

/-- `_execute_write`: an operation in one transaction, and its receipt. -/
def executeWrite (w : World) (operation : Database → Except PyError Database)
    (receipt : StoreWriteReceipt) (db : Database) : Except PyError StoreWriteReceipt × Database :=
  match withConnection w operation db with
  | (.ok (), db) => (.ok receipt, db)
  | (.error e, db) => (.error e, db)

/-- Insert rows in one transaction. -/
def writeRows (w : World) (ctx : AuditContext) (rows : List CoreRow) :
    Database → Except PyError StoreWriteReceipt × Database :=
  executeWrite w (insertRows w ctx 0 rows) (buildWriteReceipt rows)

/-! ### The rows of domain objects -/

/-- The row of a book. -/
def bookRow (b : BookFields) : BookRow where
  bookCode := b.code
  name := b.name
  baseCurrency := b.baseCurrency
  fiscalStartMonth := b.fiscalCalendar.startMonth
  legislativePack := b.legislativePack

/-- The row of an account. -/
def accountRow (code : String) (a : Account) : AccountRow where
  bookCode := code
  code := a.fields.code
  name := a.fields.name
  normalSide := a.fields.normalSide.value
  currency := a.fields.currency
  parentCode := a.fields.parentCode
  allowPosting := a.fields.allowPosting.toInt
  active := a.fields.active.toInt

/-- The row of a period. -/
def periodRow (code : String) (p : BookPeriod) : PeriodRow where
  bookCode := code
  fiscalYear := p.fields.period.fiscalYear
  quarter := p.fields.period.quarter
  month := p.fields.period.month
  startDate := p.fields.startDate.isoformat
  endDate := p.fields.endDate.isoformat
  state := p.fields.state.value

/-- The row of a transaction. -/
def transactionRow (code : String) (t : JournalTransaction) : TransactionRow where
  bookCode := code
  reference := t.fields.reference
  postedAt := t.fields.postedAt.isoformat
  description := t.fields.description
  state := t.fields.state.value
  periodFiscalYear := t.fields.period.map FiscalPeriod.fiscalYear
  periodQuarter := t.fields.period.map FiscalPeriod.quarter
  periodMonth := t.fields.period.map FiscalPeriod.month
  reversalOf := t.fields.reversalOf

/-- The row of an entry. -/
def entryRow (code reference : String) (e : LedgerEntry) (lineNo : ℕ) : EntryRow where
  bookCode := code
  transactionReference := reference
  lineNo := lineNo
  accountCode := e.fields.accountCode
  side := e.fields.side.value
  amount := e.decimalValue.formatF
  currency := e.fields.currency
  description := e.fields.description
  taxRate := e.fields.taxRate.map Decimal.formatF

/-- The rows of the entries of a transaction. -/
def entryRows (code : String) (t : JournalTransaction) : List EntryRow :=
  t.fields.entries.zipIdx.map fun (e, lineNo) => entryRow code t.fields.reference e lineNo

/-- `_insert_transaction_rows`: the rows of a transaction, in the order they are
inserted. -/
def transactionRows (code : String) (t : JournalTransaction) : List CoreRow :=
  .transaction (transactionRow code t) :: (entryRows code t).map .entry

/-- The rows of a book, in the order `create_book` inserts them. -/
def bookRows (b : BookFields) : List CoreRow :=
  .book (bookRow b) :: (b.accounts.map fun a => .account (accountRow b.code a)) ++
    (b.periods.map fun p => .period (periodRow b.code p)) ++
    b.transactions.flatMap (transactionRows b.code)

/-! ### The write operations -/

/-- Continue with the result of the checks, or raise what they raise. -/
def orRaise {α : Type} (checks : Except PyError α) (db : Database)
    (k : α → Except PyError StoreWriteReceipt × Database) :
    Except PyError StoreWriteReceipt × Database :=
  match checks with
  | .ok a => k a
  | .error e => (.error e, db)

/-- `SqliteLedgerStore.create_book` -/
def createBook (w : World) (ctx : AuditContext) (book : Book) (db : Database) :
    Except PyError StoreWriteReceipt × Database :=
  orRaise (validateAccountCollection book.fields.accounts) db fun _ =>
    writeRows w ctx (bookRows book.fields) db

/-- The check that the account of an entry is an account of the book. -/
def requireKnownAccount (code : String) (known : List String) (e : LedgerEntry) :
    Except PyError Unit :=
  if e.accountCode ∈ known then .ok ()
  else .error (.valueError s!"Unknown account code for book {code}: {e.accountCode}")

/-- The accounts of a book. -/
def accountCodes (code : String) (t : Tables) : List String :=
  (t.accounts.filter (·.bookCode = code)).map AccountRow.code

/-- The checks of `append_transaction`. -/
def appendTransactionChecks (w : World) (code : String) (t : JournalTransaction)
    (tables : Tables) : Except PyError Unit := do
  if t.fields.state ≠ .posted then
    throw (.valueError "Only posted transactions can be appended to the ledger store")
  validateTransactionEntries t.fields.entries
  raising w.selectFault
  let known := accountCodes code tables
  if known = [] then
    throw (.keyError s!"Unknown book: {code}")
  checkAll (requireKnownAccount code known) t.entries

/-- `SqliteLedgerStore.append_transaction` -/
def appendTransaction (w : World) (ctx : AuditContext) (code : String) (t : JournalTransaction)
    (db : Database) : Except PyError StoreWriteReceipt × Database :=
  orRaise (appendTransactionChecks w code t db.tables) db fun _ =>
    writeRows w ctx (transactionRows code t) db

/-- The row of a transaction. -/
def findTransaction (code reference : String) (t : Tables) : Option TransactionRow :=
  t.transactions.find? fun x => x.bookCode = code ∧ x.reference = reference

/-- The entries of a transaction, in line order. -/
def selectEntries (code reference : String) (t : Tables) : List EntryRow :=
  orderBy EntryRow.lineNo
    (t.entries.filter fun e => e.bookCode = code ∧ e.transactionReference = reference)

/-- The period of a transaction row. -/
def TransactionRow.periodPayload (r : TransactionRow) : Option PeriodPayload :=
  match r.periodFiscalYear with
  | none => none
  | some y => some ⟨y, r.periodQuarter.getD 0, r.periodMonth.getD 0⟩

/-- An entry row as the mapping of an entry. -/
def EntryRow.toPayload (r : EntryRow) : EntryPayload where
  accountCode := r.accountCode
  side := r.side
  amount := r.amount
  currency := r.currency
  description := r.description
  taxRate := r.taxRate

/-- A transaction row, with its entries, as the mapping of a transaction. -/
def TransactionRow.toPayload (r : TransactionRow) (entries : List EntryRow) :
    TransactionPayload where
  reference := r.reference
  postedAt := r.postedAt
  description := r.description
  entries := entries.map EntryRow.toPayload
  period := r.periodPayload
  state := r.state
  reversalOf := r.reversalOf

/-- The entry with the other side. -/
def invertEntry (e : LedgerEntry) : Except PyError LedgerEntry :=
  Built.new LedgerEntryFields.postInit { e.fields with side := e.fields.side.flip }

/-- The lookup of the original and the checks of `append_reversal`. -/
def reversalChecks (code originalRef reversalRef : String) (tables : Tables) :
    Except PyError TransactionRow :=
  match findTransaction code originalRef tables with
  | none =>
    if tables.HasBook code then
      .error (.valueError
        s!"Transaction {strRepr originalRef} not found in book {strRepr code}")
    else .error (.keyError s!"Unknown book: {code}")
  | some row =>
    if ∃ x ∈ tables.transactions, x.bookCode = code ∧ x.reversalOf = some originalRef then
      .error (.valueError
        s!"Transaction {strRepr originalRef} in book {strRepr code} is already reversed")
    else if ∃ x ∈ tables.transactions, x.bookCode = code ∧ x.reference = reversalRef then
      .error (.valueError
        s!"Reversal reference {strRepr reversalRef} is already in use in book {strRepr code}")
    else .ok row

/-- The reversal of a transaction that was read back. -/
def reversalOfTransaction (original : JournalTransaction) (originalRef reversalRef : String) :
    Except PyError JournalTransaction := do
  let inverted ← original.fields.entries.mapM invertEntry
  Built.new JournalTransactionFields.postInit
    { reference := reversalRef, postedAt := original.fields.postedAt,
      description := "Reversal of " ++ originalRef, entries := inverted,
      period := original.fields.period, state := .posted, reversalOf := some originalRef }

/-- The transaction `append_reversal` inserts. -/
def reversalTransaction (w : World) (code originalRef reversalRef : String) (tables : Tables) :
    Except PyError JournalTransaction := do
  raising w.selectFault
  let row ← reversalChecks code originalRef reversalRef tables
  let original ← transactionFromMapping
    { row.toPayload (selectEntries code originalRef tables) with reference := originalRef }
  reversalOfTransaction original originalRef reversalRef

/-- `SqliteLedgerStore.append_reversal` -/
def appendReversal (w : World) (ctx : AuditContext) (code originalRef reversalRef : String)
    (db : Database) : Except PyError StoreWriteReceipt × Database :=
  orRaise (reversalTransaction w code originalRef reversalRef db.tables) db fun t =>
    writeRows w ctx (transactionRows code t) db

/-- A `LegislativeIssue`. -/
structure LegislativeIssue where
  code : String
  message : String
  entryIndex : Option ℤ := none
  deriving DecidableEq

/-- A `LegislativeValidationResult`. -/
structure LegislativeValidationResult where
  packCode : String
  issues : List LegislativeIssue := []
  deriving DecidableEq

/-- The payload of a legislative result, its keys sorted. -/
def resultPayload (code reference : String) (result : LegislativeValidationResult) : Json :=
  .object
    [("book_code", .text code),
      ("issues", .array (result.issues.map fun i => .object
        [("code", .text i.code), ("entry_index", .ofInt? i.entryIndex),
          ("message", .text i.message)])),
      ("pack_code", .text result.packCode), ("transaction_reference", .text reference)]

/-- The audit row of a legislative result. -/
def auditResult (ctx : AuditContext) (ms : ℤ) (log : List AuditRow) (code reference : String)
    (result : LegislativeValidationResult) : AuditRow where
  seq := nextSeq log
  tableName := "legislative_validation"
  operation := "RESULT"
  rowPk := s!"{code}:{reference}"
  actor := ctx.fields.actor
  reason := ctx.fields.reason
  sessionId := ctx.fields.sessionId
  monotonicMs := ms
  rowSignature := Platform.blake2Hex (Platform.jsonText (resultPayload code reference result))
  rowPayload := resultPayload code reference result

/-- The `INSERT` of a legislative result. -/
def insertResult (w : World) (ctx : AuditContext) (code reference : String)
    (result : LegislativeValidationResult) (db : Database) : Except PyError Database := do
  raising (w.insertFault 0)
  return { db with
    auditLog := db.auditLog ++ [auditResult ctx (w.clock 0) db.auditLog code reference result] }

/-- `SqliteLedgerStore.append_legislative_result` -/
def appendLegislativeResult (w : World) (ctx : AuditContext) (code reference : String)
    (result : LegislativeValidationResult) :
    Database → Except PyError StoreWriteReceipt × Database :=
  executeWrite w (insertResult w ctx code reference result) ⟨["audit_log"], 1, 0⟩

/-! ### Loading a book -/

/-- The accounts of a book, by code. -/
def selectAccounts (code : String) (t : Tables) : List AccountRow :=
  orderBy AccountRow.code (t.accounts.filter (·.bookCode = code))

/-- The key periods are ordered by. -/
def PeriodRow.orderKey (r : PeriodRow) : String ×ₗ String ×ₗ ℤ ×ₗ ℤ ×ₗ ℤ :=
  toLex (r.startDate, toLex (r.endDate, toLex (r.fiscalYear, toLex (r.quarter, r.month))))

/-- The periods of a book, by date. -/
def selectPeriods (code : String) (t : Tables) : List PeriodRow :=
  orderBy PeriodRow.orderKey (t.periods.filter (·.bookCode = code))

/-- The key transactions are ordered by. -/
def TransactionRow.orderKey (r : TransactionRow) : String ×ₗ String :=
  toLex (r.postedAt, r.reference)

/-- The transactions of a book, by time and reference. -/
def selectTransactions (code : String) (t : Tables) : List TransactionRow :=
  orderBy TransactionRow.orderKey (t.transactions.filter (·.bookCode = code))

/-- The entries of each transaction; the `j`-th query sees `view j`. -/
def entryRowsByReference (view : ℕ → Tables) (code : String) (rows : List TransactionRow) :
    Dict String (List EntryRow) :=
  rows.zipIdx.foldl
    (fun d (r, j) => d.set r.reference (selectEntries code r.reference (view j))) []

/-- An account row as the mapping of an account. -/
def AccountRow.toPayload (r : AccountRow) : AccountPayload where
  code := r.code
  name := r.name
  normalSide := r.normalSide
  currency := r.currency
  parentCode := r.parentCode
  allowPosting := r.allowPosting != 0
  active := r.active != 0

/-- A period row as the mapping of a period. -/
def PeriodRow.toPayload (r : PeriodRow) : BookPeriodPayload where
  period := ⟨r.fiscalYear, r.quarter, r.month⟩
  startDate := r.startDate
  endDate := r.endDate
  state := r.state

/-- `_build_book_payload` -/
def buildBookPayload (book : BookRow) (accounts : List AccountRow) (periods : List PeriodRow)
    (transactions : List TransactionRow) (entries : Dict String (List EntryRow)) :
    BookPayload where
  code := book.bookCode
  name := book.name
  baseCurrency := book.baseCurrency
  startMonth := book.fiscalStartMonth
  legislativePack := book.legislativePack
  accounts := accounts.map AccountRow.toPayload
  periods := periods.map PeriodRow.toPayload
  transactions := transactions.map fun r => r.toPayload ((entries.get? r.reference).getD [])

/-- `except (TypeError, ValueError) as exc: raise ... from exc` -/
def reraise {α : Type} (x : Except PyError α) (f : PyError → PyError) : Except PyError α :=
  x.mapError fun e => if e.isTypeOrValueError then f e else e

/-- The part of loading a book that follows the queries. -/
def deserializeBook (code : String) (payload : BookPayload) : Except PyError Book := do
  let book ← reraise (bookFromMapping payload) fun e => .persistenceIntegrityError
    s!"Stored book {strRepr code} could not be deserialized: {e.message}"
  reraise (validateAccountCollection book.fields.accounts) fun e => .ledgerInvariantError
    s!"Stored book {strRepr code} failed chart-of-accounts invariant: {e.message}"
    "COA_INVARIANT" code
  checkAll (fun t : JournalTransaction =>
    reraise (validateTransactionEntries t.fields.entries) fun e => .ledgerInvariantError
      (s!"Stored transaction {strRepr t.reference} in book {strRepr code} " ++
        s!"failed balance invariant: {e.message}")
      "TRANSACTION_BALANCE" t.reference) book.fields.transactions
  return book

/-- Loading a book by separate queries, the `i`-th of which sees `view i`. -/
def loadBookFrom (view : ℕ → Tables) (code : String) : Except PyError Book :=
  match (view 0).books.find? (·.bookCode = code) with
  | none => .error (.keyError s!"Unknown book: {code}")
  | some row =>
    let accounts := selectAccounts code (view 1)
    let periods := selectPeriods code (view 2)
    let transactions := selectTransactions code (view 3)
    let entries := entryRowsByReference (fun j => view (4 + j)) code transactions
    deserializeBook code (buildBookPayload row accounts periods transactions entries)

/-- `_load_book_from_connection` -/
def loadBookFromConnection (view : ℕ → Tables) (code : String) : Except PyError Book :=
  loadBookFrom view code

/-- `_load_book_from_async_connection`, which issues the same queries. -/
def loadBookFromAsyncConnection (view : ℕ → Tables) (code : String) : Except PyError Book :=
  loadBookFrom view code

/-- `SqliteLedgerStore.load_book` on a database that does not change meanwhile. -/
def loadBook (t : Tables) (code : String) : Except PyError Book :=
  loadBookFromConnection (fun _ => t) code

/-- `AsyncLedgerReader.load_book` on a database that does not change meanwhile. -/
def asyncLoadBook (t : Tables) (code : String) : Except PyError Book :=
  loadBookFromAsyncConnection (fun _ => t) code

/-- `SqliteLedgerStore.list_book_codes` -/
def listBookCodes (t : Tables) : List String := orderBy id (t.books.map BookRow.bookCode)

/-! ### What a write does -/

/-- The database after inserting rows that are all admitted. -/
def Database.insertAll (ctx : AuditContext) (clock : ℕ → ℤ) :
    ℕ → List CoreRow → Database → Database
  | _, [], db => db
  | i, r :: rows, db => insertAll ctx clock (i + 1) rows (db.insert ctx (clock i) r)

theorem Database.tables_insertAll (ctx : AuditContext) (clock : ℕ → ℤ) (i : ℕ)
    (rows : List CoreRow) (db : Database) :
    (db.insertAll ctx clock i rows).tables = db.tables.pushAll rows := by
  induction rows generalizing i db with
  | nil => rfl
  | cons r rows ih => rw [insertAll, ih, Tables.pushAll_cons, insert]

theorem insertRows_eq_ok {w : World} {ctx : AuditContext} {i : ℕ} {rows : List CoreRow}
    {db db' : Database} (h : insertRows w ctx i rows db = .ok db') :
    db.tables.AdmitsAll rows ∧ db' = db.insertAll ctx w.clock i rows := by
  induction rows generalizing i db with
  | nil =>
    cases h
    exact ⟨trivial, rfl⟩
  | cons r rows ih =>
    obtain ⟨_, -, h⟩ := bind_eq_ok.mp h
    obtain ⟨db₁, hexec, h⟩ := bind_eq_ok.mp h
    unfold execute at hexec
    split at hexec
    · next hadmits =>
      cases hexec
      obtain ⟨hall, rfl⟩ := ih h
      exact ⟨⟨hadmits, hall⟩, rfl⟩
    · cases hexec

omit [Platform] in
/-- A transaction that commits has run its body, and the deferred foreign key
holds at the end. -/
theorem runTransaction_eq_ok {w : World} {body : Database → Except PyError Database}
    {db db' : Database} (h : runTransaction w body db = .ok db') :
    body db = .ok db' ∧ db'.tables.ParentsExist := by
  obtain ⟨_, -, h⟩ := bind_eq_ok.mp h
  obtain ⟨db₁, hbody, h⟩ := bind_eq_ok.mp h
  obtain ⟨_, -, h⟩ := bind_eq_ok.mp h
  split at h
  · next hparents =>
    cases h
    exact ⟨hbody, hparents⟩
  · cases h

omit [Platform] in
theorem withConnection_ok {w : World} {body : Database → Except PyError Database}
    {db db' : Database} (h : withConnection w body db = (.ok (), db')) :
    body db = .ok db' ∧ db'.tables.ParentsExist := by
  unfold withConnection at h
  split at h
  · next hrun =>
    cases h
    exact runTransaction_eq_ok hrun
  · cases h

omit [Platform] in
/-- A transaction that raises is rolled back. -/
theorem withConnection_error {w : World} {body : Database → Except PyError Database}
    {db db' : Database} {e : PyError} (h : withConnection w body db = (.error e, db')) :
    db' = db := by
  unfold withConnection at h
  split at h
  · cases h
  · cases h
    rfl

omit [Platform] in
/-- **A write that returns** has run its operation, with the deferred foreign key
satisfied at the end. -/
theorem executeWrite_ok {w : World} {operation : Database → Except PyError Database}
    {receipt r : StoreWriteReceipt} {db db' : Database}
    (h : executeWrite w operation receipt db = (.ok r, db')) :
    operation db = .ok db' ∧ db'.tables.ParentsExist := by
  unfold executeWrite at h
  split at h
  · next hcon =>
    cases h
    exact withConnection_ok hcon
  · cases h

omit [Platform] in
/-- **A write that raises** changes nothing. -/
theorem executeWrite_error {w : World} {operation : Database → Except PyError Database}
    {receipt : StoreWriteReceipt} {db db' : Database} {e : PyError}
    (h : executeWrite w operation receipt db = (.error e, db')) : db' = db := by
  unfold executeWrite at h
  split at h
  · cases h
  · next hcon =>
    cases h
    exact withConnection_error hcon

/-- Rows that were written were each admitted where they were inserted. -/
theorem writeRows_ok {w : World} {ctx : AuditContext} {rows : List CoreRow}
    {db db' : Database} {r : StoreWriteReceipt} (h : writeRows w ctx rows db = (.ok r, db')) :
    db.tables.AdmitsAll rows ∧ (db.tables.pushAll rows).ParentsExist ∧
      db' = db.insertAll ctx w.clock 0 rows := by
  obtain ⟨hrows, hparents⟩ := executeWrite_ok h
  obtain ⟨hall, rfl⟩ := insertRows_eq_ok hrows
  rw [Database.tables_insertAll] at hparents
  exact ⟨hall, hparents, rfl⟩

/-- Rows that can all be inserted are written, unless the transaction cannot begin or
commit. -/
theorem writeRows_of_insertRows {w : World} {ctx : AuditContext} {rows : List CoreRow}
    {db db' : Database} (hbegin : w.beginFault = none) (hcommit : w.commitFault = none)
    (hrows : insertRows w ctx 0 rows db = .ok db') (hparents : db'.tables.ParentsExist) :
    writeRows w ctx rows db = (.ok (buildWriteReceipt rows), db') := by
  have hrun : runTransaction w (insertRows w ctx 0 rows) db = .ok db' := by
    rw [runTransaction, hbegin, raising_none, ok_bind, hrows, ok_bind, commit, hcommit,
      raising_none, ok_bind, if_pos hparents]
    rfl
  rw [writeRows, executeWrite, withConnection, hrun]

omit [Platform] in
theorem orRaise_ok {α : Type} {checks : Except PyError α} {db db' : Database}
    {k : α → Except PyError StoreWriteReceipt × Database} {receipt : StoreWriteReceipt}
    (h : orRaise checks db k = (.ok receipt, db')) :
    ∃ a, checks = .ok a ∧ k a = (.ok receipt, db') := by
  unfold orRaise at h
  split at h
  · exact ⟨_, rfl, h⟩
  · cases h

omit [Platform] in
theorem orRaise_error {α : Type} {checks : Except PyError α} {db db' : Database}
    {k : α → Except PyError StoreWriteReceipt × Database} {e : PyError}
    (hk : ∀ a, k a = (.error e, db') → db' = db)
    (h : orRaise checks db k = (.error e, db')) : db' = db := by
  unfold orRaise at h
  split at h
  · exact hk _ h
  · cases h
    rfl

end FinestVX
