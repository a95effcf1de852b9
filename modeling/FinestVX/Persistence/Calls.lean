import FinestVX.Persistence.Store
import FinestVX.Lib.Transition

/-!
# Calls and runs

The state of a store changes by calls of its four write operations, some of
which return a receipt and some of which raise.  A run is a sequence of calls
from the empty database.

## Main definitions

* `Op`, `Call`, `Call.run` — an operation with its arguments, and its execution.
* `StoreStep`, `Reachable` — one call, and the databases that runs reach.
* `GuardedStep` — one call that meets a condition.
* `returned` — the operations of the calls of a run that return.
* `Writes` — the rows an operation inserts when it succeeds.

## Main results

* `Call.run_error` — a call that raises changes nothing.
* `Call.run_ok` — a call that returns inserts the rows of its operation.
* `Reachable.keyed` — the primary keys hold in every reachable database.
-/

namespace FinestVX

open Except Relation

variable [Platform]

/-- A write operation with its arguments. -/
inductive Op
  | createBook (book : Book)
  | appendTransaction (code : String) (t : JournalTransaction)
  | appendReversal (code originalRef reversalRef : String)
  | appendLegislativeResult (code reference : String) (result : LegislativeValidationResult)

/-- A call of a write operation, and what the environment does meanwhile. -/
structure Call where
  op : Op
  ctx : AuditContext
  world : World

namespace Call

/-- Execute a call: what it returns or raises, and the database after it. -/
def run (c : Call) (db : Database) : Except PyError StoreWriteReceipt × Database :=
  match c.op with
  | .createBook book => createBook c.world c.ctx book db
  | .appendTransaction code t => appendTransaction c.world c.ctx code t db
  | .appendReversal code o r => appendReversal c.world c.ctx code o r db
  | .appendLegislativeResult code ref result =>
    appendLegislativeResult c.world c.ctx code ref result db

/-- The database after a call. -/
def after (c : Call) (db : Database) : Database := (c.run db).2

/-- The call returns a receipt. -/
def Returns (c : Call) (db : Database) : Prop := (c.run db).1.Succeeds

end Call

/-- One call on the store. -/
def StoreStep (db db' : Database) : Prop := ∃ c : Call, db' = c.after db

/-- The databases reached from the empty one by some calls. -/
def Reachable (db : Database) : Prop := ReflTransGen StoreStep {} db

/-- One call whose operation meets a condition on the database it is made on. -/
def GuardedStep (G : Database → Op → Prop) (db db' : Database) : Prop :=
  ∃ c : Call, G db c.op ∧ db' = c.after db

theorem Reachable.empty : Reachable {} := .refl

theorem Reachable.after {db : Database} (h : Reachable db) (c : Call) : Reachable (c.after db) :=
  h.tail ⟨c, rfl⟩

/-- The database after a sequence of calls. -/
def Call.afterAll (calls : List Call) (db : Database) : Database :=
  calls.foldl (fun db c => c.after db) db

/-- The runs are the sequences of calls. -/
theorem run_iff {db db' : Database} :
    ReflTransGen StoreStep db db' ↔ ∃ calls, Call.afterAll calls db = db' := by
  constructor
  · intro h
    induction h with
    | refl => exact ⟨[], rfl⟩
    | tail _ hstep ih =>
      obtain ⟨calls, rfl⟩ := ih
      obtain ⟨c, rfl⟩ := hstep
      exact ⟨calls ++ [c], List.foldl_append⟩
  · rintro ⟨calls, rfl⟩
    induction calls using List.reverseRecOn with
    | nil => exact .refl
    | append_singleton calls c ih =>
      rw [Call.afterAll, List.foldl_append]
      exact ih.tail ⟨c, rfl⟩

theorem Call.run_afterAll (calls : List Call) (db : Database) :
    ReflTransGen StoreStep db (Call.afterAll calls db) :=
  run_iff.mpr ⟨calls, rfl⟩

/-- The operations of the calls that return, in order. -/
def returned : List Call → Database → List Op
  | [], _ => []
  | c :: calls, db =>
    match (c.run db).1 with
    | .ok _ => c.op :: returned calls (c.after db)
    | .error _ => returned calls (c.after db)

theorem returned_append (calls calls' : List Call) (db : Database) :
    returned (calls ++ calls') db =
      returned calls db ++ returned calls' (Call.afterAll calls db) := by
  induction calls generalizing db with
  | nil => rfl
  | cons c calls ih =>
    rw [List.cons_append, returned, returned, ih]
    cases (c.run db).1 with
    | ok receipt => rfl
    | error e => rfl

/-- The operation of a call that returns. -/
theorem Call.Returns.returned {c : Call} {db : Database} (h : c.Returns db) :
    FinestVX.returned [c] db = [c.op] := by
  obtain ⟨receipt, hreceipt⟩ := h
  rw [FinestVX.returned, hreceipt]
  rfl

/-! ### What one call does -/

/-- The core rows an operation inserts when it succeeds on the given tables. -/
inductive Writes (t : Tables) : Op → List CoreRow → Prop
  | createBook (book : Book) : Writes t (.createBook book) (bookRows book.fields)
  | appendTransaction {code : String} {tx : JournalTransaction}
      (hposted : tx.fields.state = .posted) (hbook : accountCodes code t ≠ [])
      (hknown : ∀ e ∈ tx.entries, e.accountCode ∈ accountCodes code t) :
      Writes t (.appendTransaction code tx) (transactionRows code tx)
  | appendReversal {w : World} {code o r : String} {tx : JournalTransaction}
      (htx : reversalTransaction w code o r t = .ok tx) :
      Writes t (.appendReversal code o r) (transactionRows code tx)
  | appendLegislativeResult (code ref : String) (result : LegislativeValidationResult) :
      Writes t (.appendLegislativeResult code ref result) []

/-- The checks of `append_transaction` in terms of the tables. -/
theorem appendTransactionChecks_eq_ok {w : World} {code : String} {tx : JournalTransaction}
    {t : Tables} (h : appendTransactionChecks w code tx t = .ok ()) :
    tx.fields.state = .posted ∧ accountCodes code t ≠ [] ∧
      ∀ e ∈ tx.entries, e.accountCode ∈ accountCodes code t := by
  obtain ⟨hposted, h⟩ := guard_eq_ok.mp h
  obtain ⟨_, -, h⟩ := bind_eq_ok.mp h
  obtain ⟨_, -, h⟩ := bind_eq_ok.mp h
  obtain ⟨hbook, h⟩ := guard_eq_ok.mp h
  refine ⟨not_not.mp hposted, hbook, fun e he => ?_⟩
  have := checkAll_eq_ok.mp h e he
  unfold requireKnownAccount at this
  split at this
  · assumption
  · cases this

/-- A call that raises changes nothing. -/
theorem Call.run_error {c : Call} {db db' : Database} {e : PyError}
    (h : c.run db = (.error e, db')) : db' = db := by
  obtain ⟨op, ctx, w⟩ := c
  cases op with
  | createBook book => exact orRaise_error (fun _ => executeWrite_error) h
  | appendTransaction code tx => exact orRaise_error (fun _ => executeWrite_error) h
  | appendReversal code o r => exact orRaise_error (fun _ => executeWrite_error) h
  | appendLegislativeResult code ref result => exact executeWrite_error h

/-- The database after a successful call: its core rows inserted with their
audit rows, or one audit row for a legislative result. -/
inductive Effect (c : Call) (db : Database) (rows : List CoreRow) : Database → Prop
  | insert : Effect c db rows (db.insertAll c.ctx c.world.clock 0 rows)
  | result {code ref : String} {result : LegislativeValidationResult} (hrows : rows = []) :
      Effect c db rows { db with
        auditLog := db.auditLog ++
          [auditResult c.ctx (c.world.clock 0) db.auditLog code ref result] }

theorem Effect.tables {c : Call} {db db' : Database} {rows : List CoreRow}
    (h : Effect c db rows db') : db'.tables = db.tables.pushAll rows := by
  cases h with
  | insert => exact Database.tables_insertAll ..
  | result hrows =>
    subst hrows
    rfl

/-- **A call that returns** inserts the rows of its operation, each admitted
where it is inserted. -/
theorem Call.run_ok {c : Call} {db db' : Database} {receipt : StoreWriteReceipt}
    (h : c.run db = (.ok receipt, db')) :
    ∃ rows, Writes db.tables c.op rows ∧ db.tables.AdmitsAll rows ∧
      (db.tables.pushAll rows).ParentsExist ∧ Effect c db rows db' := by
  obtain ⟨op, ctx, w⟩ := c
  cases op with
  | createBook book =>
    obtain ⟨_, -, h⟩ := orRaise_ok h
    obtain ⟨hall, hparents, rfl⟩ := writeRows_ok h
    exact ⟨_, .createBook book, hall, hparents, .insert⟩
  | appendTransaction code tx =>
    obtain ⟨_, hchecks, h⟩ := orRaise_ok h
    obtain ⟨hall, hparents, rfl⟩ := writeRows_ok h
    obtain ⟨hposted, hbook, hknown⟩ := appendTransactionChecks_eq_ok hchecks
    exact ⟨_, .appendTransaction hposted hbook hknown, hall, hparents, .insert⟩
  | appendReversal code o r =>
    obtain ⟨tx, htx, h⟩ := orRaise_ok h
    obtain ⟨hall, hparents, rfl⟩ := writeRows_ok h
    exact ⟨_, .appendReversal htx, hall, hparents, .insert⟩
  | appendLegislativeResult code ref result =>
    obtain ⟨hinsert, hparents⟩ := executeWrite_ok h
    obtain ⟨_, -, hinsert⟩ := bind_eq_ok.mp hinsert
    cases hinsert
    exact ⟨[], .appendLegislativeResult code ref result, trivial, hparents, .result rfl⟩

/-- A call either leaves the core tables alone or inserts the rows of its operation. -/
theorem Call.after_cases (c : Call) (db : Database) : c.after db = db ∨
    ∃ rows, Writes db.tables c.op rows ∧ db.tables.AdmitsAll rows ∧
      (db.tables.pushAll rows).ParentsExist ∧ Effect c db rows (c.after db) := by
  cases h : c.run db with
  | mk outcome db' =>
    have hafter : c.after db = db' := by rw [after, h]
    rw [hafter]
    cases outcome with
    | error e => exact .inl (run_error h)
    | ok receipt => exact .inr (run_ok h)

/-! ### Primary keys -/

/-- No two rows of a table share their primary key. -/
structure Tables.Keyed (t : Tables) : Prop where
  books : (t.books.map BookRow.bookCode).Nodup
  accounts : (t.accounts.map fun r => (r.bookCode, r.code)).Nodup
  transactions : (t.transactions.map fun r => (r.bookCode, r.reference)).Nodup

omit [Platform] in
theorem Tables.Keyed.push {t : Tables} {r : CoreRow} (h : t.Keyed) (hr : t.Admits r) :
    (t.push r).Keyed := by
  cases r with
  | book r =>
    refine { h with books := ?_ }
    simp only [Tables.push, List.map_append, List.map_cons, List.map_nil]
    refine List.Nodup.append h.books (List.nodup_singleton _) ?_
    intro c hc hc'
    obtain ⟨b, hb, rfl⟩ := List.mem_map.mp hc
    exact hr.2 b hb (List.mem_singleton.mp hc')
  | account r =>
    refine { h with accounts := ?_ }
    simp only [Tables.push, List.map_append, List.map_cons, List.map_nil]
    refine List.Nodup.append h.accounts (List.nodup_singleton _) ?_
    intro c hc hc'
    obtain ⟨a, ha, rfl⟩ := List.mem_map.mp hc
    exact hr.2.2.2.1 a ha (by simpa using hc')
  | period r => exact { h with }
  | transaction r =>
    refine { h with transactions := ?_ }
    simp only [Tables.push, List.map_append, List.map_cons, List.map_nil]
    refine List.Nodup.append h.transactions (List.nodup_singleton _) ?_
    intro c hc hc'
    obtain ⟨x, hx, rfl⟩ := List.mem_map.mp hc
    exact hr.2.2.2.2.2.1 x hx (by simpa using hc')
  | entry r => exact { h with }

omit [Platform] in
theorem Tables.Keyed.pushAll {t : Tables} {rows : List CoreRow} (h : t.Keyed)
    (hrows : t.AdmitsAll rows) : (t.pushAll rows).Keyed := by
  induction rows generalizing t with
  | nil => exact h
  | cons r rows ih => exact ih (h.push hrows.1) hrows.2

theorem Call.keyed_after {c : Call} {db : Database} (h : db.tables.Keyed) :
    (c.after db).tables.Keyed := by
  rcases c.after_cases db with hsame | ⟨rows, -, hall, -, heffect⟩
  · rwa [hsame]
  · rw [heffect.tables]
    exact h.pushAll hall

/-- The primary keys hold in every reachable database. -/
theorem Reachable.keyed {db : Database} (h : Reachable db) : db.tables.Keyed := by
  refine invariant_of_step (p := fun db => db.tables.Keyed) h ?_ ?_
  · exact ⟨List.nodup_nil, List.nodup_nil, List.nodup_nil⟩
  · rintro db _ hkeyed ⟨c, rfl⟩
    exact Call.keyed_after hkeyed

end FinestVX
