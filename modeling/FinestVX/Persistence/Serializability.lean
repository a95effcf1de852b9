import FinestVX.Lib.Serial
import FinestVX.Persistence.Growth
import FinestVX.Persistence.Isolation
import FinestVX.Persistence.RoundTrip

/-!
# Stores that share a file

Any number of stores, in one process or in several, are open on one database file, and
their calls interleave statement by statement.  The checks of a call are queries that
see what is committed; its inserts run in one transaction, under the write lock.

The checks of `append_transaction` come before its transaction begins, and still it may
rely on them: accounts are never removed.  `create_book` and
`append_legislative_result` ask nothing.  So all runs of these calls are serial, and
only a reversal can be disturbed, by a commit on its book that falls between its
queries and its transaction.

## Main definitions

* `StoreCall`, `StoreCall.queries` — a call, and the statements it issues.
* `SafeFor` — the commits of one call do not disturb another one.
* `SerialCalls` — the calls of the store one after another.

## Main results

* `runAlone_queries` — the statements are those of the call.
* `serializable_of_run` — **every run in which no reversal is disturbed is serial.**
-/

namespace FinestVX

open Except

section

variable [Platform]

/-! ### The statements of a call -/

/-- A call on a store of its own; the faults that may end it are steps of the run. -/
structure StoreCall where
  op : Op
  ctx : AuditContext
  clock : ℕ → ℤ := fun _ => 0

/-- The call on a database that nobody else writes to. -/
def StoreCall.alone (c : StoreCall) : Call := ⟨c.op, c.ctx, { clock := c.clock }⟩

/-- `COMMIT` checks the deferred foreign key. -/
def checkParents (db : Database) : Except PyError Unit := do
  if db.tables.ParentsExist then return () else
    throw (.constraintError "FOREIGN KEY constraint failed")

/-- The transaction that inserts rows, and its receipt. -/
def insertPlan (ctx : AuditContext) (clock : ℕ → ℤ) (rows : List CoreRow) :
    Plan Database PyError StoreWriteReceipt where
  statements := rows.zipIdx.map fun (r, i) => execute ctx (clock i) r
  result := buildWriteReceipt rows

namespace StoreCall

/-- What a call asks and writes. -/
abbrev Queries := Query Database PyError (Plan Database PyError StoreWriteReceipt)

/-- `create_book` -/
def createBookQueries (c : StoreCall) (book : Book) : Queries :=
  .done do
    validateAccountCollection book.fields.accounts
    return insertPlan c.ctx c.clock (bookRows book.fields)

/-- `append_transaction`: the checks of the transaction, and `SELECT` of the accounts. -/
def appendTransactionQueries (c : StoreCall) (code : String) (t : JournalTransaction) : Queries :=
  if t.fields.state ≠ .posted then
    .done (.error (.valueError "Only posted transactions can be appended to the ledger store"))
  else match validateTransactionEntries t.fields.entries with
    | .error e => .done (.error e)
    | .ok _ => .select fun db => .done do
        let known := accountCodes code db.tables
        if known = [] then
          throw (.keyError s!"Unknown book: {code}")
        checkAll (requireKnownAccount code known) t.entries
        return insertPlan c.ctx c.clock (transactionRows code t)

/-- `append_reversal`: `SELECT` of the original, of a reversal of it, of the reference, and
of the entries of the original. -/
def appendReversalQueries (c : StoreCall) (code o r : String) : Queries :=
  .select fun db => match findTransaction code o db.tables with
    | none => .select fun db => .done (.error
        (if db.tables.HasBook code then
          .valueError s!"Transaction {strRepr o} not found in book {strRepr code}"
        else .keyError s!"Unknown book: {code}"))
    | some row => .select fun db =>
        if ∃ x ∈ db.tables.transactions, x.bookCode = code ∧ x.reversalOf = some o then
          .done (.error (.valueError
            s!"Transaction {strRepr o} in book {strRepr code} is already reversed"))
        else .select fun db =>
          if ∃ x ∈ db.tables.transactions, x.bookCode = code ∧ x.reference = r then
            .done (.error (.valueError
              s!"Reversal reference {strRepr r} is already in use in book {strRepr code}"))
          else .select fun db => .done do
            let original ← transactionFromMapping
              { row.toPayload (selectEntries code o db.tables) with reference := o }
            let t ← reversalOfTransaction original o r
            return insertPlan c.ctx c.clock (transactionRows code t)

/-- The statements of a call. -/
def queries (c : StoreCall) : Queries :=
  match c.op with
  | .createBook book => c.createBookQueries book
  | .appendTransaction code t => c.appendTransactionQueries code t
  | .appendReversal code o r => c.appendReversalQueries code o r
  | .appendLegislativeResult code ref result => .done (.ok
      { statements := [insertResult c.alone.world c.ctx code ref result]
        result := ⟨["audit_log"], 1, 0⟩ })

end StoreCall

/-! ### Alone -/

/-- The statements of an insertion are those of `insertRows`. -/
theorem runStatements_insertPlan (ctx : AuditContext) (clock : ℕ → ℤ) (rows : List CoreRow)
    (i : ℕ) (db : Database) :
    runStatements ((rows.zipIdx i).map fun (r, i) => execute ctx (clock i) r) db =
      insertRows { clock := clock } ctx i rows db := by
  induction rows generalizing i db with
  | nil => rfl
  | cons r rows ih =>
    rw [List.zipIdx_cons, List.map_cons, runStatements, insertRows, raising_none, ok_bind]
    congr 1
    funext db'
    exact ih (i + 1) db'

/-- A transaction alone. -/
theorem run_insertPlan (ctx : AuditContext) (clock : ℕ → ℤ) (rows : List CoreRow)
    (db : Database) : (insertPlan ctx clock rows).run checkParents db =
      writeRows { clock := clock } ctx rows db := by
  rw [Plan.run, insertPlan, runStatements_insertPlan, writeRows, executeWrite, withConnection,
    runTransaction, raising_none, ok_bind]
  cases insertRows { clock := clock } ctx 0 rows db with
  | error e => rfl
  | ok db' =>
    simp only [ok_bind, commit, raising_none, checkParents]
    by_cases hp : db'.tables.ParentsExist <;> simp [hp]

omit [Platform] in
/-- Queries that compute the checks of a write, and lead to the transaction of it. -/
theorem runAlone_of_checks {α : Type} {q : Query Database PyError
      (Plan Database PyError StoreWriteReceipt)} {db : Database} (checks : Except PyError α)
    (k : α → Database → Except PyError StoreWriteReceipt × Database)
    {plan : α → Plan Database PyError StoreWriteReceipt}
    (hq : q.run db = checks.map plan) (hk : ∀ a, (plan a).run checkParents db = k a db) :
    runAlone checkParents q db = orRaise checks db fun a => k a db := by
  rw [runAlone, hq]
  cases checks with
  | error e => rfl
  | ok a => exact hk a

theorem run_appendTransactionQueries (c : StoreCall) (code : String) (t : JournalTransaction)
    (db : Database) : (c.appendTransactionQueries code t).run db =
      (appendTransactionChecks c.alone.world code t db.tables).map
        fun _ => insertPlan c.ctx c.clock (transactionRows code t) := by
  unfold StoreCall.appendTransactionQueries appendTransactionChecks
  by_cases hposted : t.fields.state = .posted
  · simp only [hposted, ne_eq, not_true_eq_false, if_false]
    cases validateTransactionEntries t.fields.entries with
    | error e => rfl
    | ok _ =>
      simp only [Query.run, StoreCall.alone, ok_bind, raising_none]
      by_cases hknown : accountCodes code db.tables = []
      · simp only [hknown, if_true]
        rfl
      · simp only [hknown, if_false]
        cases checkAll (requireKnownAccount code (accountCodes code db.tables)) t.entries <;> rfl
  · simp only [hposted, ne_eq, not_false_eq_true, if_true]
    rfl

theorem run_appendReversalQueries (c : StoreCall) (code o r : String) (db : Database) :
    (c.appendReversalQueries code o r).run db =
      (reversalTransaction c.alone.world code o r db.tables).map
        fun t => insertPlan c.ctx c.clock (transactionRows code t) := by
  unfold StoreCall.appendReversalQueries reversalTransaction reversalChecks
  simp only [Query.run, StoreCall.alone, raising_none, ok_bind]
  cases findTransaction code o db.tables with
  | none =>
    by_cases hbook : db.tables.HasBook code
    · simp only [Query.run, hbook, if_true]
      rfl
    · simp only [Query.run, hbook, if_false]
      rfl
  | some row =>
    by_cases hreversed : ∃ x ∈ db.tables.transactions, x.bookCode = code ∧ x.reversalOf = some o
    · simp only [Query.run, hreversed, if_true]
      rfl
    by_cases hused : ∃ x ∈ db.tables.transactions, x.bookCode = code ∧ x.reference = r
    · simp only [Query.run, hreversed, hused, if_true, if_false]
      rfl
    · simp only [Query.run, hreversed, hused, if_false, ok_bind]
      cases transactionFromMapping
          { row.toPayload (selectEntries code o db.tables) with reference := o } with
      | error e => rfl
      | ok original =>
        simp only [ok_bind]
        cases reversalOfTransaction original o r <;> rfl

/-- **The statements of a call are those of the call**: alone they return and do the same. -/
theorem runAlone_queries (c : StoreCall) (db : Database) :
    runAlone checkParents c.queries db = c.alone.run db := by
  obtain ⟨op, ctx, clock⟩ := c
  cases op with
  | createBook book =>
    refine runAlone_of_checks (validateAccountCollection book.fields.accounts)
      (fun _ => writeRows _ ctx (bookRows book.fields)) ?_ (fun _ => run_insertPlan ctx clock _ db)
    simp only [StoreCall.queries, StoreCall.createBookQueries, Query.run]
    cases validateAccountCollection book.fields.accounts <;> rfl
  | appendTransaction code t =>
    exact runAlone_of_checks _ (fun _ => writeRows _ ctx (transactionRows code t))
      (run_appendTransactionQueries _ code t db) fun _ => run_insertPlan ctx clock _ db
  | appendReversal code o r =>
    exact runAlone_of_checks _ (fun t => writeRows _ ctx (transactionRows code t))
      (run_appendReversalQueries _ code o r db) fun t => run_insertPlan ctx clock _ db
  | appendLegislativeResult code ref result =>
    simp only [runAlone, StoreCall.queries, StoreCall.alone, Query.run, Plan.run, runStatements,
      Call.run, appendLegislativeResult, executeWrite, withConnection, runTransaction,
      raising_none, ok_bind, insertResult, commit, checkParents, pure_eq_ok]
    by_cases hp : db.tables.ParentsExist <;> simp [hp]

/-! ### Which commits disturb which calls -/

/-- The call is a reversal. -/
def Op.IsReversal : Op → Prop
  | .appendReversal _ _ _ => True
  | _ => False

/-- The commits of `c` do not disturb `d`: only reversals can be disturbed, and only by
commits on their book. -/
def SafeFor (c d : StoreCall) : Prop := ¬ d.op.IsReversal ∨ c.op.bookCode ≠ d.op.bookCode

omit [Platform] in
/-- Accounts are never removed. -/
theorem accountCodes_subset_of_grows {t t' : Tables} (h : t.Grows t') (code : String) :
    accountCodes code t ⊆ accountCodes code t' := by
  intro a ha
  obtain ⟨r, hr, rfl⟩ := List.mem_map.mp ha
  obtain ⟨hmem, hcode⟩ := List.mem_filter.mp hr
  exact List.mem_map_of_mem (List.mem_filter.mpr ⟨h.accounts.subset hmem, hcode⟩)

/-- The checks of `append_transaction` stay passed while the database grows. -/
theorem appendTransactionChecks_of_grows {w : World} {code : String} {tx : JournalTransaction}
    {t t' : Tables} (h : appendTransactionChecks w code tx t = .ok ()) (hgrows : t.Grows t') :
    appendTransactionChecks w code tx t' = .ok () := by
  have hsub := accountCodes_subset_of_grows hgrows code
  unfold appendTransactionChecks at h ⊢
  obtain ⟨hposted, h⟩ := guard_eq_ok.mp h
  obtain ⟨_, hentries, h⟩ := bind_eq_ok.mp h
  obtain ⟨_, hselect, h⟩ := bind_eq_ok.mp h
  obtain ⟨hne, hknown⟩ := guard_eq_ok.mp h
  refine guard_eq_ok.mpr ⟨hposted, bind_eq_ok.mpr ⟨_, hentries, bind_eq_ok.mpr ⟨_, hselect, ?_⟩⟩⟩
  refine guard_eq_ok.mpr ⟨fun hnil => hne (List.eq_nil_of_subset_nil (hnil ▸ hsub)), ?_⟩
  refine checkAll_eq_ok.mpr fun e he => ?_
  have hmem := checkAll_eq_ok.mp hknown e he
  unfold requireKnownAccount at hmem ⊢
  split at hmem
  · next hin => exact if_pos (hsub hin)
  · cases hmem

/-- `append_transaction` asks one question. -/
theorem reaches_appendTransactionQueries {c : StoreCall} {code : String} {t : JournalTransaction}
    {rest : StoreCall.Queries} (h : (c.appendTransactionQueries code t).Reaches rest) :
    rest = c.appendTransactionQueries code t ∨ ∃ r, rest = .done r := by
  generalize hq : c.appendTransactionQueries code t = q at h ⊢
  unfold StoreCall.appendTransactionQueries at hq
  split at hq
  · subst hq
    exact .inl h.eq_of_done
  · split at hq
    · subst hq
      exact .inl h.eq_of_done
    · subst hq
      rcases h.of_select with heq | ⟨db, heq⟩
      · exact .inl heq
      · exact .inr ⟨_, heq⟩

/-- The queries of a reversal look at one book. -/
theorem dependsOn_appendReversalQueries (c : StoreCall) (code o r : String) :
    (c.appendReversalQueries code o r).DependsOn fun db => db.tables.restrict code := by
  have hfind : ∀ db db' : Database, db.tables.restrict code = db'.tables.restrict code →
      findTransaction code o db.tables = findTransaction code o db'.tables := by
    intro db db' h
    rw [← findTransaction_restrict, h, findTransaction_restrict]
  have hbook : ∀ db db' : Database, db.tables.restrict code = db'.tables.restrict code →
      (db.tables.HasBook code ↔ db'.tables.HasBook code) := by
    intro db db' h
    rw [← hasBook_restrict, h, hasBook_restrict]
  have hexists : ∀ (p : TransactionRow → Prop) (db db' : Database),
      db.tables.restrict code = db'.tables.restrict code →
      ((∃ x ∈ db.tables.transactions, x.bookCode = code ∧ p x) ↔
        ∃ x ∈ db'.tables.transactions, x.bookCode = code ∧ p x) := by
    intro p db db' h
    rw [← exists_transaction_restrict, h, exists_transaction_restrict]
  have hentries : ∀ db db' : Database, db.tables.restrict code = db'.tables.restrict code →
      selectEntries code o db.tables = selectEntries code o db'.tables := by
    intro db db' h
    rw [← selectEntries_restrict, h, selectEntries_restrict]
  -- one query after another
  refine ⟨fun db db' h => by simp only [hfind db db' h], fun db => ?_⟩
  dsimp only
  cases findTransaction code o db.tables with
  | none => exact ⟨fun db db' h => by simp only [hbook db db' h], fun _ => trivial⟩
  | some row =>
    refine ⟨fun db db' h => by simp only [hexists _ db db' h], fun db => ?_⟩
    dsimp only
    split
    · trivial
    refine ⟨fun db db' h => by simp only [hexists _ db db' h], fun db => ?_⟩
    dsimp only
    split
    · trivial
    exact ⟨fun db db' h => by simp only [hentries db db' h], fun _ => trivial⟩

/-- **Only reversals can be disturbed**, and only by commits on their book. -/
theorem safe_of_safeFor {c d : StoreCall} (h : SafeFor c d) :
    Safe checkParents (fun _ => True) c.queries d.queries := by
  intro db db' receipt rest _ hcommit hreaches hgoing hagree
  rw [runAlone_queries] at hcommit
  obtain rfl : c.alone.after db = db' := congrArg Prod.snd hcommit
  obtain ⟨op, ctx, clock⟩ := d
  cases op with
  | createBook book => rw [hreaches.eq_of_done]; rfl
  | appendTransaction code t =>
    rcases reaches_appendTransactionQueries hreaches with rfl | ⟨_ | plan, rfl⟩
    · rfl
    · exact (hgoing _ rfl).elim
    -- the checks were passed, and still are
    change Query.run db (StoreCall.appendTransactionQueries _ code t) = .ok plan at hagree
    change Query.run _ (StoreCall.appendTransactionQueries _ code t) = .ok plan
    rw [run_appendTransactionQueries] at hagree ⊢
    cases hchecks : appendTransactionChecks _ code t db.tables with
    | error e =>
      rw [hchecks] at hagree
      cases hagree
    | ok _ =>
      rw [appendTransactionChecks_of_grows hchecks (c.alone.grows_after db)]
      rwa [hchecks] at hagree
  | appendReversal code o r =>
    have hne : c.op.bookCode ≠ code := h.resolve_left fun hnot => hnot trivial
    have hdepends := dependsOn_appendReversalQueries ⟨.appendReversal code o r, ctx, clock⟩ code o r
    have hview : db.tables.restrict code = (c.alone.after db).tables.restrict code :=
      (bookView_eq_iff.mp (c.alone.bookView_run_of_ne hne)).1.symm
    exact ((hdepends.run_eq hview).symm.trans hagree).trans
      ((hdepends.reaches hreaches).run_eq hview)
  | appendLegislativeResult code ref result => rw [hreaches.eq_of_done]; rfl

/-! ### Runs -/

variable {ι : Type} [DecidableEq ι]

/-- The calls beside each other, each with its statements. -/
abbrev SharedFile (ι : Type) := Shared ι Database PyError StoreWriteReceipt

/-- The statements of each call. -/
def storeQueries (calls : ι → StoreCall) (p : ι) : StoreCall.Queries := (calls p).queries

/-- A statement of one of the calls, which disturbs no reversal: it commits nothing to the
book of a reversal that is between its first query and its transaction. -/
def CalmStep (calls : ι → StoreCall) (s : SharedFile ι)
    (event : Option (SerialEvent ι PyError StoreWriteReceipt)) (s' : SharedFile ι) : Prop :=
  SharedStep checkParents s event s' ∧
    Settled (fun p q => SafeFor (calls p) (calls q)) (storeQueries calls) s event

/-- The calls of the store one after another; a call that a fault ends has no effect. -/
inductive SerialCalls (calls : ι → StoreCall) (db : Database) :
    SerialEvent ι PyError StoreWriteReceipt → Database → Prop
  | finished (p : ι) : SerialCalls calls db (.finished p ((calls p).alone.run db).1)
      ((calls p).alone.after db)
  | fault (p : ι) (e : PyError) : SerialCalls calls db (.fault p e) db

omit [DecidableEq ι] in
theorem SerialCalls.of_serialStep {calls : ι → StoreCall} {db db' : Database}
    {x : SerialEvent ι PyError StoreWriteReceipt}
    (h : SerialStep checkParents (storeQueries calls) db x db') : SerialCalls calls db x db' := by
  cases h with
  | @finished p outcome _ h =>
    rw [storeQueries, runAlone_queries] at h
    have hfinished : SerialCalls calls db _ _ := .finished p
    rw [Call.after, h] at hfinished
    exact hfinished
  | fault p e => exact .fault p e

/-- **Every run in which no reversal is disturbed is serial.**  The calls, on any number of
stores of one file, return, raise and leave in the file what they do one after another, in
the order in which they finish, and each of them finishes at most once. -/
theorem serializable_of_run {calls : ι → StoreCall} {db : Database}
    {tr : List (Option (SerialEvent ι PyError StoreWriteReceipt))} {s : SharedFile ι}
    (hrun : Traced (CalmStep calls) (Shared.init (storeQueries calls) db) tr s) :
    Traced (SerialCalls calls) db tr.reduceOption s.state ∧
      (tr.reduceOption.map SerialEvent.call).Nodup ∧
      ∀ p, p ∈ tr.reduceOption.map SerialEvent.call ↔ s.phase p = .finished := by
  have hsafe : ∀ p q, SafeFor (calls p) (calls q) →
      Safe checkParents (fun _ => True) (storeQueries calls p) (storeQueries calls q) :=
    fun p q h => safe_of_safeFor h
  obtain ⟨hserial, honce, hfinished⟩ :=
    serial_of_run hsafe trivial (fun _ _ _ _ _ _ => trivial) hrun
  exact ⟨hserial.mono fun _ _ _ => .of_serialStep, honce, hfinished⟩

/-- Without reversals every run is calm. -/
theorem calm_of_no_reversal {calls : ι → StoreCall} (h : ∀ p, ¬ (calls p).op.IsReversal)
    {s s₀ : SharedFile ι} {tr : List (Option (SerialEvent ι PyError StoreWriteReceipt))}
    (hrun : Traced (SharedStep checkParents) s₀ tr s) : Traced (CalmStep calls) s₀ tr s :=
  hrun.mono fun _ _ _ hstep => ⟨hstep, fun _ _ _ q _ _ _ _ => .inl (h q)⟩

end

/-! ### Evaluated -/

namespace Reference

/-- Two stores that append the sale to the book of the file. -/
def appenders : Bool → StoreCall
  | false => { op := .appendTransaction "BK" sale, ctx := auditor }
  | true => { op := .appendTransaction "BK" sale, ctx := auditor }

/-- Both ask for the accounts before either begins its transaction. -/
def overlappingAppends : List Bool :=
  [false, true] ++ List.replicate 5 false ++ List.replicate 2 true

/-- Of two appends that overlap, the first to begin is committed, and the other one fails as
it does after it. -/
theorem serializable_appenders : ∃ (tr : List (Option (SerialEvent Bool PyError StoreWriteReceipt)))
    (s : SharedFile Bool), tr.reduceOption.map SerialEvent.call = [false, true] ∧
      Traced (SerialCalls appenders) (createBook {} auditor clockedBook {}).2 tr.reduceOption
        s.state := by
  have hrun := traced_runSchedule checkParents overlappingAppends (.nil (a := Shared.init
    (storeQueries appenders) (createBook {} auditor clockedBook {}).2))
  have hnone : ∀ p, ¬ (appenders p).op.IsReversal := by
    intro p
    cases p <;> exact id
  have hcalm := calm_of_no_reversal hnone hrun
  exact ⟨_, _, by rfl, (serializable_of_run hcalm).1⟩

end Reference

end FinestVX
