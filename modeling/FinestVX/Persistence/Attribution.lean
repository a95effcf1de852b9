import FinestVX.Persistence.AppendErrors

/-!
# Who wrote an audit row

The triggers of the core tables ask the store who is writing.  The answer is one
shared `_AuditState`, which a write sets before its transaction and restores after it,
field by field, under the writer lock.  The statements of any number of calls on one
store interleave, and each may fail.

## Main definitions

* `AuditState`, `triggerRow` — the shared state, and the row a trigger makes of it.
* `Op.before`, `Op.statements` — an operation before the lock and under it.
* `WritePc`, `Writers`, `Writers.advance`, `WriteStep` — the calls and their next
  statements.
* `Signs` — an audit row carries a context.

## Main results

* `Writers.Sound` — what the holder of the lock has set, read and written.
* `serial_of_interleaving` — what is committed is a run of calls one after the other.
* `signed_of_interleaving` — **every audit row carries the context of the call that
  wrote it**, and between the writes the state is the initial one.
-/

namespace FinestVX

open Except Relation

/-! ### The shared state -/

/-- `_AuditState` -/
structure AuditState where
  actor : String := "system"
  reason : String := "schema/bootstrap"
  sessionId : Option String := none
  deriving DecidableEq

/-- An audit row carries the actor, the reason and the session of a state. -/
def AuditState.Signs (a : AuditState) (row : AuditRow) : Prop :=
  row.actor = a.actor ∧ row.reason = a.reason ∧ row.sessionId = a.sessionId

section

variable [Platform]

/-- The state that shows a context. -/
def AuditContextFields.state (c : AuditContextFields) : AuditState where
  actor := c.actor
  reason := c.reason
  sessionId := c.sessionId

/-- The audit row a trigger writes, with what `audit_actor`, `audit_reason` and
`audit_session_id` have returned. -/
def triggerRow (a : AuditState) (ms : ℤ) (log : List AuditRow) (r : CoreRow) : AuditRow where
  seq := nextSeq log
  tableName := r.tableName
  operation := "INSERT"
  rowPk := r.rowPk
  actor := a.actor
  reason := a.reason
  sessionId := a.sessionId
  monotonicMs := ms
  rowSignature := Platform.blake2Hex (Platform.jsonText r.payload)
  rowPayload := r.payload

/-- Where the state shows the context of a write, its triggers write what they should. -/
theorem triggerRow_state (ctx : AuditContext) (ms : ℤ) (log : List AuditRow) (r : CoreRow) :
    triggerRow ctx.fields.state ms log r = auditInsert ctx ms log r := rfl

/-! ### The parts of an operation -/

/-- A statement of a transaction. -/
inductive Statement
  /-- An `INSERT` into a core table, which fires a trigger. -/
  | insert (r : CoreRow)
  /-- The `INSERT` of a legislative result into the audit log. -/
  | result (code reference : String) (result : LegislativeValidationResult)

namespace Op

/-- What an operation checks before it takes the writer lock. -/
def before : Op → Except PyError Unit
  | createBook book => validateAccountCollection book.fields.accounts
  | appendTransaction _ t => do
    if t.fields.state ≠ .posted then
      throw (.valueError "Only posted transactions can be appended to the ledger store")
    validateTransactionEntries t.fields.entries
  | appendReversal .. => .ok ()
  | appendLegislativeResult .. => .ok ()

/-- The statements of an operation, after its queries and checks under the lock. -/
def statements (t : Tables) : Op → Except PyError (List Statement)
  | createBook book => .ok ((bookRows book.fields).map .insert)
  | appendTransaction code tx => do
    let known := accountCodes code t
    if known = [] then
      throw (.keyError s!"Unknown book: {code}")
    checkAll (requireKnownAccount code known) tx.entries
    return (transactionRows code tx).map .insert
  | appendReversal code o r => do
    let tx ← reversalTransaction {} code o r t
    return (transactionRows code tx).map .insert
  | appendLegislativeResult code reference result => .ok [.result code reference result]

end Op

/-- Execute the statements of a transaction one after the other, with nobody else
writing. -/
def executeAll (ctx : AuditContext) (clock : ℕ → ℤ) :
    ℕ → List Statement → Database → Except PyError Database
  | _, [], db => .ok db
  | i, .insert r :: rest, db => do
    let db ← execute ctx (clock i) r db
    executeAll ctx clock (i + 1) rest db
  | i, .result code reference result :: rest, db =>
    executeAll ctx clock (i + 1) rest
      { db with auditLog := db.auditLog ++
          [auditResult ctx (clock i) db.auditLog code reference result] }

theorem executeAll_insert (ctx : AuditContext) (clock : ℕ → ℤ) (i : ℕ) (rows : List CoreRow)
    (db : Database) :
    executeAll ctx clock i (rows.map .insert) db = insertRows { clock } ctx i rows db := by
  induction rows generalizing i db with
  | nil => rfl
  | cons r rows ih =>
    rw [List.map_cons, executeAll, insertRows, raising_none, ok_bind]
    exact bind_congr fun db => ih (i + 1) db

/-- **The parts of an operation make up its call**: what its checks let pass and its
statements write, `Call.run` writes. -/
theorem Call.run_of_statements {op : Op} {ctx : AuditContext} {clock : ℕ → ℤ}
    {stmts : List Statement} {db db' : Database} (hbefore : op.before = .ok ())
    (hstmts : op.statements db.tables = .ok stmts)
    (hexec : executeAll ctx clock 0 stmts db = .ok db') (hparents : db'.tables.ParentsExist) :
    ∃ receipt, Call.run ⟨op, ctx, { clock }⟩ db = (.ok receipt, db') := by
  cases op with
  | createBook book =>
    cases hstmts
    rw [executeAll_insert] at hexec
    change validateAccountCollection book.fields.accounts = .ok () at hbefore
    refine ⟨buildWriteReceipt (bookRows book.fields), ?_⟩
    change createBook _ _ _ _ = _
    rw [FinestVX.createBook, hbefore]
    exact writeRows_of_insertRows rfl rfl hexec hparents
  | appendTransaction code tx =>
    obtain ⟨hposted, hbalance⟩ := guard_eq_ok.mp hbefore
    obtain ⟨hbook, hstmts⟩ := guard_eq_ok.mp hstmts
    obtain ⟨_, hknown, hstmts⟩ := bind_eq_ok.mp hstmts
    cases hstmts
    rw [executeAll_insert] at hexec
    have hchecks : appendTransactionChecks { clock } code tx db.tables = .ok () := by
      refine guard_eq_ok.mpr ⟨hposted, ?_⟩
      rw [hbalance, ok_bind, raising_none, ok_bind]
      exact guard_eq_ok.mpr ⟨hbook, hknown⟩
    refine ⟨buildWriteReceipt (transactionRows code tx), ?_⟩
    change appendTransaction _ _ _ _ _ = _
    rw [FinestVX.appendTransaction, hchecks]
    exact writeRows_of_insertRows rfl rfl hexec hparents
  | appendReversal code o r =>
    obtain ⟨tx, htx, hstmts⟩ := bind_eq_ok.mp hstmts
    cases hstmts
    rw [executeAll_insert] at hexec
    have htx' : reversalTransaction { clock } code o r db.tables = .ok tx := htx
    refine ⟨buildWriteReceipt (transactionRows code tx), ?_⟩
    change appendReversal _ _ _ _ _ _ = _
    rw [FinestVX.appendReversal, htx']
    exact writeRows_of_insertRows rfl rfl hexec hparents
  | appendLegislativeResult code reference result =>
    cases hstmts
    cases hexec
    refine ⟨⟨["audit_log"], 1, 0⟩, ?_⟩
    change appendLegislativeResult _ _ _ _ _ _ = _
    have hcommit : runTransaction { clock } (insertResult { clock } ctx code reference result) db =
        .ok { db with auditLog := db.auditLog ++
          [auditResult ctx (clock 0) db.auditLog code reference result] } := by
      rw [runTransaction, raising_none, ok_bind, insertResult, raising_none, ok_bind]
      exact (if_pos hparents).trans rfl
    rw [FinestVX.appendLegislativeResult, executeWrite, withConnection, hcommit]

/-! ### The statements of a call -/

/-- How an open transaction stands: the state saved before it, the number of the next
statement, the statements left, and the database inside the transaction. -/
structure Progress where
  previous : AuditState
  number : ℕ
  rest : List Statement
  db : Database

/-- Where a write is: the statement that comes next.  `previous` is the state saved by
`_audit_context`, `outcome` the exception on its way out, if any. -/
inductive WritePc
  /-- The checks before the lock. -/
  | start
  /-- Acquire the writer lock. -/
  | waiting
  /-- The queries and checks under the lock. -/
  | locked
  /-- Open and attach the session. -/
  | checked (stmts : List Statement)
  /-- Save the state. -/
  | attached (stmts : List Statement)
  /-- Set the actor. -/
  | saved (previous : AuditState) (stmts : List Statement)
  /-- Set the reason. -/
  | actorSet (previous : AuditState) (stmts : List Statement)
  /-- Set the session id. -/
  | reasonSet (previous : AuditState) (stmts : List Statement)
  /-- `BEGIN` -/
  | entered (previous : AuditState) (stmts : List Statement)
  /-- The next `INSERT`, up to the `audit_actor()` of its trigger, or `COMMIT`. -/
  | writing (w : Progress)
  /-- `audit_reason()` -/
  | actorRead (w : Progress) (r : CoreRow) (actor : String)
  /-- `audit_session_id()`, and the end of the `INSERT`. -/
  | reasonRead (w : Progress) (r : CoreRow) (actor reason : String)
  /-- Build the receipt. -/
  | committed (previous : AuditState)
  /-- Restore the actor. -/
  | leaving (previous : AuditState) (outcome : Option PyError)
  /-- Restore the reason. -/
  | actorRestored (previous : AuditState) (outcome : Option PyError)
  /-- Restore the session id. -/
  | reasonRestored (previous : AuditState) (outcome : Option PyError)
  /-- Close the session. -/
  | left (outcome : Option PyError)
  /-- Release the writer lock. -/
  | closed (outcome : Option PyError)
  | done (outcome : Option PyError)

namespace WritePc

/-- The call holds the writer lock. -/
def Holds : WritePc → Prop
  | start | waiting | done _ => False
  | _ => True

/-- The call is inside its `_audit_context`. -/
def InSection : WritePc → Prop
  | start | waiting | locked | checked _ | attached _ | left _ | closed _ | done _ => False
  | _ => True

/-- The checks before the lock have passed. -/
def Passed : WritePc → Prop
  | start | done _ => False
  | _ => True

omit [Platform] in
theorem InSection.holds {pc : WritePc} (h : pc.InSection) : pc.Holds := by
  cases pc <;> first | exact h | trivial

omit [Platform] in
theorem Holds.passed {pc : WritePc} (h : pc.Holds) : pc.Passed := by
  cases pc <;> first | exact h | trivial

/-- Where an exception in the next statement leads.  The assignments to the shared state
raise nothing; inside a transaction the exception rolls it back. -/
def onFault (e : PyError) : WritePc → Option WritePc
  | start => some (done (some e))
  | locked | checked _ => some (closed (some e))
  | entered previous _ | committed previous => some (leaving previous (some e))
  | writing w | actorRead w _ _ | reasonRead w _ _ _ => some (leaving w.previous (some e))
  | left _ => some (closed (some e))
  | _ => none

end WritePc

/-- The calls on one store: the database as it is committed, the shared state, the
holder of the writer lock, and where each call is.  `history` has the audit rows of
each transaction that was committed, and whose it was. -/
structure Writers (ι : Type) where
  db : Database
  audit : AuditState
  lock : Option ι
  pc : ι → WritePc
  history : List (ι × List AuditRow)

variable {ι : Type} [DecidableEq ι]

namespace Writers

omit [Platform] [DecidableEq ι] in
/-- A store that was just opened. -/
def init (db : Database) : Writers ι := ⟨db, {}, none, fun _ => .start, []⟩

omit [Platform] in
/-- A call goes on to another statement. -/
def goto (s : Writers ι) (p : ι) (pc : WritePc) : Writers ι :=
  { s with pc := Function.update s.pc p pc }

omit [Platform] in
/-- A call goes on after an assignment to the shared state. -/
def assign (s : Writers ι) (p : ι) (pc : WritePc) (audit : AuditState) : Writers ι :=
  { s.goto p pc with audit := audit }

/-- The next statement of a call; a call waits while another one holds the lock. -/
def advance (calls : ι → Call) (s : Writers ι) (p : ι) : Option (Writers ι) :=
  let ctx := (calls p).ctx.fields
  match s.pc p with
  | .start =>
    match (calls p).op.before with
    | .ok () => some (s.goto p .waiting)
    | .error e => some (s.goto p (.done (some e)))
  | .waiting => if s.lock = none then some { s.goto p .locked with lock := some p } else none
  | .locked =>
    match (calls p).op.statements s.db.tables with
    | .ok stmts => some (s.goto p (.checked stmts))
    | .error e => some (s.goto p (.closed (some e)))
  | .checked stmts => some (s.goto p (.attached stmts))
  | .attached stmts => some (s.goto p (.saved s.audit stmts))
  | .saved previous stmts =>
    some (s.assign p (.actorSet previous stmts) { s.audit with actor := ctx.actor })
  | .actorSet previous stmts =>
    some (s.assign p (.reasonSet previous stmts) { s.audit with reason := ctx.reason })
  | .reasonSet previous stmts =>
    some (s.assign p (.entered previous stmts) { s.audit with sessionId := ctx.sessionId })
  | .entered previous stmts => some (s.goto p (.writing ⟨previous, 0, stmts, s.db⟩))
  | .writing w =>
    match w.rest with
    | .insert r :: rest =>
      if w.db.tables.Admits r then
        some (s.goto p (.actorRead { w with rest } r s.audit.actor))
      else some (s.goto p (.leaving w.previous
        (some (.constraintError (r.tableName ++ ": constraint failed")))))
    | .result code reference result :: rest =>
      some (s.goto p (.writing { w with
        number := w.number + 1
        rest
        db := { w.db with auditLog := w.db.auditLog ++
          [auditResult (calls p).ctx ((calls p).world.clock w.number) w.db.auditLog code
            reference result] } }))
    | [] =>
      if w.db.tables.ParentsExist then
        some { s.goto p (.committed w.previous) with
          db := w.db
          history := s.history ++ [(p, w.db.auditLog.drop s.db.auditLog.length)] }
      else some (s.goto p (.leaving w.previous
        (some (.constraintError "FOREIGN KEY constraint failed"))))
  | .actorRead w r actor => some (s.goto p (.reasonRead w r actor s.audit.reason))
  | .reasonRead w r actor reason =>
    some (s.goto p (.writing { w with
      number := w.number + 1
      db := {
        tables := w.db.tables.push r
        auditLog := w.db.auditLog ++
          [triggerRow ⟨actor, reason, s.audit.sessionId⟩ ((calls p).world.clock w.number)
            w.db.auditLog r] } }))
  | .committed previous => some (s.goto p (.leaving previous none))
  | .leaving previous outcome =>
    some (s.assign p (.actorRestored previous outcome) { s.audit with actor := previous.actor })
  | .actorRestored previous outcome =>
    some (s.assign p (.reasonRestored previous outcome) { s.audit with reason := previous.reason })
  | .reasonRestored previous outcome =>
    some (s.assign p (.left outcome) { s.audit with sessionId := previous.sessionId })
  | .left outcome => some (s.goto p (.closed outcome))
  | .closed outcome => some { s.goto p (.done outcome) with lock := none }
  | .done _ => none

omit [Platform] in
@[simp] theorem pc_goto_self (s : Writers ι) (p : ι) (pc : WritePc) : (s.goto p pc).pc p = pc :=
  Function.update_self ..

omit [Platform] in
theorem pc_goto_of_ne (s : Writers ι) {p q : ι} (h : q ≠ p) (pc : WritePc) :
    (s.goto p pc).pc q = s.pc q :=
  Function.update_of_ne h ..

end Writers

/-- A step of the store: the next statement of a call, or a fault in it. -/
inductive WriteStep (calls : ι → Call) (s : Writers ι) (p : ι) : Writers ι → Prop
  | advance {s' : Writers ι} (h : s.advance calls p = some s') : WriteStep calls s p s'
  | fault {e : PyError} {pc : WritePc} (h : (s.pc p).onFault e = some pc) :
      WriteStep calls s p (s.goto p pc)

/-- The interleavings of the calls. -/
def WriteInterleaving (calls : ι → Call) : Writers ι → Writers ι → Prop :=
  ReflTransGen fun s s' => ∃ p, WriteStep calls s p s'

/-! ### The invariant -/

omit [Platform] in
/-- The log has grown by rows that a state signs. -/
def AuditState.SignsNew (a : AuditState) (log log' : List AuditRow) : Prop :=
  ∃ new, log' = log ++ new ∧ ∀ row ∈ new, a.Signs row

omit [Platform] in
theorem AuditState.SignsNew.append {a : AuditState} {log log' : List AuditRow}
    (h : a.SignsNew log log') {row : AuditRow} (hrow : a.Signs row) :
    a.SignsNew log (log' ++ [row]) := by
  obtain ⟨new, rfl, hnew⟩ := h
  refine ⟨new ++ [row], by simp, ?_⟩
  intro r hr
  rcases List.mem_append.mp hr with hr | hr
  · exact hnew r hr
  · rwa [List.mem_singleton.mp hr]

/-- A transaction begun on `db` stands where it would stand alone, and its audit rows
carry the context of the call. -/
structure Underway (c : Call) (db : Database) (n : ℕ) (rest : List Statement)
    (working : Database) : Prop where
  alone : ∃ stmts, c.op.statements db.tables = .ok stmts ∧
    executeAll c.ctx c.world.clock 0 stmts db = executeAll c.ctx c.world.clock n rest working
  signed : c.ctx.fields.state.SignsNew db.auditLog working.auditLog

/-- The row of an `INSERT`, and that of its trigger, which has read the context of the call. -/
theorem Underway.insert {c : Call} {db working : Database} {n : ℕ} {r : CoreRow}
    {rest : List Statement} (h : Underway c db n (.insert r :: rest) working)
    (hadmits : working.tables.Admits r) :
    Underway c db (n + 1) rest
      { tables := working.tables.push r
        auditLog := working.auditLog ++
          [triggerRow c.ctx.fields.state (c.world.clock n) working.auditLog r] } := by
  refine ⟨?_, h.signed.append ⟨rfl, rfl, rfl⟩⟩
  obtain ⟨stmts, hstmts, halone⟩ := h.alone
  refine ⟨stmts, hstmts, ?_⟩
  rw [halone, executeAll, execute, if_pos hadmits, ok_bind, triggerRow_state]
  rfl

/-- The row of a legislative result. -/
theorem Underway.result {c : Call} {db working : Database} {n : ℕ} {code reference : String}
    {result : LegislativeValidationResult} {rest : List Statement}
    (h : Underway c db n (.result code reference result :: rest) working) :
    Underway c db (n + 1) rest
      { working with auditLog := working.auditLog ++
          [auditResult c.ctx (c.world.clock n) working.auditLog code reference result] } :=
  ⟨h.alone, h.signed.append ⟨rfl, rfl, rfl⟩⟩

/-- What the holder of the lock has set, read and written.  The state it has saved is the
initial one. -/
def Holder (c : Call) (db : Database) (audit : AuditState) : WritePc → Prop
  | .start | .waiting | .done _ => True
  | .locked | .left _ | .closed _ => audit = {}
  | .checked stmts | .attached stmts => audit = {} ∧ c.op.statements db.tables = .ok stmts
  | .saved previous stmts =>
    previous = {} ∧ audit = {} ∧ c.op.statements db.tables = .ok stmts
  | .actorSet previous stmts =>
    previous = {} ∧ audit = { actor := c.ctx.fields.actor } ∧
      c.op.statements db.tables = .ok stmts
  | .reasonSet previous stmts =>
    previous = {} ∧ audit = { actor := c.ctx.fields.actor, reason := c.ctx.fields.reason } ∧
      c.op.statements db.tables = .ok stmts
  | .entered previous stmts =>
    previous = {} ∧ audit = c.ctx.fields.state ∧ c.op.statements db.tables = .ok stmts
  | .writing w =>
    w.previous = {} ∧ audit = c.ctx.fields.state ∧ Underway c db w.number w.rest w.db
  | .actorRead w r actor =>
    w.previous = {} ∧ audit = c.ctx.fields.state ∧
      Underway c db w.number (.insert r :: w.rest) w.db ∧ w.db.tables.Admits r ∧
      actor = c.ctx.fields.actor
  | .reasonRead w r actor reason =>
    w.previous = {} ∧ audit = c.ctx.fields.state ∧
      Underway c db w.number (.insert r :: w.rest) w.db ∧ w.db.tables.Admits r ∧
      actor = c.ctx.fields.actor ∧ reason = c.ctx.fields.reason
  | .committed previous | .leaving previous _ => previous = {} ∧ audit = c.ctx.fields.state
  | .actorRestored previous _ =>
    previous = {} ∧
      audit = { reason := c.ctx.fields.reason, sessionId := c.ctx.fields.sessionId }
  | .reasonRestored previous _ => previous = {} ∧ audit = { sessionId := c.ctx.fields.sessionId }

/-- Outside its `_audit_context` the holder of the lock has the state as it was. -/
theorem Holder.initial {c : Call} {db : Database} {audit : AuditState} {pc : WritePc}
    (h : Holder c db audit pc) (hholds : pc.Holds) (hout : ¬ pc.InSection) : audit = {} := by
  cases pc <;> first | exact absurd trivial hout | exact absurd hholds id | exact h | exact h.1

namespace Writers

/-- What holds of a store among any calls. -/
structure Sound (calls : ι → Call) (db₀ : Database) (s : Writers ι) : Prop where
  lock : ∀ p, s.lock = some p ↔ (s.pc p).Holds
  free : s.lock = none → s.audit = {}
  holder : ∀ p, s.lock = some p → Holder (calls p) s.db s.audit (s.pc p)
  passed : ∀ p, (s.pc p).Passed → (calls p).op.before = .ok ()
  log : s.db.auditLog = db₀.auditLog ++ s.history.flatMap Prod.snd
  signed : ∀ p rows, (p, rows) ∈ s.history → ∀ row ∈ rows, (calls p).ctx.fields.state.Signs row
  serial : ReflTransGen StoreStep db₀ s.db

namespace Sound

variable {calls : ι → Call} {db₀ : Database} {s s' : Writers ι} {p : ι} {pc : WritePc}

omit [DecidableEq ι] in
theorem init (calls : ι → Call) (db₀ : Database) : (Writers.init db₀ : Writers ι).Sound calls db₀ where
  lock p := by simp [Writers.init, WritePc.Holds]
  free _ := rfl
  holder p h := by cases h
  passed p h := h.elim
  log := by simp [Writers.init]
  signed p rows h := by simp [Writers.init] at h
  serial := .refl

/-- Where the call that moves has not passed its checks before, it must have now. -/
theorem passed_goto (h : s.Sound calls db₀) (hpassed : pc.Passed → (calls p).op.before = .ok ()) :
    ∀ q, ((s.goto p pc).pc q).Passed → (calls q).op.before = .ok () := by
  intro q hq
  by_cases hqp : q = p
  · subst hqp
    rw [pc_goto_self] at hq
    exact hpassed hq
  · rw [pc_goto_of_ne s hqp] at hq
    exact h.passed q hq

omit [DecidableEq ι] in
/-- A call at a statement under the lock holds it. -/
theorem held (h : s.Sound calls db₀) (hpc : s.pc p = pc) (hholds : pc.Holds) :
    s.lock = some p ∧ Holder (calls p) s.db s.audit pc := by
  subst hpc
  have hlock := (h.lock p).mpr hholds
  exact ⟨hlock, h.holder p hlock⟩

/-- A call that does not hold the lock moves on without it. -/
theorem outside (h : s.Sound calls db₀) (hpc : ¬ (s.pc p).Holds) (hpc' : ¬ pc.Holds)
    (hpassed : pc.Passed → (calls p).op.before = .ok ()) : (s.goto p pc).Sound calls db₀ :=
  { h with
    lock := fun q => by
      by_cases hqp : q = p
      · subst hqp
        rw [pc_goto_self]
        exact iff_of_false (fun hq => hpc ((h.lock q).mp hq)) hpc'
      · rw [pc_goto_of_ne s hqp]
        exact h.lock q
    holder := fun q hq => by
      have hqp : q ≠ p := by
        rintro rfl
        exact hpc ((h.lock q).mp hq)
      rw [pc_goto_of_ne s hqp]
      exact h.holder q hq
    passed := h.passed_goto hpassed }

/-- The holder of the lock moves on, with the lock. -/
theorem inside {audit : AuditState} (h : s.Sound calls db₀) (hlock : s.lock = some p)
    (hpc : pc.Holds) (hholder : Holder (calls p) s.db audit pc) :
    (s.assign p pc audit).Sound calls db₀ :=
  { h with
    lock := fun q => by
      by_cases hqp : q = p
      · subst hqp
        refine iff_of_true hlock ?_
        rwa [assign, pc_goto_self]
      · change s.lock = some q ↔ ((s.goto p pc).pc q).Holds
        rw [pc_goto_of_ne s hqp]
        exact h.lock q
    free := fun hnone => by
      have hnone : s.lock = none := hnone
      rw [hlock] at hnone
      cases hnone
    holder := fun q hq => by
      obtain rfl : p = q := Option.some.inj (hlock.symm.trans hq)
      change Holder (calls p) s.db audit ((s.goto p pc).pc p)
      rw [pc_goto_self]
      exact hholder
    passed := h.passed_goto fun _ => h.passed p ((h.lock p).mp hlock).passed }

/-- A call takes the lock, which nobody holds. -/
theorem acquire (h : s.Sound calls db₀) (hfree : s.lock = none) (hpc : s.pc p = .waiting) :
    ({ s.goto p .locked with lock := some p } : Writers ι).Sound calls db₀ :=
  { h with
    lock := fun q => by
      by_cases hqp : q = p
      · subst hqp
        exact iff_of_true rfl (by simp [WritePc.Holds])
      · change some p = some q ↔ ((s.goto p .locked).pc q).Holds
        rw [pc_goto_of_ne s hqp]
        refine iff_of_false (fun hq => hqp (Option.some.inj hq).symm) ?_
        intro hq
        have := (h.lock q).mpr hq
        rw [hfree] at this
        cases this
    free := fun hnone => by cases hnone
    holder := fun q hq => by
      obtain rfl : p = q := Option.some.inj hq
      change Holder (calls p) s.db s.audit ((s.goto p .locked).pc p)
      rw [pc_goto_self]
      exact h.free hfree
    passed := h.passed_goto fun _ => h.passed p (hpc ▸ trivial) }

/-- The holder releases the lock. -/
theorem release (h : s.Sound calls db₀) (hlock : s.lock = some p) (haudit : s.audit = {})
    (outcome : Option PyError) :
    ({ s.goto p (.done outcome) with lock := none } : Writers ι).Sound calls db₀ :=
  { h with
    lock := fun q => by
      refine iff_of_false (by simp) ?_
      intro hq
      by_cases hqp : q = p
      · subst hqp
        simp [WritePc.Holds] at hq
      · change ((s.goto p _).pc q).Holds at hq
        rw [pc_goto_of_ne s hqp, ← h.lock q, hlock] at hq
        exact hqp (Option.some.inj hq).symm
    free := fun _ => haudit
    holder := fun q hq => by cases hq
    passed := h.passed_goto fun hdone => hdone.elim }

/-- The holder commits its transaction. -/
theorem commit (h : s.Sound calls db₀) (hlock : s.lock = some p) {w : Progress}
    (hpc : s.pc p = .writing w) (hrest : w.rest = []) (hparents : w.db.tables.ParentsExist) :
    ({ s.goto p (.committed w.previous) with
        db := w.db
        history := s.history ++ [(p, w.db.auditLog.drop s.db.auditLog.length)] } :
      Writers ι).Sound calls db₀ := by
  have hholder := h.holder p hlock
  rw [hpc] at hholder
  obtain ⟨hprevious, haudit, ⟨stmts, hstmts, halone⟩, new, hnew, hsigns⟩ := hholder
  have hdrop : w.db.auditLog.drop s.db.auditLog.length = new := by
    rw [hnew, List.drop_left]
  rw [hrest, executeAll] at halone
  obtain ⟨receipt, hrun⟩ := Call.run_of_statements (h.passed p (hpc ▸ trivial)) hstmts halone
    hparents
  have hholds : (WritePc.committed w.previous).Holds := trivial
  have hmoved : (s.assign p (.committed w.previous) s.audit).Sound calls db₀ :=
    h.inside hlock hholds ⟨hprevious, haudit⟩
  refine ⟨hmoved.lock, hmoved.free, ?_, hmoved.passed, ?_, ?_, ?_⟩
  · intro q hq
    obtain rfl : p = q := Option.some.inj (hlock.symm.trans hq)
    change Holder (calls p) w.db s.audit ((s.goto p (.committed w.previous)).pc p)
    rw [pc_goto_self]
    exact ⟨hprevious, haudit⟩
  · change w.db.auditLog = _ ++ (s.history ++ [(p, w.db.auditLog.drop s.db.auditLog.length)]).flatMap _
    rw [hdrop, hnew, h.log, List.flatMap_append, List.append_assoc]
    simp
  · intro q rows hmem
    rcases List.mem_append.mp hmem with hold | hlast
    · exact h.signed q rows hold
    · obtain ⟨rfl, rfl⟩ := Prod.mk.inj (List.mem_singleton.mp hlast)
      rw [hdrop]
      exact hsigns
  · refine h.serial.tail ⟨⟨(calls p).op, (calls p).ctx, { clock := (calls p).world.clock }⟩, ?_⟩
    rw [Call.after, hrun]

/-- The holder goes on to another statement. -/
theorem onward (h : s.Sound calls db₀) (hlock : s.lock = some p) (hpc : pc.Holds)
    (hholder : Holder (calls p) s.db s.audit pc) : (s.goto p pc).Sound calls db₀ :=
  h.inside hlock hpc hholder

/-- The next statement of an open transaction. -/
theorem writing (h : s.Sound calls db₀) {w : Progress} (hpc : s.pc p = .writing w)
    (hstep : s.advance calls p = some s') : s'.Sound calls db₀ := by
  obtain ⟨hlock, hprevious, haudit, hunder⟩ := h.held hpc trivial
  simp only [Writers.advance, hpc] at hstep
  split at hstep
  · next r rest hrest =>
    rw [hrest] at hunder
    split at hstep
    · next hadmits =>
      cases hstep
      refine h.onward hlock trivial ⟨hprevious, haudit, hunder, hadmits, ?_⟩
      rw [haudit]
      rfl
    · cases hstep
      exact h.onward hlock trivial ⟨hprevious, haudit⟩
  · next code reference result rest hrest =>
    rw [hrest] at hunder
    cases hstep
    exact h.onward hlock trivial ⟨hprevious, haudit, hunder.result⟩
  · next hrest =>
    split at hstep
    · next hparents =>
      cases hstep
      exact h.commit hlock hpc hrest hparents
    · cases hstep
      exact h.onward hlock trivial ⟨hprevious, haudit⟩

/-- One statement of a call; one case for each. -/
theorem advance (h : s.Sound calls db₀) (hstep : s.advance calls p = some s') :
    s'.Sound calls db₀ := by
  cases hpc : s.pc p with
  | start =>
    simp only [Writers.advance, hpc] at hstep
    have hout : ¬ (s.pc p).Holds := by
      rw [hpc]
      exact id
    split at hstep
    · next hbefore =>
      cases hstep
      exact h.outside hout id fun _ => hbefore
    · cases hstep
      exact h.outside hout id fun hdone => hdone.elim
  | waiting =>
    simp only [Writers.advance, hpc] at hstep
    split at hstep
    · next hfree =>
      cases hstep
      exact h.acquire hfree hpc
    · cases hstep
  | locked =>
    obtain ⟨hlock, hinitial⟩ := h.held hpc trivial
    simp only [Writers.advance, hpc] at hstep
    split at hstep
    · next stmts hstmts =>
      cases hstep
      exact h.onward hlock trivial ⟨hinitial, hstmts⟩
    · cases hstep
      exact h.onward hlock trivial hinitial
  | checked stmts =>
    obtain ⟨hlock, hholder⟩ := h.held hpc trivial
    simp only [Writers.advance, hpc] at hstep
    cases hstep
    exact h.onward hlock trivial hholder
  | attached stmts =>
    obtain ⟨hlock, hinitial, hstmts⟩ := h.held hpc trivial
    simp only [Writers.advance, hpc] at hstep
    cases hstep
    exact h.onward hlock trivial ⟨hinitial, hinitial, hstmts⟩
  | saved previous stmts =>
    obtain ⟨hlock, hprevious, hinitial, hstmts⟩ := h.held hpc trivial
    simp only [Writers.advance, hpc] at hstep
    cases hstep
    refine h.inside hlock trivial ⟨hprevious, ?_, hstmts⟩
    rw [hinitial]
  | actorSet previous stmts =>
    obtain ⟨hlock, hprevious, hactor, hstmts⟩ := h.held hpc trivial
    simp only [Writers.advance, hpc] at hstep
    cases hstep
    refine h.inside hlock trivial ⟨hprevious, ?_, hstmts⟩
    rw [hactor]
  | reasonSet previous stmts =>
    obtain ⟨hlock, hprevious, hreason, hstmts⟩ := h.held hpc trivial
    simp only [Writers.advance, hpc] at hstep
    cases hstep
    refine h.inside hlock trivial ⟨hprevious, ?_, hstmts⟩
    rw [hreason]
    rfl
  | entered previous stmts =>
    obtain ⟨hlock, hprevious, haudit, hstmts⟩ := h.held hpc trivial
    simp only [Writers.advance, hpc] at hstep
    cases hstep
    exact h.onward hlock trivial ⟨hprevious, haudit, ⟨stmts, hstmts, rfl⟩, [], by simp, by simp⟩
  | writing w => exact h.writing hpc hstep
  | actorRead w r actor =>
    obtain ⟨hlock, hprevious, haudit, hunder, hadmits, hactor⟩ := h.held hpc trivial
    simp only [Writers.advance, hpc] at hstep
    cases hstep
    refine h.onward hlock trivial ⟨hprevious, haudit, hunder, hadmits, hactor, ?_⟩
    rw [haudit]
    rfl
  | reasonRead w r actor reason =>
    obtain ⟨hlock, hprevious, haudit, hunder, hadmits, rfl, rfl⟩ := h.held hpc trivial
    simp only [Writers.advance, hpc] at hstep
    cases hstep
    have hstate : (⟨(calls p).ctx.fields.actor, (calls p).ctx.fields.reason,
        s.audit.sessionId⟩ : AuditState) = (calls p).ctx.fields.state := by
      rw [haudit]
      rfl
    rw [hstate]
    exact h.onward hlock trivial ⟨hprevious, haudit, hunder.insert hadmits⟩
  | committed previous =>
    obtain ⟨hlock, hholder⟩ := h.held hpc trivial
    simp only [Writers.advance, hpc] at hstep
    cases hstep
    exact h.onward hlock trivial hholder
  | leaving previous outcome =>
    obtain ⟨hlock, hprevious, haudit⟩ := h.held hpc trivial
    simp only [Writers.advance, hpc] at hstep
    cases hstep
    refine h.inside hlock trivial ⟨hprevious, ?_⟩
    rw [haudit, hprevious]
    rfl
  | actorRestored previous outcome =>
    obtain ⟨hlock, hprevious, haudit⟩ := h.held hpc trivial
    simp only [Writers.advance, hpc] at hstep
    cases hstep
    refine h.inside hlock trivial ⟨hprevious, ?_⟩
    rw [haudit, hprevious]
  | reasonRestored previous outcome =>
    obtain ⟨hlock, hprevious, haudit⟩ := h.held hpc trivial
    simp only [Writers.advance, hpc] at hstep
    cases hstep
    refine h.inside hlock trivial ?_
    rw [hprevious, haudit]
    rfl
  | left outcome =>
    obtain ⟨hlock, hholder⟩ := h.held hpc trivial
    simp only [Writers.advance, hpc] at hstep
    cases hstep
    exact h.onward hlock trivial hholder
  | closed outcome =>
    obtain ⟨hlock, hinitial⟩ := h.held hpc trivial
    simp only [Writers.advance, hpc] at hstep
    cases hstep
    exact h.release hlock hinitial outcome
  | done outcome =>
    simp only [Writers.advance, hpc] at hstep
    cases hstep

/-- A fault in a statement of a call. -/
theorem fault {e : PyError} (h : s.Sound calls db₀) (hfault : (s.pc p).onFault e = some pc) :
    (s.goto p pc).Sound calls db₀ := by
  cases hpc : s.pc p with
  | start =>
    rw [hpc] at hfault
    cases hfault
    have hout : ¬ (s.pc p).Holds := by
      rw [hpc]
      exact id
    exact h.outside hout id fun hdone => hdone.elim
  | locked =>
    obtain ⟨hlock, hinitial⟩ := h.held hpc trivial
    rw [hpc] at hfault
    cases hfault
    exact h.onward hlock trivial hinitial
  | checked stmts =>
    obtain ⟨hlock, hinitial, -⟩ := h.held hpc trivial
    rw [hpc] at hfault
    cases hfault
    exact h.onward hlock trivial hinitial
  | entered previous stmts =>
    obtain ⟨hlock, hprevious, haudit, -⟩ := h.held hpc trivial
    rw [hpc] at hfault
    cases hfault
    exact h.onward hlock trivial ⟨hprevious, haudit⟩
  | writing w =>
    obtain ⟨hlock, hprevious, haudit, -⟩ := h.held hpc trivial
    rw [hpc] at hfault
    cases hfault
    exact h.onward hlock trivial ⟨hprevious, haudit⟩
  | actorRead w r actor =>
    obtain ⟨hlock, hprevious, haudit, -⟩ := h.held hpc trivial
    rw [hpc] at hfault
    cases hfault
    exact h.onward hlock trivial ⟨hprevious, haudit⟩
  | reasonRead w r actor reason =>
    obtain ⟨hlock, hprevious, haudit, -⟩ := h.held hpc trivial
    rw [hpc] at hfault
    cases hfault
    exact h.onward hlock trivial ⟨hprevious, haudit⟩
  | committed previous =>
    obtain ⟨hlock, hholder⟩ := h.held hpc trivial
    rw [hpc] at hfault
    cases hfault
    exact h.onward hlock trivial hholder
  | left outcome =>
    obtain ⟨hlock, hinitial⟩ := h.held hpc trivial
    rw [hpc] at hfault
    cases hfault
    exact h.onward hlock trivial hinitial
  | waiting => simp [hpc, WritePc.onFault] at hfault
  | attached stmts => simp [hpc, WritePc.onFault] at hfault
  | saved previous stmts => simp [hpc, WritePc.onFault] at hfault
  | actorSet previous stmts => simp [hpc, WritePc.onFault] at hfault
  | reasonSet previous stmts => simp [hpc, WritePc.onFault] at hfault
  | leaving previous outcome => simp [hpc, WritePc.onFault] at hfault
  | actorRestored previous outcome => simp [hpc, WritePc.onFault] at hfault
  | reasonRestored previous outcome => simp [hpc, WritePc.onFault] at hfault
  | closed outcome => simp [hpc, WritePc.onFault] at hfault
  | done outcome => simp [hpc, WritePc.onFault] at hfault

omit [DecidableEq ι] in
/-- Where nobody is inside an `_audit_context` the state is the initial one. -/
theorem initial (h : s.Sound calls db₀) (hnone : ∀ p, ¬ (s.pc p).InSection) : s.audit = {} := by
  cases hlock : s.lock with
  | none => exact h.free hlock
  | some p => exact (h.holder p hlock).initial ((h.lock p).mp hlock) (hnone p)

end Sound

end Writers

section

variable {calls : ι → Call} {db₀ : Database} {s : Writers ι}

/-- Every store, among any calls. -/
theorem Writers.sound_of_interleaving (hrun : WriteInterleaving calls (Writers.init db₀) s) :
    s.Sound calls db₀ := by
  refine invariant_of_step hrun (.init calls db₀) ?_
  rintro s s' hs ⟨p, hstep⟩
  cases hstep with
  | advance h => exact hs.advance h
  | fault h => exact hs.fault h

/-- What is committed is what some calls one after the other write. -/
theorem serial_of_interleaving (hrun : WriteInterleaving calls (Writers.init db₀) s) :
    ReflTransGen StoreStep db₀ s.db :=
  (Writers.sound_of_interleaving hrun).serial

/-- The transaction a call is in. -/
def WritePc.transaction? : WritePc → Option Progress
  | writing w | actorRead w _ _ | reasonRead w _ _ _ => some w
  | _ => none

/-- **Every audit row carries the context of the call that wrote it**: the rows that
were committed, by whom the history says, and the rows of a transaction that is still
open.  And while no call is inside its `_audit_context` the shared state is the initial
one. -/
theorem signed_of_interleaving (hrun : WriteInterleaving calls (Writers.init db₀) s) :
    s.db.auditLog = db₀.auditLog ++ s.history.flatMap Prod.snd ∧
    (∀ p rows, (p, rows) ∈ s.history →
      ∀ row ∈ rows, (calls p).ctx.fields.state.Signs row) ∧
    (∀ p w, (s.pc p).transaction? = some w →
      (calls p).ctx.fields.state.SignsNew s.db.auditLog w.db.auditLog) ∧
    ((∀ p, ¬ (s.pc p).InSection) → s.audit = {}) := by
  have hsound := Writers.sound_of_interleaving hrun
  refine ⟨hsound.log, hsound.signed, ?_, hsound.initial⟩
  intro p w hw
  cases hpc : s.pc p with
  | writing w' =>
    obtain ⟨-, -, -, hunder⟩ := hsound.held hpc trivial
    rw [hpc] at hw
    cases hw
    exact hunder.signed
  | actorRead w' r actor =>
    obtain ⟨-, -, -, hunder, -⟩ := hsound.held hpc trivial
    rw [hpc] at hw
    cases hw
    exact hunder.signed
  | reasonRead w' r actor reason =>
    obtain ⟨-, -, -, hunder, -⟩ := hsound.held hpc trivial
    rw [hpc] at hw
    cases hw
    exact hunder.signed
  | _ => simp [hpc, WritePc.transaction?] at hw

/-! ### Schedules -/

/-- Execute statements of the calls in the given order. -/
def Writers.runSchedule (calls : ι → Call) : List ι → Writers ι → Option (Writers ι)
  | [], s => some s
  | p :: schedule, s => (s.advance calls p).bind (runSchedule calls schedule)

theorem Writers.interleaving_of_runSchedule {schedule : List ι} {s' : Writers ι}
    (h : runSchedule calls schedule s = some s') : WriteInterleaving calls s s' := by
  induction schedule generalizing s with
  | nil =>
    cases h
    exact .refl
  | cons p schedule ih =>
    obtain ⟨s₁, hadvance, h⟩ := Option.bind_eq_some_iff.mp h
    exact .head ⟨p, .advance hadvance⟩ (ih h)

end

end

/-! ### Evaluated -/

namespace Reference

/-- Another person. -/
def clerk : AuditContext :=
  ⟨⟨"clerk", "review", some "S1"⟩, ⟨"clerk", "review", some "S1"⟩, by rfl⟩

/-- The auditor creates a book, and the clerk records a legislative result. -/
def twoWriters : Bool → Call
  | false => ⟨.createBook emptyBook, auditor, {}⟩
  | true => ⟨.appendLegislativeResult "BK" "T1" ⟨"LV", []⟩, clerk, {}⟩

/-- The clerk passes the checks first, and gets the lock second. -/
def clerkWaits : List Bool := [true] ++ List.replicate 22 false ++ List.replicate 16 true

theorem signed_twoWriters : ∃ s : Writers Bool,
    s.history.map (fun h => (h.1, h.2.length)) = [(false, 2), (true, 1)] ∧ s.audit = {} ∧
    ∀ p rows, (p, rows) ∈ s.history →
      ∀ row ∈ rows, (twoWriters p).ctx.fields.state.Signs row := by
  have hend : (Writers.runSchedule twoWriters clerkWaits (Writers.init {})).map
      (fun s => (s.history.map (fun h => (h.1, h.2.length)), s.pc false, s.pc true)) =
      some ([(false, 2), (true, 1)], .done none, .done none) := by rfl
  obtain ⟨s, hs, hresult⟩ := Option.map_eq_some_iff.mp hend
  obtain ⟨hhistory, hpcs⟩ := Prod.mk.inj hresult
  obtain ⟨hfirst, hsecond⟩ := Prod.mk.inj hpcs
  obtain ⟨-, hsigned, -, hinitial⟩ :=
    signed_of_interleaving (Writers.interleaving_of_runSchedule hs)
  refine ⟨s, hhistory, hinitial ?_, hsigned⟩
  intro p
  cases p
  · rw [hfirst]
    exact id
  · rw [hsecond]
    exact id

end Reference

end FinestVX
