import FinestVX.Persistence.Readable
import FinestVX.Persistence.Snapshot
import Mathlib.Data.List.ReduceOption

/-!
# The writer queue

`LedgerRuntime` hands all writes to one thread over a queue.  A call puts a command with
a future on the queue, under a read lock, and waits for the future; the writer takes the
commands one by one and resolves their futures; closing sets a flag, puts a sentinel on
the queue, joins the writer and closes the store, under the write lock.  Waits have
timeouts, so a caller may leave its command behind, and the store may be closed while the
writer still works.

## Main definitions

* `RuntimeCommand`, `dispatchCommand` — a command, and what the writer does for it.
* `CallPhase`, `ClosePhase`, `WriterPhase`, `RuntimeState` — where every thread is, and
  what they share.
* `RuntimeStep` — the steps of all threads, with their events.
* `Consistent` — the invariant.
* `SingleWriter` — what the queue is for.

## Main results

* `Consistent.of_run` — the invariant holds in every run.
* `singleWriter_of_run` — **commands are dispatched once and in order, none is lost at
  shutdown, and every caller gets the receipt of its own command.**
* `store_run_of_run` — the runtime refines the store: its ledger is reached by calls.
-/

namespace FinestVX

open Except Relation

section

variable [Platform]

/-! ### Commands -/

/-- A command of the queue. -/
inductive RuntimeCommand
  | createBook (book : Book) (ctx : AuditContext)
  | appendTransaction (code : String) (t : JournalTransaction) (ctx : AuditContext)
  | appendLegislativeResult (code reference : String) (result : LegislativeValidationResult)
      (ctx : AuditContext)
  | createReversal (code originalRef reversalRef : String) (ctx : AuditContext)
  | createSnapshot (outputPath : Path) (compress : Bool)

/-- What a call returns. -/
inductive Receipt
  | write (receipt : StoreWriteReceipt)
  | snapshot (s : DatabaseSnapshot)

/-- What the environment does during one dispatch. -/
structure Surroundings where
  world : World
  snapshotWorld : SnapshotWorld
  files : Files

/-- What a use of a closed connection raises. -/
def connectionClosed : PyError := .fault "The connection has been closed"

/-- The surroundings of a dispatch on a store that is open or closed. -/
def Surroundings.on (env : Surroundings) (storeOpen : Bool) : Surroundings :=
  if storeOpen then env
  else
    { env with
      world := { env.world with
        selectFault := some connectionClosed, beginFault := some connectionClosed }
      snapshotWorld := { env.snapshotWorld with
        walCheckpoint := .error connectionClosed, checkpointMade := false } }

/-- A store operation as the future sees it. -/
def resolvingWith (outcome : Except PyError StoreWriteReceipt × Database) :
    Except PyError Receipt × Database :=
  (outcome.1.map .write, outcome.2)

/-- `_dispatch_command`: what the future is resolved with, a receipt or an exception, and
the database after it.  A snapshot only reads the database. -/
def dispatchCommand (env : Surroundings) (live : Path) (db : Database) :
    RuntimeCommand → Except PyError Receipt × Database
  | .createBook book ctx => resolvingWith (createBook env.world ctx book db)
  | .appendTransaction code t ctx => resolvingWith (appendTransaction env.world ctx code t db)
  | .appendLegislativeResult code ref result ctx =>
    resolvingWith (appendLegislativeResult env.world ctx code ref result db)
  | .createReversal code o r ctx => resolvingWith (appendReversal env.world ctx code o r db)
  | .createSnapshot outputPath compress =>
    (((createSnapshot env.snapshotWorld live outputPath compress).run env.files).1.map .snapshot,
      db)

/-- The store operation of a command. -/
def RuntimeCommand.op? : RuntimeCommand → Option (Op × AuditContext)
  | .createBook book ctx => some (.createBook book, ctx)
  | .appendTransaction code t ctx => some (.appendTransaction code t, ctx)
  | .appendLegislativeResult code ref result ctx =>
    some (.appendLegislativeResult code ref result, ctx)
  | .createReversal code o r ctx => some (.appendReversal code o r, ctx)
  | .createSnapshot _ _ => none

/-- The call on the store that a dispatch makes. -/
def RuntimeCommand.calls (w : World) (c : RuntimeCommand) : List Call :=
  (c.op?.map fun oc => ⟨oc.1, oc.2, w⟩).toList

/-- A dispatch changes the database by the call it makes on the store. -/
theorem dispatchCommand_snd (env : Surroundings) (live : Path) (db : Database)
    (c : RuntimeCommand) :
    (dispatchCommand env live db c).2 = Call.afterAll (c.calls env.world) db := by
  cases c with
  | createBook book ctx => rfl
  | appendTransaction code t ctx => rfl
  | appendLegislativeResult code ref result ctx => rfl
  | createReversal code o r ctx => rfl
  | createSnapshot outputPath compress => rfl

omit [Platform] in
/-- A write whose transaction cannot begin raises. -/
theorem orRaise_of_beginFault {α : Type} {w : World} {e : PyError} (h : w.beginFault = some e)
    (checks : Except PyError α) (operation : α → Database → Except PyError Database)
    (receipt : α → StoreWriteReceipt) (db : Database) :
    ∃ e, orRaise checks db (fun a => executeWrite w (operation a) (receipt a) db) =
      (.error e, db) := by
  cases checks with
  | error e => exact ⟨e, rfl⟩
  | ok a =>
    refine ⟨e, ?_⟩
    rw [orRaise, executeWrite, withConnection, runTransaction, h]
    rfl

/-- **A closed store** gives no receipt and changes nothing. -/
theorem dispatchCommand_closed (env : Surroundings) (live : Path) (db : Database)
    (c : RuntimeCommand) : ∃ e, dispatchCommand (env.on false) live db c = (.error e, db) := by
  have hbegin : (env.on false).world.beginFault = some connectionClosed := rfl
  have hwrite : ∀ {x : Except PyError StoreWriteReceipt × Database},
      (∃ e, x = (.error e, db)) → ∃ e, resolvingWith x = (.error e, db) := by
    rintro _ ⟨e, rfl⟩
    exact ⟨e, rfl⟩
  cases c with
  | createBook book ctx => exact hwrite (orRaise_of_beginFault hbegin _ _ _ db)
  | appendTransaction code t ctx => exact hwrite (orRaise_of_beginFault hbegin _ _ _ db)
  | appendLegislativeResult code ref result ctx =>
    exact hwrite (orRaise_of_beginFault hbegin (.ok ()) (fun _ => _) (fun _ => _) db)
  | createReversal code o r ctx => exact hwrite (orRaise_of_beginFault hbegin _ _ _ db)
  | createSnapshot outputPath compress =>
    cases hmkdir : env.snapshotWorld.mkdir with
    | error e =>
      refine ⟨e, ?_⟩
      rw [dispatchCommand, createSnapshot, Procedure.run_bind_of_error (e := e)]
      · rfl
      · exact congrArg (·, env.files) hmkdir
    | ok _ =>
      refine ⟨connectionClosed, ?_⟩
      rw [dispatchCommand, createSnapshot, Procedure.run_bind_of_ok (a := ()) (t := env.files)]
      · rfl
      · exact congrArg (·, env.files) hmkdir

/-! ### The threads -/

/-- A command on the queue; its future is known by the call that made it. -/
structure QueuedCommand (ι : Type) where
  command : RuntimeCommand
  future : ι

/-- Where a call of the runtime is. -/
inductive CallPhase
  | notCalled
  /-- Waiting for the read lock. -/
  | acquiring (c : RuntimeCommand)
  /-- With the read lock, about to put the command on the queue. -/
  | submitting (c : RuntimeCommand)
  /-- With the read lock, waiting for the future. -/
  | waiting (c : RuntimeCommand)
  | finished (outcome : Except PyError Receipt)

namespace CallPhase

/-- The call has the read lock. -/
def HoldsRead : CallPhase → Prop
  | submitting _ | waiting _ => True
  | _ => False

/-- The call may have put its command on the queue. -/
def Submitted : CallPhase → Prop
  | waiting _ | finished _ => True
  | _ => False

end CallPhase

/-- Where `close` is. -/
inductive ClosePhase
  | notCalled
  /-- Waiting for the write lock. -/
  | acquiring
  /-- With the write lock, about to set the flag. -/
  | locked
  /-- About to put the sentinel on the queue. -/
  | stopping
  /-- Joining the writer. -/
  | joining
  /-- About to close the store. -/
  | closing
  deriving DecidableEq

/-- The closing thread has the write lock. -/
def ClosePhase.HoldsWrite : ClosePhase → Prop
  | locked | stopping | joining | closing => True
  | _ => False

/-- Where the writer is. -/
inductive WriterPhase (ι : Type)
  /-- About to ask whether the flag is set. -/
  | testingStop
  /-- The flag was set; about to ask whether the queue is empty. -/
  | testingEmpty
  /-- In `get`. -/
  | getting
  /-- About to execute the store operation of a command. -/
  | dispatching (q : QueuedCommand ι)
  /-- About to resolve a future. -/
  | resolving (future : ι) (outcome : Except PyError Receipt)
  | exited

/-- The command the writer has taken from the queue and not yet executed. -/
def WriterPhase.held {ι : Type} : WriterPhase ι → List (QueuedCommand ι)
  | dispatching q => [q]
  | _ => []

/-- A runtime and the threads that use it. -/
structure RuntimeState (ι : Type) where
  databasePath : Path
  db : Database
  storeOpen : Bool := true
  started : Bool := true
  stopEvent : Bool := false
  /-- `None` is the sentinel. -/
  queue : List (Option (QueuedCommand ι)) := []
  futures : ι → Option (Except PyError Receipt) := fun _ => none
  calls : ι → CallPhase := fun _ => .notCalled
  closer : ClosePhase := .notCalled
  writer : WriterPhase ι := .testingStop

/-- What a step does that others can tell. -/
inductive Event (ι : Type)
  | put (q : QueuedCommand ι)
  | stop
  | dispatch (q : QueuedCommand ι) (env : Surroundings)
  | exit
  | receive (i : ι) (outcome : Except PyError Receipt)
  | internal

variable {ι : Type} [DecidableEq ι]

namespace RuntimeState

/-- A call moves on. -/
def goto (s : RuntimeState ι) (i : ι) (phase : CallPhase) : RuntimeState ι :=
  { s with calls := Function.update s.calls i phase }

/-- Put an item on the queue. -/
def enqueue (s : RuntimeState ι) (item : Option (QueuedCommand ι)) : RuntimeState ι :=
  { s with queue := s.queue ++ [item] }

/-- Resolve a future. -/
def resolve (s : RuntimeState ι) (i : ι) (outcome : Except PyError Receipt) : RuntimeState ι :=
  { s with futures := Function.update s.futures i (some outcome) }

@[simp] theorem calls_goto_self (s : RuntimeState ι) (i : ι) (phase : CallPhase) :
    (s.goto i phase).calls i = phase :=
  Function.update_self ..

theorem calls_goto_of_ne (s : RuntimeState ι) {i j : ι} (h : j ≠ i) (phase : CallPhase) :
    (s.goto i phase).calls j = s.calls j :=
  Function.update_of_ne h ..

@[simp] theorem futures_resolve_self (s : RuntimeState ι) (i : ι)
    (outcome : Except PyError Receipt) : (s.resolve i outcome).futures i = some outcome :=
  Function.update_self ..

theorem futures_resolve_of_ne (s : RuntimeState ι) {i j : ι} (h : j ≠ i)
    (outcome : Except PyError Receipt) : (s.resolve i outcome).futures j = s.futures j :=
  Function.update_of_ne h ..

end RuntimeState

/-- A step of a call: `_submit` under the read lock. -/
inductive CallStep (s : RuntimeState ι) (i : ι) : Event ι → RuntimeState ι → Prop
  | enter (c : RuntimeCommand) (h : s.calls i = .notCalled) :
      CallStep s i .internal (s.goto i (.acquiring c))
  | acquireRead {c : RuntimeCommand} (h : s.calls i = .acquiring c)
      (hfree : ¬ s.closer.HoldsWrite) : CallStep s i .internal (s.goto i (.submitting c))
  | lockTimeout {c : RuntimeCommand} (e : PyError) (h : s.calls i = .acquiring c) :
      CallStep s i .internal (s.goto i (.finished (.error e)))
  | put {c : RuntimeCommand} (h : s.calls i = .submitting c) :
      CallStep s i (.put ⟨c, i⟩) ((s.goto i (.waiting c)).enqueue (some ⟨c, i⟩))
  | receive {c : RuntimeCommand} {outcome : Except PyError Receipt}
      (h : s.calls i = .waiting c) (houtcome : s.futures i = some outcome) :
      CallStep s i (.receive i outcome) (s.goto i (.finished outcome))
  | resultTimeout {c : RuntimeCommand} (e : PyError) (h : s.calls i = .waiting c) :
      CallStep s i .internal (s.goto i (.finished (.error e)))

/-- A step of `close`.  `join` also returns when its timeout is over, and closing the
store may raise, with the writer connection closed or not. -/
inductive CloseStep (s : RuntimeState ι) : Event ι → RuntimeState ι → Prop
  | closeUnstarted (open' : Bool) (h : s.closer = .notCalled) (hstarted : s.started = false) :
      CloseStep s .internal { s with storeOpen := s.storeOpen && open' }
  | enter (h : s.closer = .notCalled) (hstarted : s.started = true) :
      CloseStep s .internal { s with closer := .acquiring }
  | lockTimeout (h : s.closer = .acquiring) :
      CloseStep s .internal { s with closer := .notCalled }
  | acquireWrite (h : s.closer = .acquiring) (hfree : ∀ i, ¬ (s.calls i).HoldsRead) :
      CloseStep s .internal { s with closer := .locked }
  | setStop (h : s.closer = .locked) :
      CloseStep s .stop { s with closer := .stopping, stopEvent := true }
  | putSentinel (h : s.closer = .stopping) :
      CloseStep s .internal { s.enqueue none with closer := .joining }
  | join (h : s.closer = .joining) : CloseStep s .internal { s with closer := .closing }
  | closeStore (h : s.closer = .closing) :
      CloseStep s .internal
        { s with closer := .notCalled, storeOpen := false, started := false }
  | closeStoreRaises (open' : Bool) (h : s.closer = .closing) :
      CloseStep s .internal
        { s with closer := .notCalled, storeOpen := s.storeOpen && open' }

/-- A step of `_writer_loop`.  No other thread writes to the store, so that a store
operation is one step; when the store is closed in the middle of one, its transaction
fails, which is a fault of the surroundings.  A future that is resolved already raises
out of the loop and ends the thread. -/
inductive WriterStep (s : RuntimeState ι) : Event ι → RuntimeState ι → Prop
  | notStopped (h : s.writer = .testingStop) (hstop : s.stopEvent = false) :
      WriterStep s .internal { s with writer := .getting }
  | stopped (h : s.writer = .testingStop) (hstop : s.stopEvent = true) :
      WriterStep s .internal { s with writer := .testingEmpty }
  | nonempty (h : s.writer = .testingEmpty) (hqueue : s.queue ≠ []) :
      WriterStep s .internal { s with writer := .getting }
  | exit (h : s.writer = .testingEmpty) (hqueue : s.queue = []) :
      WriterStep s .exit { s with writer := .exited }
  | pollTimeout (h : s.writer = .getting) (hqueue : s.queue = []) :
      WriterStep s .internal { s with writer := .testingStop }
  | getSentinel {rest : List (Option (QueuedCommand ι))} (h : s.writer = .getting)
      (hqueue : s.queue = none :: rest) :
      WriterStep s .internal { s with writer := .testingStop, queue := rest }
  | getCommand {q : QueuedCommand ι} {rest : List (Option (QueuedCommand ι))}
      (h : s.writer = .getting) (hqueue : s.queue = some q :: rest) :
      WriterStep s .internal { s with writer := .dispatching q, queue := rest }
  | dispatch {q : QueuedCommand ι} (env : Surroundings) (h : s.writer = .dispatching q) :
      WriterStep s (.dispatch q (env.on s.storeOpen))
        { s with
          writer := .resolving q.future
            (dispatchCommand (env.on s.storeOpen) s.databasePath s.db q.command).1
          db := (dispatchCommand (env.on s.storeOpen) s.databasePath s.db q.command).2 }
  | setFuture {i : ι} {outcome : Except PyError Receipt} (h : s.writer = .resolving i outcome)
      (hunset : s.futures i = none) :
      WriterStep s .internal { s.resolve i outcome with writer := .testingStop }
  | invalidState {i : ι} {outcome : Except PyError Receipt} (h : s.writer = .resolving i outcome)
      (hset : s.futures i ≠ none) : WriterStep s .exit { s with writer := .exited }

/-- A step of any thread. -/
inductive RuntimeStep (s : RuntimeState ι) : Event ι → RuntimeState ι → Prop
  | call {i : ι} {e : Event ι} {s' : RuntimeState ι} (h : CallStep s i e s') : RuntimeStep s e s'
  | close {e : Event ι} {s' : RuntimeState ι} (h : CloseStep s e s') : RuntimeStep s e s'
  | writer {e : Event ι} {s' : RuntimeState ι} (h : WriterStep s e s') : RuntimeStep s e s'

/-- The interleavings of the threads of a runtime that is opened on a database. -/
def RuntimeRun (live : Path) (db₀ : Database) : List (Event ι) → RuntimeState ι → Prop :=
  Traced RuntimeStep { databasePath := live, db := db₀ }

/-! ### What a run shows -/

namespace Event

omit [DecidableEq ι]

/-- The command put on the queue. -/
def put? : Event ι → Option (QueuedCommand ι)
  | put q => some q
  | _ => none

/-- The command dispatched. -/
def dispatched? : Event ι → Option (QueuedCommand ι)
  | dispatch q _ => some q
  | _ => none

/-- The call on the store. -/
def storeCalls : Event ι → List Call
  | dispatch q env => q.command.calls env.world
  | _ => []

theorem storeCalls_eq_nil {e : Event ι} (h : e.dispatched? = none) : e.storeCalls = [] := by
  cases e with
  | dispatch q env => cases h
  | put q => rfl
  | stop => rfl
  | exit => rfl
  | receive i outcome => rfl
  | internal => rfl

end Event

section

omit [DecidableEq ι]

/-- The commands put on the queue, in order. -/
def submitted (tr : List (Event ι)) : List (QueuedCommand ι) := tr.filterMap Event.put?

/-- The commands dispatched, in order. -/
def dispatched (tr : List (Event ι)) : List (QueuedCommand ι) := tr.filterMap Event.dispatched?

/-- The calls on the store, in order. -/
def storeCalls (tr : List (Event ι)) : List Call := tr.flatMap Event.storeCalls

theorem submitted_append (tr tr' : List (Event ι)) :
    submitted (tr ++ tr') = submitted tr ++ submitted tr' :=
  List.filterMap_append

theorem dispatched_append (tr tr' : List (Event ι)) :
    dispatched (tr ++ tr') = dispatched tr ++ dispatched tr' :=
  List.filterMap_append

theorem storeCalls_append (tr tr' : List (Event ι)) :
    storeCalls (tr ++ tr') = storeCalls tr ++ storeCalls tr' :=
  List.flatMap_append

theorem mem_submitted {q : QueuedCommand ι} {tr : List (Event ι)} :
    q ∈ submitted tr ↔ .put q ∈ tr := by
  rw [submitted, List.mem_filterMap]
  constructor
  · rintro ⟨e, he, hq⟩
    cases e <;> cases hq
    exact he
  · exact fun h => ⟨_, h, rfl⟩

theorem storeCalls_eq (tr : List (Event ι)) :
    (storeCalls tr).map (fun c => (c.op, c.ctx)) =
      (dispatched tr).filterMap fun q => q.command.op? := by
  induction tr with
  | nil => rfl
  | cons e tr ih =>
    have hcons : storeCalls (e :: tr) = e.storeCalls ++ storeCalls tr := rfl
    rw [hcons, List.map_append, ih]
    cases e with
    | dispatch q env =>
      change _ = List.filterMap _ (q :: dispatched tr)
      rw [List.filterMap_cons]
      simp only [Event.storeCalls, RuntimeCommand.calls]
      cases q.command.op? <;> rfl
    | put q => rfl
    | stop => rfl
    | exit => rfl
    | receive i outcome => rfl
    | internal => rfl

/-- A dispatch of the command of a call, which was on the queue before, had this outcome. -/
def Produced (live : Path) (db₀ : Database) (tr : List (Event ι)) (i : ι)
    (outcome : Except PyError Receipt) : Prop :=
  ∃ q env before after, tr = before ++ .dispatch q env :: after ∧ q.future = i ∧
    .put q ∈ before ∧
    (dispatchCommand env live (Call.afterAll (storeCalls before) db₀) q.command).1 = outcome

theorem Produced.append {live : Path} {db₀ : Database} {tr : List (Event ι)} {i : ι}
    {outcome : Except PyError Receipt} (h : Produced live db₀ tr i outcome)
    (tr' : List (Event ι)) : Produced live db₀ (tr ++ tr') i outcome := by
  obtain ⟨q, env, before, after, rfl, hq⟩ := h
  exact ⟨q, env, before, after ++ tr', by simp, hq⟩

/-- The command of a call that has produced an outcome is dispatched. -/
theorem Produced.mem_dispatched {live : Path} {db₀ : Database} {tr : List (Event ι)} {i : ι}
    {outcome : Except PyError Receipt} (h : Produced live db₀ tr i outcome) :
    i ∈ (dispatched tr).map QueuedCommand.future := by
  obtain ⟨q, env, before, after, rfl, rfl, -⟩ := h
  refine List.mem_map_of_mem ?_
  rw [dispatched_append]
  exact List.mem_append_right _ List.mem_cons_self

end

/-! ### The invariant -/

/-- The commands the writer has not executed yet, in order. -/
def RuntimeState.pending (s : RuntimeState ι) : List (QueuedCommand ι) :=
  s.writer.held ++ s.queue.reduceOption

@[simp] theorem RuntimeState.pending_goto (s : RuntimeState ι) (i : ι) (phase : CallPhase) :
    (s.goto i phase).pending = s.pending := rfl

omit [DecidableEq ι] in
@[simp] theorem RuntimeState.pending_enqueue (s : RuntimeState ι)
    (item : Option (QueuedCommand ι)) : (s.enqueue item).pending = s.pending ++ item.toList := by
  change s.writer.held ++ (s.queue ++ [item]).reduceOption = _
  rw [List.reduceOption_append, List.reduceOption_singleton, ← List.append_assoc]
  rfl

/-- What holds between the events of a run and the state. -/
structure Consistent (live : Path) (db₀ : Database) (tr : List (Event ι)) (s : RuntimeState ι) :
    Prop where
  databasePath : s.databasePath = live
  fifo : submitted tr = dispatched tr ++ s.pending
  once : ((submitted tr).map QueuedCommand.future).Nodup
  called : ∀ i ∈ (submitted tr).map QueuedCommand.future, (s.calls i).Submitted
  ledger : s.db = Call.afterAll (storeCalls tr) db₀
  stop : s.stopEvent = true → .stop ∈ tr
  testing : s.writer = .testingEmpty → s.stopEvent = true
  unset : ∀ q ∈ s.pending, s.futures q.future = none
  resolving : ∀ i outcome, s.writer = .resolving i outcome →
    s.futures i = none ∧ Produced live db₀ tr i outcome
  resolved : ∀ i outcome, s.futures i = some outcome → Produced live db₀ tr i outcome

section

variable {live : Path} {db₀ : Database} {tr : List (Event ι)} {s s' : RuntimeState ι}
  {e : Event ι}

omit [DecidableEq ι] in
/-- A step that puts, executes and resolves nothing keeps the invariant. -/
theorem Consistent.quiet (h : Consistent live db₀ tr s) (hput : e.put? = none)
    (hdispatched : e.dispatched? = none) (hpath : s'.databasePath = s.databasePath)
    (hdb : s'.db = s.db) (hfutures : s'.futures = s.futures) (hpending : s'.pending = s.pending)
    (hcalls : ∀ i, (s.calls i).Submitted → (s'.calls i).Submitted)
    (hstop : s'.stopEvent = s.stopEvent ∨ e = .stop)
    (htesting : s'.writer = .testingEmpty → s'.stopEvent = true)
    (hresolving : ∀ i o, s'.writer = .resolving i o → s.writer = .resolving i o) :
    Consistent live db₀ (tr ++ [e]) s' := by
  have hsub : submitted (tr ++ [e]) = submitted tr := by
    simp [submitted, hput]
  have hdis : dispatched (tr ++ [e]) = dispatched tr := by
    simp [dispatched, hdispatched]
  have hcall : storeCalls (tr ++ [e]) = storeCalls tr := by
    simp [storeCalls, Event.storeCalls_eq_nil hdispatched]
  constructor
  · rw [hpath, h.databasePath]
  · rw [hsub, hdis, hpending, h.fifo]
  · rw [hsub]
    exact h.once
  · intro i hi
    rw [hsub] at hi
    exact hcalls i (h.called i hi)
  · rw [hdb, hcall, h.ledger]
  · intro hset
    rcases hstop with hsame | rfl
    · exact List.mem_append_left _ (h.stop (hsame ▸ hset))
    · exact List.mem_append_right _ List.mem_cons_self
  · exact htesting
  · rw [hpending, hfutures]
    exact h.unset
  · intro i o hw
    obtain ⟨hunset, hproduced⟩ := h.resolving i o (hresolving i o hw)
    exact ⟨by rw [hfutures, hunset], hproduced.append _⟩
  · intro i o hset
    rw [hfutures] at hset
    exact (h.resolved i o hset).append _

theorem RuntimeState.submitted_goto {i j : ι} {phase : CallPhase}
    (hphase : (s.calls i).Submitted → phase.Submitted) (h : (s.calls j).Submitted) :
    ((s.goto i phase).calls j).Submitted := by
  by_cases hj : j = i
  · subst hj
    rw [calls_goto_self]
    exact hphase h
  · rwa [s.calls_goto_of_ne hj]

theorem Consistent.goto (h : Consistent live db₀ tr s) {i : ι} {phase : CallPhase}
    (hput : e.put? = none) (hdispatched : e.dispatched? = none)
    (hphase : (s.calls i).Submitted → phase.Submitted) :
    Consistent live db₀ (tr ++ [e]) (s.goto i phase) := by
  refine h.quiet hput hdispatched rfl rfl rfl rfl ?_ (.inl rfl) h.testing fun _ _ hw => hw
  exact fun j => RuntimeState.submitted_goto hphase

/-- A call that puts its command on the queue keeps the invariant. -/
theorem Consistent.put {i : ι} {c : RuntimeCommand} (h : Consistent live db₀ tr s)
    (hphase : s.calls i = .submitting c) :
    Consistent live db₀ (tr ++ [.put ⟨c, i⟩])
      ((s.goto i (.waiting c)).enqueue (some ⟨c, i⟩)) := by
  -- the call has not put a command before, so its future is a new one
  have hnew : i ∉ (submitted tr).map QueuedCommand.future := by
    intro hi
    have := h.called i hi
    rw [hphase] at this
    exact this
  have hsub : submitted (tr ++ [Event.put ⟨c, i⟩]) = submitted tr ++ [(⟨c, i⟩ : QueuedCommand ι)] :=
    submitted_append ..
  have hdis : dispatched (tr ++ [Event.put ⟨c, i⟩]) = dispatched tr :=
    (dispatched_append ..).trans (List.append_nil _)
  have hcalls : storeCalls (tr ++ [Event.put ⟨c, i⟩]) = storeCalls tr :=
    (storeCalls_append ..).trans (List.append_nil _)
  have hpending := (s.goto i (.waiting c)).pending_enqueue (some ⟨c, i⟩)
  rw [RuntimeState.pending_goto, Option.toList_some] at hpending
  constructor
  · exact h.databasePath
  · rw [hsub, hdis, hpending, h.fifo, List.append_assoc]
  · rw [hsub, List.map_append]
    refine List.Nodup.append h.once (List.nodup_singleton _) ?_
    intro j hj hj'
    rw [List.mem_singleton.mp hj'] at hj
    exact hnew hj
  · intro j hj
    rw [hsub, List.map_append, List.mem_append] at hj
    rcases hj with hj | hj
    · exact RuntimeState.submitted_goto (fun _ => trivial) (h.called j hj)
    · cases List.mem_singleton.mp hj
      change ((s.goto i (.waiting c)).calls i).Submitted
      rw [RuntimeState.calls_goto_self]
      trivial
  · rw [hcalls]
    exact h.ledger
  · exact fun hset => List.mem_append_left _ (h.stop hset)
  · exact h.testing
  · intro q hq
    rw [hpending, List.mem_append] at hq
    rcases hq with hq | hq
    · exact h.unset q hq
    · -- a future that is set belongs to a command that was dispatched
      cases List.mem_singleton.mp hq
      by_contra hset
      obtain ⟨o, ho⟩ := Option.ne_none_iff_exists'.mp hset
      refine hnew ?_
      rw [h.fifo, List.map_append]
      exact List.mem_append_left _ (h.resolved i o ho).mem_dispatched
  · intro j o hw
    obtain ⟨hunset, hproduced⟩ := h.resolving j o hw
    exact ⟨hunset, hproduced.append _⟩
  · exact fun j o hset => (h.resolved j o hset).append _

theorem Consistent.call {i : ι} (h : Consistent live db₀ tr s) (hstep : CallStep s i e s') :
    Consistent live db₀ (tr ++ [e]) s' := by
  cases hstep with
  | enter c hphase => exact h.goto rfl rfl fun hs => by simp [hphase, CallPhase.Submitted] at hs
  | acquireRead hphase hfree =>
    exact h.goto rfl rfl fun hs => by simp [hphase, CallPhase.Submitted] at hs
  | lockTimeout error hphase => exact h.goto rfl rfl fun _ => trivial
  | receive hphase houtcome => exact h.goto rfl rfl fun _ => trivial
  | resultTimeout error hphase => exact h.goto rfl rfl fun _ => trivial
  | put hphase => exact h.put hphase

omit [DecidableEq ι] in
theorem Consistent.close (h : Consistent live db₀ tr s) (hstep : CloseStep s e s') :
    Consistent live db₀ (tr ++ [e]) s' := by
  have hsame : ∀ j, (s.calls j).Submitted → (s.calls j).Submitted := fun _ hj => hj
  have hkept : ∀ i o, s.writer = .resolving i o → s.writer = .resolving i o := fun _ _ hw => hw
  cases hstep with
  | closeUnstarted open' hphase hstarted =>
    exact h.quiet rfl rfl rfl rfl rfl rfl hsame (.inl rfl) h.testing hkept
  | enter hphase hstarted =>
    exact h.quiet rfl rfl rfl rfl rfl rfl hsame (.inl rfl) h.testing hkept
  | lockTimeout hphase => exact h.quiet rfl rfl rfl rfl rfl rfl hsame (.inl rfl) h.testing hkept
  | acquireWrite hphase hfree =>
    exact h.quiet rfl rfl rfl rfl rfl rfl hsame (.inl rfl) h.testing hkept
  | setStop hphase =>
    exact h.quiet rfl rfl rfl rfl rfl rfl hsame (.inr rfl) (fun _ => rfl) hkept
  | putSentinel hphase =>
    refine h.quiet rfl rfl rfl rfl rfl ?_ hsame (.inl rfl) h.testing hkept
    exact (s.pending_enqueue none).trans (List.append_nil _)
  | join hphase => exact h.quiet rfl rfl rfl rfl rfl rfl hsame (.inl rfl) h.testing hkept
  | closeStore hphase => exact h.quiet rfl rfl rfl rfl rfl rfl hsame (.inl rfl) h.testing hkept
  | closeStoreRaises open' hphase =>
    exact h.quiet rfl rfl rfl rfl rfl rfl hsame (.inl rfl) h.testing hkept

omit [DecidableEq ι] in
/-- The writer executes a command. -/
theorem Consistent.dispatch {q : QueuedCommand ι} (h : Consistent live db₀ tr s)
    (env : Surroundings) (hphase : s.writer = .dispatching q) :
    Consistent live db₀ (tr ++ [.dispatch q env])
      { s with
        writer := .resolving q.future (dispatchCommand env s.databasePath s.db q.command).1
        db := (dispatchCommand env s.databasePath s.db q.command).2 } := by
  have hpending : s.pending = q :: s.queue.reduceOption := by
    rw [RuntimeState.pending, hphase]
    rfl
  -- the command moves from the pending ones to the dispatched ones
  have hsub : submitted (tr ++ [Event.dispatch q env]) = submitted tr :=
    (submitted_append ..).trans (List.append_nil _)
  have hdis : dispatched (tr ++ [Event.dispatch q env]) = dispatched tr ++ [q] :=
    dispatched_append ..
  have hcalls : storeCalls (tr ++ [Event.dispatch q env]) =
      storeCalls tr ++ q.command.calls env.world := by
    rw [storeCalls_append]
    exact congrArg _ (List.append_nil _)
  constructor
  · exact h.databasePath
  · rw [hsub, hdis, h.fifo, hpending, List.append_assoc]
    rfl
  · rw [hsub]
    exact h.once
  · rw [hsub]
    exact h.called
  · rw [hcalls, Call.afterAll, List.foldl_append]
    change (dispatchCommand env s.databasePath s.db q.command).2 = _
    rw [dispatchCommand_snd, h.ledger]
    rfl
  · exact fun hset => List.mem_append_left _ (h.stop hset)
  · intro hw
    cases hw
  · intro r hr
    refine h.unset r ?_
    rw [hpending]
    exact List.mem_cons_of_mem _ hr
  · -- the outcome the writer now holds is that of this dispatch
    intro i o hw
    cases hw
    have hq : q ∈ s.pending := hpending ▸ List.mem_cons_self
    refine ⟨h.unset q hq, q, env, tr, [], rfl, rfl, ?_, ?_⟩
    · rw [← mem_submitted, h.fifo]
      exact List.mem_append_right _ hq
    · rw [← h.ledger, h.databasePath]
  · exact fun i o hset => (h.resolved i o hset).append _

/-- The writer resolves a future. -/
theorem Consistent.setFuture {i : ι} {outcome : Except PyError Receipt}
    (h : Consistent live db₀ tr s) (hphase : s.writer = .resolving i outcome) :
    Consistent live db₀ (tr ++ [.internal])
      { s.resolve i outcome with writer := .testingStop } := by
  have hpending : s.pending = s.queue.reduceOption := by
    rw [RuntimeState.pending, hphase]
    rfl
  -- the commands that follow belong to other calls
  have hothers : ∀ q ∈ s.pending, q.future ≠ i := by
    rintro q hq rfl
    have hnodup := h.once
    rw [h.fifo, List.map_append] at hnodup
    exact List.disjoint_of_nodup_append hnodup (h.resolving _ _ hphase).2.mem_dispatched
      (List.mem_map_of_mem hq)
  have hsub : submitted (tr ++ [(Event.internal : Event ι)]) = submitted tr :=
    (submitted_append ..).trans (List.append_nil _)
  have hdis : dispatched (tr ++ [(Event.internal : Event ι)]) = dispatched tr :=
    (dispatched_append ..).trans (List.append_nil _)
  have hcalls : storeCalls (tr ++ [(Event.internal : Event ι)]) = storeCalls tr :=
    (storeCalls_append ..).trans (List.append_nil _)
  constructor
  · exact h.databasePath
  · rw [hsub, hdis, h.fifo, hpending]
    rfl
  · rw [hsub]
    exact h.once
  · rw [hsub]
    exact h.called
  · rw [hcalls]
    exact h.ledger
  · exact fun hset => List.mem_append_left _ (h.stop hset)
  · intro hw
    cases hw
  · intro q hq
    have hq' : q ∈ s.pending := hpending ▸ hq
    change (s.resolve i outcome).futures q.future = none
    rw [s.futures_resolve_of_ne (hothers q hq'), h.unset q hq']
  · intro j o hw
    cases hw
  · intro j o hset
    change (s.resolve i outcome).futures j = some o at hset
    by_cases hj : j = i
    · subst hj
      rw [RuntimeState.futures_resolve_self] at hset
      cases hset
      exact (h.resolving j outcome hphase).2.append _
    · rw [s.futures_resolve_of_ne hj] at hset
      exact (h.resolved j o hset).append _

theorem Consistent.writer (h : Consistent live db₀ tr s) (hstep : WriterStep s e s') :
    Consistent live db₀ (tr ++ [e]) s' := by
  have hsame : ∀ j, (s.calls j).Submitted → (s.calls j).Submitted := fun _ hj => hj
  -- between two commands the writer only moves on
  have hmove : ∀ (phase : WriterPhase ι) (rest : List (Option (QueuedCommand ι))),
      phase.held ++ rest.reduceOption = s.pending →
      (phase = .testingEmpty → s.stopEvent = true) → (∀ i o, phase ≠ .resolving i o) →
      ∀ e : Event ι, e.put? = none → e.dispatched? = none →
        Consistent live db₀ (tr ++ [e]) { s with writer := phase, queue := rest } :=
    fun phase rest hpending htesting hresolving e hput hdispatched =>
      h.quiet hput hdispatched rfl rfl rfl hpending hsame (.inl rfl) htesting
        fun i o hw => (hresolving i o hw).elim
  cases hstep with
  | notStopped hphase hstop =>
    refine hmove .getting s.queue ?_ nofun nofun _ rfl rfl
    rw [RuntimeState.pending, hphase]
    rfl
  | stopped hphase hstop =>
    refine hmove .testingEmpty s.queue ?_ (fun _ => hstop) nofun _ rfl rfl
    rw [RuntimeState.pending, hphase]
    rfl
  | nonempty hphase hqueue =>
    refine hmove .getting s.queue ?_ nofun nofun _ rfl rfl
    rw [RuntimeState.pending, hphase]
    rfl
  | exit hphase hqueue =>
    refine hmove .exited s.queue ?_ nofun nofun _ rfl rfl
    rw [RuntimeState.pending, hphase]
    rfl
  | pollTimeout hphase hqueue =>
    refine hmove .testingStop s.queue ?_ nofun nofun _ rfl rfl
    rw [RuntimeState.pending, hphase]
    rfl
  | getSentinel hphase hqueue =>
    refine hmove .testingStop _ ?_ nofun nofun _ rfl rfl
    rw [RuntimeState.pending, hphase, hqueue]
    rfl
  | getCommand hphase hqueue =>
    refine hmove (.dispatching _) _ ?_ nofun nofun _ rfl rfl
    rw [RuntimeState.pending, hphase, hqueue]
    rfl
  | dispatch env hphase => exact h.dispatch _ hphase
  | setFuture hphase hunset => exact h.setFuture hphase
  | invalidState hphase hset => exact absurd (h.resolving _ _ hphase).1 hset

omit [DecidableEq ι] in
theorem Consistent.init (live : Path) (db₀ : Database) :
    Consistent live db₀ [] ({ databasePath := live, db := db₀ } : RuntimeState ι) where
  databasePath := rfl
  fifo := rfl
  once := List.nodup_nil
  called := fun i hi => (List.not_mem_nil hi).elim
  ledger := rfl
  stop := fun h => by cases h
  testing := fun h => by cases h
  unset := fun q hq => (List.not_mem_nil hq).elim
  resolving := fun i o h => by cases h
  resolved := fun i o h => by cases h

/-- The invariant holds in every run. -/
theorem Consistent.of_run (h : RuntimeRun live db₀ tr s) : Consistent live db₀ tr s := by
  refine Traced.invariant h (Consistent.init live db₀) ?_
  intro tr x e y hx hstep
  cases hstep with
  | call hstep => exact hx.call hstep
  | close hstep => exact hx.close hstep
  | writer hstep => exact hx.writer hstep

/-! ### The protocol -/

/-- **The writer exits** only after the flag was set, with every command that was put on
the queue before dispatched. -/
theorem dispatched_of_exit {before after : List (Event ι)}
    (h : RuntimeRun live db₀ (before ++ .exit :: after) s) :
    .stop ∈ before ∧ dispatched before = submitted before := by
  obtain ⟨x, y, hbefore, hstep⟩ := Traced.split h
  have hx : Consistent live db₀ before x := .of_run hbefore
  cases hstep with
  | call hstep => cases hstep
  | close hstep => cases hstep
  | writer hstep =>
    cases hstep with
    | exit hphase hqueue =>
      -- the writer holds no command, and the queue is empty
      have hpending : x.pending = [] := by
        rw [RuntimeState.pending, hphase, hqueue]
        rfl
      refine ⟨hx.stop (hx.testing hphase), ?_⟩
      rw [hx.fifo, hpending, List.append_nil]
    | invalidState hphase hset => exact absurd (hx.resolving _ _ hphase).1 hset

/-- A caller receives what its own command has produced. -/
theorem produced_of_receive {before after : List (Event ι)} {i : ι}
    {outcome : Except PyError Receipt}
    (h : RuntimeRun live db₀ (before ++ .receive i outcome :: after) s) :
    Produced live db₀ before i outcome := by
  obtain ⟨x, y, hbefore, hstep⟩ := Traced.split h
  have hx : Consistent live db₀ before x := .of_run hbefore
  cases hstep with
  | call hstep =>
    cases hstep with
    | receive hphase houtcome => exact hx.resolved i outcome houtcome
  | close hstep => cases hstep
  | writer hstep => cases hstep

/-- What the queue is for. -/
structure SingleWriter (live : Path) (db₀ : Database) (tr : List (Event ι))
    (s : RuntimeState ι) : Prop where
  /-- Commands are dispatched in the order of the queue, each place of it at most once. -/
  fifo : dispatched tr <+: submitted tr
  /-- No call has its command dispatched twice. -/
  once : ((dispatched tr).map QueuedCommand.future).Nodup
  /-- What is put on the queue before the flag is set is dispatched before the writer
  exits. -/
  drained : ∀ before middle after, tr = before ++ .stop :: (middle ++ .exit :: after) →
    ∀ q ∈ submitted before, q ∈ dispatched (before ++ .stop :: middle)
  /-- The ledger is the composition of the store operations of the dispatched commands. -/
  sequential : s.db = Call.afterAll (storeCalls tr) db₀
  /-- These operations are in the order of the queue. -/
  ordered : (storeCalls tr).map (fun c => (c.op, c.ctx)) =
    (dispatched tr).filterMap fun q => q.command.op?
  /-- What a caller receives was produced by its own command. -/
  receipts : ∀ before i outcome after, tr = before ++ .receive i outcome :: after →
    Produced live db₀ before i outcome

/-- No call has its command dispatched twice. -/
theorem nodup_dispatched (h : RuntimeRun live db₀ tr s) :
    ((dispatched tr).map QueuedCommand.future).Nodup := by
  have hs : Consistent live db₀ tr s := .of_run h
  have hfirst : dispatched tr <+: submitted tr := ⟨s.pending, hs.fifo.symm⟩
  exact hs.once.sublist (hfirst.sublist.map _)

/-- **The protocol of the writer queue**: in every interleaving of calls, writer and
`close`, commands are dispatched at most once and in queue order, none that was put
before the flag was set is left when the writer exits, the ledger is the composition of
the store operations in that order, and a caller receives the receipt of its own command. -/
theorem singleWriter_of_run (h : RuntimeRun live db₀ tr s) : SingleWriter live db₀ tr s := by
  have hs : Consistent live db₀ tr s := .of_run h
  refine ⟨⟨s.pending, hs.fifo.symm⟩, nodup_dispatched h, ?_, hs.ledger, storeCalls_eq tr, ?_⟩
  · rintro before middle after rfl q hq
    rw [← List.cons_append, ← List.append_assoc] at h
    rw [(dispatched_of_exit h).2, submitted_append]
    exact List.mem_append_left _ hq
  · rintro before i outcome after rfl
    exact produced_of_receive h

/-- The runtime refines the store: its ledger is reached by calls of the store. -/
theorem store_run_of_run (h : RuntimeRun live db₀ tr s) : ReflTransGen StoreStep db₀ s.db := by
  rw [(Consistent.of_run h).ledger]
  exact Call.run_afterAll _ _

end

/-! ### Calls that are served -/

section

variable {live : Path} {db₀ : Database} {tr : List (Event ι)} {s : RuntimeState ι} {i : ι}

theorem RuntimeState.goto_goto (s : RuntimeState ι) (i : ι) (phase phase' : CallPhase) :
    (s.goto i phase).goto i phase' = s.goto i phase' := by
  rw [goto, goto, goto]
  simp [Function.update_idem]

omit [DecidableEq ι] in
/-- A command is put on the queue. -/
def submitEvents (q : QueuedCommand ι) : List (Event ι) := [.internal, .internal, .put q]

/-- The call of a command waits for its future. -/
def RuntimeState.submitted (s : RuntimeState ι) (q : QueuedCommand ι) : RuntimeState ι :=
  (s.goto q.future (.waiting q.command)).enqueue (some q)

/-- A call that has not been made gets the lock and puts its command on the queue. -/
theorem RuntimeRun.submit (h : RuntimeRun live db₀ tr s) (q : QueuedCommand ι)
    (hnew : s.calls q.future = .notCalled) (hfree : ¬ s.closer.HoldsWrite) :
    RuntimeRun live db₀ (tr ++ submitEvents q) (s.submitted q) := by
  have hentered := h.snoc (.call (.enter q.command hnew))
  have hadmitted := hentered.snoc (.call (.acquireRead (s.calls_goto_self _ _) hfree))
  rw [s.goto_goto] at hadmitted
  have hput := hadmitted.snoc (.call (.put (s.calls_goto_self _ _)))
  rw [s.goto_goto, List.append_assoc, List.append_assoc] at hput
  exact hput

omit [DecidableEq ι] in
/-- The writer takes a command from the queue and resolves its future. -/
def serveEvents (q : QueuedCommand ι) (env : Surroundings) : List (Event ι) :=
  [.internal, .internal, .dispatch q env, .internal]

/-- The command is executed, and the writer is back at the head of its loop. -/
def RuntimeState.served (s : RuntimeState ι) (q : QueuedCommand ι)
    (rest : List (Option (QueuedCommand ι))) (env : Surroundings) : RuntimeState ι :=
  { s.resolve q.future
      (dispatchCommand (env.on s.storeOpen) s.databasePath s.db q.command).1 with
    db := (dispatchCommand (env.on s.storeOpen) s.databasePath s.db q.command).2
    queue := rest
    writer := .testingStop }

/-- The writer serves the command at the head of the queue. -/
theorem RuntimeRun.serve (h : RuntimeRun live db₀ tr s) {q : QueuedCommand ι}
    {rest : List (Option (QueuedCommand ι))} (env : Surroundings) (hwriter : s.writer = .testingStop)
    (hstop : s.stopEvent = false) (hqueue : s.queue = some q :: rest)
    (hunset : s.futures q.future = none) :
    RuntimeRun live db₀ (tr ++ serveEvents q (env.on s.storeOpen)) (s.served q rest env) := by
  have hgetting := h.snoc (.writer (.notStopped hwriter hstop))
  have hdispatching := hgetting.snoc (.writer (.getCommand rfl hqueue))
  have hresolving := hdispatching.snoc (.writer (.dispatch env rfl))
  have hresolved := hresolving.snoc (.writer (.setFuture rfl hunset))
  rw [List.append_assoc, List.append_assoc, List.append_assoc] at hresolved
  exact hresolved

omit [DecidableEq ι] in
/-- The runtime is closed; the writer meets the sentinel and is joined. -/
def closeEvents : List (Event ι) :=
  [.internal, .internal, .stop, .internal, .internal, .internal, .internal, .internal, .exit,
    .internal, .internal]

/-- A runtime that nobody uses is closed. -/
theorem RuntimeRun.close (h : RuntimeRun live db₀ tr s) (hcloser : s.closer = .notCalled)
    (hstarted : s.started = true) (hwriter : s.writer = .testingStop) (hqueue : s.queue = [])
    (hfree : ∀ i, ¬ (s.calls i).HoldsRead) :
    RuntimeRun live db₀ (tr ++ closeEvents)
      { s with
        storeOpen := false, started := false, stopEvent := true, queue := [],
        closer := .notCalled, writer := .exited } := by
  have hsentinel : s.queue ++ [none] = [none] := by rw [hqueue, List.nil_append]
  have h := h.snoc (.close (.enter hcloser hstarted))
  have h := h.snoc (.close (.acquireWrite rfl hfree))
  have h := h.snoc (.close (.setStop rfl))
  have h := h.snoc (.close (.putSentinel rfl))
  have h := h.snoc (.writer (.stopped hwriter rfl))
  have h := h.snoc (.writer (.nonempty rfl (List.append_ne_nil_of_right_ne_nil _ nofun)))
  have h := h.snoc (.writer (.getSentinel rfl hsentinel))
  have h := h.snoc (.writer (.stopped rfl rfl))
  have h := h.snoc (.writer (.exit rfl rfl))
  have h := h.snoc (.close (.join rfl))
  have h := h.snoc (.close (.closeStore rfl))
  simp only [List.append_assoc, List.cons_append, List.nil_append] at h
  exact h

end

end

/-! ### Evaluated -/

namespace Reference

/-- The surroundings without faults. -/
def calm : Surroundings := ⟨{}, {}, ledgerFiles⟩

/-- One thread creates the book, and another one appends a sale to it. -/
def creation : QueuedCommand ℕ := ⟨.createBook plainBook auditor, 0⟩

def secondSale : QueuedCommand ℕ := ⟨.appendTransaction "BK" known auditor, 1⟩

/-- The runtime with both commands on the queue. -/
def bothSubmitted : RuntimeState ℕ :=
  RuntimeState.submitted (RuntimeState.submitted { databasePath := ledgerFile, db := {} } creation)
    secondSale

/-- The runtime after both were served. -/
def bothServed : RuntimeState ℕ :=
  RuntimeState.served (bothSubmitted.served creation [some secondSale] calm) secondSale [] calm

/-- The two commands are put on the queue before the first one is served, and the callers have
their receipts, the second one first. -/
def servedBoth : List (Event ℕ) :=
  [] ++ submitEvents creation ++ submitEvents secondSale ++ serveEvents creation calm ++
    serveEvents secondSale calm ++
    [.receive 1 (.ok (.write (buildWriteReceipt (transactionRows "BK" known))))] ++
    [.receive 0 (.ok (.write (buildWriteReceipt (bookRows plainBook.fields))))]

/-- Then the runtime is closed. -/
def servedTogether : List (Event ℕ) := servedBoth ++ closeEvents

/-- The runtime when the callers have their receipts. -/
def bothFinished : RuntimeState ℕ :=
  (bothServed.goto 1
    (.finished (.ok (.write (buildWriteReceipt (transactionRows "BK" known)))))).goto 0
      (.finished (.ok (.write (buildWriteReceipt (bookRows plainBook.fields)))))

theorem run_servedTogether : ∃ s : RuntimeState ℕ, RuntimeRun ledgerFile {} servedTogether s ∧
    s.db.tables.transactions.length = 2 := by
  have hinit : RuntimeRun ledgerFile {} []
      ({ databasePath := ledgerFile, db := {} } : RuntimeState ℕ) := .nil
  have h : RuntimeRun ledgerFile {} _ bothSubmitted :=
    (hinit.submit creation rfl id).submit secondSale rfl id
  have hserved : RuntimeRun ledgerFile {} _ bothServed :=
    (h.serve calm rfl rfl rfl rfl).serve calm rfl rfl rfl rfl
  have hfinished : RuntimeRun ledgerFile {} servedBoth bothFinished :=
    (hserved.snoc (.call (.receive (i := 1) rfl rfl))).snoc (.call (.receive (i := 0) rfl rfl))
  have hclosed := hfinished.close rfl rfl rfl rfl ?_
  · exact ⟨_, hclosed, by rfl⟩
  · intro i
    rcases i with _ | _ | i <;> exact id

theorem singleWriter_servedTogether : ∃ s : RuntimeState ℕ,
    SingleWriter ledgerFile {} servedTogether s ∧ s.db.tables.transactions.length = 2 := by
  obtain ⟨s, hs, hlength⟩ := run_servedTogether
  exact ⟨s, singleWriter_of_run hs, hlength⟩

end Reference

end FinestVX
