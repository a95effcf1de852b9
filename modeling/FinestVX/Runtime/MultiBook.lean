import FinestVX.Runtime.DatabasePaths
import FinestVX.Runtime.WriterQueue

/-!
# Many books

A runtime of many books starts a `LedgerRuntime` for every book that is opened and keeps it
in a table, which is changed under a write lock.  Closing takes a runtime out of the table
under the lock and shuts it down after the lock is released.

## Main definitions

* `MultiCall`, `ThreadPhase`, `MultiBookState` — the calls, where each thread is, and what
  the threads share.
* `MultiBookStep` — the steps of the threads, and of the writers of the runtimes.
* `OneWriter` — at most one runtime of a book is live.
* `Orderly` — the condition on the steps.
* `Disciplined` — the invariant.

## Main results

* `runtimeRun_of_run` — every runtime takes the steps of a runtime.
* `Disciplined.of_run` — the invariant holds in every orderly run.
* `oneWriter_of_run` — **at every moment of an orderly run a book has at most one live
  runtime.**
* `Reference.reopened_overlaps` — a book that is opened again while it is being closed.
-/

namespace FinestVX

open Except

section

variable [Platform]

/-! ### Calls and threads -/

/-- A call of the runtime of many books. -/
inductive MultiCall
  | createBook (book : Book) (ctx : AuditContext)
  | openBook (code : String)
  | closeBook (code : String)
  | close
  /-- A write method, routed to the runtime of a book. -/
  | route (code : String) (command : RuntimeCommand)

namespace MultiCall

/-- The check made before the lock is taken. -/
def Accepted : MultiCall → Prop
  | openBook code | closeBook code => (requireNonEmptyStr code "book_code").Succeeds
  | _ => True

/-- The call takes the read lock only. -/
def IsRead : MultiCall → Prop
  | route .. => True
  | _ => False

end MultiCall

/-- Where a thread is; a call of a runtime is known by the index of its future. -/
inductive ThreadPhase
  | idle
  /-- Waiting for the lock. -/
  | acquiring (call : MultiCall)
  /-- With the lock. -/
  | locked (call : MultiCall)
  /-- With the write lock, in `create_book` of the runtime that was started. -/
  | creating (runtime future : ℕ)
  /-- Shutting down the runtimes that were taken out of the table, one by one. -/
  | closing (runtimes : List ℕ)
  /-- In a write method of a runtime. -/
  | calling (runtime future : ℕ)

namespace ThreadPhase

/-- The thread has the lock, for reading or for writing. -/
def Holds : ThreadPhase → Prop
  | locked _ | creating .. => True
  | _ => False

/-- The thread has the write lock. -/
def HoldsWrite : ThreadPhase → Prop
  | locked call => ¬ call.IsRead
  | creating .. => True
  | _ => False

/-- The runtimes the thread has started or taken out of the table, and has to see to. -/
def owned : ThreadPhase → List ℕ
  | creating runtime _ => [runtime]
  | closing runtimes => runtimes
  | _ => []

end ThreadPhase

/-- A runtime, and the book it was started for. -/
structure BookRuntime where
  code : String
  state : RuntimeState ℕ

/-- The writer runs, or connections of the store are open. -/
def BookRuntime.Live (r : BookRuntime) : Prop :=
  r.state.writer ≠ .exited ∨ r.state.storeOpen = true

variable {θ : Type} [DecidableEq θ]

/-- The runtimes that were ever started, the table of open books, and the threads. -/
structure MultiBookState (θ : Type) where
  runtimes : ℕ → Option BookRuntime := fun _ => none
  table : Dict String ℕ := []
  threads : θ → ThreadPhase := fun _ => .idle

namespace MultiBookState

/-- A thread moves on. -/
def goto (s : MultiBookState θ) (t : θ) (phase : ThreadPhase) : MultiBookState θ :=
  { s with threads := Function.update s.threads t phase }

/-- A runtime is started, or moves on. -/
def setRuntime (s : MultiBookState θ) (i : ℕ) (r : BookRuntime) : MultiBookState θ :=
  { s with runtimes := Function.update s.runtimes i (some r) }

/-- The table is changed. -/
def setTable (s : MultiBookState θ) (table : Dict String ℕ) : MultiBookState θ :=
  { s with table := table }

@[simp] theorem threads_goto_self (s : MultiBookState θ) (t : θ) (phase : ThreadPhase) :
    (s.goto t phase).threads t = phase :=
  Function.update_self ..

theorem threads_goto_of_ne (s : MultiBookState θ) {t u : θ} (h : u ≠ t) (phase : ThreadPhase) :
    (s.goto t phase).threads u = s.threads u :=
  Function.update_of_ne h ..

omit [DecidableEq θ] in
@[simp] theorem runtimes_setRuntime_self (s : MultiBookState θ) (i : ℕ) (r : BookRuntime) :
    (s.setRuntime i r).runtimes i = some r :=
  Function.update_self ..

omit [DecidableEq θ] in
theorem runtimes_setRuntime_of_ne (s : MultiBookState θ) {i j : ℕ} (h : j ≠ i) (r : BookRuntime) :
    (s.setRuntime i r).runtimes j = s.runtimes j :=
  Function.update_of_ne h ..

end MultiBookState

/-- What a step does that others can tell. -/
inductive MultiEvent
  | start (code : String)
  | closed (r : BookRuntime)
  | closeRaised
  | createRaised
  | internal

/-- A runtime that has just been started on the file of a book. -/
def startedRuntime (cwd : List String) (config : RuntimeConfig) (db : Database) : RuntimeState ℕ :=
  { databasePath := fileAt cwd config.databasePath, db := db }

/-- A step of a thread.  The constructor of a runtime opens the store and starts the writer;
what raises before it has leaves nothing behind. -/
inductive ThreadStep (cwd : List String) (config : MultiBookRuntimeConfig)
    (s : MultiBookState θ) (t : θ) : MultiEvent → MultiBookState θ → Prop
  | call (c : MultiCall) (h : s.threads t = .idle) (haccepted : c.Accepted) :
      ThreadStep cwd config s t .internal (s.goto t (.acquiring c))
  | lockTimeout {c : MultiCall} (h : s.threads t = .acquiring c) :
      ThreadStep cwd config s t .internal (s.goto t .idle)
  | acquireWrite {c : MultiCall} (h : s.threads t = .acquiring c) (hwrite : ¬ c.IsRead)
      (hfree : ∀ u, ¬ (s.threads u).Holds) :
      ThreadStep cwd config s t .internal (s.goto t (.locked c))
  | acquireRead {c : MultiCall} (h : s.threads t = .acquiring c) (hread : c.IsRead)
      (hfree : ∀ u, ¬ (s.threads u).HoldsWrite) :
      ThreadStep cwd config s t .internal (s.goto t (.locked c))
  /-- `create_book` raises before a runtime is started. -/
  | createRefused {book : Book} {ctx : AuditContext}
      (h : s.threads t = .locked (.createBook book ctx)) :
      ThreadStep cwd config s t .internal (s.goto t .idle)
  | createStart {book : Book} {ctx : AuditContext} {c : RuntimeConfig} (i future : ℕ)
      (db : Database) (h : s.threads t = .locked (.createBook book ctx))
      (hnew : s.table.get? book.code = none)
      (hconfig : runtimeConfigFor config book.code = .ok c) (hfresh : s.runtimes i = none) :
      ThreadStep cwd config s t (.start book.code)
        ((s.setRuntime i ⟨book.code, (startedRuntime cwd c db).goto future
          (.acquiring (.createBook book ctx))⟩).goto t (.creating i future))
  | createReturns {i future : ℕ} {r : BookRuntime} {receipt : Receipt}
      (h : s.threads t = .creating i future) (hr : s.runtimes i = some r)
      (hdone : r.state.calls future = .finished (.ok receipt)) :
      ThreadStep cwd config s t .internal ((s.setTable (s.table.set r.code i)).goto t .idle)
  | createRaises {i future : ℕ} {r : BookRuntime} {e : PyError}
      (h : s.threads t = .creating i future) (hr : s.runtimes i = some r)
      (hdone : r.state.calls future = .finished (.error e)) :
      ThreadStep cwd config s t .createRaised (s.goto t .idle)
  /-- `open_book` returns at once or raises: the book is open, or no runtime is started. -/
  | openNothing {code : String} (h : s.threads t = .locked (.openBook code)) :
      ThreadStep cwd config s t .internal (s.goto t .idle)
  | openStart {code : String} {c : RuntimeConfig} (i : ℕ) (db : Database)
      (h : s.threads t = .locked (.openBook code)) (hnew : s.table.get? code = none)
      (hconfig : runtimeConfigFor config code = .ok c) (hfresh : s.runtimes i = none) :
      ThreadStep cwd config s t (.start code)
        (((s.setRuntime i ⟨code, startedRuntime cwd c db⟩).setTable (s.table.set code i)).goto t
          .idle)
  | pop {code : String} {i : ℕ} (h : s.threads t = .locked (.closeBook code))
      (hget : s.table.get? code = some i) :
      ThreadStep cwd config s t .internal ((s.setTable (s.table.erase code)).goto t (.closing [i]))
  | popNothing {code : String} (h : s.threads t = .locked (.closeBook code))
      (hget : s.table.get? code = none) :
      ThreadStep cwd config s t .internal (s.goto t .idle)
  | drain (h : s.threads t = .locked .close) :
      ThreadStep cwd config s t .internal
        ((s.setTable []).goto t (.closing (s.table.map Prod.snd)))
  /-- `LedgerRuntime.close` goes on. -/
  | closeStep {i : ℕ} {rest : List ℕ} {r : BookRuntime} {e : Event ℕ} {r' : RuntimeState ℕ}
      (h : s.threads t = .closing (i :: rest)) (hr : s.runtimes i = some r)
      (hstep : CloseStep r.state e r') (hgoes : r'.closer ≠ .notCalled) :
      ThreadStep cwd config s t .internal (s.setRuntime i { r with state := r' })
  /-- `LedgerRuntime.close` returns. -/
  | closeReturns {i : ℕ} {rest : List ℕ} {r : BookRuntime} {e : Event ℕ} {r' : RuntimeState ℕ}
      (h : s.threads t = .closing (i :: rest)) (hr : s.runtimes i = some r)
      (hstep : CloseStep r.state e r') (hends : r'.closer = .notCalled)
      (hclosed : r'.started = false ∧ r'.storeOpen = false) :
      ThreadStep cwd config s t (.closed { r with state := r' })
        ((s.setRuntime i { r with state := r' }).goto t (.closing rest))
  /-- `LedgerRuntime.close` raises, and with it the call; the other runtimes are not closed. -/
  | closeRaises {i : ℕ} {rest : List ℕ} {r : BookRuntime} {e : Event ℕ} {r' : RuntimeState ℕ}
      (h : s.threads t = .closing (i :: rest)) (hr : s.runtimes i = some r)
      (hstep : CloseStep r.state e r') (hends : r'.closer = .notCalled)
      (hnot : ¬ (r'.started = false ∧ r'.storeOpen = false)) :
      ThreadStep cwd config s t .closeRaised
        ((s.setRuntime i { r with state := r' }).goto t .idle)
  | closeEnds (h : s.threads t = .closing []) :
      ThreadStep cwd config s t .internal (s.goto t .idle)
  | routed {code : String} {command : RuntimeCommand} {i : ℕ} {r : BookRuntime} (future : ℕ)
      (h : s.threads t = .locked (.route code command)) (hget : s.table.get? code = some i)
      (hr : s.runtimes i = some r) (hunused : r.state.calls future = .notCalled) :
      ThreadStep cwd config s t .internal
        ((s.setRuntime i { r with state := r.state.goto future (.acquiring command) }).goto t
          (.calling i future))
  | routeUnknown {code : String} {command : RuntimeCommand}
      (h : s.threads t = .locked (.route code command)) (hget : s.table.get? code = none) :
      ThreadStep cwd config s t .internal (s.goto t .idle)
  | callEnds {i future : ℕ} {r : BookRuntime} {outcome : Except PyError Receipt}
      (h : s.threads t = .calling i future) (hr : s.runtimes i = some r)
      (hdone : r.state.calls future = .finished outcome) :
      ThreadStep cwd config s t .internal (s.goto t .idle)
  /-- A call of a runtime goes on. -/
  | callStep {i future : ℕ} {r : BookRuntime} {e : Event ℕ} {r' : RuntimeState ℕ}
      (h : s.threads t = .creating i future ∨ s.threads t = .calling i future)
      (hr : s.runtimes i = some r) (hstep : CallStep r.state future e r') :
      ThreadStep cwd config s t .internal (s.setRuntime i { r with state := r' })

/-- A step of a thread, or of the writer of a runtime. -/
inductive MultiBookStep (cwd : List String) (config : MultiBookRuntimeConfig)
    (s : MultiBookState θ) : MultiEvent → MultiBookState θ → Prop
  | thread {t : θ} {e : MultiEvent} {s' : MultiBookState θ} (h : ThreadStep cwd config s t e s') :
      MultiBookStep cwd config s e s'
  | writer {i : ℕ} {r : BookRuntime} {e : Event ℕ} {r' : RuntimeState ℕ}
      (hr : s.runtimes i = some r) (hstep : WriterStep r.state e r') :
      MultiBookStep cwd config s .internal (s.setRuntime i { r with state := r' })

/-- The interleavings of the threads. -/
def MultiBookRun (cwd : List String) (config : MultiBookRuntimeConfig) :
    List MultiEvent → MultiBookState θ → Prop :=
  Traced (MultiBookStep cwd config) {}

/-- At most one runtime of a book is live. -/
def OneWriter (s : MultiBookState θ) : Prop :=
  ∀ i j r r', s.runtimes i = some r → s.runtimes j = some r' → r.Live → r'.Live →
    r.code = r'.code → i = j

/-! ### The condition -/

/-- A runtime is started for a book when no thread is closing a runtime of the book; a close
that returns has joined the writer; no close raises, and no `create_book` does after it has
started a runtime. -/
def Orderly (s : MultiBookState θ) : MultiEvent → Prop
  | .start code => ∀ t runtimes, s.threads t = .closing runtimes → ∀ i ∈ runtimes, ∀ r,
      s.runtimes i = some r → r.code ≠ code
  | .closed r => r.state.writer = .exited
  | .closeRaised => False
  | .createRaised => False
  | .internal => True

/-- The interleavings whose steps all meet the condition. -/
def OrderlyRun (cwd : List String) (config : MultiBookRuntimeConfig) :
    List MultiEvent → MultiBookState θ → Prop :=
  Traced (fun s e s' => MultiBookStep cwd config s e s' ∧ Orderly s e) {}

/-! ### The invariant -/

/-- The runtime is in the table, or a thread has to see to it. -/
def MultiBookState.Owned (s : MultiBookState θ) (i : ℕ) : Prop :=
  (∃ code, s.table.get? code = some i) ∨ ∃ t, i ∈ (s.threads t).owned

/-- The write lock excludes; the table knows its runtimes; the live runtimes are owned, and
no two of one book are. -/
structure Disciplined (s : MultiBookState θ) : Prop where
  exclusive : ∀ t u, (s.threads t).HoldsWrite → (s.threads u).Holds → t = u
  nodup : s.table.keys.Nodup
  known : ∀ code i, s.table.get? code = some i → ∃ r, s.runtimes i = some r ∧ r.code = code
  started : ∀ t, ∀ i ∈ (s.threads t).owned, ∃ r, s.runtimes i = some r
  owned : ∀ i r, s.runtimes i = some r → r.Live → s.Owned i
  unique : ∀ i j r r', s.Owned i → s.Owned j → s.runtimes i = some r → s.runtimes j = some r' →
    r.code = r'.code → i = j

theorem ThreadPhase.holds_of_holdsWrite {p : ThreadPhase} (h : p.HoldsWrite) : p.Holds := by
  cases p with
  | locked call => trivial
  | creating i k => trivial
  | idle => exact h
  | acquiring call => exact h
  | closing l => exact h
  | calling i k => exact h

/-- A thread moves on, and keeps to the lock. -/
theorem Disciplined.exclusive_goto {s : MultiBookState θ} (h : Disciplined s) {t : θ}
    {phase : ThreadPhase}
    (hwrite : phase.HoldsWrite → ∀ u, u ≠ t → ¬ (s.threads u).Holds)
    (hholds : phase.Holds → ∀ u, u ≠ t → ¬ (s.threads u).HoldsWrite) (u v : θ)
    (hu : ((s.goto t phase).threads u).HoldsWrite) (hv : ((s.goto t phase).threads v).Holds) :
    u = v := by
  by_cases hut : u = t
  · by_cases hvt : v = t
    · rw [hut, hvt]
    · subst hut
      rw [s.threads_goto_self] at hu
      rw [s.threads_goto_of_ne hvt] at hv
      exact (hwrite hu v hvt hv).elim
  · rw [s.threads_goto_of_ne hut] at hu
    by_cases hvt : v = t
    · subst hvt
      rw [s.threads_goto_self] at hv
      exact (hholds hv u hut hu).elim
    · rw [s.threads_goto_of_ne hvt] at hv
      exact h.exclusive u v hu hv

omit [DecidableEq θ] in
/-- The table and the threads change, so that no runtime gets an owner and none that is live
loses its last one. -/
theorem Disciplined.reassign {s s' : MultiBookState θ} (h : Disciplined s)
    (hruntimes : s'.runtimes = s.runtimes)
    (hexclusive : ∀ t u, (s'.threads t).HoldsWrite → (s'.threads u).Holds → t = u)
    (hnodup : s'.table.keys.Nodup)
    (hknown : ∀ code i, s'.table.get? code = some i → ∃ r, s.runtimes i = some r ∧ r.code = code)
    (hless : ∀ i, s'.Owned i → s.Owned i)
    (hkeeps : ∀ i r, s.runtimes i = some r → r.Live → s.Owned i → s'.Owned i) :
    Disciplined s' where
  exclusive := hexclusive
  nodup := hnodup
  known := by rwa [hruntimes]
  started t i hi := by
    rw [hruntimes]
    rcases hless i (.inr ⟨t, hi⟩) with ⟨code, hcode⟩ | ⟨u, hu⟩
    · obtain ⟨r, hr, -⟩ := h.known code i hcode
      exact ⟨r, hr⟩
    · exact h.started u i hu
  owned i r hr hlive := by
    rw [hruntimes] at hr
    exact hkeeps i r hr hlive (h.owned i r hr hlive)
  unique i j r r' hi hj hr hr' hcode := by
    rw [hruntimes] at hr hr'
    exact h.unique i j r r' (hless i hi) (hless j hj) hr hr' hcode

/-- A thread moves on that owns what it owned before. -/
theorem Disciplined.goto {s : MultiBookState θ} (h : Disciplined s) {t : θ} {phase : ThreadPhase}
    (howned : phase.owned = (s.threads t).owned)
    (hwrite : phase.HoldsWrite → ∀ u, u ≠ t → ¬ (s.threads u).Holds)
    (hholds : phase.Holds → ∀ u, u ≠ t → ¬ (s.threads u).HoldsWrite) :
    Disciplined (s.goto t phase) := by
  have hsame : ∀ u, ((s.goto t phase).threads u).owned = (s.threads u).owned := by
    intro u
    by_cases hut : u = t
    · subst hut
      rw [s.threads_goto_self, howned]
    · rw [s.threads_goto_of_ne hut]
  have hiff : ∀ i, (s.goto t phase).Owned i ↔ s.Owned i := fun i =>
    or_congr Iff.rfl (exists_congr fun u => by rw [hsame])
  exact h.reassign rfl (h.exclusive_goto hwrite hholds) h.nodup h.known
    (fun i => (hiff i).mp) fun i _ _ _ => (hiff i).mpr

/-- A thread gives its lock back, or has none. -/
theorem Disciplined.release {s : MultiBookState θ} (h : Disciplined s) {t : θ}
    {phase : ThreadPhase} (howned : phase.owned = (s.threads t).owned) (hfree : ¬ phase.Holds) :
    Disciplined (s.goto t phase) :=
  h.goto howned (fun hw => (hfree (ThreadPhase.holds_of_holdsWrite hw)).elim) fun hp => (hfree hp).elim

omit [DecidableEq θ] in
/-- A runtime moves on, and does not come to life. -/
theorem Disciplined.advance {s : MultiBookState θ} (h : Disciplined s) {i : ℕ} {r : BookRuntime}
    {r' : RuntimeState ℕ} (hr : s.runtimes i = some r)
    (hlive : BookRuntime.Live { r with state := r' } → r.Live) :
    Disciplined (s.setRuntime i { r with state := r' }) := by
  -- every runtime was there before, for the same book, and was live if it is
  have hbefore : ∀ j q, (s.setRuntime i { r with state := r' }).runtimes j = some q →
      ∃ q', s.runtimes j = some q' ∧ q'.code = q.code ∧ (q.Live → q'.Live) := by
    intro j q hq
    by_cases hji : j = i
    · subst hji
      rw [s.runtimes_setRuntime_self] at hq
      cases hq
      exact ⟨r, hr, rfl, hlive⟩
    · rw [s.runtimes_setRuntime_of_ne hji] at hq
      exact ⟨q, hq, rfl, id⟩
  have hafter : ∀ j q, s.runtimes j = some q →
      ∃ q', (s.setRuntime i { r with state := r' }).runtimes j = some q' ∧ q'.code = q.code := by
    intro j q hq
    by_cases hji : j = i
    · subst hji
      rw [hr] at hq
      cases hq
      exact ⟨_, s.runtimes_setRuntime_self j _, rfl⟩
    · exact ⟨q, (s.runtimes_setRuntime_of_ne hji _).trans hq, rfl⟩
  refine ⟨h.exclusive, h.nodup, ?_, ?_, ?_, ?_⟩
  · intro code j hj
    obtain ⟨q, hq, hcode⟩ := h.known code j hj
    obtain ⟨q', hq', hsame⟩ := hafter j q hq
    exact ⟨q', hq', hsame.trans hcode⟩
  · intro t j hj
    obtain ⟨q, hq⟩ := h.started t j hj
    obtain ⟨q', hq', -⟩ := hafter j q hq
    exact ⟨q', hq'⟩
  · intro j q hq hqlive
    obtain ⟨q', hq', -, hlive'⟩ := hbefore j q hq
    exact h.owned j q' hq' (hlive' hqlive)
  · intro j k q q' hj hk hq hq' hcode
    obtain ⟨p, hp, hpq, -⟩ := hbefore j q hq
    obtain ⟨p', hp', hpq', -⟩ := hbefore k q' hq'
    exact h.unique j k p p' hj hk hp hp' (hpq.trans (hcode.trans hpq'.symm))

/-- No step brings a runtime to life. -/
theorem live_of_step {s s' : RuntimeState ℕ} {e : Event ℕ} (h : RuntimeStep s e s')
    (hlive : s'.writer ≠ .exited ∨ s'.storeOpen = true) :
    s.writer ≠ .exited ∨ s.storeOpen = true := by
  cases h with
  | call h => cases h <;> exact hlive
  | close h =>
    have hwriter : s'.writer = s.writer := by cases h <;> rfl
    have hopen : s'.storeOpen = true → s.storeOpen = true := by
      cases h with
      | closeUnstarted open' => exact fun h => (Bool.and_eq_true_iff.mp h).1
      | closeStoreRaises open' => exact fun h => (Bool.and_eq_true_iff.mp h).1
      | closeStore => exact fun h => nomatch h
      | _ => exact id
    exact hlive.imp (fun hw => hwriter ▸ hw) hopen
  | writer h =>
    -- a writer that takes a step has not exited
    left
    intro hexited
    cases h <;> simp_all

omit [DecidableEq θ] in
/-- An owned runtime was started. -/
theorem Disciplined.started_of_owned {s : MultiBookState θ} (h : Disciplined s) {i : ℕ}
    (hi : s.Owned i) : ∃ r, s.runtimes i = some r := by
  rcases hi with ⟨code, hcode⟩ | ⟨t, ht⟩
  · obtain ⟨r, hr, -⟩ := h.known code i hcode
    exact ⟨r, hr⟩
  · exact h.started t i ht

omit [DecidableEq θ] in
/-- A runtime is started for a book none of whose runtimes is owned. -/
theorem Disciplined.start {s s' : MultiBookState θ} (h : Disciplined s) {i : ℕ} {r : BookRuntime}
    (hfresh : s.runtimes i = none) (hnone : ∀ j q, s.Owned j → s.runtimes j = some q →
      q.code ≠ r.code)
    (hruntimes : s'.runtimes = Function.update s.runtimes i (some r))
    (hexclusive : ∀ t u, (s'.threads t).HoldsWrite → (s'.threads u).Holds → t = u)
    (hnodup : s'.table.keys.Nodup)
    (hknown : ∀ code j, s'.table.get? code = some j →
      j = i ∧ r.code = code ∨ s.table.get? code = some j)
    (howned : ∀ j, s'.Owned j ↔ j = i ∨ s.Owned j) : Disciplined s' := by
  have hself : s'.runtimes i = some r := by rw [hruntimes, Function.update_self]
  -- what is owned was there before, so it is another runtime
  have hother : ∀ j, s.Owned j → s'.runtimes j = s.runtimes j := by
    intro j hj
    obtain ⟨q, hq⟩ := h.started_of_owned hj
    rw [hruntimes, Function.update_of_ne]
    rintro rfl
    rw [hfresh] at hq
    cases hq
  refine ⟨hexclusive, hnodup, ?_, ?_, ?_, ?_⟩
  · intro code j hj
    rcases hknown code j hj with ⟨rfl, hcode⟩ | hj
    · exact ⟨r, hself, hcode⟩
    · rw [hother j (.inl ⟨code, hj⟩)]
      exact h.known code j hj
  · intro t j hj
    rcases (howned j).mp (.inr ⟨t, hj⟩) with rfl | hj
    · exact ⟨r, hself⟩
    · rw [hother j hj]
      exact h.started_of_owned hj
  · intro j q hq hlive
    refine (howned j).mpr ?_
    by_cases hji : j = i
    · exact .inl hji
    · rw [hruntimes, Function.update_of_ne hji] at hq
      exact .inr (h.owned j q hq hlive)
  · intro j k q q' hj hk hq hq' hcode
    rcases (howned j).mp hj with rfl | hj
    · rcases (howned k).mp hk with rfl | hk
      · rfl
      · rw [hself] at hq
        cases hq
        rw [hother k hk] at hq'
        exact (hnone k q' hk hq' hcode.symm).elim
    · rw [hother j hj] at hq
      rcases (howned k).mp hk with rfl | hk
      · rw [hself] at hq'
        cases hq'
        exact (hnone j q hj hq hcode).elim
      · rw [hother k hk] at hq'
        exact h.unique j k q q' hj hk hq hq' hcode

omit [DecidableEq θ] in
/-- Under the write lock, no runtime of a book that is neither open nor being closed is
owned. -/
theorem Disciplined.none_owned {s : MultiBookState θ} (h : Disciplined s) {t : θ} {c : MultiCall}
    {code : String} (hlocked : s.threads t = .locked c)
    (hnew : s.table.get? code = none) (horderly : Orderly s (.start code)) (j : ℕ)
    (q : BookRuntime) (hj : s.Owned j) (hq : s.runtimes j = some q) : q.code ≠ code := by
  rintro rfl
  rcases hj with ⟨code, hcode⟩ | ⟨u, hu⟩
  · obtain ⟨r, hr, hrcode⟩ := h.known code j hcode
    rw [hq] at hr
    cases hr
    rw [← hrcode, hnew] at hcode
    cases hcode
  · cases hphase : s.threads u with
    | creating i k =>
      -- another thread in `create_book` would have the write lock
      have hut : u = t := h.exclusive u t (by rw [hphase]; trivial) (by rw [hlocked]; trivial)
      rw [hut, hlocked] at hphase
      cases hphase
    | closing l =>
      rw [hphase] at hu
      exact horderly u l hphase j hu q hq rfl
    | _ =>
      rw [hphase] at hu
      cases hu

/-- Who owns a runtime after a thread has moved on. -/
theorem owned_goto {s : MultiBookState θ} {t : θ} {phase : ThreadPhase}
    (hnone : (s.threads t).owned = []) {i : ℕ} :
    (s.goto t phase).Owned i ↔ i ∈ phase.owned ∨ s.Owned i := by
  constructor
  · rintro (hi | ⟨u, hu⟩)
    · exact .inr (.inl hi)
    · by_cases hut : u = t
      · subst hut
        rw [s.threads_goto_self] at hu
        exact .inl hu
      · rw [s.threads_goto_of_ne hut] at hu
        exact .inr (.inr ⟨u, hu⟩)
  · rintro (hi | hi | ⟨u, hu⟩)
    · refine .inr ⟨t, ?_⟩
      rwa [s.threads_goto_self]
    · exact .inl hi
    · have hut : u ≠ t := by
        rintro rfl
        rw [hnone] at hu
        cases hu
      refine .inr ⟨u, ?_⟩
      rwa [s.threads_goto_of_ne hut]

/-- Who owns a runtime when the table changes and a thread moves on. -/
theorem owned_setTable_goto {s : MultiBookState θ} {t : θ} {phase : ThreadPhase}
    {table : Dict String ℕ} {i : ℕ} : ((s.setTable table).goto t phase).Owned i ↔
      (∃ code, table.get? code = some i) ∨ i ∈ phase.owned ∨
        ∃ u, u ≠ t ∧ i ∈ (s.threads u).owned := by
  refine or_congr Iff.rfl ?_
  constructor
  · rintro ⟨u, hu⟩
    by_cases hut : u = t
    · subst hut
      rw [MultiBookState.threads_goto_self] at hu
      exact .inl hu
    · rw [MultiBookState.threads_goto_of_ne _ hut] at hu
      exact .inr ⟨u, hut, hu⟩
  · rintro (hi | ⟨u, hut, hu⟩)
    · exact ⟨t, by rwa [MultiBookState.threads_goto_self]⟩
    · exact ⟨u, by rwa [MultiBookState.threads_goto_of_ne _ hut]⟩

/-- `create_book` puts the runtime it has started into the table. -/
theorem Disciplined.createReturns {s : MultiBookState θ} (h : Disciplined s) {t : θ}
    {i future : ℕ} {r : BookRuntime} (hphase : s.threads t = .creating i future)
    (hr : s.runtimes i = some r) :
    Disciplined ((s.setTable (s.table.set r.code i)).goto t .idle) := by
  have hself : s.Owned i := .inr ⟨t, by rw [hphase]; exact List.mem_singleton_self i⟩
  refine h.reassign rfl (h.exclusive_goto False.elim False.elim)
    (Dict.nodup_keys_set h.nodup _ _) ?_ ?_ ?_
  · intro code j hj
    change (s.table.set r.code i).get? code = some j at hj
    rw [Dict.get?_set] at hj
    split at hj
    · next hcode =>
      cases hj
      exact ⟨r, hr, hcode⟩
    · exact h.known code j hj
  · intro j hj
    rcases owned_setTable_goto.mp hj with ⟨code, hcode⟩ | hj | ⟨u, -, hu⟩
    · rw [Dict.get?_set] at hcode
      split at hcode
      · cases hcode
        exact hself
      · exact .inl ⟨code, hcode⟩
    · cases hj
    · exact .inr ⟨u, hu⟩
  · intro j q hq _ hj
    refine owned_setTable_goto.mpr ?_
    by_cases hji : j = i
    · exact .inl ⟨r.code, by rw [hji, Dict.get?_set_self]⟩
    · rcases hj with ⟨code, hcode⟩ | ⟨u, hu⟩
      · -- an entry under the same code would be the same runtime
        refine .inl ⟨code, ?_⟩
        rw [Dict.get?_set_of_ne]
        · exact hcode
        · rintro rfl
          obtain ⟨q', hq', hsame⟩ := h.known _ j hcode
          exact hji (h.unique j i q' r (.inl ⟨_, hcode⟩) hself hq' hr hsame)
      · refine .inr (.inr ⟨u, ?_, hu⟩)
        rintro rfl
        rw [hphase] at hu
        exact hji (List.mem_singleton.mp hu)

/-- `open_book` puts a new runtime into the table. -/
theorem Disciplined.openStart {s : MultiBookState θ} (h : Disciplined s) {t : θ} {code : String}
    {i : ℕ} {state : RuntimeState ℕ} (hphase : s.threads t = .locked (.openBook code))
    (hnew : s.table.get? code = none) (hfresh : s.runtimes i = none)
    (horderly : Orderly s (.start code)) :
    Disciplined
      (((s.setRuntime i ⟨code, state⟩).setTable (s.table.set code i)).goto t .idle) := by
  refine h.start hfresh (h.none_owned hphase hnew horderly) rfl
    (h.exclusive_goto False.elim False.elim) (Dict.nodup_keys_set h.nodup _ _) ?_ fun j => ?_
  · intro code' j hj
    change (s.table.set code i).get? code' = some j at hj
    rw [Dict.get?_set] at hj
    split at hj
    · next hcode =>
      cases hj
      exact .inl ⟨rfl, hcode⟩
    · exact .inr hj
  · rw [owned_setTable_goto]
    constructor
    · rintro (⟨code', hcode⟩ | hj | ⟨u, -, hu⟩)
      · rw [Dict.get?_set] at hcode
        split at hcode
        · cases hcode
          exact .inl rfl
        · exact .inr (.inl ⟨code', hcode⟩)
      · cases hj
      · exact .inr (.inr ⟨u, hu⟩)
    · rintro (rfl | ⟨code', hcode⟩ | ⟨u, hu⟩)
      · exact .inl ⟨code, Dict.get?_set_self ..⟩
      · refine .inl ⟨code', ?_⟩
        rw [Dict.get?_set_of_ne]
        · exact hcode
        · rintro rfl
          rw [hnew] at hcode
          cases hcode
      · refine .inr (.inr ⟨u, ?_, hu⟩)
        rintro rfl
        rw [hphase] at hu
        cases hu

/-- Runtimes are taken out of the table, to be closed. -/
theorem Disciplined.take {s : MultiBookState θ} (h : Disciplined s) {t : θ}
    {table : Dict String ℕ} {runtimes : List ℕ} (hnone : (s.threads t).owned = [])
    (hnodup : table.keys.Nodup)
    (hless : ∀ code i, table.get? code = some i → s.table.get? code = some i)
    (htaken : ∀ i ∈ runtimes, ∃ code, s.table.get? code = some i)
    (hkept : ∀ code i, s.table.get? code = some i → table.get? code = some i ∨ i ∈ runtimes) :
    Disciplined ((s.setTable table).goto t (.closing runtimes)) := by
  refine h.reassign rfl (h.exclusive_goto False.elim False.elim) hnodup
    (fun code i hi => h.known code i (hless code i hi)) ?_ ?_
  · intro i hi
    rcases owned_setTable_goto.mp hi with ⟨code, hcode⟩ | hi | ⟨u, -, hu⟩
    · exact .inl ⟨code, hless code i hcode⟩
    · exact .inl (htaken i hi)
    · exact .inr ⟨u, hu⟩
  · intro i q _ _ hi
    refine owned_setTable_goto.mpr ?_
    rcases hi with ⟨code, hcode⟩ | ⟨u, hu⟩
    · rcases hkept code i hcode with hin | hin
      · exact .inl ⟨code, hin⟩
      · exact .inr (.inl hin)
    · refine .inr (.inr ⟨u, ?_, hu⟩)
      rintro rfl
      rw [hnone] at hu
      cases hu

/-- A thread has closed a runtime that is no longer live. -/
theorem Disciplined.drop {s : MultiBookState θ} (h : Disciplined s) {t : θ} {i : ℕ}
    {rest : List ℕ} {r : BookRuntime} (hphase : s.threads t = .closing (i :: rest))
    (hr : s.runtimes i = some r) (hdead : ¬ r.Live) :
    Disciplined (s.goto t (.closing rest)) := by
  have howned : ∀ j, ((s.setTable s.table).goto t (.closing rest)).Owned j ↔
      (∃ code, s.table.get? code = some j) ∨ j ∈ rest ∨
        ∃ u, u ≠ t ∧ j ∈ (s.threads u).owned := fun _ => owned_setTable_goto
  refine h.reassign rfl (h.exclusive_goto False.elim False.elim) h.nodup h.known ?_ ?_
  · intro j hj
    rcases (howned j).mp hj with hj | hj | ⟨u, -, hu⟩
    · exact .inl hj
    · exact .inr ⟨t, by rw [hphase]; exact List.mem_cons_of_mem i hj⟩
    · exact .inr ⟨u, hu⟩
  · intro j q hq hlive hj
    refine (howned j).mpr ?_
    rcases hj with hj | ⟨u, hu⟩
    · exact .inl hj
    · by_cases hut : u = t
      · subst hut
        rw [hphase] at hu
        rcases List.mem_cons.mp hu with rfl | hj
        · rw [hr] at hq
          cases hq
          exact (hdead hlive).elim
        · exact .inr (.inl hj)
      · exact .inr (.inr ⟨u, hut, hu⟩)

variable {cwd : List String} {config : MultiBookRuntimeConfig}

/-- **What a step of a thread preserves**, under the condition. -/
theorem Disciplined.threadStep {s s' : MultiBookState θ} {t : θ} {e : MultiEvent}
    (h : Disciplined s) (hstep : ThreadStep cwd config s t e s') (horderly : Orderly s e) :
    Disciplined s' := by
  cases hstep with
  | call c hphase _ => exact h.release (by rw [hphase]; rfl) id
  | lockTimeout hphase => exact h.release (by rw [hphase]; rfl) id
  | acquireWrite hphase hwrite hfree =>
    exact h.goto (by rw [hphase]; rfl) (fun _ u _ => hfree u)
      fun _ u _ hu => hfree u (ThreadPhase.holds_of_holdsWrite hu)
  | acquireRead hphase hread hfree =>
    exact h.goto (by rw [hphase]; rfl) (fun hnot => (hnot hread).elim) fun _ u _ => hfree u
  | createRefused hphase => exact h.release (by rw [hphase]; rfl) id
  | @createStart book ctx c i future db hphase hnew hconfig hfresh =>
    have hlock : ∀ u, u ≠ t → ¬ (s.threads u).Holds := by
      intro u hut hu
      exact hut (h.exclusive t u (by rw [hphase]; exact id) hu).symm
    refine h.start hfresh (h.none_owned hphase hnew horderly) rfl
      (h.exclusive_goto (fun _ => hlock) fun _ u hut hu =>
        hlock u hut (ThreadPhase.holds_of_holdsWrite hu)) h.nodup (fun _ _ => .inr) fun j => ?_
    refine (owned_goto (s := s) (by rw [hphase]; rfl)).trans (or_congr ?_ Iff.rfl)
    exact List.mem_singleton
  | createReturns hphase hr hdone => exact h.createReturns hphase hr
  | createRaises => exact horderly.elim
  | openNothing hphase => exact h.release (by rw [hphase]; rfl) id
  | openStart i db hphase hnew hconfig hfresh => exact h.openStart hphase hnew hfresh horderly
  | @pop code i hphase hget =>
    refine h.take (by rw [hphase]; rfl) (Dict.nodup_keys_erase h.nodup code) ?_ ?_ ?_
    · intro code' j hj
      rw [Dict.get?_erase] at hj
      split at hj
      · cases hj
      · exact hj
    · intro j hj
      rw [List.mem_singleton.mp hj]
      exact ⟨code, hget⟩
    · intro code' j hj
      rw [Dict.get?_erase]
      split
      · next heq =>
        rw [← heq, hget] at hj
        cases hj
        exact .inr (List.mem_singleton_self i)
      · exact .inl hj
  | popNothing hphase hget => exact h.release (by rw [hphase]; rfl) id
  | drain hphase =>
    refine h.take (by rw [hphase]; rfl) List.nodup_nil ?_ ?_ ?_
    · intro code j hj
      cases hj
    · intro j hj
      obtain ⟨⟨code, j⟩, hmem, rfl⟩ := List.mem_map.mp hj
      exact ⟨code, Dict.get?_eq_some_of_mem h.nodup hmem⟩
    · intro code j hj
      exact .inr (List.mem_map_of_mem (f := Prod.snd) (Dict.mem_of_get?_eq_some hj))
  | closeStep hphase hr hstep hgoes => exact h.advance hr (live_of_step (.close hstep))
  | @closeReturns i rest r e r' hphase hr hstep hends hclosed =>
    have hadvanced := h.advance hr (live_of_step (.close hstep))
    refine hadvanced.drop hphase (s.runtimes_setRuntime_self i _) ?_
    rintro (hwriter | hopen)
    · exact hwriter horderly
    · rw [hclosed.2] at hopen
      cases hopen
  | closeRaises => exact horderly.elim
  | closeEnds hphase => exact h.release (by rw [hphase]; rfl) id
  | @routed code command i r future hphase hget hr hunused =>
    have hadvanced := h.advance hr (live_of_step (.call (.enter command hunused)))
    exact hadvanced.release (congrArg ThreadPhase.owned hphase).symm id
  | routeUnknown hphase hget => exact h.release (by rw [hphase]; rfl) id
  | callEnds hphase hr hdone => exact h.release (by rw [hphase]; rfl) id
  | callStep hphase hr hstep => exact h.advance hr (live_of_step (.call hstep))

/-- **What a step preserves**, under the condition. -/
theorem Disciplined.step {s s' : MultiBookState θ} {e : MultiEvent} (h : Disciplined s)
    (hstep : MultiBookStep cwd config s e s') (horderly : Orderly s e) : Disciplined s' := by
  cases hstep with
  | thread hstep => exact h.threadStep hstep horderly
  | writer hr hstep => exact h.advance hr (live_of_step (.writer hstep))

omit [DecidableEq θ] in
theorem Disciplined.init : Disciplined ({} : MultiBookState θ) where
  exclusive _ _ ht := ht.elim
  nodup := List.nodup_nil
  known _ _ hi := nomatch hi
  started _ _ hi := nomatch hi
  owned _ _ hr := nomatch hr
  unique _ _ _ _ _ _ hr := nomatch hr

/-- **The invariant holds in every orderly run.** -/
theorem Disciplined.of_run {tr : List MultiEvent} {s : MultiBookState θ}
    (hrun : OrderlyRun cwd config tr s) : Disciplined s :=
  hrun.invariant (p := fun _ s => Disciplined s) .init fun _ _ _ _ h hstep => h.step hstep.1 hstep.2

/-- **At every moment of an orderly run** a book has at most one runtime whose writer runs or
whose store is open. -/
theorem oneWriter_of_run {tr : List MultiEvent} {s : MultiBookState θ}
    (hrun : OrderlyRun cwd config tr s) : OneWriter s := by
  have h := Disciplined.of_run hrun
  intro i j r r' hr hr' hlive hlive' hcode
  exact h.unique i j r r' (h.owned i r hr hlive) (h.owned j r' hr' hlive') hr hr' hcode

/-! ### The runtimes -/

/-- The runtime is one of a run. -/
def BookRuntime.Runs (r : BookRuntime) : Prop :=
  ∃ live db₀ tr, RuntimeRun live db₀ tr r.state

theorem BookRuntime.Runs.step {r : BookRuntime} {e : Event ℕ} {r' : RuntimeState ℕ} (h : r.Runs)
    (hstep : RuntimeStep r.state e r') : BookRuntime.Runs { r with state := r' } := by
  obtain ⟨live, db₀, tr, hrun⟩ := h
  exact ⟨live, db₀, _, hrun.snoc hstep⟩

omit [DecidableEq θ] in
/-- A runtime that moves on, among runtimes of runs. -/
theorem runs_setRuntime {s : MultiBookState θ} {i : ℕ} {r : BookRuntime}
    (h : ∀ j q, s.runtimes j = some q → q.Runs) (hr : r.Runs) (j : ℕ) (q : BookRuntime)
    (hq : (s.setRuntime i r).runtimes j = some q) : q.Runs := by
  by_cases hji : j = i
  · subst hji
    rw [s.runtimes_setRuntime_self] at hq
    cases hq
    exact hr
  · rw [s.runtimes_setRuntime_of_ne hji] at hq
    exact h j q hq

/-- **Every runtime takes the steps of a runtime**: what holds of the runs of a
`LedgerRuntime` holds of each runtime of the books. -/
theorem runtimeRun_of_run {tr : List MultiEvent} {s : MultiBookState θ}
    (hrun : MultiBookRun cwd config tr s) : ∀ i r, s.runtimes i = some r → r.Runs := by
  refine Traced.invariant (p := fun _ s => ∀ i r, s.runtimes i = some r → r.Runs) hrun
    (fun _ _ h => nomatch h) ?_
  intro _ x e y h hstep
  have hstarted : ∀ (code : String) (c : RuntimeConfig) (db : Database),
      BookRuntime.Runs ⟨code, startedRuntime cwd c db⟩ := fun _ _ db => ⟨_, db, [], .nil⟩
  cases hstep with
  | writer hr hstep => exact runs_setRuntime h ((h _ _ hr).step (.writer hstep))
  | thread hstep =>
    cases hstep with
    | @createStart book ctx c i future db hphase hnew hconfig hfresh =>
      have henter : RuntimeStep (startedRuntime cwd c db) .internal
          ((startedRuntime cwd c db).goto future (.acquiring (.createBook book ctx))) :=
        .call (.enter _ rfl)
      exact runs_setRuntime h ((hstarted book.code c db).step henter)
    | openStart i db hphase hnew hconfig hfresh => exact runs_setRuntime h (hstarted _ _ db)
    | closeStep hphase hr hstep _ => exact runs_setRuntime h ((h _ _ hr).step (.close hstep))
    | closeReturns hphase hr hstep _ _ => exact runs_setRuntime h ((h _ _ hr).step (.close hstep))
    | closeRaises hphase hr hstep _ _ => exact runs_setRuntime h ((h _ _ hr).step (.close hstep))
    | @routed code command i r future hphase hget hr hunused =>
      exact runs_setRuntime h ((h _ _ hr).step (.call (.enter command hunused)))
    | callStep hphase hr hstep => exact runs_setRuntime h ((h _ _ hr).step (.call hstep))
    | _ => exact h

/-! ### Opening and closing a book -/

/-- A thread is back where it was. -/
theorem goto_goto {s : MultiBookState θ} {t : θ} {p q : ThreadPhase} :
    (s.goto t p).goto t q = s.goto t q := by
  rw [MultiBookState.goto, MultiBookState.goto, MultiBookState.goto]
  simp [Function.update_idem]

theorem goto_self {s : MultiBookState θ} {t : θ} {p : ThreadPhase} (h : s.threads t = p) :
    s.goto t p = s := by
  rw [MultiBookState.goto, ← h, Function.update_eq_self]

/-- The state after an open. -/
def MultiBookState.opened (s : MultiBookState θ) (code : String) (i : ℕ) (r : RuntimeState ℕ) :
    MultiBookState θ :=
  (s.setRuntime i ⟨code, r⟩).setTable (s.table.set code i)

section

variable {move : MultiBookState θ → MultiEvent → MultiBookState θ → Prop}
  {s : MultiBookState θ} {tr : List MultiEvent} {t : θ} {code : String} {i : ℕ}

/-- A call takes the lock, when no thread has it. -/
theorem traced_locked (hrun : Traced move {} tr s)
    (hmove : ∀ x y, MultiBookStep cwd config x .internal y → move x .internal y)
    {c : MultiCall} (hwrite : ¬ c.IsRead) (haccepted : c.Accepted) (hidle : s.threads t = .idle)
    (hfree : ∀ u, ¬ (s.threads u).Holds) :
    Traced move {} (tr ++ [.internal] ++ [.internal]) (s.goto t (.locked c)) := by
  have hcall := hrun.snoc (hmove _ _ (.thread (.call c hidle haccepted)))
  refine goto_goto (s := s) (t := t) ▸ hcall.snoc (hmove _ _ (.thread (.acquireWrite ?_ hwrite ?_)))
  · exact s.threads_goto_self t _
  · intro u hu
    by_cases hut : u = t
    · subst hut
      rw [s.threads_goto_self] at hu
      exact hu
    · rw [s.threads_goto_of_ne hut] at hu
      exact hfree u hu

/-- A book that is not open is opened. -/
theorem traced_opened {c : RuntimeConfig} (hrun : Traced move {} tr s)
    (hmove : ∀ x y, MultiBookStep cwd config x .internal y → move x .internal y)
    (hstart : ∀ y, MultiBookStep cwd config (s.goto t (.locked (.openBook code))) (.start code) y →
      move (s.goto t (.locked (.openBook code))) (.start code) y)
    (haccepted : (requireNonEmptyStr code "book_code").Succeeds) (hidle : s.threads t = .idle)
    (hfree : ∀ u, ¬ (s.threads u).Holds) (hnew : s.table.get? code = none)
    (hconfig : runtimeConfigFor config code = .ok c) (hfresh : s.runtimes i = none) :
    Traced move {} (tr ++ [.internal] ++ [.internal] ++ [.start code])
      (s.opened code i (startedRuntime cwd c {})) := by
  have hlocked := traced_locked hrun hmove (c := .openBook code) id haccepted hidle hfree
  have hopen := hlocked.snoc (hstart _ (.thread
    (.openStart i {} (s.threads_goto_self t _) hnew hconfig hfresh)))
  have hend : (((s.goto t (.locked (.openBook code))).setRuntime i
      ⟨code, startedRuntime cwd c {}⟩).setTable (s.table.set code i)).goto t .idle =
        s.opened code i (startedRuntime cwd c {}) :=
    (goto_goto (s := s.opened code i (startedRuntime cwd c {}))).trans (goto_self hidle)
  exact hend ▸ hopen

end

end

/-! ### Evaluated -/

namespace Reference

/-- A runtime that has just been started for the book `A`. -/
def runtimeA : RuntimeState ℕ :=
  startedRuntime [] { databasePath := databasePath dataConfig "A" } {}

/-- The book is open. -/
def openA : MultiBookState Bool := MultiBookState.opened {} "A" 0 runtimeA

/-- One thread is closing the book. -/
def closingA : MultiBookState Bool :=
  (openA.setTable (openA.table.erase "A")).goto false (.closing [0])

theorem accepted_A : (requireNonEmptyStr "A" "book_code").Succeeds := ⟨_, rfl⟩

theorem orderlyRun_openA : OrderlyRun [] dataConfig [.internal, .internal, .start "A"] openA := by
  refine traced_opened .nil (fun _ _ hstep => ⟨hstep, trivial⟩) (fun _ hstep => ⟨hstep, ?_⟩)
    accepted_A rfl (fun _ => id) rfl (runtimeConfigFor_dataConfig "A") rfl (t := false)
  intro t runtimes hphase
  exfalso
  revert hphase
  cases t <;> simp [MultiBookState.goto, Function.update]

/-- A thread takes the book from the table, to close it. -/
theorem orderlyRun_closingA : ∃ tr, OrderlyRun [] dataConfig tr closingA := by
  have hlocked : OrderlyRun [] dataConfig _ (openA.goto false (.locked (.closeBook "A"))) :=
    traced_locked orderlyRun_openA (fun _ _ hstep => ⟨hstep, trivial⟩) id accepted_A rfl
      fun _ => id
  have hclosing : OrderlyRun [] dataConfig _ closingA :=
    goto_goto (s := openA.setTable _) (t := false) ▸
      hlocked.snoc ⟨.thread (.pop (openA.threads_goto_self false _) rfl), trivial⟩
  exact ⟨_, hclosing⟩

/-- The book while one thread is closing its runtime. -/
def closingWith (r : RuntimeState ℕ) : MultiBookState Bool := closingA.setRuntime 0 ⟨"A", r⟩

/-- The runtime of the book while it is closed. -/
def stoppingA (stop : Bool) (queue : List (Option (QueuedCommand ℕ))) (closer : ClosePhase)
    (writer : WriterPhase ℕ) : RuntimeState ℕ :=
  { runtimeA with stopEvent := stop, queue := queue, closer := closer, writer := writer }

/-- The runtime of the book after it was closed. -/
def stoppedA : RuntimeState ℕ :=
  { stoppingA true [] .notCalled .exited with storeOpen := false, started := false }

/-- The book is closed. -/
def closedA : MultiBookState Bool := (closingWith stoppedA).goto false .idle

theorem setRuntime_closingWith (r r' : RuntimeState ℕ) :
    (closingWith r).setRuntime 0 ⟨"A", r'⟩ = closingWith r' := by
  rw [closingWith, closingWith, MultiBookState.setRuntime, MultiBookState.setRuntime]
  simp [MultiBookState.setRuntime, Function.update_idem]

/-- The runtime goes on, while it is closed. -/
theorem orderlyRun_closingWith {tr : List MultiEvent} {r r' : RuntimeState ℕ}
    (hrun : OrderlyRun [] dataConfig tr (closingWith r))
    (hstep : MultiBookStep [] dataConfig (closingWith r) .internal
      ((closingWith r).setRuntime 0 ⟨"A", r'⟩)) :
    OrderlyRun [] dataConfig (tr ++ [.internal]) (closingWith r') :=
  setRuntime_closingWith r r' ▸ hrun.snoc ⟨hstep, trivial⟩

theorem orderlyRun_closeStep {tr : List MultiEvent} {r r' : RuntimeState ℕ} {e : Event ℕ}
    (hrun : OrderlyRun [] dataConfig tr (closingWith r)) (hstep : CloseStep r e r')
    (hgoes : r'.closer ≠ .notCalled) :
    OrderlyRun [] dataConfig (tr ++ [.internal]) (closingWith r') :=
  orderlyRun_closingWith hrun (.thread (.closeStep (t := false) rfl
    (closingA.runtimes_setRuntime_self 0 _) hstep hgoes))

theorem orderlyRun_writerStep {tr : List MultiEvent} {r r' : RuntimeState ℕ} {e : Event ℕ}
    (hrun : OrderlyRun [] dataConfig tr (closingWith r)) (hstep : WriterStep r e r') :
    OrderlyRun [] dataConfig (tr ++ [.internal]) (closingWith r') :=
  orderlyRun_closingWith hrun (.writer (closingA.runtimes_setRuntime_self 0 _) hstep)

/-- The writer is joined while the book is closed. -/
theorem orderlyRun_joinedA :
    ∃ tr, OrderlyRun [] dataConfig tr (closingWith (stoppingA true [] .closing .exited)) := by
  obtain ⟨tr, hclosing⟩ := orderlyRun_closingA
  have hinit : closingWith (stoppingA false [] .notCalled .testingStop) = closingA := by
    have hr : closingA.runtimes 0 = some ⟨"A", runtimeA⟩ := rfl
    rw [closingWith, MultiBookState.setRuntime]
    exact congrArg (fun f => { closingA with runtimes := f })
      (Function.update_eq_self_iff.mpr hr.symm)
  have h : OrderlyRun [] dataConfig _ (closingWith (stoppingA false [] .notCalled .testingStop)) :=
    hinit ▸ hclosing
  have h : OrderlyRun [] dataConfig _ (closingWith (stoppingA false [] .acquiring .testingStop)) :=
    orderlyRun_closeStep h (.enter rfl rfl) nofun
  have h : OrderlyRun [] dataConfig _ (closingWith (stoppingA false [] .locked .testingStop)) :=
    orderlyRun_closeStep h (.acquireWrite rfl fun _ => id) nofun
  have h : OrderlyRun [] dataConfig _ (closingWith (stoppingA true [] .stopping .testingStop)) :=
    orderlyRun_closeStep h (.setStop rfl) nofun
  have h : OrderlyRun [] dataConfig _ (closingWith (stoppingA true [none] .joining .testingStop)) :=
    orderlyRun_closeStep h (.putSentinel rfl) nofun
  have h : OrderlyRun [] dataConfig _ (closingWith (stoppingA true [none] .joining .testingEmpty)) :=
    orderlyRun_writerStep h (.stopped rfl rfl)
  have h : OrderlyRun [] dataConfig _ (closingWith (stoppingA true [none] .joining .getting)) :=
    orderlyRun_writerStep h (.nonempty rfl nofun)
  have h : OrderlyRun [] dataConfig _ (closingWith (stoppingA true [] .joining .testingStop)) :=
    orderlyRun_writerStep h (.getSentinel rfl rfl)
  have h : OrderlyRun [] dataConfig _ (closingWith (stoppingA true [] .joining .testingEmpty)) :=
    orderlyRun_writerStep h (.stopped rfl rfl)
  have h : OrderlyRun [] dataConfig _ (closingWith (stoppingA true [] .joining .exited)) :=
    orderlyRun_writerStep h (.exit rfl rfl)
  exact ⟨_, orderlyRun_closeStep h (.join rfl) nofun⟩

/-- The book is opened and closed, and the close returns. -/
theorem orderlyRun_closedA : ∃ tr, OrderlyRun [] dataConfig tr closedA := by
  obtain ⟨tr, h⟩ := orderlyRun_joinedA
  have hreturn : OrderlyRun [] dataConfig _ ((closingWith stoppedA).goto false (.closing [])) :=
    setRuntime_closingWith _ stoppedA ▸ h.snoc ⟨.thread (.closeReturns (t := false)
      (show _ = ThreadPhase.closing (0 :: []) from rfl) (closingA.runtimes_setRuntime_self 0 _)
      (.closeStore rfl) rfl ⟨rfl, rfl⟩), rfl⟩
  have hidle : OrderlyRun [] dataConfig _ closedA :=
    goto_goto (s := closingWith stoppedA) (t := false) ▸
      hreturn.snoc ⟨.thread (.closeEnds ((closingWith stoppedA).threads_goto_self false _)), trivial⟩
  exact ⟨_, hidle⟩

/-- A book is opened, closed and opened again: it has had two runtimes, one after the other. -/
theorem oneWriter_reopened : ∃ s : MultiBookState Bool, s.runtimes 0 = some ⟨"A", stoppedA⟩ ∧
    s.runtimes 1 = some ⟨"A", runtimeA⟩ ∧ OneWriter s := by
  obtain ⟨tr, hclosed⟩ := orderlyRun_closedA
  have hrun : OrderlyRun [] dataConfig (tr ++ [.internal] ++ [.internal] ++ [.start "A"])
      (closedA.opened "A" 1 runtimeA) := by
    refine traced_opened hclosed (fun _ _ hstep => ⟨hstep, trivial⟩) (fun _ hstep => ⟨hstep, ?_⟩)
      accepted_A rfl ?_ rfl (runtimeConfigFor_dataConfig "A") rfl (t := true)
    · intro t runtimes hphase
      exfalso
      revert hphase
      cases t <;> simp [closedA, MultiBookState.goto, Function.update]
    · intro u
      cases u <;> exact id
  exact ⟨_, rfl, rfl, oneWriter_of_run hrun⟩

/-- A book is opened again while another thread is closing it: two of its runtimes are live. -/
theorem reopened_overlaps : ∃ tr, MultiBookRun [] dataConfig tr (closingA.opened "A" 1 runtimeA) ∧
    ¬ OneWriter (closingA.opened "A" 1 runtimeA) := by
  obtain ⟨tr, horderly⟩ := orderlyRun_closingA
  have hclosing : MultiBookRun [] dataConfig tr closingA := horderly.mono fun _ _ _ h => h.1
  refine ⟨_, traced_opened hclosing (fun _ _ => id) (fun _ => id) accepted_A rfl ?_ rfl
    (runtimeConfigFor_dataConfig "A") rfl (t := true), ?_⟩
  · intro u
    cases u <;> exact id
  · intro hone
    have hsame := hone 0 1 ⟨"A", runtimeA⟩ ⟨"A", runtimeA⟩ rfl rfl (.inr rfl) (.inr rfl) rfl
    cases hsame

end Reference

end FinestVX
