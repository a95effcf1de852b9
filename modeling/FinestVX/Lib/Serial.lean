import FinestVX.Lib.Queries
import FinestVX.Lib.Transition
import Mathlib.Data.List.Nodup
import Mathlib.Data.List.ReduceOption
import Mathlib.Logic.Function.Basic

/-!
# Serializability

Calls run beside each other on one shared state.  A call issues queries, each of which
sees the state as it is committed at that moment, and from their answers it decides
to raise, or which statements to execute in one transaction.  Transactions exclude each
other, and a transaction that fails is rolled back.

A call whose queries would answer the same again when its transaction begins has the
outcome and the effect it has alone.  Where that holds of all calls, the run is a serial
one: the calls one after another, in the order in which they finish.

## Main definitions

* `Plan` — the transaction the queries of a call lead to.
* `runAlone` — a call with nothing beside it.
* `Shared`, `SharedStep` — the calls beside each other, statement by statement.
* `SerialStep` — the calls one after another.
* `Settled` — no commit comes between the queries of a call and its transaction,
  unless it is safe for the call.

## Main results

* `serial_of_run` — **every settled run is a serial one.**
-/

/-- The statements of a transaction, and what the call returns after it. -/
structure Plan (σ ε ω : Type) where
  statements : List (σ → Except ε σ)
  result : ω

section

variable {σ ε ω α ι : Type}

/-- Execute statements one after another. -/
def runStatements : List (σ → Except ε σ) → σ → Except ε σ
  | [], s => .ok s
  | f :: rest, s => f s >>= runStatements rest

/-- A transaction: its statements and the checks of the commit, or nothing. -/
def Plan.run (check : σ → Except ε Unit) (p : Plan σ ε ω) (s : σ) : Except ε ω × σ :=
  match runStatements p.statements s with
  | .error e => (.error e, s)
  | .ok s' =>
    match check s' with
    | .error e => (.error e, s)
    | .ok () => (.ok p.result, s')

/-- A call with nothing beside it. -/
def runAlone (check : σ → Except ε Unit) (q : Query σ ε (Plan σ ε ω)) (s : σ) :
    Except ε ω × σ :=
  match q.run s with
  | .error e => (.error e, s)
  | .ok p => p.run check s

/-! ### The calls beside each other -/

/-- Where a call is. -/
inductive Phase (σ ε ω : Type)
  /-- It is about to issue queries, or has found what to write. -/
  | reading (q : Query σ ε (Plan σ ε ω))
  /-- It holds the lock, with statements left to execute and the state so far. -/
  | writing (rest : List (σ → Except ε σ)) (result : ω) (own : σ)
  | finished

/-- The committed state, the call that holds the lock, and the calls. -/
structure Shared (ι σ ε ω : Type) where
  state : σ
  lock : Option ι
  phase : ι → Phase σ ε ω

/-- A call has finished, or a fault has ended it. -/
inductive SerialEvent (ι ε ω : Type)
  | finished (p : ι) (outcome : Except ε ω)
  | fault (p : ι) (e : ε)

/-- The call an event is about. -/
def SerialEvent.call : SerialEvent ι ε ω → ι
  | finished p _ => p
  | fault p _ => p

variable [DecidableEq ι]

namespace Shared

/-- No call has started. -/
def init (calls : ι → Query σ ε (Plan σ ε ω)) (s : σ) : Shared ι σ ε ω where
  state := s
  lock := none
  phase p := .reading (calls p)

/-- A call moves on. -/
def goto (s : Shared ι σ ε ω) (p : ι) (phase : Phase σ ε ω) : Shared ι σ ε ω :=
  { s with phase := Function.update s.phase p phase }

/-- A call ends without effect; its transaction is rolled back. -/
def abort (s : Shared ι σ ε ω) (p : ι) : Shared ι σ ε ω :=
  { s with
    lock := if s.lock = some p then none else s.lock
    phase := Function.update s.phase p .finished }

end Shared

/-- The next statement of a call, and the event if it is the last one. -/
inductive SharedStep (check : σ → Except ε Unit) (s : Shared ι σ ε ω) :
    Option (SerialEvent ι ε ω) → Shared ι σ ε ω → Prop
  /-- A query is answered. -/
  | select {p : ι} {k : σ → Query σ ε (Plan σ ε ω)} (hp : s.phase p = .reading (.select k))
      (hgo : ∀ e, k s.state ≠ .done (.error e)) :
      SharedStep check s none (s.goto p (.reading (k s.state)))
  /-- The answer of a query makes the call raise. -/
  | refuse {p : ι} {k : σ → Query σ ε (Plan σ ε ω)} {e : ε}
      (hp : s.phase p = .reading (.select k)) (hk : k s.state = .done (.error e)) :
      SharedStep check s (some (.finished p (.error e))) (s.abort p)
  /-- The call raises before any query. -/
  | reject {p : ι} {e : ε} (hp : s.phase p = .reading (.done (.error e))) :
      SharedStep check s (some (.finished p (.error e))) (s.abort p)
  /-- The transaction begins, when no other one is open. -/
  | begin {p : ι} {plan : Plan σ ε ω} (hp : s.phase p = .reading (.done (.ok plan)))
      (hfree : s.lock = none) :
      SharedStep check s none
        { s with
          lock := some p
          phase := Function.update s.phase p (.writing plan.statements plan.result s.state) }
  /-- A statement is executed. -/
  | statement {p : ι} {f : σ → Except ε σ} {rest : List (σ → Except ε σ)} {result : ω}
      {own own' : σ} (hp : s.phase p = .writing (f :: rest) result own) (hf : f own = .ok own') :
      SharedStep check s none (s.goto p (.writing rest result own'))
  /-- A statement fails, and the transaction is rolled back. -/
  | rollback {p : ι} {f : σ → Except ε σ} {rest : List (σ → Except ε σ)} {result : ω} {own : σ}
      {e : ε} (hp : s.phase p = .writing (f :: rest) result own) (hf : f own = .error e) :
      SharedStep check s (some (.finished p (.error e))) (s.abort p)
  /-- The transaction is committed. -/
  | commit {p : ι} {result : ω} {own : σ} (hp : s.phase p = .writing [] result own)
      (hcheck : check own = .ok ()) :
      SharedStep check s (some (.finished p (.ok result))) { s.abort p with state := own }
  /-- The commit is refused, and the transaction is rolled back. -/
  | uncommitted {p : ι} {result : ω} {own : σ} {e : ε} (hp : s.phase p = .writing [] result own)
      (hcheck : check own = .error e) :
      SharedStep check s (some (.finished p (.error e))) (s.abort p)
  /-- A fault ends the call; its transaction is rolled back. -/
  | fault {p : ι} (e : ε) (hp : s.phase p ≠ .finished) :
      SharedStep check s (some (.fault p e)) (s.abort p)

/-- The next step of a call, if it can move. -/
def Shared.advance (check : σ → Except ε Unit) (s : Shared ι σ ε ω) (p : ι) :
    Option (Option (SerialEvent ι ε ω) × Shared ι σ ε ω) :=
  match s.phase p with
  | .reading (.select k) =>
    match k s.state with
    | .done (.error e) => some (some (.finished p (.error e)), s.abort p)
    | q => some (none, s.goto p (.reading q))
  | .reading (.done (.error e)) => some (some (.finished p (.error e)), s.abort p)
  | .reading (.done (.ok plan)) =>
    if s.lock = none then
      some (none, { s with
        lock := some p
        phase := Function.update s.phase p (.writing plan.statements plan.result s.state) })
    else none
  | .writing (f :: rest) result own =>
    match f own with
    | .error e => some (some (.finished p (.error e)), s.abort p)
    | .ok own => some (none, s.goto p (.writing rest result own))
  | .writing [] result own =>
    match check own with
    | .error e => some (some (.finished p (.error e)), s.abort p)
    | .ok () => some (some (.finished p (.ok result)), { s.abort p with state := own })
  | .finished => none

/-- Move the calls on in the given order; a call that cannot move waits. -/
def Shared.runSchedule (check : σ → Except ε Unit) :
    List ι → Shared ι σ ε ω → List (Option (SerialEvent ι ε ω)) × Shared ι σ ε ω
  | [], s => ([], s)
  | p :: schedule, s =>
    match s.advance check p with
    | none => runSchedule check schedule s
    | some (event, s') =>
      let (tr, s'') := runSchedule check schedule s'
      (event :: tr, s'')

/-- One call after another.  A call that a fault ends has no effect. -/
inductive SerialStep (check : σ → Except ε Unit) (calls : ι → Query σ ε (Plan σ ε ω)) (s : σ) :
    SerialEvent ι ε ω → σ → Prop
  | finished {p : ι} {outcome : Except ε ω} {s' : σ}
      (h : runAlone check (calls p) s = (outcome, s')) :
      SerialStep check calls s (.finished p outcome) s'
  | fault (p : ι) (e : ε) : SerialStep check calls s (.fault p e) s

/-- No commit comes between the queries of a call and its transaction, unless it is one
that is safe for the call. -/
def Settled (safe : ι → ι → Prop) (calls : ι → Query σ ε (Plan σ ε ω))
    (s : Shared ι σ ε ω) (event : Option (SerialEvent ι ε ω)) : Prop :=
  ∀ p result, event = some (.finished p (.ok result)) → ∀ q rest, q ≠ p →
    s.phase q = .reading rest → rest ≠ calls q → safe p q

/-- The commits of one call do not change what the other one finds, once its queries have
come to nothing that makes it raise. -/
def Safe (check : σ → Except ε Unit) (inv : σ → Prop) (c d : Query σ ε (Plan σ ε ω)) : Prop :=
  ∀ s s' result rest, inv s → runAlone check c s = (.ok result, s') → d.Reaches rest →
    (∀ e, rest ≠ .done (.error e)) → d.run s = rest.run s → d.run s' = rest.run s'

/-! ### Schedules -/

theorem SharedStep.of_advance {check : σ → Except ε Unit} {s s' : Shared ι σ ε ω} {p : ι}
    {event : Option (SerialEvent ι ε ω)} (h : s.advance check p = some (event, s')) :
    SharedStep check s event s' := by
  unfold Shared.advance at h
  split at h
  · next k hp =>
    split at h
    · next e hk =>
      cases h
      exact .refuse hp hk
    · next hgo =>
      cases h
      exact .select hp hgo
  · next e hp =>
    cases h
    exact .reject hp
  · next plan hp =>
    split at h
    · next hfree =>
      cases h
      exact .begin hp hfree
    · cases h
  · next f rest result own hp =>
    split at h
    · next e hf =>
      cases h
      exact .rollback hp hf
    · next own' hf =>
      cases h
      exact .statement hp hf
  · next result own hp =>
    split at h
    · next e hcheck =>
      cases h
      exact .uncommitted hp hcheck
    · next hcheck =>
      cases h
      exact .commit hp hcheck
  · cases h

/-- A schedule is executed by a run. -/
theorem traced_runSchedule (check : σ → Except ε Unit) (schedule : List ι)
    {s₀ s : Shared ι σ ε ω} {tr : List (Option (SerialEvent ι ε ω))}
    (h : Traced (SharedStep check) s₀ tr s) :
    Traced (SharedStep check) s₀ (tr ++ (s.runSchedule check schedule).1)
      (s.runSchedule check schedule).2 := by
  induction schedule generalizing s tr with
  | nil => simpa [Shared.runSchedule] using h
  | cons p schedule ih =>
    unfold Shared.runSchedule
    split
    · exact ih h
    · next event s' hs' =>
      have := ih (h.snoc (.of_advance hs'))
      rwa [List.append_assoc] at this

/-! ### The invariant -/

variable {check : σ → Except ε Unit} {calls : ι → Query σ ε (Plan σ ε ω)} {s : Shared ι σ ε ω}
  {p : ι}

/-- What a call has found so far is what it finds on the committed state alone, and it
executes statements under the lock. -/
def Phase.Agrees (c : Query σ ε (Plan σ ε ω)) (state : σ) (locked : Prop) : Phase σ ε ω → Prop
  | .reading q => c.run state = q.run state ∧ c.Reaches q ∧ (q = c ∨ ∀ e, q ≠ .done (.error e))
  | .writing rest result own => locked ∧ ∃ plan, c.run state = .ok plan ∧ plan.result = result ∧
      runStatements plan.statements state = runStatements rest own
  | .finished => True

/-- Every call agrees with the committed state. -/
def Shared.Agrees (calls : ι → Query σ ε (Plan σ ε ω)) (s : Shared ι σ ε ω) : Prop :=
  ∀ p, (s.phase p).Agrees (calls p) s.state (s.lock = some p)

namespace Shared.Agrees

omit [DecidableEq ι] in
theorem init (calls : ι → Query σ ε (Plan σ ε ω)) (s₀ : σ) : (Shared.init calls s₀).Agrees calls :=
  fun _ => ⟨rfl, .refl, .inl rfl⟩

/-- A call moves on, and takes the lock from no other call. -/
theorem move (h : s.Agrees calls) {phase : Phase σ ε ω} {lock : Option ι}
    (hself : phase.Agrees (calls p) s.state (lock = some p))
    (hother : ∀ q, q ≠ p → s.lock = some q → lock = some q) :
    Agrees calls { s with lock := lock, phase := Function.update s.phase p phase } := by
  intro q
  dsimp only
  by_cases hqp : q = p
  · subst hqp
    rwa [Function.update_self]
  · rw [Function.update_of_ne hqp]
    have hq := h q
    cases hphase : s.phase q with
    | reading rest => rwa [hphase] at hq
    | writing rest result own =>
      rw [hphase] at hq
      exact ⟨hother q hqp hq.1, hq.2⟩
    | finished => trivial

theorem goto (h : s.Agrees calls) {phase : Phase σ ε ω}
    (hself : phase.Agrees (calls p) s.state (s.lock = some p)) : (s.goto p phase).Agrees calls :=
  h.move hself fun _ _ hq => hq

theorem abort (h : s.Agrees calls) (p : ι) : (s.abort p).Agrees calls := by
  have hself : (Phase.finished : Phase σ ε ω).Agrees (calls p) s.state
      ((if s.lock = some p then none else s.lock) = some p) := trivial
  refine h.move hself ?_
  intro q hqp hlock
  -- the lock is taken from nobody else
  have hne : s.lock ≠ some p := by
    rw [hlock]
    intro heq
    exact hqp (Option.some.inj heq)
  rw [if_neg hne, hlock]

omit [DecidableEq ι] in
theorem reading (h : s.Agrees calls) {q : Query σ ε (Plan σ ε ω)} (hp : s.phase p = .reading q) :
    (calls p).run s.state = q.run s.state ∧ (calls p).Reaches q ∧
      (q = calls p ∨ ∀ e, q ≠ .done (.error e)) := by
  have := h p
  rwa [hp] at this

omit [DecidableEq ι] in
theorem writing (h : s.Agrees calls) {rest : List (σ → Except ε σ)} {result : ω} {own : σ}
    (hp : s.phase p = .writing rest result own) : s.lock = some p ∧
      ∃ plan, (calls p).run s.state = .ok plan ∧ plan.result = result ∧
        runStatements plan.statements s.state = runStatements rest own := by
  have := h p
  rwa [hp] at this

omit [DecidableEq ι] in
/-- A call whose queries make it raise does so alone. -/
theorem runAlone_of_refused (h : s.Agrees calls) {q : Query σ ε (Plan σ ε ω)} {e : ε}
    (hp : s.phase p = .reading q) (hq : q.run s.state = .error e) :
    runAlone check (calls p) s.state = (.error e, s.state) := by
  rw [runAlone, (h.reading hp).1, hq]

omit [DecidableEq ι] in
/-- A call whose transaction fails does so alone. -/
theorem runAlone_of_failed (h : s.Agrees calls) {rest : List (σ → Except ε σ)} {result : ω}
    {own : σ} {e : ε} (hp : s.phase p = .writing rest result own)
    (hfail : runStatements rest own >>= check = .error e) :
    runAlone check (calls p) s.state = (.error e, s.state) := by
  obtain ⟨-, plan, hplan, -, hstatements⟩ := h.writing hp
  rw [runAlone, hplan]
  simp only [Plan.run, hstatements]
  cases hrun : runStatements rest own with
  | error e' =>
    rw [hrun] at hfail
    cases hfail
    rfl
  | ok own' =>
    rw [hrun] at hfail
    change check own' = .error e at hfail
    simp only [hfail]

omit [DecidableEq ι] in
/-- A call that commits does what it does alone. -/
theorem runAlone_of_commit (h : s.Agrees calls) {result : ω} {own : σ}
    (hp : s.phase p = .writing [] result own) (hcheck : check own = .ok ()) :
    runAlone check (calls p) s.state = (.ok result, own) := by
  obtain ⟨-, plan, hplan, rfl, hstatements⟩ := h.writing hp
  rw [runAlone, hplan]
  simp only [Plan.run, hstatements, runStatements, hcheck]

/-- The commit of a call, where the others allow for it. -/
theorem commit (h : s.Agrees calls) {result : ω} {own : σ} (hp : s.phase p = .writing [] result own)
    (hothers : ∀ q rest, q ≠ p → s.phase q = .reading rest →
      (calls q).run own = rest.run own) :
    Shared.Agrees calls { s.abort p with state := own } := by
  intro q
  change Phase.Agrees _ _ _ (Function.update s.phase p .finished q)
  by_cases hqp : q = p
  · subst hqp
    rw [Function.update_self]
    trivial
  rw [Function.update_of_ne hqp]
  cases hq : s.phase q with
  | reading rest => exact ⟨hothers q rest hqp hq, (h.reading hq).2⟩
  | writing rest result' own' =>
    -- two calls do not hold the lock
    have := (h.writing hq).1.symm.trans (h.writing hp).1
    exact (hqp (Option.some.inj this)).elim
  | finished => trivial

end Shared.Agrees

/-! ### Every step is a serial one or none -/

/-- A step leaves the committed state alone, or is a step of the calls one after another. -/
theorem SharedStep.serial {safe : ι → ι → Prop} {inv : σ → Prop}
    (hsafe : ∀ p q, safe p q → Safe check inv (calls p) (calls q)) (h : s.Agrees calls)
    (hinv : inv s.state) {event : Option (SerialEvent ι ε ω)} {s' : Shared ι σ ε ω}
    (hstep : SharedStep check s event s') (hcalm : Settled safe calls s event) :
    s'.Agrees calls ∧ ((event = none ∧ s'.state = s.state) ∨
      ∃ x, event = some x ∧ SerialStep check calls s.state x s'.state) := by
  cases hstep with
  | @select p k hp hgo =>
    obtain ⟨hrun, hreaches, -⟩ := h.reading hp
    exact ⟨h.goto ⟨hrun, .select _ hreaches, .inr hgo⟩, .inl ⟨rfl, rfl⟩⟩
  | @refuse p k e hp hk =>
    refine ⟨h.abort p, .inr ⟨_, rfl, .finished ?_⟩⟩
    exact h.runAlone_of_refused hp (by rw [Query.run, hk, Query.run])
  | @reject p e hp =>
    exact ⟨h.abort p, .inr ⟨_, rfl, .finished (h.runAlone_of_refused hp rfl)⟩⟩
  | @begin p plan hp hfree =>
    refine ⟨h.move ⟨rfl, plan, (h.reading hp).1, rfl, rfl⟩ ?_, .inl ⟨rfl, rfl⟩⟩
    intro q _ hlock
    rw [hfree] at hlock
    cases hlock
  | @statement p f rest result own own' hp hf =>
    obtain ⟨hlock, plan, hplan, hresult, hstatements⟩ := h.writing hp
    refine ⟨h.goto ⟨hlock, plan, hplan, hresult, ?_⟩, .inl ⟨rfl, rfl⟩⟩
    rw [hstatements, runStatements, hf]
    rfl
  | @rollback p f rest result own e hp hf =>
    refine ⟨h.abort p, .inr ⟨_, rfl, .finished (h.runAlone_of_failed hp ?_)⟩⟩
    rw [runStatements, hf]
    rfl
  | @commit p result own hp hcheck =>
    have halone := h.runAlone_of_commit hp hcheck
    refine ⟨h.commit hp ?_, .inr ⟨_, rfl, .finished halone⟩⟩
    intro q rest hqp hq
    obtain ⟨hrun, hreaches, hgoing⟩ := h.reading hq
    by_cases hself : rest = calls q
    · rw [hself]
    · exact hsafe p q (hcalm p result rfl q rest hqp hq hself) _ _ result rest hinv halone hreaches
        (hgoing.resolve_left hself) hrun
  | @uncommitted p result own e hp hcheck =>
    exact ⟨h.abort p, .inr ⟨_, rfl, .finished (h.runAlone_of_failed hp hcheck)⟩⟩
  | @fault p e hp => exact ⟨h.abort p, .inr ⟨_, rfl, .fault p e⟩⟩

/-- A step moves one call on, and ends it when it has an event. -/
theorem SharedStep.exists_phase_eq {event : Option (SerialEvent ι ε ω)} {s' : Shared ι σ ε ω}
    (hstep : SharedStep check s event s') : ∃ p phase, s.phase p ≠ .finished ∧
      s'.phase = Function.update s.phase p phase ∧
      (phase = .finished ↔ event ≠ none) ∧ ∀ x, event = some x → x.call = p := by
  cases hstep with
  | @select p k hp hgo => exact ⟨p, _, by simp [hp], rfl, by simp, by simp⟩
  | @refuse p k e hp hk => exact ⟨p, _, by simp [hp], rfl, by simp, by simp [SerialEvent.call]⟩
  | @reject p e hp => exact ⟨p, _, by simp [hp], rfl, by simp, by simp [SerialEvent.call]⟩
  | @begin p plan hp hfree => exact ⟨p, _, by simp [hp], rfl, by simp, by simp⟩
  | @statement p f rest result own own' hp hf => exact ⟨p, _, by simp [hp], rfl, by simp, by simp⟩
  | @rollback p f rest result own e hp hf =>
    exact ⟨p, _, by simp [hp], rfl, by simp, by simp [SerialEvent.call]⟩
  | @commit p result own hp hcheck =>
    exact ⟨p, _, by simp [hp], rfl, by simp, by simp [SerialEvent.call]⟩
  | @uncommitted p result own e hp hcheck =>
    exact ⟨p, _, by simp [hp], rfl, by simp, by simp [SerialEvent.call]⟩
  | @fault p e hp => exact ⟨p, _, hp, rfl, by simp, by simp [SerialEvent.call]⟩

/-- The calls that have finished, each of them once. -/
structure FinishedOnce (tr : List (Option (SerialEvent ι ε ω))) (s : Shared ι σ ε ω) : Prop where
  nodup : (tr.reduceOption.map SerialEvent.call).Nodup
  mem_iff : ∀ p, p ∈ tr.reduceOption.map SerialEvent.call ↔ s.phase p = .finished

theorem FinishedOnce.step {tr : List (Option (SerialEvent ι ε ω))}
    {event : Option (SerialEvent ι ε ω)} {s' : Shared ι σ ε ω} (h : FinishedOnce tr s)
    (hstep : SharedStep check s event s') : FinishedOnce (tr ++ [event]) s' := by
  obtain ⟨p, phase, hp, hphase, hfinished, hcall⟩ := hstep.exists_phase_eq
  have hnew : p ∉ tr.reduceOption.map SerialEvent.call := fun hmem => hp ((h.mem_iff p).mp hmem)
  cases event with
  | none =>
    have hne : phase ≠ .finished := fun heq => (hfinished.mp heq) rfl
    refine ⟨by simpa [List.reduceOption_append] using h.nodup, fun q => ?_⟩
    rw [List.reduceOption_append, List.reduceOption_cons_of_none, List.reduceOption_nil,
      List.append_nil, h.mem_iff, hphase]
    by_cases hqp : q = p
    · subst hqp
      rw [Function.update_self]
      exact iff_of_false hp hne
    · rw [Function.update_of_ne hqp]
  | some x =>
    obtain rfl := hcall x rfl
    have hfin : phase = .finished := hfinished.mpr (by simp)
    have hcalls : ((tr ++ [some x]).reduceOption).map SerialEvent.call =
        tr.reduceOption.map SerialEvent.call ++ [x.call] := by
      rw [List.reduceOption_append, List.reduceOption_singleton, List.map_append]
      rfl
    refine ⟨?_, fun q => ?_⟩
    · rw [hcalls]
      refine List.Nodup.append h.nodup (List.nodup_singleton _) ?_
      intro q hq hq'
      exact hnew (List.mem_singleton.mp hq' ▸ hq)
    · rw [hcalls, List.mem_append, List.mem_singleton, h.mem_iff, hphase]
      by_cases hqp : q = x.call
      · subst hqp
        rw [Function.update_self]
        exact iff_of_true (.inr rfl) hfin
      · rw [Function.update_of_ne hqp]
        exact or_iff_left hqp

omit [DecidableEq ι] in
theorem SerialStep.keeps {inv : σ → Prop}
    (hkeeps : ∀ p s outcome s', inv s → runAlone check (calls p) s = (outcome, s') → inv s')
    {state state' : σ} {x : SerialEvent ι ε ω} (h : SerialStep check calls state x state')
    (hinv : inv state) : inv state' := by
  cases h with
  | finished h => exact hkeeps _ _ _ _ hinv h
  | fault => exact hinv

/-- **Every settled run is a serial one**: the calls have the outcomes they have one
after another, in the order in which they finish, and leave the same state.  Every call
finishes at most once. -/
theorem serial_of_run {safe : ι → ι → Prop} {inv : σ → Prop} {s₀ : σ}
    (hsafe : ∀ p q, safe p q → Safe check inv (calls p) (calls q)) (hinv : inv s₀)
    (hkeeps : ∀ p s outcome s', inv s → runAlone check (calls p) s = (outcome, s') → inv s')
    {tr : List (Option (SerialEvent ι ε ω))}
    (hrun : Traced (fun s event s' => SharedStep check s event s' ∧ Settled safe calls s event)
      (Shared.init calls s₀) tr s) :
    Traced (SerialStep check calls) s₀ tr.reduceOption s.state ∧
      (tr.reduceOption.map SerialEvent.call).Nodup ∧
      ∀ p, p ∈ tr.reduceOption.map SerialEvent.call ↔ s.phase p = .finished := by
  have hall : s.Agrees calls ∧ inv s.state ∧ FinishedOnce tr s ∧
      Traced (SerialStep check calls) s₀ tr.reduceOption s.state := by
    refine hrun.invariant (p := fun tr s => s.Agrees calls ∧ inv s.state ∧ FinishedOnce tr s ∧
      Traced (SerialStep check calls) s₀ tr.reduceOption s.state) ?_ ?_
    · exact ⟨.init calls s₀, hinv, ⟨List.nodup_nil, by simp [Shared.init]⟩, .nil⟩
    · rintro tr s event s' ⟨hagrees, hinv, honce, htraced⟩ ⟨hstep, hcalm⟩
      obtain ⟨hagrees', hserial⟩ := hstep.serial hsafe hagrees hinv hcalm
      refine ⟨hagrees', ?_, honce.step hstep, ?_⟩
      · rcases hserial with ⟨-, hsame⟩ | ⟨x, -, hx⟩
        · rwa [hsame]
        · exact hx.keeps hkeeps hinv
      · rw [List.reduceOption_append]
        rcases hserial with ⟨rfl, hsame⟩ | ⟨x, rfl, hx⟩
        · rw [List.reduceOption_cons_of_none, List.reduceOption_nil, List.append_nil, hsame]
          exact htraced
        · exact htraced.snoc hx
  exact ⟨hall.2.2.2, hall.2.2.1.nodup, hall.2.2.1.mem_iff⟩

end
