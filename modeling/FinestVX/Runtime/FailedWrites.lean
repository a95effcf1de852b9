import FinestVX.Runtime.WriterQueue

/-!
# Calls that raise

A call of the runtime raises what its command has produced, or the timeout of one of its
waits.  The wait for the read lock ends before the command is on the queue; the wait for
the future leaves the command there, and the writer still executes it.

## Main definitions

* `NotApplied` — no dispatch of the command of a call has changed the ledger.
* `TimesOut` — the step in which a call stops waiting for its future.
* `PatientRun` — the interleavings in which a given call does not.

## Main results

* `dispatchCommand_error` — a dispatch that raises changes nothing.
* `notApplied_of_run` — **a call that raises has not been applied, and never will be, if
  its wait for the result does not time out.**
* `Reference.timedOut_applied` — a call that timed out and whose book is created all the same.
-/

namespace FinestVX

open Except

section

variable [Platform]

/-- A dispatch that raises changes nothing. -/
theorem dispatchCommand_error {env : Surroundings} {live : Path} {db : Database}
    {c : RuntimeCommand} {e : PyError} (h : (dispatchCommand env live db c).1 = .error e) :
    (dispatchCommand env live db c).2 = db := by
  have hwrite : ∀ (op : Op) (ctx : AuditContext),
      (resolvingWith (Call.run ⟨op, ctx, env.world⟩ db)).1 = .error e →
        (Call.run ⟨op, ctx, env.world⟩ db).2 = db := by
    intro op ctx hraise
    cases hrun : Call.run ⟨op, ctx, env.world⟩ db with
    | mk outcome db' =>
      rw [hrun] at hraise
      cases outcome with
      | ok receipt => cases hraise
      | error e => exact Call.run_error hrun
  cases c with
  | createBook book ctx => exact hwrite (.createBook book) ctx h
  | appendTransaction code t ctx => exact hwrite (.appendTransaction code t) ctx h
  | appendLegislativeResult code ref result ctx =>
    exact hwrite (.appendLegislativeResult code ref result) ctx h
  | createReversal code o r ctx => exact hwrite (.appendReversal code o r) ctx h
  | createSnapshot outputPath compress => rfl

variable {ι : Type} [DecidableEq ι]

/-! ### Raising and being applied -/

omit [DecidableEq ι] in
/-- No dispatch of the command of a call has changed the ledger. -/
def NotApplied (live : Path) (db₀ : Database) (tr : List (Event ι)) (i : ι) : Prop :=
  ∀ q env before after, tr = before ++ .dispatch q env :: after → q.future = i →
    (dispatchCommand env live (Call.afterAll (storeCalls before) db₀) q.command).2 =
      Call.afterAll (storeCalls before) db₀

/-- The step in which a call stops waiting for its future without having received it. -/
def TimesOut (i : ι) (s : RuntimeState ι) (e : Event ι) (s' : RuntimeState ι) : Prop :=
  ∃ c, s.calls i = .waiting c ∧ s'.calls i ≠ .waiting c ∧ ∀ outcome, e ≠ .receive i outcome

/-- The interleavings in which the wait of a call for its future does not time out. -/
def PatientRun (i : ι) (live : Path) (db₀ : Database) : List (Event ι) → RuntimeState ι → Prop :=
  Traced (fun s e s' => RuntimeStep s e s' ∧ ¬ TimesOut i s e s')
    { databasePath := live, db := db₀ }

variable {live : Path} {db₀ : Database} {tr : List (Event ι)} {s s' : RuntimeState ι}
  {e : Event ι} {i : ι}

theorem PatientRun.run (h : PatientRun i live db₀ tr s) : RuntimeRun live db₀ tr s :=
  Traced.mono h fun _ _ _ hstep => hstep.1

omit [DecidableEq ι] in
/-- A call is dispatched at one place of a run only. -/
theorem dispatch_unique {before after before' after' : List (Event ι)} {q q' : QueuedCommand ι}
    {env env' : Surroundings} (hnodup : ((dispatched tr).map QueuedCommand.future).Nodup)
    (h : tr = before ++ .dispatch q env :: after)
    (h' : tr = before' ++ .dispatch q' env' :: after') (hfuture : q.future = q'.future) :
    before = before' ∧ q = q' ∧ env = env' := by
  -- two places would show the future twice
  have htwice : ∀ (b m a : List (Event ι)) (p p' : QueuedCommand ι) (w w' : Surroundings),
      p.future = p'.future → tr ≠ b ++ .dispatch p w :: (m ++ .dispatch p' w' :: a) := by
    rintro b m a p p' w w' hp rfl
    have heq : dispatched (b ++ .dispatch p w :: (m ++ .dispatch p' w' :: a)) =
        dispatched b ++ p :: (dispatched m ++ p' :: dispatched a) := by
      rw [dispatched_append]
      change dispatched b ++ p :: dispatched (m ++ .dispatch p' w' :: a) = _
      rw [dispatched_append]
      rfl
    rw [heq, List.map_append, List.map_cons, List.map_append, List.map_cons] at hnodup
    have hcons := (List.nodup_append.mp hnodup).2.1
    exact (List.nodup_cons.mp hcons).1 (by simp [hp])
  rw [h] at h'
  rcases List.append_eq_append_iff.mp h' with ⟨c, hb, hc⟩ | ⟨c, hb, hc⟩
  · cases c with
    | nil =>
      rw [List.nil_append, List.cons.injEq, Event.dispatch.injEq] at hc
      exact ⟨by rw [hb, List.append_nil], hc.1.1, hc.1.2⟩
    | cons x c =>
      rw [List.cons_append, List.cons.injEq] at hc
      refine (htwice before c after' q q' env env' hfuture ?_).elim
      rw [h, hc.2]
  · cases c with
    | nil =>
      rw [List.nil_append, List.cons.injEq, Event.dispatch.injEq] at hc
      exact ⟨by rw [hb, List.append_nil], hc.1.1.symm, hc.1.2.symm⟩
    | cons x c =>
      rw [List.cons_append, List.cons.injEq] at hc
      refine (htwice before' c after q' q env' env hfuture.symm ?_).elim
      rw [h, hb, ← hc.1, List.append_assoc]
      rfl

/-! ### The invariant -/

omit [DecidableEq ι] in
/-- What a call has finished with was produced by its command, or was raised before the
command was put on the queue. -/
def Answered (live : Path) (db₀ : Database) (i : ι) (tr : List (Event ι)) (s : RuntimeState ι) :
    Prop :=
  ∀ outcome, s.calls i = .finished outcome →
    Produced live db₀ tr i outcome ∨ i ∉ (submitted tr).map QueuedCommand.future

omit [DecidableEq ι] in
/-- A step that leaves the call where it is, and does not put its command on the queue
after it has finished, keeps the invariant. -/
theorem Answered.keep (h : Answered live db₀ i tr s) (hcalls : s'.calls i = s.calls i)
    (hput : ∀ q, e = .put q → q.future = i → ∀ outcome, s.calls i ≠ .finished outcome) :
    Answered live db₀ i (tr ++ [e]) s' := by
  intro outcome hfinished
  rw [hcalls] at hfinished
  rcases h outcome hfinished with hproduced | hnot
  · exact .inl (hproduced.append _)
  · right
    intro hmem
    obtain ⟨q, hq, rfl⟩ := List.mem_map.mp hmem
    rw [mem_submitted, List.mem_append, List.mem_singleton] at hq
    rcases hq with hq | hq
    · exact hnot (List.mem_map_of_mem (mem_submitted.mpr hq))
    · exact hput q hq.symm rfl outcome hfinished

theorem Answered.call {j : ι} (h : Answered live db₀ i tr s) (hs : Consistent live db₀ tr s)
    (hstep : CallStep s j e s') (hpatient : ¬ TimesOut i s e s') :
    Answered live db₀ i (tr ++ [e]) s' := by
  rcases eq_or_ne i j with rfl | hne
  · -- the phase the call moves to decides, and it has finished in three cases only
    have hmoving : ∀ {phase : CallPhase}, s'.calls i = phase → (∀ o, phase ≠ .finished o) →
        Answered live db₀ i (tr ++ [e]) s' := by
      intro phase hphase hnot outcome hfinished
      exact (hnot outcome (hphase.symm.trans hfinished)).elim
    cases hstep with
    | enter c hphase => exact hmoving (s.calls_goto_self i _) nofun
    | acquireRead hphase hfree => exact hmoving (s.calls_goto_self i _) nofun
    | put hphase => exact hmoving (s.calls_goto_self i _) nofun
    | lockTimeout e' hphase =>
      -- the command of a call that waits for the lock is not on the queue
      intro outcome _
      right
      intro hmem
      rw [submitted_append, List.map_append] at hmem
      rcases List.mem_append.mp hmem with hmem | hmem
      · have hsubmitted := hs.called i hmem
        rw [hphase] at hsubmitted
        exact hsubmitted
      · cases hmem
    | receive hphase houtcome =>
      intro outcome hfinished
      rw [s.calls_goto_self] at hfinished
      cases hfinished
      exact .inl ((hs.resolved i _ houtcome).append _)
    | resultTimeout e' hphase =>
      refine (hpatient ⟨_, hphase, ?_, nofun⟩).elim
      rw [s.calls_goto_self]
      nofun
  · cases hstep with
    | enter c hphase => exact h.keep (s.calls_goto_of_ne hne _) fun _ hq => nomatch hq
    | acquireRead hphase hfree => exact h.keep (s.calls_goto_of_ne hne _) fun _ hq => nomatch hq
    | lockTimeout e' hphase => exact h.keep (s.calls_goto_of_ne hne _) fun _ hq => nomatch hq
    | put hphase =>
      refine h.keep (s.calls_goto_of_ne hne _) ?_
      rintro q hq rfl
      cases hq
      exact (hne rfl).elim
    | receive hphase houtcome => exact h.keep (s.calls_goto_of_ne hne _) fun _ hq => nomatch hq
    | resultTimeout e' hphase => exact h.keep (s.calls_goto_of_ne hne _) fun _ hq => nomatch hq

theorem Answered.step (h : Answered live db₀ i tr s) (hs : Consistent live db₀ tr s)
    (hstep : RuntimeStep s e s') (hpatient : ¬ TimesOut i s e s') :
    Answered live db₀ i (tr ++ [e]) s' := by
  cases hstep with
  | call hcall => exact h.call hs hcall hpatient
  | close hclose =>
    refine h.keep ?_ ?_
    · cases hclose <;> rfl
    · rintro q rfl
      cases hclose
  | writer hwriter =>
    refine h.keep ?_ ?_
    · cases hwriter <;> rfl
    · rintro q rfl
      cases hwriter

theorem Answered.of_run (h : PatientRun i live db₀ tr s) : Answered live db₀ i tr s := by
  refine Traced.invariant_within (q := fun tr s => Consistent live db₀ tr s) h ?_ nofun ?_
  · intro tr x hrun
    exact .of_run (PatientRun.run hrun)
  · intro tr x e y hcon hx hstep
    exact hx.step hcon hstep.1 hstep.2

/-! ### Calls that raise -/

/-- **A call that raises has not been applied**, and never will be, when its wait for the
result does not time out. -/
theorem notApplied_of_run {error : PyError} (h : PatientRun i live db₀ tr s)
    (hraised : s.calls i = .finished (.error error)) : NotApplied live db₀ tr i := by
  have hs : Consistent live db₀ tr s := .of_run h.run
  have honce := nodup_dispatched h.run
  intro q env before after htr hfuture
  rcases Answered.of_run h _ hraised with hproduced | hnot
  · -- the call has raised what its only dispatch has raised
    obtain ⟨q', env', before', after', htr', hfuture', -, houtcome⟩ := hproduced
    obtain ⟨rfl, rfl, rfl⟩ := dispatch_unique honce htr htr' (hfuture.trans hfuture'.symm)
    exact dispatchCommand_error houtcome
  · -- a command that was never on the queue is not dispatched
    refine (hnot ?_).elim
    rw [hs.fifo, List.map_append]
    refine List.mem_append_left _ (List.mem_map.mpr ⟨q, ?_, hfuture⟩)
    rw [htr, dispatched_append]
    exact List.mem_append_right _ List.mem_cons_self

end

section

variable [Platform]

/-! ### A call that is served, and one that times out -/

/-- A call is served. -/
def served (live : Path) (db₀ : Database) (c : RuntimeCommand) (env : Surroundings) :
    List (Event ℕ) :=
  [.internal, .internal, .put ⟨c, 0⟩, .internal, .internal, .dispatch ⟨c, 0⟩ env, .internal,
    .receive 0 (dispatchCommand env live db₀ c).1]

/-- What `future.result` raises when its timeout is over. -/
def timeoutError : PyError := .fault "TimeoutError"

/-- A call times out while its command is on the queue; then the writer executes it. -/
def timedOut (c : RuntimeCommand) (env : Surroundings) : List (Event ℕ) :=
  [.internal, .internal, .put ⟨c, 0⟩, .internal, .internal, .internal, .dispatch ⟨c, 0⟩ env]

/-- The calls when call 0 is the only one, which has been in these phases, the last one
first. -/
def soleCall : List CallPhase → ℕ → CallPhase
  | [] => fun _ => .notCalled
  | phase :: earlier => Function.update (soleCall earlier) 0 phase

/-- The states of a runtime that call 0 alone uses, which has been in these phases, the
last one first. -/
def usedBySoleCall (live : Path) (db : Database) (queue : List (Option (QueuedCommand ℕ)))
    (futures : ℕ → Option (Except PyError Receipt)) (phases : List CallPhase)
    (writer : WriterPhase ℕ) : RuntimeState ℕ :=
  { databasePath := live, db := db, queue := queue, futures := futures,
    calls := soleCall phases, writer := writer }

theorem run_served (live : Path) (db₀ : Database) (c : RuntimeCommand) (env : Surroundings) :
    ∃ s, PatientRun 0 live db₀ (served live db₀ c env) s ∧
      s.calls 0 = .finished (dispatchCommand env live db₀ c).1 := by
  let x := dispatchCommand env live db₀ c
  let unset (_ : ℕ) : Option (Except PyError Receipt) := none
  let resolved := Function.update unset 0 (some x.1)
  let sent : List CallPhase := [.waiting c, .submitting c, .acquiring c]
  let state := usedBySoleCall live
  -- as long as the call is not waiting, or stays so, it does not time out
  have hidle : ∀ {s s' : RuntimeState ℕ} {e : Event ℕ} (phase : CallPhase), RuntimeStep s e s' →
      s.calls 0 = phase → (∀ c, phase ≠ .waiting c) → RuntimeStep s e s' ∧ ¬ TimesOut 0 s e s' :=
    fun _ hstep hsame hnot => ⟨hstep, fun ⟨_, hphase, _⟩ => hnot _ (hsame.symm.trans hphase)⟩
  have hstays : ∀ {s s' : RuntimeState ℕ} {e : Event ℕ}, RuntimeStep s e s' →
      s'.calls 0 = s.calls 0 → RuntimeStep s e s' ∧ ¬ TimesOut 0 s e s' :=
    fun hstep hsame => ⟨hstep, fun ⟨_, hphase, hleft, _⟩ => hleft (hsame.trans hphase)⟩
  have h : PatientRun 0 live db₀ _ (state db₀ [] unset [] .testingStop) := .nil
  have h : PatientRun 0 live db₀ _ (state db₀ [] unset [.acquiring c] .testingStop) :=
    h.snoc (hidle .notCalled (.call (.enter (i := 0) c rfl)) rfl (by simp))
  have h : PatientRun 0 live db₀ _
      (state db₀ [] unset [.submitting c, .acquiring c] .testingStop) :=
    h.snoc (hidle (.acquiring c) (.call (.acquireRead (i := 0) rfl id)) rfl (by simp))
  have h : PatientRun 0 live db₀ _ (state db₀ [some ⟨c, 0⟩] unset sent .testingStop) :=
    h.snoc (hidle (.submitting c) (.call (.put (i := 0) rfl)) rfl (by simp))
  have h : PatientRun 0 live db₀ _ (state db₀ [some ⟨c, 0⟩] unset sent .getting) :=
    h.snoc (hstays (.writer (.notStopped rfl rfl)) rfl)
  have h : PatientRun 0 live db₀ _ (state db₀ [] unset sent (.dispatching ⟨c, 0⟩)) :=
    h.snoc (hstays (.writer (.getCommand rfl rfl)) rfl)
  have h : PatientRun 0 live db₀ _ (state x.2 [] unset sent (.resolving 0 x.1)) :=
    h.snoc (hstays (.writer
      (.dispatch (s := state db₀ [] unset sent (.dispatching ⟨c, 0⟩)) env rfl)) rfl)
  have h : PatientRun 0 live db₀ _ (state x.2 [] resolved sent .testingStop) :=
    h.snoc (hstays (.writer (.setFuture rfl rfl)) rfl)
  have h : PatientRun 0 live db₀ _
      (state x.2 [] resolved (.finished x.1 :: sent) .testingStop) :=
    h.snoc ⟨.call (.receive (i := 0) rfl rfl), fun ⟨_, _, _, hnot⟩ => hnot x.1 rfl⟩
  simp only [List.nil_append, List.cons_append] at h
  exact ⟨_, h, rfl⟩

theorem run_timedOut (live : Path) (db₀ : Database) (c : RuntimeCommand) (env : Surroundings) :
    ∃ s, RuntimeRun live db₀ (timedOut c env) s ∧ s.calls 0 = .finished (.error timeoutError) ∧
      s.db = (dispatchCommand env live db₀ c).2 := by
  let x := dispatchCommand env live db₀ c
  let unset (_ : ℕ) : Option (Except PyError Receipt) := none
  let sent : List CallPhase := [.waiting c, .submitting c, .acquiring c]
  let left : List CallPhase := .finished (.error timeoutError) :: sent
  let state := usedBySoleCall live
  have h : RuntimeRun live db₀ _ (state db₀ [] unset [] .testingStop) := .nil
  have h : RuntimeRun live db₀ _ (state db₀ [] unset [.acquiring c] .testingStop) :=
    h.snoc (.call (.enter (i := 0) c rfl))
  have h : RuntimeRun live db₀ _
      (state db₀ [] unset [.submitting c, .acquiring c] .testingStop) :=
    h.snoc (.call (.acquireRead (i := 0) rfl id))
  have h : RuntimeRun live db₀ _ (state db₀ [some ⟨c, 0⟩] unset sent .testingStop) :=
    h.snoc (.call (.put (i := 0) rfl))
  have h : RuntimeRun live db₀ _ (state db₀ [some ⟨c, 0⟩] unset left .testingStop) :=
    h.snoc (.call (.resultTimeout (i := 0) timeoutError rfl))
  have h : RuntimeRun live db₀ _ (state db₀ [some ⟨c, 0⟩] unset left .getting) :=
    h.snoc (.writer (.notStopped rfl rfl))
  have h : RuntimeRun live db₀ _ (state db₀ [] unset left (.dispatching ⟨c, 0⟩)) :=
    h.snoc (.writer (.getCommand rfl rfl))
  have h : RuntimeRun live db₀ _ (state x.2 [] unset left (.resolving 0 x.1)) :=
    h.snoc (.writer (.dispatch (s := state db₀ [] unset left (.dispatching ⟨c, 0⟩)) env rfl))
  simp only [List.nil_append, List.cons_append] at h
  exact ⟨_, h, rfl, rfl⟩

end

namespace Reference

/-- A sale posted to a book that does not exist raises, and is not applied. -/
theorem notApplied_unknownBook : NotApplied ledgerFile {}
    (served ledgerFile {} (.appendTransaction "BK" sale auditor) calm) 0 := by
  obtain ⟨s, hs, hraised⟩ := run_served ledgerFile {} (.appendTransaction "BK" sale auditor) calm
  have hraised : s.calls 0 = .finished (.error (.keyError "Unknown book: BK")) := hraised
  exact notApplied_of_run hs hraised

/-- A creation that times out on the queue raises to its caller, and the book is stored. -/
theorem timedOut_applied : ∃ (tr : List (Event ℕ)) (s : RuntimeState ℕ) (error : PyError),
    RuntimeRun ledgerFile {} tr s ∧ s.calls 0 = .finished (.error error) ∧
      ¬ NotApplied ledgerFile {} tr 0 ∧ s.db.tables.HasBook "BK" := by
  obtain ⟨s, hs, hraised, hdb⟩ :=
    run_timedOut ledgerFile {} (.createBook plainBook auditor) calm
  refine ⟨_, s, timeoutError, hs, hraised, ?_, ?_⟩
  · intro hnot
    have hsame := hnot ⟨.createBook plainBook auditor, 0⟩ calm
      [.internal, .internal, .put ⟨.createBook plainBook auditor, 0⟩, .internal, .internal,
        .internal] [] rfl rfl
    have hbooks := congrArg (fun db => db.tables.books.length) hsame
    revert hbooks
    decide
  · rw [hdb]
    decide

end Reference

end FinestVX
