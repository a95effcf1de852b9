import FinestVX.Runtime.WriterQueue

/-!
# Reads at a shutdown

`LedgerRuntime.close` closes the connections of the store under the write lock.  The
read methods hold the read lock while they use the store, all but
`iter_audit_log_pages`: its iterator asks for each page without a lock.

## Main definitions

* `LedgerRead`, `ReadPhase`, `ServingState` — the reads, where each of them is, and
  the runtime they use.
* `ServingStep` — the steps of the reads and of the threads of the runtime.
* `ReadsServed` — no read that was started before the shutdown meets a closed
  connection.
* `Quiesced` — the condition on a step.

## Main results

* `RuntimeStep.shutdown_cases` — how the threads of the runtime change what reads
  depend on.
* `readsServed_of_run` — **in every run whose shutdowns meet the condition the reads
  that were started before are served.**
* `Reference.reads_pulled` — a page iteration, and a read that waits for the lock.
-/

namespace FinestVX

open Relation

section

variable [Platform]

/-! ### Reads -/

/-- A read method of the runtime. -/
inductive LedgerRead
  | getBookSnapshot
  | listBookCodes
  | iterAuditLog
  | debugSnapshot
  | iterAuditLogPages
  deriving DecidableEq

/-- Where a read is. -/
inductive ReadPhase
  | notCalled
  /-- Waiting for the read lock. -/
  | acquiring
  /-- With the read lock, using the store. -/
  | reading
  /-- The iterator of `iter_audit_log_pages`, before its end. -/
  | paging
  | finished
  deriving DecidableEq

/-- Where a read is when it was called: `iter_audit_log_pages` takes no lock. -/
def LedgerRead.entry : LedgerRead → ReadPhase
  | iterAuditLogPages => .paging
  | _ => .acquiring

variable {ι θ : Type} [DecidableEq θ]

/-- A runtime and its reads.  `early` are the reads that were started while the store was
open and no shutdown was under way; `statements` are the statements of reads, with
whether the connections were open. -/
structure ServingState (ι θ : Type) where
  runtime : RuntimeState ι
  reads : θ → ReadPhase := fun _ => .notCalled
  early : θ → Bool := fun _ => false
  statements : List (θ × Bool) := []

namespace ServingState

/-- A read goes on. -/
def goto (s : ServingState ι θ) (t : θ) (phase : ReadPhase) : ServingState ι θ :=
  { s with reads := Function.update s.reads t phase }

/-- A read is started. -/
def enter (s : ServingState ι θ) (t : θ) (read : LedgerRead) : ServingState ι θ :=
  { s.goto t read.entry with
    early := Function.update s.early t
      (decide (s.runtime.closer = .notCalled) && s.runtime.storeOpen) }

omit [DecidableEq θ] in
/-- A read issues a statement. -/
def issue (s : ServingState ι θ) (t : θ) : ServingState ι θ :=
  { s with statements := s.statements ++ [(t, s.runtime.storeOpen)] }

@[simp] theorem reads_goto_self (s : ServingState ι θ) (t : θ) (phase : ReadPhase) :
    (s.goto t phase).reads t = phase :=
  Function.update_self ..

theorem reads_goto_of_ne (s : ServingState ι θ) {t u : θ} (h : u ≠ t) (phase : ReadPhase) :
    (s.goto t phase).reads u = s.reads u :=
  Function.update_of_ne h ..

theorem early_enter_self (s : ServingState ι θ) (t : θ) (read : LedgerRead) :
    (s.enter t read).early t =
      (decide (s.runtime.closer = .notCalled) && s.runtime.storeOpen) :=
  Function.update_self ..

theorem early_enter_of_ne (s : ServingState ι θ) {t u : θ} (h : u ≠ t) (read : LedgerRead) :
    (s.enter t read).early u = s.early u :=
  Function.update_of_ne h ..

end ServingState

/-- A step of a read. -/
inductive ReadStep (s : ServingState ι θ) (t : θ) : ServingState ι θ → Prop
  | enter (read : LedgerRead) (h : s.reads t = .notCalled) : ReadStep s t (s.enter t read)
  | acquireRead (h : s.reads t = .acquiring) (hfree : ¬ s.runtime.closer.HoldsWrite) :
      ReadStep s t (s.goto t .reading)
  | lockTimeout (h : s.reads t = .acquiring) : ReadStep s t (s.goto t .finished)
  /-- A statement under the read lock. -/
  | statement (h : s.reads t = .reading) : ReadStep s t (s.issue t)
  /-- The statement of the next page, which takes no lock. -/
  | nextPage (h : s.reads t = .paging) : ReadStep s t (s.issue t)
  /-- The read returns or raises, and releases the lock. -/
  | ends (h : s.reads t = .reading) : ReadStep s t (s.goto t .finished)
  /-- The iterator is exhausted, raises or is dropped. -/
  | iterationEnds (h : s.reads t = .paging) : ReadStep s t (s.goto t .finished)

variable [DecidableEq ι]

/-- A step of a read, or of a thread of the runtime, which takes the write lock when no
read holds the read lock. -/
inductive ServingStep (s : ServingState ι θ) : ServingState ι θ → Prop
  | read {t : θ} {s' : ServingState ι θ} (h : ReadStep s t s') : ServingStep s s'
  | runtime {e : Event ι} {r : RuntimeState ι} (h : RuntimeStep s.runtime e r)
      (hlock : s.runtime.closer = .acquiring → r.closer = .locked → ∀ t, s.reads t ≠ .reading) :
      ServingStep s { s with runtime := r }

/-- A runtime that was just started, without reads. -/
def ServingState.start (live : Path) (db : Database) : ServingState ι θ :=
  { runtime := { databasePath := live, db := db } }

/-- The interleavings of the reads and the threads of the runtime. -/
def ServingRun (live : Path) (db : Database) : ServingState ι θ → Prop :=
  ReflTransGen ServingStep (ServingState.start live db)

/-- The statements of the reads that were started before the shutdown were issued while
the connections were open. -/
def ReadsServed (s : ServingState ι θ) : Prop :=
  ∀ t isOpen, (t, isOpen) ∈ s.statements → s.early t = true → isOpen = true

/-- When the connections are closed, no read that was started before waits for the lock,
and no page iteration that was started before is unfinished. -/
def Quiesced (s s' : ServingState ι θ) : Prop :=
  s.runtime.storeOpen = true → s'.runtime.storeOpen = false →
    ∀ t, s.early t = true → s.reads t ≠ .acquiring ∧ s.reads t ≠ .paging

/-- The interleavings whose steps meet the condition. -/
def QuiescedRun (live : Path) (db : Database) : ServingState ι θ → Prop :=
  ReflTransGen (fun s s' => ServingStep s s' ∧ Quiesced s s') (ServingState.start live db)

/-! ### The shutdown -/

omit [DecidableEq θ] in
/-- How the threads of the runtime change what reads depend on: the connections are
closed by a close that holds the lock, or after a shutdown; a shutdown leaves them
closed; and the write lock is taken, or kept. -/
theorem RuntimeStep.shutdown_cases {r r' : RuntimeState ι} {e : Event ι}
    (h : RuntimeStep r e r') :
    (r'.storeOpen = r.storeOpen ∨ r.started = false ∨ r.closer = .closing) ∧
    (r'.started = r.started ∨ r'.storeOpen = false) ∧
    (r.storeOpen = false → r'.storeOpen = false) ∧
    (r'.closer.HoldsWrite → r.closer.HoldsWrite ∨ r.closer = .acquiring ∧ r'.closer = .locked) := by
  cases h with
  | call h => cases h <;> exact ⟨.inl rfl, .inl rfl, id, .inl⟩
  | writer h => cases h <;> exact ⟨.inl rfl, .inl rfl, id, .inl⟩
  | close h =>
    cases h with
    | closeUnstarted open' hphase hstarted =>
      refine ⟨.inr (.inl hstarted), .inl rfl, ?_, .inl⟩
      intro hclosed
      simp [hclosed]
    | enter hphase hstarted => exact ⟨.inl rfl, .inl rfl, id, fun hholds => hholds.elim⟩
    | lockTimeout hphase => exact ⟨.inl rfl, .inl rfl, id, fun hholds => hholds.elim⟩
    | acquireWrite hphase hfree => exact ⟨.inl rfl, .inl rfl, id, fun _ => .inr ⟨hphase, rfl⟩⟩
    | setStop hphase =>
      refine ⟨.inl rfl, .inl rfl, id, fun _ => .inl ?_⟩
      rw [hphase]
      trivial
    | putSentinel hphase =>
      refine ⟨.inl rfl, .inl rfl, id, fun _ => .inl ?_⟩
      rw [hphase]
      trivial
    | join hphase =>
      refine ⟨.inl rfl, .inl rfl, id, fun _ => .inl ?_⟩
      rw [hphase]
      trivial
    | closeStore hphase =>
      exact ⟨.inr (.inr hphase), .inr rfl, fun _ => rfl, fun hholds => hholds.elim⟩
    | closeStoreRaises open' hphase =>
      refine ⟨.inr (.inr hphase), .inl rfl, ?_, fun hholds => hholds.elim⟩
      intro hclosed
      simp [hclosed]

/-! ### The invariant -/

/-- The write lock excludes reads; after a shutdown the reads that were started before it
are finished. -/
structure ServingState.Sound (s : ServingState ι θ) : Prop where
  exclusive : s.runtime.closer.HoldsWrite → ∀ t, s.reads t ≠ .reading
  unstarted : s.runtime.started = false → s.runtime.storeOpen = false
  called : ∀ t, s.early t = true → s.reads t ≠ .notCalled
  issued : ∀ t isOpen, (t, isOpen) ∈ s.statements → s.reads t ≠ .notCalled
  ended : s.runtime.storeOpen = false → ∀ t, s.early t = true → s.reads t = .finished
  served : ReadsServed s

namespace ServingState.Sound

variable {s s' : ServingState ι θ} {t : θ}

omit [DecidableEq ι] [DecidableEq θ] in
theorem start (live : Path) (db : Database) : (ServingState.start live db : ServingState ι θ).Sound where
  exclusive h := h.elim
  unstarted h := by cases h
  called t h := by cases h
  issued t isOpen h := by cases h
  ended h := by cases h
  served t isOpen h := by cases h

omit [DecidableEq ι] in
/-- A read that was called and is not finished goes on. -/
theorem goto (h : s.Sound) {phase : ReadPhase} (hphase : phase ≠ .notCalled)
    (hreading : phase = .reading → ¬ s.runtime.closer.HoldsWrite)
    (hunfinished : s.reads t ≠ .finished) : (s.goto t phase).Sound := by
  have hcalled : ∀ u, s.reads u ≠ .notCalled → (s.goto t phase).reads u ≠ .notCalled := by
    intro u hu
    by_cases hut : u = t
    · subst hut
      rwa [reads_goto_self]
    · rwa [reads_goto_of_ne s hut]
  refine ⟨?_, h.unstarted, fun u hearly => hcalled u (h.called u hearly),
    fun u isOpen hmem => hcalled u (h.issued u isOpen hmem), ?_, h.served⟩
  · intro hholds u hu
    by_cases hut : u = t
    · subst hut
      rw [reads_goto_self] at hu
      exact hreading hu hholds
    · rw [reads_goto_of_ne s hut] at hu
      exact h.exclusive hholds u hu
  · intro hclosed u hearly
    have hfinished := h.ended hclosed u hearly
    have hut : u ≠ t := by
      rintro rfl
      exact hunfinished hfinished
    rwa [reads_goto_of_ne s hut]

omit [DecidableEq ι] in
/-- A read is started, before a shutdown or not. -/
theorem enter (h : s.Sound) (read : LedgerRead) (hnew : s.reads t = .notCalled) :
    (s.enter t read).Sound := by
  have hentry : read.entry = .acquiring ∨ read.entry = .paging := by
    cases read <;> simp [LedgerRead.entry]
  have hgoto : (s.goto t read.entry).Sound := by
    apply h.goto
    · rcases hentry with heq | heq <;> simp [heq]
    · rcases hentry with heq | heq <;> simp [heq]
    · simp [hnew]
  refine ⟨hgoto.exclusive, h.unstarted, ?_, hgoto.issued, ?_, ?_⟩
  · intro u hearly
    by_cases hut : u = t
    · subst hut
      change (s.goto u read.entry).reads u ≠ _
      rw [reads_goto_self]
      rcases hentry with heq | heq <;> simp [heq]
    · rw [early_enter_of_ne s hut] at hearly
      exact hgoto.called u hearly
  · intro hclosed u hearly
    by_cases hut : u = t
    · subst hut
      rw [early_enter_self, show s.runtime.storeOpen = false from hclosed,
        Bool.and_false] at hearly
      cases hearly
    · rw [early_enter_of_ne s hut] at hearly
      exact hgoto.ended hclosed u hearly
  · intro u isOpen hmem hearly
    by_cases hut : u = t
    · subst hut
      exact absurd hnew (h.issued u isOpen hmem)
    · rw [early_enter_of_ne s hut] at hearly
      exact h.served u isOpen hmem hearly

omit [DecidableEq ι] [DecidableEq θ] in
/-- An unfinished read issues a statement. -/
theorem issue (h : s.Sound) (hcalled : s.reads t ≠ .notCalled)
    (hunfinished : s.reads t ≠ .finished) : (s.issue t).Sound := by
  refine ⟨h.exclusive, h.unstarted, h.called, ?_, h.ended, ?_⟩
  · intro u isOpen hmem
    rcases List.mem_append.mp hmem with hmem | hmem
    · exact h.issued u isOpen hmem
    · obtain ⟨rfl, -⟩ := Prod.mk.inj (List.mem_singleton.mp hmem)
      exact hcalled
  · intro u isOpen hmem hearly
    rcases List.mem_append.mp hmem with hmem | hmem
    · exact h.served u isOpen hmem hearly
    · obtain ⟨rfl, rfl⟩ := Prod.mk.inj (List.mem_singleton.mp hmem)
      by_contra hclosed
      exact hunfinished (h.ended (Bool.not_eq_true _ ▸ hclosed) u hearly)

omit [DecidableEq ι] in
/-- One step of a read. -/
theorem read (h : s.Sound) (hstep : ReadStep s t s') : s'.Sound := by
  cases hstep with
  | enter read hnew => exact h.enter read hnew
  | acquireRead hphase hfree =>
    exact h.goto (by simp) (fun _ => hfree) (by simp [hphase])
  | lockTimeout hphase => exact h.goto (by simp) (by simp) (by simp [hphase])
  | statement hphase => exact h.issue (by simp [hphase]) (by simp [hphase])
  | nextPage hphase => exact h.issue (by simp [hphase]) (by simp [hphase])
  | ends hphase => exact h.goto (by simp) (by simp) (by simp [hphase])
  | iterationEnds hphase => exact h.goto (by simp) (by simp) (by simp [hphase])

omit [DecidableEq θ] in
/-- One step of a thread of the runtime that meets the condition. -/
theorem runtime (h : s.Sound) {e : Event ι} {r : RuntimeState ι}
    (hstep : RuntimeStep s.runtime e r)
    (hlock : s.runtime.closer = .acquiring → r.closer = .locked → ∀ t, s.reads t ≠ .reading)
    (hquiesced : Quiesced s { s with runtime := r }) :
    ({ s with runtime := r } : ServingState ι θ).Sound := by
  obtain ⟨hstore, hstarted, hclosed, hholds⟩ := hstep.shutdown_cases
  refine ⟨?_, ?_, h.called, h.issued, ?_, h.served⟩
  · intro hwrite
    rcases hholds hwrite with hbefore | ⟨hacquiring, hlocked⟩
    · exact h.exclusive hbefore
    · exact hlock hacquiring hlocked
  · intro hnot
    have hnot : r.started = false := hnot
    rcases hstarted with hsame | hclosed'
    · exact hclosed (h.unstarted (hsame ▸ hnot))
    · exact hclosed'
  · intro hnow t hearly
    have hnow : r.storeOpen = false := hnow
    cases hwas : s.runtime.storeOpen with
    | false => exact h.ended hwas t hearly
    | true =>
      -- the connections are closed now, under the write lock
      have hnotReading : s.reads t ≠ .reading := by
        rcases hstore with hsame | hnot | hclosing
        · rw [hnow, hwas] at hsame
          cases hsame
        · rw [h.unstarted hnot] at hwas
          cases hwas
        · refine h.exclusive ?_ t
          rw [hclosing]
          trivial
      obtain ⟨hnotAcquiring, hnotPaging⟩ := hquiesced hwas hnow t hearly
      have hcalled := h.called t hearly
      change s.reads t = .finished
      cases hphase : s.reads t with
      | notCalled => exact absurd hphase hcalled
      | acquiring => exact absurd hphase hnotAcquiring
      | reading => exact absurd hphase hnotReading
      | paging => exact absurd hphase hnotPaging
      | finished => rfl

/-- One step that meets the condition. -/
theorem step (h : s.Sound) (hstep : ServingStep s s') (hquiesced : Quiesced s s') : s'.Sound := by
  cases hstep with
  | read hread => exact h.read hread
  | runtime hruntime hlock => exact h.runtime hruntime hlock hquiesced

end ServingState.Sound

/-- **Where no read that was started before waits for the lock and no page iteration is
unfinished when the connections are closed, the reads are served**: every statement they
issue is executed before. -/
theorem readsServed_of_run {live : Path} {db : Database} {s : ServingState ι θ}
    (hrun : QuiescedRun live db s) : ReadsServed s := by
  have hsound : s.Sound := by
    refine invariant_of_step hrun (.start live db) ?_
    rintro s s' hs ⟨hstep, hquiesced⟩
    exact hs.step hstep hquiesced
  exact hsound.served

end

/-! ### Evaluated -/

namespace Reference

/-- The runtime while it is closed; the writer does not come to its end in time. -/
def closingRuntime (isOpen stop : Bool) (queue : List (Option (QueuedCommand ℕ)))
    (closer : ClosePhase) : RuntimeState ℕ :=
  ⟨ledgerFile, {}, isOpen, isOpen, stop, queue, fun _ => none, fun _ => .notCalled, closer,
    .testingStop⟩

/-- The reads together with the runtime while it is closed. -/
def during (s : ServingState ℕ Unit) (isOpen stop : Bool)
    (queue : List (Option (QueuedCommand ℕ))) (closer : ClosePhase) : ServingState ℕ Unit :=
  { s with runtime := closingRuntime isOpen stop queue closer }

/-- A shutdown up to the moment when the connections are closed, while the reads stand
still and none has the lock. -/
theorem run_shutdown {s : ServingState ℕ Unit} (hreads : ∀ t, s.reads t ≠ .reading) :
    ReflTransGen (fun s s' => ServingStep s s' ∧ Quiesced s s')
      (during s true false [] .notCalled) (during s true true [none] .closing) := by
  have hopen : ∀ {stop stop' : Bool} {queue queue' : List (Option (QueuedCommand ℕ))}
      {closer closer' : ClosePhase},
      Quiesced (during s true stop queue closer) (during s true stop' queue' closer') := by
    intro stop stop' queue queue' closer closer' _ hclosed
    cases hclosed
  have h₁ : ServingStep (during s true false [] .notCalled) (during s true false [] .acquiring) :=
    .runtime (.close (.enter rfl rfl)) fun _ _ => hreads
  have h₂ : ServingStep (during s true false [] .acquiring) (during s true false [] .locked) :=
    .runtime (.close (.acquireWrite rfl fun _ => id)) fun _ _ => hreads
  have h₃ : ServingStep (during s true false [] .locked) (during s true true [] .stopping) :=
    .runtime (.close (.setStop rfl)) fun _ _ => hreads
  have h₄ : ServingStep (during s true true [] .stopping) (during s true true [none] .joining) :=
    .runtime (.close (.putSentinel rfl)) fun _ _ => hreads
  have h₅ : ServingStep (during s true true [none] .joining)
      (during s true true [none] .closing) :=
    .runtime (.close (.join rfl)) fun _ _ => hreads
  exact .tail (.tail (.tail (.tail (.single ⟨h₁, hopen⟩) ⟨h₂, hopen⟩) ⟨h₃, hopen⟩) ⟨h₄, hopen⟩)
    ⟨h₅, hopen⟩

theorem closeStore_during {s : ServingState ℕ Unit} (hreads : ∀ t, s.reads t ≠ .reading) :
    ServingStep (during s true true [none] .closing) (during s false true [none] .notCalled) :=
  .runtime (.close (.closeStore rfl)) fun _ _ => hreads

/-- A runtime that was just started, before any read. -/
def serving : ServingState ℕ Unit := .start ledgerFile {}

/-- One read under the lock, which ends before the shutdown. -/
theorem readsServed_listBookCodes : ∃ s : ServingState ℕ Unit,
    s.statements = [((), true)] ∧ s.early () = true ∧ s.runtime.storeOpen = false ∧
      ReadsServed s := by
  let s : ServingState ℕ Unit :=
    (((serving.enter () .listBookCodes).goto () .reading).issue ()).goto () .finished
  have hreads : ∀ t, s.reads t ≠ .reading := by
    intro t
    rw [ServingState.reads_goto_self]
    simp
  have hquiesced : ∀ {x y : ServingState ℕ Unit}, y.runtime.storeOpen = true → Quiesced x y := by
    intro x y hopen _ hclosed
    rw [hopen] at hclosed
    cases hclosed
  have hread : QuiescedRun ledgerFile {} s :=
    .tail (.tail (.tail (.single ⟨.read (.enter .listBookCodes rfl), hquiesced rfl⟩)
      ⟨.read (.acquireRead rfl id), hquiesced rfl⟩) ⟨.read (.statement rfl), hquiesced rfl⟩)
      ⟨.read (.ends rfl), hquiesced rfl⟩
  have hclose : Quiesced (during s true true [none] .closing)
      (during s false true [none] .notCalled) := by
    intro _ _ t _
    change s.reads t ≠ _ ∧ s.reads t ≠ _
    rw [ServingState.reads_goto_self]
    simp
  have hrun : QuiescedRun ledgerFile {} (during s false true [none] .notCalled) :=
    (ReflTransGen.trans hread (run_shutdown hreads)).tail ⟨closeStore_during hreads, hclose⟩
  exact ⟨_, rfl, rfl, rfl, readsServed_of_run hrun⟩

/-- The next page after a shutdown is asked of a closed connection; and a read that was
waiting for the lock gets it after the shutdown. -/
theorem reads_pulled :
    (∃ s : ServingState ℕ Unit, ServingRun ledgerFile {} s ∧
      s.statements = [((), true), ((), false)] ∧ ¬ ReadsServed s) ∧
    ∃ s : ServingState ℕ Unit, ServingRun ledgerFile {} s ∧
      s.statements = [((), false)] ∧ ¬ ReadsServed s := by
  have hmono : ∀ {x y : ServingState ℕ Unit},
      ReflTransGen (fun s s' => ServingStep s s' ∧ Quiesced s s') x y →
        ReflTransGen ServingStep x y := by
    intro x y hrun
    exact hrun.lift id fun _ _ hstep => hstep.1
  constructor
  · let s : ServingState ℕ Unit := (serving.enter () .iterAuditLogPages).issue ()
    have hreads : ∀ t, s.reads t ≠ .reading := by
      intro t
      change (serving.goto () .paging).reads t ≠ _
      rw [ServingState.reads_goto_self]
      simp
    have hpages : ServingRun ledgerFile {} s :=
      .tail (.single (.read (.enter .iterAuditLogPages rfl))) (.read (.nextPage rfl))
    have hrun : ServingRun ledgerFile {} ((during s false true [none] .notCalled).issue ()) :=
      ((ReflTransGen.trans hpages (hmono (run_shutdown hreads))).tail
        (closeStore_during hreads)).tail (.read (.nextPage rfl))
    refine ⟨_, hrun, rfl, ?_⟩
    intro hserved
    have hopen := hserved () false (List.mem_append_right _ (List.mem_singleton.mpr rfl)) rfl
    cases hopen
  · let s : ServingState ℕ Unit := serving.enter () .getBookSnapshot
    have hreads : ∀ t, s.reads t ≠ .reading := by
      intro t
      change (serving.goto () .acquiring).reads t ≠ _
      rw [ServingState.reads_goto_self]
      simp
    have hwaits : ServingRun ledgerFile {} s := .single (.read (.enter .getBookSnapshot rfl))
    have hrun : ServingRun ledgerFile {}
        (((during s false true [none] .notCalled).goto () .reading).issue ()) :=
      (((ReflTransGen.trans hwaits (hmono (run_shutdown hreads))).tail
        (closeStore_during hreads)).tail (.read (.acquireRead rfl id))).tail
        (.read (.statement rfl))
    refine ⟨_, hrun, rfl, ?_⟩
    intro hserved
    have hopen := hserved () false (List.mem_append_right _ (List.mem_singleton.mpr rfl)) rfl
    cases hopen

end Reference

end FinestVX
