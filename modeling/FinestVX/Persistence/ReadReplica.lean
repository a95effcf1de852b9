import FinestVX.Lib.Handles
import FinestVX.Lib.Transition

/-!
# The read replica

A `ReadReplica` reads through one `AsyncLedgerReader`, which it replaces by a fresh one
now and then.  Its calls run as tasks of one event loop: between two `await`s nothing
else happens, at each of them anything may.

## Main definitions

* `ReplicaTask`, `ReplicaState`, `ReplicaStep` — where each task is, what the tasks
  share, and the steps from one `await` to the next.
* `Hygienic` — no closed reader is used, and each reader is closed once.
* `Replaceable` — the condition on a step.

## Main results

* `ReplicaState.Sound.step` — what the steps that meet the condition keep.
* `hygienic_of_run` — **every run whose steps meet the condition is hygienic.**
* `ReplicaState.Sound.leaks` — a refresh that comes back late loses a reader.
* `Reference.refreshes_overlap` — two refreshes at once, and a page iteration that
  outlives its reader.
-/

namespace FinestVX

open Relation

/-! ### Tasks -/

/-- A read method. -/
inductive ReplicaRead
  | listBookCodes
  | loadBook
  | iterAuditLog
  | iterAuditLogPages
  deriving DecidableEq

/-- Where a task is; readers are numbered as they are opened. -/
inductive ReplicaTask
  /-- In no call of the replica. -/
  | idle
  /-- In `refresh`, which remembers a reader and awaits `AsyncLedgerReader.open`; the read
  that asked for the refresh goes on afterwards. -/
  | opening (old : ℕ) (read : Option ReplicaRead)
  /-- Awaits the execution of a statement. -/
  | executing (read : ReplicaRead) (reader : ℕ)
  /-- Awaits the rows of a statement. -/
  | fetching (read : ReplicaRead) (reader : ℕ)
  /-- `iter_audit_log_pages` has yielded a page, and its consumer runs. -/
  | yielded (reader : ℕ)
  deriving DecidableEq

/-- The reader a read has captured and may still use. -/
def ReplicaTask.captured : ReplicaTask → Option ℕ
  | executing _ reader | fetching _ reader | yielded reader => some reader
  | _ => none

/-- The fields of a `ReadReplica`, the tasks, and what happened to the readers. -/
structure ReplicaState (θ : Type) where
  now : ℕ := 0
  lastRefresh : ℕ := 0
  current : ℕ := 0
  count : ℕ := 1
  tasks : θ → ReplicaTask := fun _ => .idle
  log : List (HandleEvent ℕ) := [.opened 0]

variable {θ : Type} [DecidableEq θ]

namespace ReplicaState

/-- A task goes on. -/
def goto (s : ReplicaState θ) (t : θ) (task : ReplicaTask) : ReplicaState θ :=
  { s with tasks := Function.update s.tasks t task }

omit [DecidableEq θ] in
/-- A reader is used. -/
def use (s : ReplicaState θ) (reader : ℕ) : ReplicaState θ :=
  { s with log := s.log ++ [.used reader] }

omit [DecidableEq θ] in
/-- The rest of `refresh`, after `AsyncLedgerReader.open` has returned. -/
def install (s : ReplicaState θ) (old : ℕ) : ReplicaState θ :=
  { s with
    current := s.count
    count := s.count + 1
    lastRefresh := s.now
    log := s.log ++ [.opened s.count] ++ [.closed old] }

@[simp] theorem tasks_goto_self (s : ReplicaState θ) (t : θ) (task : ReplicaTask) :
    (s.goto t task).tasks t = task :=
  Function.update_self ..

theorem tasks_goto_of_ne (s : ReplicaState θ) {t u : θ} (h : u ≠ t) (task : ReplicaTask) :
    (s.goto t task).tasks u = s.tasks u :=
  Function.update_of_ne h ..

end ReplicaState

/-- A step from one `await` to the next, with the remembered reader where a refresh comes
back. -/
inductive ReplicaStep (interval : ℕ) (s : ReplicaState θ) : Option ℕ → ReplicaState θ → Prop
  | tick (d : ℕ) : ReplicaStep interval s none { s with now := s.now + d }
  | refresh {t : θ} (h : s.tasks t = .idle) :
      ReplicaStep interval s none (s.goto t (.opening s.current none))
  /-- `_maybe_refresh` refreshes. -/
  | readElapsed {t : θ} (read : ReplicaRead) (h : s.tasks t = .idle)
      (helapsed : interval ≤ s.now - s.lastRefresh) :
      ReplicaStep interval s none (s.goto t (.opening s.current (some read)))
  /-- `_maybe_refresh` does not, and the read issues its first statement. -/
  | read {t : θ} (read : ReplicaRead) (h : s.tasks t = .idle)
      (hfresh : s.now - s.lastRefresh < interval) :
      ReplicaStep interval s none ((s.use s.current).goto t (.executing read s.current))
  /-- `AsyncLedgerReader.open` raises. -/
  | openRaises {t : θ} {old : ℕ} {read : Option ReplicaRead}
      (h : s.tasks t = .opening old read) : ReplicaStep interval s none (s.goto t .idle)
  /-- `refresh` returns. -/
  | openReturns {t : θ} {old : ℕ} (h : s.tasks t = .opening old none) :
      ReplicaStep interval s (some old) ((s.install old).goto t .idle)
  /-- `refresh` returns to a read, which issues its first statement. -/
  | openReturnsRead {t : θ} {old : ℕ} {read : ReplicaRead}
      (h : s.tasks t = .opening old (some read)) :
      ReplicaStep interval s (some old)
        (((s.install old).use s.count).goto t (.executing read s.count))
  | executed {t : θ} {read : ReplicaRead} {reader : ℕ} (h : s.tasks t = .executing read reader) :
      ReplicaStep interval s none ((s.use reader).goto t (.fetching read reader))
  | executeRaises {t : θ} {read : ReplicaRead} {reader : ℕ}
      (h : s.tasks t = .executing read reader) : ReplicaStep interval s none (s.goto t .idle)
  /-- The next statement of `load_book`. -/
  | nextStatement {t : θ} {reader : ℕ} (h : s.tasks t = .fetching .loadBook reader) :
      ReplicaStep interval s none ((s.use reader).goto t (.executing .loadBook reader))
  | yields {t : θ} {reader : ℕ} (h : s.tasks t = .fetching .iterAuditLogPages reader) :
      ReplicaStep interval s none (s.goto t (.yielded reader))
  /-- The consumer asks for another page. -/
  | nextPage {t : θ} {reader : ℕ} (h : s.tasks t = .yielded reader) :
      ReplicaStep interval s none ((s.use reader).goto t (.executing .iterAuditLogPages reader))
  /-- The consumer drops the iteration. -/
  | abandoned {t : θ} {reader : ℕ} (h : s.tasks t = .yielded reader) :
      ReplicaStep interval s none (s.goto t .idle)
  /-- The read returns or raises. -/
  | readEnds {t : θ} {read : ReplicaRead} {reader : ℕ} (h : s.tasks t = .fetching read reader) :
      ReplicaStep interval s none (s.goto t .idle)

/-- The interleavings of the tasks, from a replica that was just opened. -/
def ReplicaRun (interval : ℕ) : ReplicaState θ → Prop :=
  ReflTransGen (fun s s' => ∃ e, ReplicaStep interval s e s') {}

/-- No closed reader is used; every reader that was opened and is not the current one was
closed once; and while no task is inside a call the current reader is the only open one. -/
structure Hygienic (s : ReplicaState θ) : Prop where
  used : UsedOpen s.log
  closedOnce : ∀ r, .opened r ∈ s.log → r ≠ s.current → s.log.count (.closed r) = 1
  alone : (∀ t, s.tasks t = .idle) → ∀ r, LeftOpen s.log r ↔ r = s.current

/-- A refresh comes back while the reader it has remembered is still the current one and
no unfinished read has captured it. -/
def Replaceable (s : ReplicaState θ) (e : Option ℕ) : Prop :=
  ∀ old ∈ e, old = s.current ∧ ∀ t, (s.tasks t).captured ≠ some old

/-- The interleavings whose steps meet the condition. -/
def ReplaceableRun (interval : ℕ) : ReplicaState θ → Prop :=
  ReflTransGen (fun s s' => ∃ e, ReplicaStep interval s e s' ∧ Replaceable s e) {}

/-! ### The invariant -/

/-- Every reader but the current one was closed once, and unfinished reads have captured
the current one. -/
structure ReplicaState.Sound (s : ReplicaState θ) : Prop where
  used : UsedOpen s.log
  opened : ∀ r, .opened r ∈ s.log ↔ r < s.count
  current : s.current < s.count
  closed : ∀ r, s.log.count (.closed r) = if r < s.count ∧ r ≠ s.current then 1 else 0
  captured : ∀ t r, (s.tasks t).captured = some r → r = s.current

namespace ReplicaState.Sound

variable {s s' : ReplicaState θ} {t : θ} {interval : ℕ}

omit [DecidableEq θ] in
theorem init : ({} : ReplicaState θ).Sound where
  used := usedOpen_nil.opened 0
  opened r := by simp
  current := Nat.zero_lt_one
  closed r := by
    change ([.opened 0] : List (HandleEvent ℕ)).count (.closed r) = if r < 1 ∧ r ≠ 0 then 1 else 0
    rw [if_neg (by omega)]
    simp
  captured t r h := by simp [ReplicaTask.captured] at h

omit [DecidableEq θ] in
theorem not_closed (h : s.Sound) : .closed s.current ∉ s.log := by
  apply List.count_eq_zero.mp
  rw [h.closed, if_neg (by simp)]

omit [DecidableEq θ] in
theorem tick (h : s.Sound) (now : ℕ) : ({ s with now := now } : ReplicaState θ).Sound :=
  ⟨h.used, h.opened, h.current, h.closed, h.captured⟩

theorem goto (h : s.Sound) {task : ReplicaTask}
    (htask : ∀ r, task.captured = some r → r = s.current) : (s.goto t task).Sound := by
  refine ⟨h.used, h.opened, h.current, h.closed, ?_⟩
  intro u r hu
  by_cases hut : u = t
  · subst hut
    rw [s.tasks_goto_self] at hu
    exact htask r hu
  · rw [s.tasks_goto_of_ne hut] at hu
    exact h.captured u r hu

omit [DecidableEq θ] in
/-- The current reader is used. -/
theorem use (h : s.Sound) : (s.use s.current).Sound where
  used := h.used.used h.not_closed
  opened r := by
    rw [ReplicaState.use, List.mem_append, h.opened]
    simp
  current := h.current
  closed r := by
    rw [ReplicaState.use, List.count_append, h.closed]
    simp
  captured := h.captured

/-- A task that goes on with the reader it has captured uses the current one. -/
theorem goto_use {reader : ℕ} {read : ReplicaRead} (h : s.Sound)
    (hreader : (s.tasks t).captured = some reader) {task : ReplicaTask}
    (htask : task = .executing read reader ∨ task = .fetching read reader) :
    ((s.use reader).goto t task).Sound := by
  obtain rfl := h.captured t reader hreader
  apply h.use.goto
  intro r hr
  rcases htask with rfl | rfl <;> exact (Option.some.inj hr).symm

omit [DecidableEq θ] in
/-- The current reader is replaced, and no unfinished read has captured it. -/
theorem install (h : s.Sound) (hnone : ∀ t, (s.tasks t).captured ≠ some s.current) :
    (s.install s.current).Sound where
  used := (h.used.opened s.count).closed s.current
  opened r := by
    have := h.opened r
    simp only [ReplicaState.install, List.mem_append, List.mem_singleton, reduceCtorEq, or_false,
      HandleEvent.opened.injEq, this]
    omega
  current := Nat.lt_succ_self s.count
  closed r := by
    have hcurrent := h.current
    have hopened : [HandleEvent.opened s.count].count (.closed r) = 0 := by simp
    have hclosed : [HandleEvent.closed s.current].count (.closed r) =
        if s.current = r then 1 else 0 := by
      rw [List.count_singleton]
      simp
    change (s.log ++ [HandleEvent.opened s.count] ++ [HandleEvent.closed s.current]).count
      (HandleEvent.closed r) =
      if r < s.count + 1 ∧ r ≠ s.count then 1 else 0
    rw [List.count_append, List.count_append, h.closed, hopened, hclosed]
    split_ifs <;> omega
  captured t r ht := by
    obtain rfl := h.captured t r ht
    exact absurd ht (hnone t)

/-- One step that meets the condition. -/
theorem step {e : Option ℕ} (h : s.Sound) (hstep : ReplicaStep interval s e s')
    (hrep : Replaceable s e) : s'.Sound := by
  cases hstep with
  | tick d => exact h.tick _
  | refresh ht => exact h.goto (by simp [ReplicaTask.captured])
  | readElapsed read ht helapsed => exact h.goto (by simp [ReplicaTask.captured])
  | read read ht hfresh =>
    apply h.use.goto
    intro r hr
    exact (Option.some.inj hr).symm
  | openRaises ht => exact h.goto (by simp [ReplicaTask.captured])
  | openReturns ht =>
    obtain ⟨rfl, hnone⟩ := hrep _ rfl
    exact (h.install hnone).goto (by simp [ReplicaTask.captured])
  | openReturnsRead ht =>
    obtain ⟨rfl, hnone⟩ := hrep _ rfl
    apply (h.install hnone).use.goto
    intro r hr
    exact (Option.some.inj hr).symm
  | executed ht => exact h.goto_use (by rw [ht]; rfl) (.inr rfl)
  | executeRaises ht => exact h.goto (by simp [ReplicaTask.captured])
  | nextStatement ht => exact h.goto_use (by rw [ht]; rfl) (.inl rfl)
  | @yields u reader ht =>
    apply h.goto
    intro r hr
    refine h.captured u r ?_
    rw [ht]
    exact hr
  | nextPage ht => exact h.goto_use (by rw [ht]; rfl) (.inl rfl)
  | abandoned ht => exact h.goto (by simp [ReplicaTask.captured])
  | readEnds ht => exact h.goto (by simp [ReplicaTask.captured])

omit [DecidableEq θ] in
theorem hygienic (h : s.Sound) : Hygienic s where
  used := h.used
  closedOnce r hr hne := by
    rw [h.closed, if_pos ⟨(h.opened r).mp hr, hne⟩]
  alone _ r := by
    rw [LeftOpen, h.opened, ← List.count_eq_zero, h.closed]
    have := h.current
    by_cases hr : r = s.current
    · simp [hr, this]
    · simp [hr]

omit [DecidableEq θ] in
/-- A refresh that comes back after another one has replaced the reader loses the current
reader: nobody closes it. -/
theorem leaks (h : s.Sound) {old : ℕ} (hold : old ≠ s.current) : ¬ Hygienic (s.install old) := by
  intro hhygienic
  have hopened : .opened s.current ∈ (s.install old).log := by
    simp only [ReplicaState.install, List.mem_append]
    exact .inl (.inl ((h.opened _).mpr h.current))
  have hone := hhygienic.closedOnce s.current hopened (Nat.ne_of_lt h.current)
  simp only [ReplicaState.install, List.count_append, h.closed] at hone
  simp [hold] at hone

end ReplicaState.Sound

/-- **Every run whose refreshes come back in time is hygienic**: no statement is issued on
a reader that was closed, every reader that was opened and is no longer the current one
was closed once, and while no task is inside a call the current reader is the only open
one. -/
theorem hygienic_of_run {interval : ℕ} {s : ReplicaState θ} (hrun : ReplaceableRun interval s) :
    Hygienic s := by
  have hsound : s.Sound := by
    refine invariant_of_step hrun .init ?_
    rintro s s' hs ⟨e, hstep, hrep⟩
    exact hs.step hstep hrep
  exact hsound.hygienic

/-! ### Evaluated -/

namespace Reference

/-- A refresh, and then a read of one statement. -/
theorem hygienic_refresh : ∃ s : ReplicaState Unit, s.current = 1 ∧
    s.log = [.opened 0, .opened 1, .closed 0, .used 1, .used 1] ∧ Hygienic s := by
  have hrun : ReplaceableRun 5 ((((((({} : ReplicaState Unit).goto () (.opening 0 none)).install
      0).goto () .idle).use 1).goto () (.executing .listBookCodes 1)).use 1 |>.goto ()
      (.fetching .listBookCodes 1)) := by
    refine .tail (.tail (.tail (.tail .refl ⟨_, .refresh rfl, ?_⟩) ⟨_, .openReturns rfl, ?_⟩)
      ⟨_, .read .listBookCodes rfl ?_, ?_⟩) ⟨_, .executed rfl, ?_⟩
    · simp [Replaceable]
    · intro old hold
      cases hold
      exact ⟨rfl, fun t => by simp [ReplicaState.goto, ReplicaTask.captured]⟩
    · decide
    · simp [Replaceable]
    · simp [Replaceable]
  exact ⟨_, rfl, rfl, hygienic_of_run hrun⟩

/-- The replica with two tasks, the first of which is paging. -/
def yieldedFirst : ReplicaState Bool :=
  ((((({} : ReplicaState Bool).use 0).goto false (.executing .iterAuditLogPages 0)).use 0).goto
    false (.fetching .iterAuditLogPages 0)).goto false (.yielded 0)

/-- Two refreshes at once close the first reader twice and lose the second one; and the
next page after a refresh is asked of a closed reader. -/
theorem refreshes_overlap :
    (∃ s : ReplicaState Bool, ReplicaRun 5 s ∧ (∀ t, s.tasks t = .idle) ∧ s.current = 2 ∧
      s.log.count (.closed 0) = 2 ∧ LeftOpen s.log 1 ∧ ¬ Hygienic s) ∧
    ∃ s : ReplicaState Bool, ReplicaRun 5 s ∧
      s.log = [.opened 0, .used 0, .used 0, .opened 1, .closed 0, .used 0] ∧ ¬ Hygienic s := by
  constructor
  · have hrun : ReplicaRun 5 ((((((({} : ReplicaState Bool).goto false (.opening 0 none)).goto true
        (.opening 0 none)).install 0).goto false .idle).install 0).goto true .idle) :=
      .tail (.tail (.tail (.tail .refl ⟨_, .refresh rfl⟩) ⟨_, .refresh rfl⟩)
        ⟨_, .openReturns rfl⟩) ⟨_, .openReturns rfl⟩
    refine ⟨_, hrun, ?_, rfl, rfl, ⟨by decide, by decide⟩, ?_⟩
    · intro t
      cases t <;> rfl
    · intro hhygienic
      have hone := hhygienic.closedOnce 0 (by decide) (by decide)
      exact absurd hone (by decide)
  · have hrun : ReplicaRun 5 (((((yieldedFirst.goto true (.opening 0 none)).install 0).goto true
        .idle).use 0).goto false (.executing .iterAuditLogPages 0)) :=
      .tail (.tail (.tail (.tail (.tail (.tail .refl ⟨_, .read .iterAuditLogPages rfl (by decide)⟩)
        ⟨_, .executed rfl⟩) ⟨_, .yields rfl⟩) ⟨_, .refresh rfl⟩) ⟨_, .openReturns rfl⟩)
        ⟨_, .nextPage rfl⟩
    refine ⟨_, hrun, rfl, ?_⟩
    intro hhygienic
    refine hhygienic.used [.opened 0, .used 0, .used 0, .opened 1, .closed 0] 0 [] rfl ?_
    decide

end Reference

end FinestVX
