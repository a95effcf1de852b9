import FinestVX.Core.Platform
import FinestVX.Lib.Holdings
import FinestVX.Lib.IntegerText

/-!
# The reader pool

The store keeps its reader connections in a queue as long as their number.  A read borrows
one of them; a debug snapshot borrows all, one after the other, and gives back what it has
when one does not come in time.  Any number of reads and snapshots are under way at once,
on any threads, and their steps interleave.

## Main definitions

* `ReaderHandle`, `openReaders` — the handles of a store.
* `BorrowPhase` — where an activation of `_borrow_reader` or `_borrow_all_readers` is.
* `ReaderPool`, `ReaderPool.advance` — the queue with all the activations, and the next
  statement of one of them.

## Main results

* `ReaderPool.conserved_of_run` — no handle is lost or held twice, in any interleaving.
* `readers_conserved` — **each handle is in the pool or with one borrower, giving it back
  does not block, and all are in the pool when nobody borrows.**
* `snapshot_holds_all_readers` — the body of a debug snapshot has all handles.
-/

namespace FinestVX

open Relation

/-! ### Handles -/

/-- `_ReaderHandle`; its connection is opened with it and stands for it. -/
structure ReaderHandle where
  label : String
  deriving DecidableEq, Repr

/-- `_open_reader_handle` -/
def openReaderHandle (index : ℕ) : ReaderHandle := ⟨s!"reader-{index}"⟩

/-- `_reader_handles`, of a configuration with `count` reader connections. -/
def openReaders (count : ℕ) : List ReaderHandle :=
  (List.range count).map fun index => openReaderHandle (index + 1)

@[simp] theorem length_openReaders (count : ℕ) : (openReaders count).length = count := by
  simp [openReaders]

theorem openReaderHandle_injective : Function.Injective openReaderHandle := by
  intro i j h
  have hlabel : "reader-" ++ toString (i : ℤ) = "reader-" ++ toString (j : ℤ) :=
    congrArg ReaderHandle.label h
  exact Int.natCast_inj.mp (Integer.toString_injective ((String.append_right_inj _).mp hlabel))

/-- The handles are different. -/
theorem nodup_openReaders (count : ℕ) : (openReaders count).Nodup := by
  refine List.Nodup.map ?_ List.nodup_range
  intro i j h
  have := openReaderHandle_injective h
  omega

/-! ### Activations -/

/-- What a context manager ends with. -/
abbrev BorrowOutcome := Except PyError Unit

/-- Where an activation of one of the two context managers is. -/
inductive BorrowPhase
  | notStarted
  /-- `_borrow_reader`, at the `get`. -/
  | checkout
  /-- `_borrow_reader`, in the body. -/
  | reading (handle : ReaderHandle)
  /-- `_borrow_all_readers`, at a `get`. -/
  | collecting (borrowed : List ReaderHandle)
  /-- `_borrow_all_readers`, in the body. -/
  | inspecting (borrowed : List ReaderHandle)
  /-- `finally`, at the `put` of the first handle of `rest`. -/
  | returning (rest : List ReaderHandle) (outcome : BorrowOutcome)
  | finished (outcome : BorrowOutcome)

namespace BorrowPhase

/-- The handles that the activation has. -/
def held : BorrowPhase → List ReaderHandle
  | notStarted | checkout | finished _ => []
  | reading handle => [handle]
  | collecting borrowed | inspecting borrowed => borrowed
  | returning rest _ => rest

/-- The activation is between its start and its end. -/
def Active : BorrowPhase → Prop
  | notStarted | finished _ => False
  | _ => True

/-- The next round of the loop over `_reader_handles`, or the body after the last one. -/
def collect (count : ℕ) (borrowed : List ReaderHandle) : BorrowPhase :=
  if borrowed.length < count then collecting borrowed else inspecting borrowed

/-- The next round of the loop of `finally`, or the end. -/
def giveBack (outcome : BorrowOutcome) : List ReaderHandle → BorrowPhase
  | [] => finished outcome
  | handle :: rest => returning (handle :: rest) outcome

@[simp] theorem held_collect (count : ℕ) (borrowed : List ReaderHandle) :
    (collect count borrowed).held = borrowed := by
  unfold collect
  split <;> rfl

@[simp] theorem held_giveBack (outcome : BorrowOutcome) (rest : List ReaderHandle) :
    (giveBack outcome rest).held = rest := by
  cases rest <;> rfl

/-- The body of a debug snapshot is entered after the last round of the loop. -/
def Complete (count : ℕ) (p : BorrowPhase) : Prop :=
  ∀ borrowed, p = inspecting borrowed → count ≤ borrowed.length

theorem complete_collect (count : ℕ) (borrowed : List ReaderHandle) :
    (collect count borrowed).Complete count := by
  intro borrowed' h
  unfold collect at h
  split at h
  · cases h
  · next hlength =>
    cases h
    omega

theorem complete_giveBack (count : ℕ) (outcome : BorrowOutcome) (rest : List ReaderHandle) :
    (giveBack outcome rest).Complete count := by
  intro borrowed h
  cases rest <;> cases h

/-- An activation that has handles is active. -/
theorem held_of_not_active {p : BorrowPhase} (h : ¬ p.Active) : p.held = [] := by
  cases p with
  | notStarted => rfl
  | finished outcome => rfl
  | checkout => exact (h trivial).elim
  | reading handle => exact (h trivial).elim
  | collecting borrowed => exact (h trivial).elim
  | inspecting borrowed => exact (h trivial).elim
  | returning rest outcome => exact (h trivial).elim

end BorrowPhase

/-! ### The queue -/

/-- A statement of an activation, as the thread, the clock and the body decide. -/
inductive BorrowEvent
  | borrowReader
  | borrowAllReaders
  /-- The queue hands out a handle. -/
  | get
  /-- The queue raises `Empty`, at whatever moment. -/
  | timeout
  /-- The body ends, or raises. -/
  | leave (outcome : BorrowOutcome)
  | put
  deriving Repr

/-- What `TimeoutError` says to a read. -/
def readerTimeout : PyError := .fault "Timed out waiting for a SQLite reader connection"

/-- What `TimeoutError` says to a debug snapshot. -/
def telemetryTimeout : PyError := .fault "Timed out waiting for SQLite reader telemetry access"

/-- `_reader_pool`, first come first served, and the activations. -/
structure ReaderPool (ι : Type) where
  pool : List ReaderHandle
  phase : ι → BorrowPhase

variable {ι : Type} [DecidableEq ι]

namespace ReaderPool

/-- The pool after `__init__`. -/
def init (count : ℕ) : ReaderPool ι := ⟨openReaders count, fun _ => .notStarted⟩

/-- An activation goes on, with the queue as it is then. -/
def move (s : ReaderPool ι) (i : ι) (p : BorrowPhase) (pool : List ReaderHandle) : ReaderPool ι :=
  ⟨pool, Function.update s.phase i p⟩

@[simp] theorem phase_move_self (s : ReaderPool ι) (i : ι) (p : BorrowPhase)
    (pool : List ReaderHandle) : (s.move i p pool).phase i = p :=
  Function.update_self ..

theorem phase_move_of_ne (s : ReaderPool ι) {i j : ι} (h : j ≠ i) (p : BorrowPhase)
    (pool : List ReaderHandle) : (s.move i p pool).phase j = s.phase j :=
  Function.update_of_ne h ..

/-- `put` blocks: the queue has its `maxsize`, where 0 is no limit. -/
def Full (count : ℕ) (s : ReaderPool ι) : Prop := 0 < count ∧ count ≤ s.pool.length

instance (count : ℕ) (s : ReaderPool ι) : Decidable (s.Full count) :=
  inferInstanceAs (Decidable (_ ∧ _))

/-- The next statement of an activation.  One that waits at a `get` or a `put` has no step
until the queue has a handle, or has room. -/
def advance (count : ℕ) (s : ReaderPool ι) (i : ι) (e : BorrowEvent) : Option (ReaderPool ι) :=
  match s.phase i, e with
  | .notStarted, .borrowReader => some (s.move i .checkout s.pool)
  | .notStarted, .borrowAllReaders => some (s.move i (.collect count []) s.pool)
  | .checkout, .get =>
    match s.pool with
    | [] => none
    | handle :: rest => some (s.move i (.reading handle) rest)
  | .checkout, .timeout => some (s.move i (.finished (.error readerTimeout)) s.pool)
  | .reading handle, .leave outcome => some (s.move i (.giveBack outcome [handle]) s.pool)
  | .collecting borrowed, .get =>
    match s.pool with
    | [] => none
    | handle :: rest => some (s.move i (.collect count (borrowed ++ [handle])) rest)
  | .collecting borrowed, .timeout =>
    some (s.move i (.giveBack (.error telemetryTimeout) borrowed.reverse) s.pool)
  | .inspecting borrowed, .leave outcome =>
    some (s.move i (.giveBack outcome borrowed.reverse) s.pool)
  | .returning (handle :: rest) outcome, .put =>
    if s.Full count then none else some (s.move i (.giveBack outcome rest) (s.pool ++ [handle]))
  | _, _ => none

/-- A step of the activations. -/
def Step (count : ℕ) (s s' : ReaderPool ι) : Prop := ∃ i e, s.advance count i e = some s'

/-- The interleavings of the activations. -/
def Run (count : ℕ) : ReaderPool ι → ReaderPool ι → Prop := ReflTransGen (Step count)

/-- Where the handles are. -/
def holdings (s : ReaderPool ι) : Holdings ReaderHandle ι := ⟨s.pool, fun i => (s.phase i).held⟩

/-! ### Conservation -/

variable {count : ℕ} {s s' : ReaderPool ι} {i : ι} {e : BorrowEvent}

@[simp] theorem holdings_move_self (s : ReaderPool ι) (i : ι) (p : BorrowPhase)
    (pool : List ReaderHandle) : (s.move i p pool).holdings.held i = p.held := by
  simp only [holdings, phase_move_self]

theorem holdings_move_of_ne (s : ReaderPool ι) {i j : ι} (h : j ≠ i) (p : BorrowPhase)
    (pool : List ReaderHandle) : (s.move i p pool).holdings.held j = s.holdings.held j := by
  simp only [holdings, phase_move_of_ne s h]

/-- A statement leaves the queue alone, or takes its first handle, or gives the first handle
of the activation back. -/
theorem advance_cases (h : s.advance count i e = some s') :
    ∃ p : BorrowPhase, p.Complete count ∧
      (p.held.Perm (s.phase i).held ∧ s' = s.move i p s.pool ∨
        (∃ handle rest, s.pool = handle :: rest ∧ p.held = (s.phase i).held ++ [handle] ∧
          s' = s.move i p rest) ∨
        ∃ handle, (s.phase i).held = handle :: p.held ∧
          s' = s.move i p (s.pool ++ [handle])) := by
  unfold advance at h
  split at h
  · next hphase =>
    cases h
    exact ⟨.checkout, nofun, .inl ⟨by rw [hphase]; rfl, rfl⟩⟩
  · next hphase =>
    cases h
    refine ⟨_, BorrowPhase.complete_collect _ _, .inl ⟨?_, rfl⟩⟩
    rw [hphase, BorrowPhase.held_collect]
    rfl
  · next hphase =>
    split at h
    · cases h
    · next handle rest hpool =>
      cases h
      exact ⟨.reading handle, nofun, .inr (.inl ⟨handle, rest, hpool, by rw [hphase]; rfl, rfl⟩)⟩
  · next hphase =>
    cases h
    exact ⟨.finished _, nofun, .inl ⟨by rw [hphase]; rfl, rfl⟩⟩
  · next handle outcome hphase =>
    cases h
    exact ⟨_, BorrowPhase.complete_giveBack _ _ _, .inl ⟨by rw [hphase]; rfl, rfl⟩⟩
  · next borrowed hphase =>
    split at h
    · cases h
    · next handle rest hpool =>
      cases h
      refine ⟨_, BorrowPhase.complete_collect _ _, .inr (.inl ⟨handle, rest, hpool, ?_, rfl⟩)⟩
      rw [hphase, BorrowPhase.held_collect]
      rfl
  · next borrowed hphase =>
    -- the handles are given back from the last one on
    cases h
    refine ⟨_, BorrowPhase.complete_giveBack _ _ _, .inl ⟨?_, rfl⟩⟩
    rw [hphase, BorrowPhase.held_giveBack]
    exact borrowed.reverse_perm
  · next borrowed outcome hphase =>
    cases h
    refine ⟨_, BorrowPhase.complete_giveBack _ _ _, .inl ⟨?_, rfl⟩⟩
    rw [hphase, BorrowPhase.held_giveBack]
    exact borrowed.reverse_perm
  · next handle rest outcome hphase =>
    split at h
    · cases h
    · cases h
      refine ⟨_, BorrowPhase.complete_giveBack _ _ _, .inr (.inr ⟨handle, ?_, rfl⟩)⟩
      rw [hphase, BorrowPhase.held_giveBack]
      rfl
  · cases h

/-- Every statement moves handles between the queue and its own activation. -/
theorem moves_of_advance (h : s.advance count i e = some s') :
    s.holdings.Moves i s'.holdings := by
  obtain ⟨p, -, h⟩ := advance_cases h
  rcases h with ⟨hheld, rfl⟩ | ⟨handle, rest, hpool, hheld, rfl⟩ | ⟨handle, hheld, rfl⟩
  · refine .keep rfl ?_ fun j hj => s.holdings_move_of_ne hj p s.pool
    rw [holdings_move_self]
    exact hheld
  · refine .take hpool rfl ?_ fun j hj => s.holdings_move_of_ne hj p rest
    rw [holdings_move_self]
    exact hheld
  · refine .give hheld ?_ rfl fun j hj => s.holdings_move_of_ne hj p _
    rw [holdings_move_self]

/-- No handle is lost or held twice, in any interleaving. -/
theorem conserved_of_run (h : Run count (init count) s) :
    s.holdings.Conserved (openReaders count) := by
  refine invariant_of_step (p := fun s => s.holdings.Conserved (openReaders count)) h
    (Holdings.conserved_full (nodup_openReaders count)) ?_
  rintro x y hx ⟨i, e, hstep⟩
  exact hx.moves (moves_of_advance hstep)

/-! ### Debug snapshots -/

/-- No debug snapshot is in its body with fewer handles than there are. -/
def Complete (count : ℕ) (s : ReaderPool ι) : Prop :=
  ∀ i borrowed, s.phase i = .inspecting borrowed → count ≤ borrowed.length

theorem Complete.move (h : s.Complete count) {p : BorrowPhase} (pool : List ReaderHandle)
    (hp : p.Complete count) : (s.move i p pool).Complete count := by
  intro j borrowed hj
  by_cases hji : j = i
  · subst hji
    rw [phase_move_self] at hj
    exact hp borrowed hj
  · rw [phase_move_of_ne s hji] at hj
    exact h j borrowed hj

theorem Complete.advance (hs : s.Complete count) (h : s.advance count i e = some s') :
    s'.Complete count := by
  obtain ⟨p, hp, h⟩ := advance_cases h
  rcases h with ⟨-, rfl⟩ | ⟨handle, rest, -, -, rfl⟩ | ⟨handle, -, rfl⟩
  · exact hs.move _ hp
  · exact hs.move _ hp
  · exact hs.move _ hp

theorem complete_of_run (h : Run count (init count) s) : s.Complete count := by
  refine invariant_of_step (p := Complete count) h (fun _ _ hi => by cases hi) ?_
  rintro x y hx ⟨i, e, hstep⟩
  exact hx.advance hstep

end ReaderPool

section

variable {count : ℕ} {s : ReaderPool ι}

/-- The body of a debug snapshot has all handles, and nobody else has one. -/
theorem snapshot_holds_all_readers (h : ReaderPool.Run count (.init count) s) {i : ι}
    {borrowed : List ReaderHandle} (hi : s.phase i = .inspecting borrowed) :
    borrowed.Perm (openReaders count) ∧ s.pool = [] ∧ ∀ j, j ≠ i → (s.phase j).held = [] := by
  have hconserved := ReaderPool.conserved_of_run h
  have hheld : s.holdings.held i = borrowed := by
    change (s.phase i).held = borrowed
    rw [hi]
    rfl
  have hlength : (openReaders count).length ≤ (s.holdings.held i).length := by
    rw [length_openReaders, hheld]
    exact ReaderPool.complete_of_run h i borrowed hi
  obtain ⟨hpool, hperm⟩ := hconserved.perm_of_length hlength
  refine ⟨hheld ▸ hperm, hpool, ?_⟩
  intro j hj
  apply List.eq_nil_iff_forall_not_mem.mpr
  intro k hk
  have hall : k ∈ openReaders count := (hconserved.located_iff k).mp (.inr ⟨j, hk⟩)
  exact hconserved.disjoint i j (Ne.symm hj) (hperm.mem_iff.mpr hall) hk

/-- **No reader is lost or shared**: at each moment each handle is in the pool, once, or
with one activation, once.  A handle is given back without blocking, and while no
activation is active the pool has all handles. -/
theorem readers_conserved (h : ReaderPool.Run count (.init count) s) :
    (∀ k ∈ openReaders count,
      (s.pool.count k = 1 ∧ ∀ i, k ∉ (s.phase i).held) ∨
        (k ∉ s.pool ∧
          ∃ i, (s.phase i).held.count k = 1 ∧ ∀ j, k ∈ (s.phase j).held → j = i)) ∧
    (∀ i k rest outcome, s.phase i = .returning (k :: rest) outcome → ¬ s.Full count) ∧
    ((∀ i, ¬ (s.phase i).Active) → s.pool.Perm (openReaders count)) := by
  have hconserved := ReaderPool.conserved_of_run h
  refine ⟨fun k hk => hconserved.in_one_place hk, ?_, ?_⟩
  · intro i k rest outcome hi hfull
    have hheld : k ∈ s.holdings.held i := by
      change k ∈ (s.phase i).held
      rw [hi]
      exact List.mem_cons_self
    have hlt := hconserved.length_lt hheld
    rw [length_openReaders] at hlt
    exact Nat.not_lt.mpr hfull.2 hlt
  · intro hidle
    exact hconserved.perm_of_idle (nodup_openReaders count) fun i =>
      BorrowPhase.held_of_not_active (hidle i)

end

/-! ### Schedules -/

namespace ReaderPool

/-- Execute statements of the activations in the given order. -/
def runSchedule (count : ℕ) : List (ι × BorrowEvent) → ReaderPool ι → Option (ReaderPool ι)
  | [], s => some s
  | (i, e) :: schedule, s => (s.advance count i e).bind (runSchedule count schedule)

theorem run_of_runSchedule {count : ℕ} {schedule : List (ι × BorrowEvent)} {s s' : ReaderPool ι}
    (h : runSchedule count schedule s = some s') : Run count s s' := by
  induction schedule generalizing s with
  | nil =>
    cases h
    exact .refl
  | cons ie schedule ih =>
    obtain ⟨s₁, hadvance, h⟩ := Option.bind_eq_some_iff.mp h
    exact .head ⟨ie.1, ie.2, hadvance⟩ (ih h)

end ReaderPool

namespace Reference

/-- A read has one of two readers, a debug snapshot the other; the snapshot times out, then
the body of the read raises. -/
def contention : List (Bool × BorrowEvent) :=
  [(true, .borrowAllReaders), (false, .borrowReader), (true, .get), (false, .get),
    (true, .timeout), (false, .leave (.error (.fault "interrupted"))), (false, .put), (true, .put)]

theorem readers_conserved_contention : ∃ s : ReaderPool Bool,
    ReaderPool.runSchedule 2 contention (.init 2) = some s ∧
    s.phase true = .finished (.error telemetryTimeout) ∧ s.pool.Perm (openReaders 2) := by
  have hend : (ReaderPool.runSchedule 2 contention (.init 2 : ReaderPool Bool)).map
      (fun s => (s.phase true, s.phase false)) =
        some (.finished (.error telemetryTimeout),
          .finished (.error (.fault "interrupted"))) := by rfl
  obtain ⟨s, hs, hphases⟩ := Option.map_eq_some_iff.mp hend
  obtain ⟨htrue, hfalse⟩ := Prod.mk.inj hphases
  refine ⟨s, hs, htrue, (readers_conserved (ReaderPool.run_of_runSchedule hs)).2.2 ?_⟩
  intro i
  cases i with
  | false =>
    rw [hfalse]
    exact id
  | true =>
    rw [htrue]
    exact id

end Reference

end FinestVX
