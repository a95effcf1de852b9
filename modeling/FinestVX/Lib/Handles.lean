import Mathlib.Data.List.Basic
import Mathlib.Tactic.Common

/-!
# Handles

What happens to the handles of a resource: each is opened, used and closed.

## Main definitions

* `HandleEvent` — what happens to a handle.
* `UsedOpen` — no handle is used after it was closed.
* `LeftOpen` — a handle was opened and not closed.

## Main results

* `usedOpen_append_singleton` — one more event.
* `UsedOpen.of_append` — the events before have the property as well.
-/

variable {η : Type}

/-- A handle is opened, used or closed. -/
inductive HandleEvent (η : Type)
  | opened (h : η)
  | used (h : η)
  | closed (h : η)
  deriving DecidableEq

/-- No handle is used after it was closed. -/
def UsedOpen (log : List (HandleEvent η)) : Prop :=
  ∀ before h after, log = before ++ .used h :: after → .closed h ∉ before

/-- The handle was opened and not closed. -/
def LeftOpen (log : List (HandleEvent η)) (h : η) : Prop := .opened h ∈ log ∧ .closed h ∉ log

theorem usedOpen_nil : UsedOpen ([] : List (HandleEvent η)) := by
  intro before h after heq
  simp at heq

theorem UsedOpen.of_append {log log' : List (HandleEvent η)} (h : UsedOpen (log ++ log')) :
    UsedOpen log := by
  intro before k after heq
  refine h before k (after ++ log') ?_
  rw [heq, List.append_assoc, List.cons_append]

/-- One more event is in order unless it uses a closed handle. -/
theorem usedOpen_append_singleton {log : List (HandleEvent η)} {e : HandleEvent η} :
    UsedOpen (log ++ [e]) ↔ UsedOpen log ∧ ∀ h, e = .used h → .closed h ∉ log := by
  constructor
  · intro hlog
    refine ⟨hlog.of_append, ?_⟩
    rintro h rfl
    exact hlog log h [] rfl
  · rintro ⟨hlog, hlast⟩ before h after heq
    rcases List.eq_nil_or_concat after with rfl | ⟨init, last, rfl⟩
    · obtain ⟨rfl, he⟩ := List.append_inj' heq rfl
      exact hlast h (List.singleton_inj.mp he)
    · rw [List.concat_eq_append, ← List.cons_append, ← List.append_assoc] at heq
      obtain ⟨rfl, -⟩ := List.append_inj' heq rfl
      exact hlog before h init rfl

/-- A handle that is open is used. -/
theorem UsedOpen.used {log : List (HandleEvent η)} (h : UsedOpen log) {k : η}
    (hk : .closed k ∉ log) : UsedOpen (log ++ [.used k]) := by
  refine usedOpen_append_singleton.mpr ⟨h, ?_⟩
  intro k' heq
  cases heq
  exact hk

/-- A handle is opened. -/
theorem UsedOpen.opened {log : List (HandleEvent η)} (h : UsedOpen log) (k : η) :
    UsedOpen (log ++ [.opened k]) :=
  usedOpen_append_singleton.mpr ⟨h, fun _ heq => by cases heq⟩

/-- A handle is closed. -/
theorem UsedOpen.closed {log : List (HandleEvent η)} (h : UsedOpen log) (k : η) :
    UsedOpen (log ++ [.closed k]) :=
  usedOpen_append_singleton.mpr ⟨h, fun _ heq => by cases heq⟩
