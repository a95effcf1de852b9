import Mathlib.Data.List.Basic

/-!
# Unwinding

A machine executes commands one after another, each with an outcome.  Some of the
commands are those of one owner, who sees the outcomes of these and a part of the
state.  Where the commands of the owner act on that part only, and the others leave it
alone, what the owner sees does not depend on the commands of the others.

## Main definitions

* `execAll`, `outcomesOf` — a sequence of commands, and the outcomes of the owner's.
* `Unwinding` — the conditions on one command.

## Main results

* `Unwinding.look_eq` — what the owner sees depends on the owner's commands only.
* `Unwinding.purge` — **the commands of the others may be left out.**
-/

section

variable {α σ ω V : Type} {exec : α → σ → ω × σ} {own : α → Bool} {view : σ → V} {inv : σ → Prop}

/-- The state after a sequence of commands. -/
def execAll (exec : α → σ → ω × σ) (l : List α) (s : σ) : σ :=
  l.foldl (fun s a => (exec a s).2) s

/-- The outcomes of the commands of the owner, in order. -/
def outcomesOf (exec : α → σ → ω × σ) (own : α → Bool) : List α → σ → List ω
  | [], _ => []
  | a :: l, s =>
    if own a then (exec a s).1 :: outcomesOf exec own l (exec a s).2
    else outcomesOf exec own l (exec a s).2

/-- A command of the owner acts on what the owner sees, in a way that depends on nothing
else; the others leave it alone. -/
structure Unwinding (exec : α → σ → ω × σ) (own : α → Bool) (view : σ → V)
    (inv : σ → Prop) : Prop where
  keeps : ∀ a s, inv s → inv (exec a s).2
  outcome : ∀ a s s', inv s → inv s' → own a = true → view s = view s' →
    (exec a s).1 = (exec a s').1
  consistent : ∀ a s s', inv s → inv s' → own a = true → view s = view s' →
    view (exec a s).2 = view (exec a s').2
  respects : ∀ a s, inv s → own a = false → view (exec a s).2 = view s

namespace Unwinding

/-- What the owner sees after a sequence of commands depends on the owner's commands and
on what the owner saw before. -/
theorem look_eq (h : Unwinding exec own view inv) (l : List α) {s s' : σ} (hs : inv s)
    (hs' : inv s') (hview : view s = view s') :
    outcomesOf exec own l s = outcomesOf exec own (l.filter own) s' ∧
      view (execAll exec l s) = view (execAll exec (l.filter own) s') := by
  induction l generalizing s s' with
  | nil => exact ⟨rfl, hview⟩
  | cons a l ih =>
    cases ha : own a with
    | true =>
      obtain ⟨houtcomes, hafter⟩ := ih (h.keeps a s hs) (h.keeps a s' hs')
        (h.consistent a s s' hs hs' ha hview)
      rw [List.filter_cons_of_pos ha]
      refine ⟨?_, hafter⟩
      rw [outcomesOf, if_pos ha, outcomesOf, if_pos ha, h.outcome a s s' hs hs' ha hview,
        houtcomes]
    | false =>
      have hne : ¬ own a = true := by simp [ha]
      rw [List.filter_cons_of_neg hne, outcomesOf, if_neg hne]
      exact ih (h.keeps a s hs) hs' ((h.respects a s hs ha).trans hview)

/-- **The commands of the others may be left out.** -/
theorem purge (h : Unwinding exec own view inv) (l : List α) {s : σ} (hs : inv s) :
    outcomesOf exec own l s = outcomesOf exec own (l.filter own) s ∧
      view (execAll exec l s) = view (execAll exec (l.filter own) s) :=
  h.look_eq l hs hs rfl

end Unwinding

end
