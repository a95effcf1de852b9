import Mathlib.Logic.Relation

/-!
# Transition systems

A transition system is a relation between states; its runs are the paths of the
reflexive and transitive closure.  A labelled one says which event each step is.

## Main definitions

* `Traced` — a run of a labelled system, with its events in order.

## Main results

* `invariant_of_step` — what every step preserves, every run preserves.
* `simulation_of_step` — where every step of one system is matched by a step of
  another, every run is matched by a run.
* `Traced.invariant` — the same for what holds of the events and the state together;
  `Traced.invariant_within` where the steps start in states of another invariant.
* `Traced.mono` — a run of a system is a run of every system with more steps.
* `Traced.split` — an event of a run is a step from a state the run was in.
-/

open Relation

variable {σ τ : Type} {step : σ → σ → Prop} {step' : τ → τ → Prop}

/-- What every step preserves, every run preserves. -/
theorem invariant_of_step {p : σ → Prop} {a b : σ} (hrun : ReflTransGen step a b) (ha : p a)
    (hstep : ∀ x y, p x → step x y → p y) : p b := by
  induction hrun with
  | refl => exact ha
  | tail _ hxy ih => exact hstep _ _ ih hxy

/-- A relation that is reflexive, transitive and contains the steps contains the runs. -/
theorem rel_of_step {r : σ → σ → Prop} {a b : σ} (hrun : ReflTransGen step a b)
    (hrefl : ∀ x, r x x) (htrans : ∀ x y z, r x y → r y z → r x z)
    (hstep : ∀ x y, step x y → r x y) : r a b := by
  induction hrun with
  | refl => exact hrefl a
  | tail _ hxy ih => exact htrans _ _ _ ih (hstep _ _ hxy)

/-- Where every step of one system is matched by a step of another, every run is
matched by a run. -/
theorem simulation_of_step {R : σ → τ → Prop} {a b : σ} {a' : τ} (hrun : ReflTransGen step a b)
    (ha : R a a') (hstep : ∀ x y x', R x x' → step x y → ∃ y', ReflTransGen step' x' y' ∧ R y y') :
    ∃ b', ReflTransGen step' a' b' ∧ R b b' := by
  induction hrun with
  | refl => exact ⟨a', .refl, ha⟩
  | tail _ hxy ih =>
    obtain ⟨x', hax', hx'⟩ := ih
    obtain ⟨y', hxy', hy'⟩ := hstep _ _ x' hx' hxy
    exact ⟨y', hax'.trans hxy', hy'⟩

section

variable {ε : Type} {move : σ → ε → σ → Prop} {a b : σ} {tr : List ε}

/-- A run of a labelled system from `a`, with its events. -/
inductive Traced (move : σ → ε → σ → Prop) (a : σ) : List ε → σ → Prop
  | nil : Traced move a [] a
  | snoc {tr : List ε} {b c : σ} {e : ε} (hrun : Traced move a tr b) (hstep : move b e c) :
      Traced move a (tr ++ [e]) c

/-- What every step preserves of the events so far and the state, every run preserves. -/
theorem Traced.invariant {p : List ε → σ → Prop} (hrun : Traced move a tr b) (ha : p [] a)
    (hstep : ∀ tr x e y, p tr x → move x e y → p (tr ++ [e]) y) : p tr b := by
  induction hrun with
  | nil => exact ha
  | snoc _ hxy ih => exact hstep _ _ _ _ ih hxy

/-- A run of a system is a run of every system with more steps. -/
theorem Traced.mono {move' : σ → ε → σ → Prop} (hrun : Traced move a tr b)
    (h : ∀ x e y, move x e y → move' x e y) : Traced move' a tr b := by
  induction hrun with
  | nil => exact .nil
  | snoc _ hxy ih => exact ih.snoc (h _ _ _ hxy)

/-- What every step preserves in the states of another invariant, every run preserves. -/
theorem Traced.invariant_within {q p : List ε → σ → Prop} (hrun : Traced move a tr b)
    (hq : ∀ tr x, Traced move a tr x → q tr x) (ha : p [] a)
    (hstep : ∀ tr x e y, q tr x → p tr x → move x e y → p (tr ++ [e]) y) : p tr b := by
  induction hrun with
  | nil => exact ha
  | snoc hinit hxy ih => exact hstep _ _ _ _ (hq _ _ hinit) ih hxy

/-- An event of a run is a step from a state that the events before it lead to. -/
theorem Traced.split {before after : List ε} {e : ε}
    (hrun : Traced move a (before ++ e :: after) b) :
    ∃ x y, Traced move a before x ∧ move x e y := by
  generalize htr : before ++ e :: after = tr at hrun
  induction hrun generalizing after with
  | nil => simp at htr
  | snoc hinit hxy ih =>
    rcases List.eq_nil_or_concat after with rfl | ⟨after, last, rfl⟩
    · obtain ⟨rfl, he⟩ := List.append_inj' htr rfl
      cases he
      exact ⟨_, _, hinit, hxy⟩
    · rw [List.concat_eq_append, ← List.cons_append, ← List.append_assoc] at htr
      obtain ⟨htr, -⟩ := List.append_inj' htr rfl
      exact ih htr

end
