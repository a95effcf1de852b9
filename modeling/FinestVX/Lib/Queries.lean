import Mathlib.Data.List.Basic

/-!
# Queries

A program asks questions about a state, one after another, and each answer decides what
it asks next.  The state may change between the questions.

## Main definitions

* `Query` — a program of questions, which ends in a result or an error.
* `Query.run`, `Query.runFrom` — the result when every question sees one state, and when
  each of them sees a state of its own.
* `Query.feed`, `Query.Reaches` — what is left after some questions were answered.
* `Query.DependsOn` — the answers depend on one part of the state only.

## Main results

* `Query.runFrom_of_feed` — a program that was fed to its end has the result of the states
  it was fed.
* `Query.DependsOn.run_eq` — states that agree on the part give one result.
-/

/-- Questions, each with what follows its answer. -/
inductive Query (σ ε α : Type)
  | done (r : Except ε α)
  | select (k : σ → Query σ ε α)

section

variable {σ ε α : Type}

/-- The result when every question sees the one state. -/
def Query.run (s : σ) : Query σ ε α → Except ε α
  | .done r => r
  | .select k => (k s).run s

/-- What may be left after some questions were answered. -/
inductive Query.Reaches (q : Query σ ε α) : Query σ ε α → Prop
  | refl : q.Reaches q
  | select {k : σ → Query σ ε α} (s : σ) (h : q.Reaches (.select k)) : q.Reaches (k s)

theorem Query.Reaches.eq_of_done {r : Except ε α} {q : Query σ ε α}
    (h : (Query.done r).Reaches q) : q = .done r := by
  induction h with
  | refl => rfl
  | select s _ ih => cases ih

/-- After a question that is the only one. -/
theorem Query.Reaches.of_select {k : σ → Except ε α} {q : Query σ ε α}
    (h : (Query.select fun s => .done (k s)).Reaches q) :
    (q = .select fun s => .done (k s)) ∨ ∃ s, q = .done (k s) := by
  induction h with
  | refl => exact .inl rfl
  | select s _ ih =>
    rcases ih with heq | ⟨s', heq⟩
    · cases heq
      exact .inr ⟨s, rfl⟩
    · cases heq

/-- The answers depend on one part of the state only. -/
def Query.DependsOn {τ : Type} (part : σ → τ) : Query σ ε α → Prop
  | .done _ => True
  | .select k => (∀ s s', part s = part s' → k s = k s') ∧ ∀ s, (k s).DependsOn part

theorem Query.DependsOn.run_eq {τ : Type} {part : σ → τ} {q : Query σ ε α}
    (h : q.DependsOn part) {s s' : σ} (hpart : part s = part s') : q.run s = q.run s' := by
  induction q with
  | done r => rfl
  | select k ih =>
    rw [run, run, h.1 s s' hpart]
    exact ih s' (h.2 s')

theorem Query.DependsOn.reaches {τ : Type} {part : σ → τ} {q rest : Query σ ε α}
    (h : q.DependsOn part) (hrest : q.Reaches rest) : rest.DependsOn part := by
  induction hrest with
  | refl => exact h
  | select s _ ih => exact ih.2 s

/-- The result when question number `i` sees `view i`. -/
def Query.runFrom (view : ℕ → σ) : Query σ ε α → Except ε α
  | .done r => r
  | .select k => (k (view 0)).runFrom fun i => view (i + 1)

/-- Every question sees the one state. -/
theorem Query.runFrom_const (q : Query σ ε α) (s : σ) : q.runFrom (fun _ => s) = q.run s := by
  induction q with
  | done r => rfl
  | select k ih => exact ih s

/-- What is left after questions that saw the given states. -/
def Query.feed : Query σ ε α → List σ → Query σ ε α
  | q, [] => q
  | .done r, _ :: _ => .done r
  | .select k, s :: seen => (k s).feed seen

@[simp] theorem Query.feed_nil (q : Query σ ε α) : q.feed [] = q := by rw [feed]

theorem Query.feed_concat {q : Query σ ε α} {seen : List σ} {k : σ → Query σ ε α}
    (h : q.feed seen = .select k) (s : σ) : q.feed (seen ++ [s]) = k s := by
  induction seen generalizing q with
  | nil =>
    rw [feed_nil] at h
    rw [h, List.nil_append, feed, feed_nil]
  | cons s' seen ih =>
    cases q with
    | done r => cases h
    | select k' => exact ih h

/-- **A program that was fed to its end** has the result of the states it was fed. -/
theorem Query.runFrom_of_feed {q : Query σ ε α} {seen : List σ} {r : Except ε α}
    (h : q.feed seen = .done r) {view : ℕ → σ} (hview : ∀ i s, seen[i]? = some s → view i = s) :
    q.runFrom view = r := by
  induction seen generalizing q view with
  | nil =>
    rw [feed_nil] at h
    rw [h]
    rfl
  | cons s seen ih =>
    cases q with
    | done r' =>
      cases h
      rfl
    | select k =>
      rw [runFrom, hview 0 s rfl]
      exact ih h fun i s' hs' => hview (i + 1) s' hs'

end
