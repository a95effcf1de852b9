import FinestVX.Lib.Checked

/-!
# Computations with effects that may raise

A computation reads and writes a state and may raise; what it has written before it
raises stays written.  Its frame is proved step by step: a relation between the states
before and after that is reflexive and transitive holds of a sequence when it holds of
the parts.

## Main definitions

* `Procedure` — the computations, a monad.
* `Procedure.Keeps r m` — `r` relates the states before and after `m`, however it ends.

## Main results

* `Procedure.run_bind_of_ok`, `Procedure.run_bind_of_error` — how a sequence runs.
* `Procedure.run_bind_eq_ok` — when a sequence returns.
* `Procedure.keeps_bind`, `Procedure.after_bind` — the rules of sequences.
-/

/-- A computation on a state of type `σ` that returns or raises. -/
structure Procedure (ε σ α : Type) where
  run : σ → Except ε α × σ

namespace Procedure

variable {ε σ α β : Type}

/-- Continue with what a computation returns, or raise what it raises. -/
def andThen (m : Procedure ε σ α) (f : α → Procedure ε σ β) : Procedure ε σ β where
  run s :=
    match m.run s with
    | (.ok a, s) => (f a).run s
    | (.error e, s) => (.error e, s)

instance : Monad (Procedure ε σ) where
  pure a := ⟨fun s => (.ok a, s)⟩
  bind := andThen

/-- What an environment decides, without an effect on the state. -/
def lift (x : Except ε α) : Procedure ε σ α := ⟨fun s => (x, s)⟩

/-- Raise. -/
def raise (e : ε) : Procedure ε σ α := ⟨fun s => (.error e, s)⟩

/-- Read the state. -/
def read : Procedure ε σ σ := ⟨fun s => (.ok s, s)⟩

/-- Change the state. -/
def modify (f : σ → σ) : Procedure ε σ Unit := ⟨fun s => (.ok (), f s)⟩

@[simp] theorem run_pure (a : α) (s : σ) : (pure a : Procedure ε σ α).run s = (.ok a, s) := rfl

@[simp] theorem run_lift (x : Except ε α) (s : σ) : (lift x : Procedure ε σ α).run s = (x, s) := rfl

@[simp] theorem run_read (s : σ) : (read : Procedure ε σ σ).run s = (.ok s, s) := rfl

/-- A sequence whose first part returns. -/
theorem run_bind_of_ok {m : Procedure ε σ α} {f : α → Procedure ε σ β} {s t : σ} {a : α}
    (h : m.run s = (.ok a, t)) : (m >>= f).run s = (f a).run t := by
  change (andThen m f).run s = _
  simp only [andThen, h]

/-- A sequence whose first part raises. -/
theorem run_bind_of_error {m : Procedure ε σ α} {f : α → Procedure ε σ β} {s t : σ} {e : ε}
    (h : m.run s = (.error e, t)) : (m >>= f).run s = (.error e, t) := by
  change (andThen m f).run s = _
  simp only [andThen, h]

/-- A sequence returns exactly when both of its parts do. -/
theorem run_bind_eq_ok {m : Procedure ε σ α} {f : α → Procedure ε σ β} {s u : σ} {b : β} :
    (m >>= f).run s = (.ok b, u) ↔ ∃ a t, m.run s = (.ok a, t) ∧ (f a).run t = (.ok b, u) := by
  constructor
  · intro h
    cases hm : m.run s with
    | mk outcome t =>
      cases outcome with
      | ok a => exact ⟨a, t, rfl, by rwa [run_bind_of_ok hm] at h⟩
      | error e =>
        rw [run_bind_of_error hm] at h
        cases h
  · rintro ⟨a, t, hm, h⟩
    rwa [run_bind_of_ok hm]

theorem succeeds_run_iff {m : Procedure ε σ α} {s : σ} :
    (m.run s).1.Succeeds ↔ ∃ a t, m.run s = (.ok a, t) :=
  ⟨fun ⟨a, h⟩ => ⟨a, _, Prod.ext h rfl⟩, fun ⟨a, _, h⟩ => ⟨a, by rw [h]⟩⟩

theorem succeeds_bind {m : Procedure ε σ α} {f : α → Procedure ε σ β} {s : σ} :
    ((m >>= f).run s).1.Succeeds ↔
      ∃ a t, m.run s = (.ok a, t) ∧ ((f a).run t).1.Succeeds := by
  simp only [succeeds_run_iff, run_bind_eq_ok]
  constructor
  · rintro ⟨b, u, a, t, hm, h⟩
    exact ⟨a, t, hm, b, u, h⟩
  · rintro ⟨a, t, hm, b, u, h⟩
    exact ⟨b, u, a, t, hm, h⟩

/-- A sequence that begins with a decision of the environment. -/
theorem succeeds_lift_bind {x : Except ε α} {f : α → Procedure ε σ β} {s : σ} :
    ((lift x >>= f).run s).1.Succeeds ↔ ∃ a, x = .ok a ∧ ((f a).run s).1.Succeeds := by
  rw [succeeds_bind]
  constructor
  · rintro ⟨a, t, h, hf⟩
    cases h
    exact ⟨a, rfl, hf⟩
  · rintro ⟨a, rfl, hf⟩
    exact ⟨a, s, rfl, hf⟩

/-- A sequence that begins with a decision of the environment raises it, or goes on from the
same state. -/
theorem run_lift_bind_cases (x : Except ε α) (f : α → Procedure ε σ β) (s : σ) :
    (∃ e, x = .error e ∧ (lift x >>= f).run s = (.error e, s)) ∨
      ∃ a, x = .ok a ∧ (lift x >>= f).run s = (f a).run s := by
  cases x with
  | error e => exact .inl ⟨e, rfl, run_bind_of_error rfl⟩
  | ok a => exact .inr ⟨a, rfl, run_bind_of_ok rfl⟩

/-- A computation whose result is not used. -/
def discard (m : Procedure ε σ α) : Procedure ε σ Unit := do
  let _ ← m
  return ()

/-- A sequence that ends with a result made of another one. -/
theorem run_bind_pure (m : Procedure ε σ α) (f : α → β) (s : σ) :
    (m >>= fun a => pure (f a)).run s = ((m.run s).1.map f, (m.run s).2) := by
  cases h : m.run s with
  | mk outcome t =>
    cases outcome with
    | ok a => rw [run_bind_of_ok h, run_pure]; rfl
    | error e => rw [run_bind_of_error h]; rfl

theorem snd_run_discard (m : Procedure ε σ α) (s : σ) : (m.discard.run s).2 = (m.run s).2 :=
  congrArg Prod.snd (run_bind_pure m (fun _ => ()) s)

theorem succeeds_discard (m : Procedure ε σ α) (s : σ) :
    (m.discard.run s).1.Succeeds ↔ (m.run s).1.Succeeds := by
  rw [discard, run_bind_pure, Except.succeeds_map]

/-- What holds after the first part of a sequence, and after the second one from where the first
has returned, holds after the sequence. -/
theorem after_bind {p : σ → Prop} {m : Procedure ε σ α} {f : α → Procedure ε σ β} {s : σ}
    (hm : p (m.run s).2) (hf : ∀ a t, m.run s = (.ok a, t) → p t → p ((f a).run t).2) :
    p ((m >>= f).run s).2 := by
  cases h : m.run s with
  | mk outcome t =>
    rw [h] at hm
    cases outcome with
    | ok a =>
      rw [run_bind_of_ok h]
      exact hf a t h hm
    | error e =>
      rw [run_bind_of_error h]
      exact hm

/-- `r` relates the states before and after, however the computation ends. -/
def Keeps (r : σ → σ → Prop) (m : Procedure ε σ α) : Prop := ∀ s, r s (m.run s).2

section

variable {r : σ → σ → Prop}

theorem keeps_pure (hrefl : ∀ s, r s s) (a : α) : Keeps r (pure a : Procedure ε σ α) := hrefl

theorem keeps_lift (hrefl : ∀ s, r s s) (x : Except ε α) :
    Keeps r (lift x : Procedure ε σ α) := hrefl

theorem keeps_raise (hrefl : ∀ s, r s s) (e : ε) : Keeps r (raise e : Procedure ε σ α) := hrefl

theorem keeps_read (hrefl : ∀ s, r s s) : Keeps r (read : Procedure ε σ σ) := hrefl

theorem keeps_modify {f : σ → σ} (h : ∀ s, r s (f s)) : Keeps r (modify f : Procedure ε σ Unit) := h

/-- The rule of sequences; the second part may rely on what the first one returned. -/
theorem keeps_bind {m : Procedure ε σ α} {f : α → Procedure ε σ β}
    (htrans : ∀ s t u, r s t → r t u → r s u) (hm : Keeps r m)
    (hf : ∀ a, (∃ s, (m.run s).1 = .ok a) → Keeps r (f a)) : Keeps r (m >>= f) := by
  intro s
  have hms := hm s
  cases h : m.run s with
  | mk outcome t =>
    rw [h] at hms
    cases outcome with
    | ok a =>
      rw [run_bind_of_ok h]
      exact htrans s t _ hms (hf a ⟨s, by rw [h]⟩ t)
    | error e =>
      rw [run_bind_of_error h]
      exact hms

theorem keeps_ite {p : Prop} [Decidable p] {m n : Procedure ε σ α} (hm : p → Keeps r m)
    (hn : ¬ p → Keeps r n) : Keeps r (if p then m else n) := by
  split
  · next h => exact hm h
  · next h => exact hn h

end

end Procedure
