import FinestVX.Lib.Checked

/-!
# What a computation raises

An exception handler names the errors it catches.  `x.Raises p` says that the error of `x` is
one of `p`; the rules of this module find the step of a program such an error comes from.  A
step only raises when everything before it has succeeded, so for a traversal the question is
which element is reached.

## Main definitions

* `List.Reaches r q` — an element with `q` comes, after elements with `r` only.
* `Except.Raises p` — the computation fails with an error in `p`.

## Main results

* `Except.raises_bind` — a sequence raises in its first part, or in its second part after the
  first has succeeded.
* `Except.raises_mapM` — a traversal raises at the first element that does not succeed.
* `Except.mapM_succeeds` — a traversal succeeds exactly when all its steps do.
-/

namespace List

variable {α : Type}

/-- An element with `q` is reached, all before it having `r`. -/
def Reaches (r q : α → Prop) (l : List α) : Prop :=
  ∃ before a after, l = before ++ a :: after ∧ (∀ b ∈ before, r b) ∧ q a

@[simp] theorem not_reaches_nil {r q : α → Prop} : ¬ ([] : List α).Reaches r q := by
  rintro ⟨before, a, after, h, -⟩
  cases before <;> cases h

theorem reaches_cons {r q : α → Prop} {a : α} {l : List α} :
    (a :: l).Reaches r q ↔ q a ∨ r a ∧ l.Reaches r q := by
  constructor
  · rintro ⟨before, b, after, hsplit, hbefore, hb⟩
    cases before with
    | nil =>
      cases hsplit
      exact .inl hb
    | cons c before =>
      cases hsplit
      obtain ⟨hc, hbefore⟩ := List.forall_mem_cons.mp hbefore
      exact .inr ⟨hc, before, b, after, rfl, hbefore, hb⟩
  · intro h
    rcases h with ha | ⟨ha, before, b, after, rfl, hbefore, hb⟩
    · exact ⟨[], a, l, rfl, by simp, ha⟩
    · exact ⟨a :: before, b, after, rfl, List.forall_mem_cons.mpr ⟨ha, hbefore⟩, hb⟩

end List

namespace Except

variable {ε α β : Type} {p : ε → Prop}

/-- The computation fails with an error in `p`. -/
def Raises (p : ε → Prop) (x : Except ε α) : Prop := ∃ e, x = .error e ∧ p e

@[simp] theorem not_raises_ok (a : α) : ¬ (Except.ok a : Except ε α).Raises p := by
  rintro ⟨e, h, -⟩
  cases h

@[simp] theorem raises_error {e : ε} : (Except.error e : Except ε α).Raises p ↔ p e := by
  constructor
  · rintro ⟨e', h, hp⟩
    cases h
    exact hp
  · exact fun hp => ⟨e, rfl, hp⟩

/-- A sequence raises in its first part, or in its second after the first has succeeded. -/
theorem raises_bind {x : Except ε α} {f : α → Except ε β} :
    (x >>= f).Raises p ↔ x.Raises p ∨ ∃ a, x = .ok a ∧ (f a).Raises p := by
  cases x <;> simp

/-- A sequence whose first part does not raise has got through it. -/
theorem exists_of_raises_bind {x : Except ε α} {f : α → Except ε β} (h : (x >>= f).Raises p)
    (hx : ¬ x.Raises p) : ∃ a, x = .ok a ∧ (f a).Raises p :=
  (raises_bind.mp h).resolve_left hx

theorem raises_guard {c : Prop} [Decidable c] {e : ε} {x : Except ε α} :
    (if c then .error e else x).Raises p ↔ c ∧ p e ∨ ¬ c ∧ x.Raises p := by
  split <;> simp_all

/-- A guard whose own error is not meant has been passed. -/
theorem of_raises_guard {c : Prop} [Decidable c] {e : ε} {x : Except ε α}
    (h : (if c then .error e else x).Raises p) (he : ¬ p e) : ¬ c ∧ x.Raises p :=
  (raises_guard.mp h).resolve_left fun hc => he hc.2

@[simp] theorem raises_map {x : Except ε α} {f : α → β} : (x.map f).Raises p ↔ x.Raises p := by
  cases x <;> simp [Except.map]

/-- A computation that raises nothing outside `p` raises unless it succeeds. -/
theorem raises_iff_not_succeeds {x : Except ε α} (h : ∀ e, x = .error e → p e) :
    x.Raises p ↔ ¬ x.Succeeds := by
  cases x with
  | ok a => simp
  | error e => simp [h e rfl]

/-- A traversal raises at the first element that does not succeed. -/
theorem raises_mapM {f : α → Except ε β} {l : List α} :
    (l.mapM f).Raises p ↔ l.Reaches (fun a => (f a).Succeeds) (fun a => (f a).Raises p) := by
  induction l with
  | nil => simp
  | cons a l ih =>
    rw [List.mapM_cons, raises_bind, List.reaches_cons]
    apply or_congr_right
    constructor
    · rintro ⟨b, hb, hrest⟩
      rcases raises_bind.mp hrest with hrest | ⟨bs, -, hdone⟩
      · exact ⟨⟨b, hb⟩, ih.mp hrest⟩
      · exact absurd hdone (not_raises_ok _)
    · rintro ⟨⟨b, hb⟩, hrest⟩
      exact ⟨b, hb, raises_bind.mpr (.inl (ih.mpr hrest))⟩

/-- A traversal does not raise an error in `p` when none of its steps does. -/
theorem not_raises_mapM {f : α → Except ε β} {l : List α} (h : ∀ a ∈ l, ¬ (f a).Raises p) :
    ¬ (l.mapM f).Raises p := by
  intro hl
  obtain ⟨before, a, after, rfl, -, ha⟩ := raises_mapM.mp hl
  exact h a (by simp) ha

/-- A traversal succeeds exactly when all its steps do. -/
theorem mapM_succeeds {f : α → Except ε β} {l : List α} :
    (l.mapM f).Succeeds ↔ ∀ a ∈ l, (f a).Succeeds := by
  constructor
  · rintro ⟨bs, hbs⟩
    exact succeeds_of_mapM_eq_ok hbs
  · intro h
    induction l with
    | nil => exact ⟨[], rfl⟩
    | cons a l ih =>
      obtain ⟨⟨b, hb⟩, hl⟩ := List.forall_mem_cons.mp h
      obtain ⟨bs, hbs⟩ := ih hl
      exact ⟨b :: bs, mapM_cons_eq_ok.mpr ⟨b, bs, hb, hbs, rfl⟩⟩

/-- A check that never raises an error in `p` does not do so on a list either. -/
theorem not_raises_checkAll {f : α → Except ε Unit} {l : List α}
    (h : ∀ a ∈ l, ¬ (f a).Raises p) : ¬ (checkAll f l).Raises p := by
  induction l with
  | nil => simp [checkAll]
  | cons a l ih =>
    obtain ⟨ha, hl⟩ := List.forall_mem_cons.mp h
    rw [checkAll, raises_bind, not_or]
    refine ⟨ha, ?_⟩
    rintro ⟨u, -, hrest⟩
    exact ih hl hrest

theorem not_raises_checkDistinct {κ : Type} [DecidableEq κ] {key : α → κ} {err : α → ε}
    {seen : List κ} {l : List α} (h : ∀ a, ¬ p (err a)) :
    ¬ (checkDistinct key err seen l).Raises p := by
  induction l generalizing seen with
  | nil => simp [checkDistinct]
  | cons a l ih =>
    rw [checkDistinct, raises_guard, not_or]
    exact ⟨fun hseen => h a hseen.2, fun hrest => ih hrest.2⟩

end Except

namespace Built

theorem raises_new {ε α : Type} {init : α → Except ε α} {raw : α} {p : ε → Prop} :
    (new init raw).Raises p ↔ (init raw).Raises p := by
  simp only [Except.Raises, new_eq_error_iff]

end Built
