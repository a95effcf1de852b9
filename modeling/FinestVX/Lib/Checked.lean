import Mathlib.Logic.Basic
import Mathlib.Tactic.Common

/-!
# Fallible computations and validated values

Programs that validate their arguments are written in the exception monad
`Except ε`.  This module has the inversion rules such programs are reasoned
with, and the type of the values a validating constructor can return.

## Main definitions

* `Except.checkAll`, `Except.checkDistinct` — checks of the elements of a list.
* `Built init` — the values the constructor `init` returns; an object of an
  immutable class whose fields are checked and normalised when it is created.
* `Built.new` — running the constructor.

## Main results

* `Except.bind_eq_ok` — a sequenced computation succeeds exactly when both of
  its parts do.
* `Except.mapM_cons_eq_ok` — a traversal succeeds exactly when each of its steps does.
* `Except.mapM_of_mapM_forall₂_iff` — a traversal of what a traversal has made, element by
  element.
* `Built.new_eq_ok_iff` — the constructor succeeds exactly when `init` does.
-/

namespace Except

variable {ε α β : Type}

@[simp] theorem ok_bind (a : α) (f : α → Except ε β) : (Except.ok a >>= f) = f a := rfl

@[simp] theorem error_bind (e : ε) (f : α → Except ε β) :
    (Except.error e >>= f) = .error e := rfl

@[simp] theorem pure_eq_ok (a : α) : (pure a : Except ε α) = .ok a := rfl

@[simp] theorem throw_eq_error (e : ε) : (throw e : Except ε α) = .error e := rfl

/-- A sequenced computation succeeds exactly when both of its parts do. -/
theorem bind_eq_ok {x : Except ε α} {f : α → Except ε β} {b : β} :
    (x >>= f) = .ok b ↔ ∃ a, x = .ok a ∧ f a = .ok b := by
  cases x <;> simp

/-- A guard passes exactly when its condition is false. -/
theorem guard_eq_ok {p : Prop} [Decidable p] {e : ε} {x : Except ε α} {a : α} :
    (if p then .error e else x) = .ok a ↔ ¬ p ∧ x = .ok a := by
  split <;> simp_all

/-- A computation succeeds, whatever it returns. -/
def Succeeds (x : Except ε α) : Prop := ∃ a, x = .ok a

@[simp] theorem succeeds_ok (a : α) : (Except.ok a : Except ε α).Succeeds := ⟨a, rfl⟩

@[simp] theorem not_succeeds_error (e : ε) : ¬ (Except.error e : Except ε α).Succeeds := by
  rintro ⟨a, h⟩
  cases h

theorem mapError_eq_ok {ε' : Type} {x : Except ε α} {f : ε → ε'} {a : α} :
    x.mapError f = .ok a ↔ x = .ok a := by
  cases x <;> simp [Except.mapError]

@[simp] theorem succeeds_map {x : Except ε α} {f : α → β} :
    (x.map f).Succeeds ↔ x.Succeeds := by
  cases x with
  | ok a => exact ⟨fun _ => ⟨a, rfl⟩, fun _ => ⟨f a, rfl⟩⟩
  | error e => exact ⟨fun h => (not_succeeds_error e h).elim, fun h => (not_succeeds_error e h).elim⟩

theorem succeeds_bind {x : Except ε α} {f : α → Except ε β} :
    (x >>= f).Succeeds ↔ ∃ a, x = .ok a ∧ (f a).Succeeds := by
  cases x <;> simp

theorem succeeds_guard {p : Prop} [Decidable p] {e : ε} {x : Except ε α} :
    (if p then .error e else x).Succeeds ↔ ¬ p ∧ x.Succeeds := by
  split <;> simp_all

/-- A traversal whose every step succeeds returns the list of results. -/
theorem mapM_eq_ok_map {f : α → Except ε β} {g : α → β} {l : List α}
    (h : ∀ a ∈ l, f a = .ok (g a)) : l.mapM f = .ok (l.map g) := by
  induction l with
  | nil => rfl
  | cons a l ih =>
    rw [List.mapM_cons, h a (by simp), ok_bind, ih fun b hb => h b (by simp [hb])]
    rfl

/-- Decoding a list of encoded elements. -/
theorem mapM_map_eq_ok {γ : Type} {g : α → β} {f : β → Except ε γ} {h : α → γ} {l : List α}
    (hfg : ∀ a ∈ l, f (g a) = .ok (h a)) : (l.map g).mapM f = .ok (l.map h) := by
  rw [List.mapM_map]
  exact mapM_eq_ok_map hfg

/-- Decoding a list of encoded elements that are each decoded. -/
theorem mapM_map_eq_ok_self {g : α → β} {f : β → Except ε α} {l : List α}
    (hfg : ∀ a ∈ l, f (g a) = .ok a) : (l.map g).mapM f = .ok l := by
  have h : (l.map g).mapM f = .ok (l.map id) := mapM_map_eq_ok hfg
  rwa [List.map_id] at h

/-- A traversal of a longer list. -/
theorem mapM_cons_eq_ok {f : α → Except ε β} {a : α} {l : List α} {r : List β} :
    (a :: l).mapM f = .ok r ↔ ∃ b bs, f a = .ok b ∧ l.mapM f = .ok bs ∧ r = b :: bs := by
  rw [List.mapM_cons, bind_eq_ok]
  constructor
  · rintro ⟨b, hb, h⟩
    obtain ⟨bs, hbs, h⟩ := bind_eq_ok.mp h
    cases h
    exact ⟨b, bs, hb, hbs, rfl⟩
  · rintro ⟨b, bs, hb, hbs, rfl⟩
    exact ⟨b, hb, bind_eq_ok.mpr ⟨bs, hbs, rfl⟩⟩

/-- Every step of a traversal has its result among those of the traversal. -/
theorem mem_of_mapM_eq_ok {f : α → Except ε β} {l : List α} {r : List β}
    (h : l.mapM f = .ok r) : ∀ a ∈ l, ∃ b ∈ r, f a = .ok b := by
  induction l generalizing r with
  | nil => simp
  | cons a l ih =>
    obtain ⟨b, bs, hb, hbs, rfl⟩ := mapM_cons_eq_ok.mp h
    refine List.forall_mem_cons.mpr ⟨⟨b, by simp, hb⟩, fun c hc => ?_⟩
    obtain ⟨d, hd, hcd⟩ := ih hbs c hc
    exact ⟨d, by simp [hd], hcd⟩

/-- Every step of a traversal that succeeds has succeeded. -/
theorem succeeds_of_mapM_eq_ok {f : α → Except ε β} {l : List α} {r : List β}
    (h : l.mapM f = .ok r) : ∀ a ∈ l, (f a).Succeeds := by
  intro a ha
  obtain ⟨b, -, hb⟩ := mem_of_mapM_eq_ok h a ha
  exact ⟨b, hb⟩

/-- Every result of a traversal is the result of one of its steps. -/
theorem exists_of_mapM_eq_ok {f : α → Except ε β} {l : List α} {r : List β}
    (h : l.mapM f = .ok r) : ∀ b ∈ r, ∃ a ∈ l, f a = .ok b := by
  induction l generalizing r with
  | nil =>
    cases h
    simp
  | cons a l ih =>
    obtain ⟨b, bs, hb, hbs, rfl⟩ := mapM_cons_eq_ok.mp h
    refine List.forall_mem_cons.mpr ⟨⟨a, by simp, hb⟩, fun c hc => ?_⟩
    obtain ⟨d, hd, hdc⟩ := ih hbs c hc
    exact ⟨d, by simp [hd], hdc⟩

/-- A traversal of what a traversal has made, where each step undoes its step. -/
theorem mapM_of_mapM_eq_ok {γ : Type} {f : α → Except ε β} {g : β → Except ε γ} {h : α → γ}
    {l : List α} {r : List β} (hl : l.mapM f = .ok r)
    (hback : ∀ a ∈ l, ∀ b, f a = .ok b → g b = .ok (h a)) : r.mapM g = .ok (l.map h) := by
  induction l generalizing r with
  | nil =>
    cases hl
    rfl
  | cons a l ih =>
    obtain ⟨b, bs, hb, hbs, rfl⟩ := mapM_cons_eq_ok.mp hl
    obtain ⟨hhead, hrest⟩ := List.forall_mem_cons.mp hback
    exact mapM_cons_eq_ok.mpr ⟨h a, l.map h, hhead b hb, ih hbs hrest, rfl⟩

/-- A traversal of what a traversal has made, where each step succeeds and relates its result
to the original one under a condition. -/
theorem mapM_of_mapM_forall₂_iff {γ : Type} {f : α → Except ε β} {g : β → Except ε γ}
    {s : α → γ → Prop} {p : α → Prop} {l : List α} {r : List β} (hl : l.mapM f = .ok r)
    (hstep : ∀ a ∈ l, ∀ b, f a = .ok b → ∃ c, g b = .ok c ∧ (s a c ↔ p a)) :
    ∃ l', r.mapM g = .ok l' ∧ (List.Forall₂ s l l' ↔ ∀ a ∈ l, p a) := by
  induction l generalizing r with
  | nil =>
    cases hl
    exact ⟨[], rfl, by simp⟩
  | cons a l ih =>
    obtain ⟨b, bs, hb, hbs, rfl⟩ := mapM_cons_eq_ok.mp hl
    obtain ⟨hhead, hrest⟩ := List.forall_mem_cons.mp hstep
    obtain ⟨c, hc, hiff⟩ := hhead b hb
    obtain ⟨cs, hcs, hiffs⟩ := ih hbs hrest
    refine ⟨c :: cs, mapM_cons_eq_ok.mpr ⟨c, cs, hc, hcs, rfl⟩, ?_⟩
    rw [List.forall₂_cons, List.forall_mem_cons, hiff, hiffs]

/-- A check made of every element of a list. -/
def checkAll (f : α → Except ε Unit) : List α → Except ε Unit
  | [] => .ok ()
  | a :: l => f a >>= fun _ => checkAll f l

theorem checkAll_eq_ok {f : α → Except ε Unit} {l : List α} :
    checkAll f l = .ok () ↔ ∀ a ∈ l, f a = .ok () := by
  induction l with
  | nil => simp [checkAll]
  | cons a l ih =>
    rw [checkAll, bind_eq_ok, List.forall_mem_cons, ← ih]
    constructor
    · rintro ⟨⟨⟩, ha, hl⟩
      exact ⟨ha, hl⟩
    · rintro ⟨ha, hl⟩
      exact ⟨(), ha, hl⟩

/-- Walk a list, refusing an element whose key occurs in `seen` or earlier in the list. -/
def checkDistinct {κ : Type} [DecidableEq κ] (key : α → κ) (err : α → ε) :
    List κ → List α → Except ε Unit
  | _, [] => .ok ()
  | seen, a :: l => if key a ∈ seen then .error (err a) else checkDistinct key err (key a :: seen) l

theorem checkDistinct_eq_ok {κ : Type} [DecidableEq κ] {key : α → κ} {err : α → ε}
    {seen : List κ} {l : List α} : checkDistinct key err seen l = .ok () ↔
      (l.map key).Nodup ∧ ∀ a ∈ l, key a ∉ seen := by
  induction l generalizing seen with
  | nil => simp [checkDistinct]
  | cons a l ih =>
    rw [checkDistinct, guard_eq_ok, ih, List.map_cons, List.nodup_cons, List.forall_mem_cons,
      List.mem_map]
    constructor
    · rintro ⟨ha, hl, hseen⟩
      refine ⟨⟨?_, hl⟩, ha, fun b hb => List.not_mem_of_not_mem_cons (hseen b hb)⟩
      rintro ⟨b, hb, hab⟩
      exact hseen b hb (by simp [hab])
    · rintro ⟨⟨hnot, hl⟩, ha, hseen⟩
      refine ⟨ha, hl, fun b hb => ?_⟩
      rw [List.mem_cons, not_or]
      exact ⟨fun hab => hnot ⟨b, hb, hab⟩, hseen b hb⟩

end Except

/-- The values the validating constructor `init` can return: `init` takes the
raw fields, checks them and returns the normalised ones. -/
structure Built {ε α : Type} (init : α → Except ε α) where
  /-- The fields as the constructor left them. -/
  fields : α
  /-- Some call of the constructor returned them. -/
  built : ∃ raw, init raw = .ok fields

namespace Built

variable {ε α : Type} {init : α → Except ε α}

@[ext] theorem ext {a b : Built init} (h : a.fields = b.fields) : a = b := by
  cases a
  cases b
  cases h
  rfl

instance [DecidableEq α] : DecidableEq (Built init) := fun a b =>
  decidable_of_iff (a.fields = b.fields) ⟨Built.ext, congrArg _⟩

/-- Run the constructor on raw fields. -/
def new (init : α → Except ε α) (raw : α) : Except ε (Built init) :=
  match h : init raw with
  | .ok a => .ok ⟨a, raw, h⟩
  | .error e => .error e

theorem new_eq_ok_iff {raw : α} {a : Built init} :
    new init raw = .ok a ↔ init raw = .ok a.fields := by
  unfold new
  split
  · next b hb => simp [hb, Built.ext_iff]
  · next e he => simp [he]

theorem new_eq_error_iff {raw : α} {e : ε} : new init raw = .error e ↔ init raw = .error e := by
  unfold new
  split
  · next b hb => simp [hb]
  · next e he => simp [he]

theorem new_succeeds_iff {raw : α} : (new init raw).Succeeds ↔ (init raw).Succeeds := by
  constructor
  · rintro ⟨a, h⟩
    exact ⟨a.fields, new_eq_ok_iff.mp h⟩
  · rintro ⟨a, h⟩
    exact ⟨⟨a, raw, h⟩, new_eq_ok_iff.mpr h⟩

/-- When the constructor leaves what it returned unchanged, an object is what
the constructor makes of its own fields. -/
theorem new_fields (hidem : ∀ raw a, init raw = .ok a → init a = .ok a) (a : Built init) :
    new init a.fields = .ok a := by
  obtain ⟨raw, h⟩ := a.built
  exact new_eq_ok_iff.mpr (hidem raw a.fields h)

end Built
