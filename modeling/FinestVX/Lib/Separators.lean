import Mathlib.Data.List.Basic
import Mathlib.Tactic.Common

/-!
# Texts joined with a separator

Two parts joined with a separator do not determine the parts: the separator may occur inside
of them, and then the joined text can be cut in several places.

## Main results

* `append_cons_eq_append_cons_iff` — when two pairs are joined to the same text.
* `append_cons_inj` — the parts are determined if the second one is free of the separator.
-/

namespace Separators

variable {α : Type} {sep : α} {a b a' b' : List α}

/-- Two pairs are joined to the same text when they are the same, or when the first part of
the one extends that of the other by a separator and something with which the second part of
the other begins. -/
theorem append_cons_eq_append_cons_iff : a ++ sep :: b = a' ++ sep :: b' ↔
    (a = a' ∧ b = b') ∨ (∃ x, a' = a ++ sep :: x ∧ b = x ++ sep :: b') ∨
      ∃ x, a = a' ++ sep :: x ∧ b' = x ++ sep :: b := by
  rw [List.append_eq_append_iff]
  constructor
  · rintro (⟨x, rfl, h⟩ | ⟨x, rfl, h⟩)
    · cases x with
      | nil => exact .inl ⟨(List.append_nil a).symm, (List.cons.inj h).2⟩
      | cons c x =>
        obtain ⟨rfl, rfl⟩ := List.cons.inj h
        exact .inr (.inl ⟨x, rfl, rfl⟩)
    · cases x with
      | nil => exact .inl ⟨List.append_nil a', (List.cons.inj h).2.symm⟩
      | cons c x =>
        obtain ⟨rfl, rfl⟩ := List.cons.inj h
        exact .inr (.inr ⟨x, rfl, rfl⟩)
  · rintro (⟨rfl, rfl⟩ | ⟨x, rfl, rfl⟩ | ⟨x, rfl, rfl⟩)
    · exact .inl ⟨[], (List.append_nil a).symm, rfl⟩
    · exact .inl ⟨sep :: x, rfl, rfl⟩
    · exact .inr ⟨sep :: x, rfl, rfl⟩

/-- If the second parts are free of the separator, both parts are determined. -/
theorem append_cons_inj (hb : sep ∉ b) (hb' : sep ∉ b') :
    a ++ sep :: b = a' ++ sep :: b' ↔ a = a' ∧ b = b' := by
  rw [append_cons_eq_append_cons_iff]
  constructor
  · rintro (h | ⟨x, -, rfl⟩ | ⟨x, -, rfl⟩)
    · exact h
    · exact absurd (by simp) hb
    · exact absurd (by simp) hb'
  · exact .inl

end Separators
