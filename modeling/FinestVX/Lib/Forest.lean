import Mathlib.Logic.Relation
import Mathlib.Logic.Relator

/-!
# Forests

A relation to the parent: every node has at most one.  A node is rooted when a walk
from parent to parent ends at a node without one.

## Main definitions

* `Rooted` — the walk from a node ends.
* `ParentsFirst` — a list in which parents come before their children.

## Main results

* `Rooted.acc` — a rooted node is accessible, the parents being the smaller ones.
* `Rooted.of_reflTransGen` — what lies above a rooted node is rooted.
* `Rooted.not_transGen` — a walk from a rooted node does not come back to it.
* `exists_parentsFirst` — rooted nodes can be listed with their parents first.
-/

open Relation

variable {α : Type} {parent : α → α → Prop} {a b : α}

/-- Following the parents of `a` leads to a node without a parent. -/
def Rooted (parent : α → α → Prop) (a : α) : Prop :=
  ∃ r, ReflTransGen parent a r ∧ ∀ b, ¬ parent r b

/-- The relation is well-founded above a rooted node: there is one way up only. -/
theorem Rooted.acc (hunique : Relator.RightUnique parent) (ha : Rooted parent a) :
    Acc (flip parent) a := by
  obtain ⟨r, har, hr⟩ := ha
  induction har using ReflTransGen.head_induction_on with
  | refl => exact ⟨r, fun b hb => absurd hb (hr b)⟩
  | head hab _ ih =>
    constructor
    intro c hc
    rwa [hunique hc hab]

/-- What lies above a rooted node is rooted. -/
theorem Rooted.of_reflTransGen (hunique : Relator.RightUnique parent) (ha : Rooted parent a)
    (hab : ReflTransGen parent a b) : Rooted parent b := by
  obtain ⟨r, har, hr⟩ := ha
  rcases hab.total_of_right_unique hunique har with hbr | hrb
  · exact ⟨r, hbr, hr⟩
  · -- nothing is above the root but the root itself
    rcases hrb.cases_head with rfl | ⟨c, hrc, -⟩
    · exact ⟨r, .refl, hr⟩
    · exact absurd hrc (hr c)

theorem Rooted.not_transGen (hunique : Relator.RightUnique parent) (ha : Rooted parent a) :
    ¬ TransGen parent a a := by
  have hacc : Acc (TransGen (flip parent)) a := (ha.acc hunique).transGen
  clear ha
  intro hcycle
  induction hacc with
  | intro a _ ih =>
    -- a node above itself would be smaller than itself
    exact ih a (transGen_swap.mpr hcycle) hcycle

/-- Each node of the list has its parent before it, or in `seen`. -/
def ParentsFirst (parent : α → α → Prop) : List α → List α → Prop
  | _, [] => True
  | seen, a :: l => (∀ b, parent a b → b ∈ seen) ∧ ParentsFirst parent (seen ++ [a]) l

/-- One of the nodes can be listed next. -/
theorem Rooted.exists_first (hunique : Relator.RightUnique parent) {seen rest : List α}
    (hclosed : ∀ a ∈ rest, ∀ b, parent a b → b ∈ seen ∨ b ∈ rest) (ha : a ∈ rest)
    (hrooted : Rooted parent a) : ∃ c ∈ rest, ∀ b, parent c b → b ∈ seen := by
  induction hrooted.acc hunique with
  | intro a _ ih =>
    by_cases hnext : ∀ b, parent a b → b ∈ seen
    · exact ⟨a, ha, hnext⟩
    · -- the walk goes on to a parent that is not listed yet
      obtain ⟨b, hb⟩ := Classical.not_forall.mp hnext
      obtain ⟨hab, hseen⟩ := Classical.not_imp.mp hb
      exact ih b hab ((hclosed a ha b hab).resolve_left hseen)
        (hrooted.of_reflTransGen hunique (.single hab))

/-- Rooted nodes can be listed with their parents first. -/
theorem exists_parentsFirst (hunique : Relator.RightUnique parent) {seen rest : List α}
    (hclosed : ∀ a ∈ rest, ∀ b, parent a b → b ∈ seen ∨ b ∈ rest)
    (hrooted : ∀ a ∈ rest, Rooted parent a) : ∃ l, l.Perm rest ∧ ParentsFirst parent seen l := by
  induction hn : rest.length generalizing seen rest with
  | zero => exact ⟨[], by rw [List.length_eq_zero_iff.mp hn], trivial⟩
  | succ n ih =>
    obtain ⟨a, ha⟩ := List.exists_mem_of_length_pos (l := rest) (by omega)
    obtain ⟨c, hc, hfirst⟩ := (hrooted a ha).exists_first hunique hclosed ha
    obtain ⟨s, t, rfl⟩ := List.append_of_mem hc
    have hmiddle : (s ++ c :: t).Perm (c :: (s ++ t)) := List.perm_middle
    have hclosed' : ∀ x ∈ s ++ t, ∀ b, parent x b → b ∈ seen ++ [c] ∨ b ∈ s ++ t := by
      intro x hx b hxb
      rcases hclosed x (hmiddle.mem_iff.mpr (List.mem_cons_of_mem _ hx)) b hxb with hb | hb
      · exact .inl (List.mem_append_left _ hb)
      · rcases List.mem_cons.mp (hmiddle.mem_iff.mp hb) with rfl | hb
        · exact .inl (List.mem_append_right _ (List.mem_singleton.mpr rfl))
        · exact .inr hb
    have hlength : (s ++ t).length = n := by
      have := hmiddle.length_eq
      rw [hn, List.length_cons] at this
      omega
    obtain ⟨l, hl, hlater⟩ := ih hclosed'
      (fun x hx => hrooted x (hmiddle.mem_iff.mpr (List.mem_cons_of_mem _ hx))) hlength
    exact ⟨c :: l, (hl.cons c).trans hmiddle.symm, hfirst, hlater⟩
