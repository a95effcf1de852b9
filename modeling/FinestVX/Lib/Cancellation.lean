import Mathlib.Algebra.BigOperators.Group.Finset.Piecewise
import Mathlib.Algebra.BigOperators.Group.Finset.Sigma

/-!
# Journals with reversals

Items with keys; an item may name the key of another one that it reverses, and has then the
opposite effect.  A reversal can be reversed itself, so whether an item counts is decided along
the chain of the reversals that follow it.

## Main definitions

* `Status` — an item is in force unless an item that reverses it is.
* `Reverses`, `Journal` — reversal by key, and the lists in which it makes sense.

## Main results

* `Journal.original`, `Journal.reversal` — how a journal grows.
* `Journal.inForce_iff` — the recursion that `Status` solves.
* `Journal.sum_effect` — **the effects add up to those of the originals in force.**
-/

namespace Cancellation

/-! ### In force or undone -/

section

variable {α : Type} {r : α → α → Prop} {x : α}

/-- `Status r true x` is that `x` is in force, `Status r false x` that it is undone, where
`r y x` is that `y` reverses `x`. -/
inductive Status (r : α → α → Prop) : Bool → α → Prop
  /-- Whatever reverses it is undone. -/
  | inForce {x : α} (h : ∀ y, r y x → Status r false y) : Status r true x
  /-- Something that reverses it is in force. -/
  | undone {x y : α} (h : r y x) (hy : Status r true y) : Status r false x

theorem Status.not_opposite {b : Bool} (h : Status r b x) : ¬ Status r (!b) x := by
  induction h with
  | inForce h ih =>
    intro hundone
    cases hundone with
    | undone hy hforce => exact ih _ hy hforce
  | undone hy hforce ih =>
    intro h
    cases h with
    | inForce h => exact ih (h _ hy)

/-- Along chains that end, every item has a status. -/
theorem Status.of_acc (h : Acc r x) : Status r true x ∨ Status r false x := by
  induction h with
  | intro x _ ih =>
    by_cases hforce : ∃ y, r y x ∧ Status r true y
    · obtain ⟨y, hy, hforce⟩ := hforce
      exact .inr (.undone hy hforce)
    · refine .inl (.inForce fun y hy => ?_)
      exact (ih y hy).resolve_left fun h => hforce ⟨y, hy, h⟩

end

/-! ### Journals -/

section

variable {α κ G : Type} (key : α → κ) (target : α → Option κ)

/-- `y` is an item of the list and names `x` as the item it reverses. -/
def Reverses (l : List α) (y x : α) : Prop := y ∈ l ∧ target y = some (key x)

variable [AddCommGroup G] (effect : α → G)

/-- A list of items, each reversed at most once, by an item with the opposite effect. -/
structure Journal (l : List α) : Prop where
  keys : (l.map key).Nodup
  targets : (l.filterMap target).Nodup
  opposite : ∀ y ∈ l, ∀ k ∈ target y, ∃ x ∈ l, key x = k ∧ effect y = -effect x
  /-- Chains of reversals end. -/
  acyclic : ∀ x ∈ l, Acc (Reverses key target l) x

variable {key target effect} {l : List α} {x y : α}

namespace Journal

theorem perm {l' : List α} (h : Journal key target effect l) (hp : l.Perm l') :
    Journal key target effect l' where
  keys := (hp.map key).nodup h.keys
  targets := (hp.filterMap target).nodup h.targets
  opposite y hy k hk := by
    obtain ⟨x, hx, hkey, heffect⟩ := h.opposite y (hp.mem_iff.mpr hy) k hk
    exact ⟨x, hp.mem_iff.mp hx, hkey, heffect⟩
  acyclic x hx := by
    have hrel : Reverses key target l' = Reverses key target l := by
      funext y x
      exact propext (and_congr_left' hp.mem_iff.symm)
    rw [hrel]
    exact h.acyclic x (hp.mem_iff.mpr hx)

theorem nil : Journal key target effect [] where
  keys := List.nodup_nil
  targets := List.nodup_nil
  opposite _ hy := absurd hy List.not_mem_nil
  acyclic _ hx := absurd hx List.not_mem_nil

/-- Nothing reverses an item with a new key. -/
theorem target_ne_of_fresh (h : Journal key target effect l) (hfresh : ∀ z ∈ l, key z ≠ key x) :
    ∀ z ∈ l, target z ≠ some (key x) := by
  intro z hz htarget
  obtain ⟨w, hw, hkey, -⟩ := h.opposite z hz _ htarget
  exact hfresh w hw hkey

/-- One more item that does not reverse itself keeps chains finite. -/
theorem acyclic_append (h : Journal key target effect l) (hfresh : ∀ z ∈ l, key z ≠ key x)
    (hself : target x ≠ some (key x)) :
    ∀ z ∈ l ++ [x], Acc (Reverses key target (l ++ [x])) z := by
  have hlast : Acc (Reverses key target (l ++ [x])) x := by
    refine ⟨_, fun z hz => ?_⟩
    obtain ⟨hmem, htarget⟩ := hz
    rcases List.mem_append.mp hmem with hmem | hmem
    · exact absurd htarget (h.target_ne_of_fresh hfresh z hmem)
    · rw [List.mem_singleton.mp hmem] at htarget
      exact absurd htarget hself
  have hold : ∀ z, Acc (Reverses key target l) z → Acc (Reverses key target (l ++ [x])) z := by
    intro z hz
    -- a chain of old items goes on as before, or with the new one, where it ends
    induction hz with
    | intro z _ ih =>
      refine ⟨_, fun w hw => ?_⟩
      rcases List.mem_append.mp hw.1 with hmem | hmem
      · exact ih w ⟨hmem, hw.2⟩
      · rwa [List.mem_singleton.mp hmem]
  intro z hz
  rcases List.mem_append.mp hz with hz | hz
  · exact hold z (h.acyclic z hz)
  · rwa [List.mem_singleton.mp hz]

theorem nodup_keys_append (h : Journal key target effect l) (hfresh : ∀ z ∈ l, key z ≠ key x) :
    ((l ++ [x]).map key).Nodup := by
  rw [List.map_append]
  refine h.keys.append (List.nodup_singleton _) ?_
  intro k hk hk'
  obtain ⟨z, hz, rfl⟩ := List.mem_map.mp hk
  exact hfresh z hz (List.mem_singleton.mp hk')

/-- A journal grows by an original. -/
theorem original (h : Journal key target effect l) (hfresh : ∀ z ∈ l, key z ≠ key x)
    (hx : target x = none) : Journal key target effect (l ++ [x]) where
  keys := h.nodup_keys_append hfresh
  targets := by
    rw [List.filterMap_append, List.filterMap_cons_none hx, List.filterMap_nil, List.append_nil]
    exact h.targets
  opposite z hz k hk := by
    rcases List.mem_append.mp hz with hz | hz
    · obtain ⟨w, hw, heq⟩ := h.opposite z hz k hk
      exact ⟨w, List.mem_append_left _ hw, heq⟩
    · rw [List.mem_singleton.mp hz, hx] at hk
      cases hk
  acyclic := h.acyclic_append hfresh (by rw [hx]; exact Option.some_ne_none _ |>.symm)

/-- A journal grows by the reversal of an item that nothing reverses. -/
theorem reversal (h : Journal key target effect l) (hfresh : ∀ z ∈ l, key z ≠ key x) (hy : y ∈ l)
    (hx : target x = some (key y)) (hnone : ∀ z ∈ l, target z ≠ some (key y))
    (heffect : effect x = -effect y) : Journal key target effect (l ++ [x]) where
  keys := h.nodup_keys_append hfresh
  targets := by
    rw [List.filterMap_append]
    refine h.targets.append ?_ ?_
    · rw [List.filterMap_cons_some hx]
      exact List.nodup_singleton _
    · intro k hk hk'
      obtain ⟨z, hz, htarget⟩ := List.mem_filterMap.mp hk
      rw [List.filterMap_cons_some hx, List.filterMap_nil, List.mem_singleton] at hk'
      exact hnone z hz (htarget.trans (congrArg some hk'))
  opposite z hz k hk := by
    rcases List.mem_append.mp hz with hz | hz
    · obtain ⟨w, hw, heq⟩ := h.opposite z hz k hk
      exact ⟨w, List.mem_append_left _ hw, heq⟩
    · obtain rfl := List.mem_singleton.mp hz
      rw [hx] at hk
      cases hk
      exact ⟨y, List.mem_append_left _ hy, rfl, heffect⟩
  acyclic := by
    refine h.acyclic_append hfresh ?_
    rw [hx]
    intro heq
    exact hfresh y hy (Option.some.inj heq)

/-! ### The sum -/

theorem status_or (h : Journal key target effect l) (hx : x ∈ l) :
    Status (Reverses key target l) true x ∨ Status (Reverses key target l) false x :=
  Status.of_acc (h.acyclic x hx)

/-- An item is in force just when nothing in force reverses it. -/
theorem inForce_iff (h : Journal key target effect l) :
    Status (Reverses key target l) true x ↔
      ∀ y ∈ l, target y = some (key x) → ¬ Status (Reverses key target l) true y := by
  constructor
  · intro hx y hy htarget hforce
    cases hx with
    | inForce hx => exact hforce.not_opposite (hx y ⟨hy, htarget⟩)
  · intro hx
    refine .inForce fun y hy => ?_
    exact (h.status_or hy.1).resolve_left (hx y hy.1 hy.2)

/-- At most one item reverses a given one. -/
theorem eq_of_target (h : Journal key target effect l) {z : α} {k : κ} (hy : y ∈ l) (hz : z ∈ l)
    (hytarget : target y = some k) (hztarget : target z = some k) : y = z := by
  have hnodup := h.targets
  clear h
  induction l with
  | nil => cases hy
  | cons w l ih =>
    have hk : ∀ {v : α}, v ∈ l → target v = some k → k ∈ l.filterMap target := fun hv hvk =>
      List.mem_filterMap.mpr ⟨_, hv, hvk⟩
    rcases List.mem_cons.mp hy with rfl | hy'
    · rcases List.mem_cons.mp hz with rfl | hz'
      · rfl
      · rw [List.filterMap_cons_some hytarget] at hnodup
        exact absurd (hk hz' hztarget) (List.nodup_cons.mp hnodup).1
    · rcases List.mem_cons.mp hz with rfl | hz'
      · rw [List.filterMap_cons_some hztarget] at hnodup
        exact absurd (hk hy' hytarget) (List.nodup_cons.mp hnodup).1
      · refine ih hy' hz' ?_
        cases hw : target w with
        | none => rwa [List.filterMap_cons_none hw] at hnodup
        | some k' =>
          rw [List.filterMap_cons_some hw] at hnodup
          exact (List.nodup_cons.mp hnodup).2

theorem eq_of_key (h : Journal key target effect l) (hx : x ∈ l) (hy : y ∈ l)
    (hkey : key x = key y) : x = y :=
  List.inj_on_of_nodup_map h.keys hx hy hkey

end Journal

open Classical in
/-- The effect of an item in force, and nothing of one that is undone. -/
noncomputable def standing (key : α → κ) (target : α → Option κ) (effect : α → G) (l : List α)
    (x : α) : G := if Status (Reverses key target l) true x then effect x else 0

namespace Journal

open Classical in
/-- An item with the item that reverses it. -/
theorem standing_eq (h : Journal key target effect l) (hx : x ∈ l) :
    standing key target effect l x = effect x + ∑ y ∈ l.toFinset,
      if target y = some (key x) then standing key target effect l y else 0 := by
  by_cases hreversed : ∃ y ∈ l, target y = some (key x)
  · obtain ⟨y, hy, htarget⟩ := hreversed
    have honly : ∀ z ∈ l.toFinset, z ≠ y → (if target z = some (key x) then
        standing key target effect l z else 0) = 0 := by
      intro z hz hne
      refine if_neg fun hztarget => hne ?_
      exact h.eq_of_target (List.mem_toFinset.mp hz) hy hztarget htarget
    rw [Finset.sum_eq_single_of_mem y (List.mem_toFinset.mpr hy) honly, if_pos htarget]
    obtain ⟨w, hw, hkey, heffect⟩ := h.opposite y hy _ htarget
    obtain rfl := h.eq_of_key hw hx hkey
    by_cases hforce : Status (Reverses key target l) true y
    · have hw' : ¬ Status (Reverses key target l) true w := fun hw' =>
        h.inForce_iff.mp hw' y hy htarget hforce
      rw [standing, standing, if_pos hforce, if_neg hw', heffect, add_neg_cancel]
    · have hw' : Status (Reverses key target l) true w := by
        refine h.inForce_iff.mpr fun z hz hztarget => ?_
        rwa [h.eq_of_target hz hy hztarget htarget]
      rw [standing, standing, if_neg hforce, if_pos hw', add_zero]
  · have hforce : Status (Reverses key target l) true x :=
      h.inForce_iff.mpr fun y hy htarget => absurd ⟨y, hy, htarget⟩ hreversed
    rw [standing, if_pos hforce, Finset.sum_eq_zero, add_zero]
    intro y hy
    exact if_neg fun htarget => hreversed ⟨y, List.mem_toFinset.mp hy, htarget⟩

open Classical in
/-- The item that another one reverses, among all. -/
theorem sum_target (h : Journal key target effect l) (hy : y ∈ l) (g : G) :
    ∑ x ∈ l.toFinset, (if target y = some (key x) then g else 0) =
      if target y = none then 0 else g := by
  cases htarget : target y with
  | none => simp
  | some k =>
    obtain ⟨x, hx, hkey, -⟩ := h.opposite y hy k htarget
    have honly : ∀ z ∈ l.toFinset, z ≠ x → (if some k = some (key z) then g else 0) = 0 := by
      intro z hz hne
      refine if_neg fun hzkey => hne ?_
      exact h.eq_of_key (List.mem_toFinset.mp hz) hx ((Option.some.inj hzkey).symm.trans hkey.symm)
    rw [Finset.sum_eq_single_of_mem x (List.mem_toFinset.mpr hx) honly, if_pos (hkey ▸ rfl),
      if_neg (Option.some_ne_none k)]

open Classical in
/-- **The effects add up to those of the originals in force.** -/
theorem sum_effect (h : Journal key target effect l) :
    (l.map effect).sum = ((l.filter fun x =>
      target x = none ∧ Status (Reverses key target l) true x).map effect).sum := by
  have hnodup : l.Nodup := List.Nodup.of_map key h.keys
  -- every item stands for itself and for what reverses it
  have hall : ∑ x ∈ l.toFinset, standing key target effect l x = ∑ x ∈ l.toFinset, effect x +
      ∑ y ∈ l.toFinset, if target y = none then 0 else standing key target effect l y := by
    rw [Finset.sum_congr rfl fun x hx => h.standing_eq (List.mem_toFinset.mp hx),
      Finset.sum_add_distrib, Finset.sum_comm]
    congr 1
    exact Finset.sum_congr rfl fun y hy => h.sum_target (List.mem_toFinset.mp hy) _
  -- what reverses something cancels on both sides
  have hsplit : ∑ x ∈ l.toFinset, standing key target effect l x =
      ∑ x ∈ l.toFinset, (if target x = none then standing key target effect l x else 0) +
      ∑ x ∈ l.toFinset, if target x = none then 0 else standing key target effect l x := by
    rw [← Finset.sum_add_distrib]
    refine Finset.sum_congr rfl fun x _ => ?_
    split_ifs <;> simp
  have hsum := add_right_cancel (hall.symm.trans hsplit)
  rw [← List.sum_toFinset effect hnodup, hsum,
    ← List.sum_toFinset effect (hnodup.filter _), List.toFinset_filter, Finset.sum_filter]
  refine Finset.sum_congr rfl fun x _ => ?_
  by_cases hnone : target x = none <;> simp [standing, hnone]

end Journal

end

end Cancellation
