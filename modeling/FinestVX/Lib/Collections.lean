import Mathlib.Data.List.Sort
import Mathlib.Data.List.Perm.Basic
import Mathlib.Tactic.Common

/-!
# Ordering by a key, and dictionaries

`sorted(rows, key=...)` and `ORDER BY`: a stable sort by a key.  And the
dictionary that keeps its keys in the order of their first insertion.

## Main definitions

* `orderBy` — stable sort by a key.
* `Dict`, `Dict.get?`, `Dict.set` — insertion-ordered dictionaries.

## Main results

* `orderBy_eq_of_perm` — when no two elements share a key, the result depends
  on the elements alone and not on their order.
* `orderBy_map` — sorting commutes with a map that keeps the keys.
* `pairwise_of_zip_tail`, `forall_zip_tail_of_pairwise` — consecutive pairs and all pairs.
* `Dict.get?_set` — the law of update.
-/

section OrderBy

variable {α β κ : Type} [LinearOrder κ]

/-- Sort by a key, keeping the order of elements with the same key. -/
def orderBy (key : α → κ) (l : List α) : List α := l.insertionSort fun a b => key a ≤ key b

theorem orderBy_perm (key : α → κ) (l : List α) : (orderBy key l).Perm l :=
  List.perm_insertionSort _ l

@[simp] theorem mem_orderBy {key : α → κ} {l : List α} {a : α} : a ∈ orderBy key l ↔ a ∈ l :=
  (orderBy_perm key l).mem_iff

theorem pairwise_orderBy (key : α → κ) (l : List α) :
    (orderBy key l).Pairwise fun a b => key a ≤ key b := by
  have : Std.Total fun a b : α => key a ≤ key b := ⟨fun a b => le_total _ _⟩
  have : IsTrans α fun a b => key a ≤ key b := ⟨fun a b c => le_trans⟩
  exact List.pairwise_insertionSort _ l

theorem orderBy_eq_self {key : α → κ} {l : List α} (h : l.Pairwise fun a b => key a ≤ key b) :
    orderBy key l = l :=
  List.Pairwise.insertionSort_eq h

/-- When no two elements share a key there is one way to order them. -/
theorem eq_of_perm_of_pairwise {key : α → κ} {l l' : List α} (hp : l.Perm l')
    (hkeys : (l.map key).Nodup) (h : l.Pairwise fun a b => key a ≤ key b)
    (h' : l'.Pairwise fun a b => key a ≤ key b) : l = l' := by
  refine hp.eq_of_pairwise ?_ h h'
  intro a b ha hb hab hba
  exact List.inj_on_of_nodup_map hkeys ha (hp.mem_iff.mpr hb) (le_antisymm hab hba)

/-- When no two elements share a key, sorting forgets the order they came in. -/
theorem orderBy_eq_of_perm {key : α → κ} {l l' : List α} (hp : l.Perm l')
    (hkeys : (l.map key).Nodup) : orderBy key l = orderBy key l' := by
  have hperm := ((orderBy_perm key l).trans hp).trans (orderBy_perm key l').symm
  have hnodup := ((orderBy_perm key l).map key).nodup_iff.mpr hkeys
  exact eq_of_perm_of_pairwise hperm hnodup (pairwise_orderBy key l) (pairwise_orderBy key l')

/-- Sorting commutes with a map that keeps the keys. -/
theorem orderBy_map (key : β → κ) (f : α → β) (l : List α) :
    orderBy key (l.map f) = (orderBy (fun a => key (f a)) l).map f :=
  (List.map_insertionSort _ _ f l fun _ _ _ _ => Iff.rfl).symm

/-- What holds along the sorted list: a relation that elements with the same key satisfy has to
follow from the order of the keys. -/
theorem pairwise_orderBy_iff {key : α → κ} {r : α → α → Prop} {l : List α}
    (hr : ∀ a ∈ l, ∀ b ∈ l, key a = key b → r a b) :
    (orderBy key l).Pairwise r ↔ ∀ a ∈ l, ∀ b ∈ l, key a < key b → r a b := by
  have hsorted := pairwise_orderBy key l
  constructor
  · intro h a ha b hb
    have hself : ∀ x ∈ orderBy key l, key x < key x → r x x :=
      fun x _ hx => absurd hx (lt_irrefl _)
    have hforth : (orderBy key l).Pairwise fun x y => key x < key y → r x y := by
      apply h.imp
      intro x y hxy _
      exact hxy
    -- against the order there is nothing to show
    have hback : (orderBy key l).Pairwise (flip fun x y => key x < key y → r x y) :=
      hsorted.imp fun hle hgt => absurd hle (not_le.mpr hgt)
    exact hforth.forall_of_forall_of_flip hself hback (mem_orderBy.mpr ha) (mem_orderBy.mpr hb)
  · intro h
    refine hsorted.imp_of_mem ?_
    intro a b ha hb hle
    rcases lt_or_eq_of_le hle with hlt | heq
    · exact h a (mem_orderBy.mp ha) b (mem_orderBy.mp hb) hlt
    · exact hr a (mem_orderBy.mp ha) b (mem_orderBy.mp hb) heq

/-- Two keys that order the elements alike sort alike. -/
theorem orderBy_congr {κ' : Type} [LinearOrder κ'] {key : α → κ} {key' : α → κ'} {l : List α}
    (h : ∀ a ∈ l, ∀ b ∈ l, key a ≤ key b ↔ key' a ≤ key' b) : orderBy key l = orderBy key' l := by
  have := List.map_insertionSort (fun a b => key a ≤ key b) (fun a b => key' a ≤ key' b) id l h
  simpa [orderBy] using this

end OrderBy

/-- In a chain of consecutive pairs related by `r`, all pairs are. -/
theorem pairwise_of_zip_tail {α : Type} {r : α → α → Prop} [IsTrans α r] {l : List α}
    (h : (l.zip l.tail).Forall fun ab => r ab.1 ab.2) : l.Pairwise r := by
  rw [← List.isChain_iff_pairwise]
  induction l with
  | nil => exact .nil
  | cons a l ih =>
    cases l with
    | nil => exact .singleton a
    | cons b l =>
      rw [List.tail_cons, List.zip_cons_cons, List.forall_cons] at h
      exact .cons_cons h.1 (ih h.2)

/-- If all pairs are related by `r`, so are the consecutive ones. -/
theorem forall_zip_tail_of_pairwise {α : Type} {r : α → α → Prop} {l : List α}
    (h : l.Pairwise r) : (l.zip l.tail).Forall fun ab => r ab.1 ab.2 := by
  induction l with
  | nil => trivial
  | cons a l ih =>
    cases l with
    | nil => trivial
    | cons b l =>
      obtain ⟨ha, hl⟩ := List.pairwise_cons.mp h
      rw [List.tail_cons, List.zip_cons_cons, List.forall_cons]
      exact ⟨ha b List.mem_cons_self, ih hl⟩

/-- A symmetric relation holds of the pairs of a list just when it holds at every two
different positions. -/
theorem pairwise_iff_of_ne {α : Type} {r : α → α → Prop} (hsymm : ∀ a b, r a b → r b a)
    {l : List α} : l.Pairwise r ↔ ∀ i j : Fin l.length, i ≠ j → r (l.get i) (l.get j) := by
  rw [List.pairwise_iff_getElem]
  constructor
  · intro h i j hij
    rcases Nat.lt_or_gt_of_ne (Fin.val_ne_of_ne hij) with hlt | hgt
    · exact h i j i.isLt j.isLt hlt
    · exact hsymm _ _ (h j i j.isLt i.isLt hgt)
  · intro h i j hi hj hlt
    exact h ⟨i, hi⟩ ⟨j, hj⟩ (Fin.ne_of_val_ne (Nat.ne_of_lt hlt))

/-! ### Dictionaries -/

/-- A dictionary, its keys in the order of their first insertion. -/
abbrev Dict (κ ν : Type) := List (κ × ν)

namespace Dict

variable {κ ν : Type} [DecidableEq κ]

/-- The value of a key. -/
def get? : Dict κ ν → κ → Option ν
  | [], _ => none
  | (k', v) :: d, k => if k' = k then some v else get? d k

/-- Set the value of a key; a new key goes to the end. -/
def set : Dict κ ν → κ → ν → Dict κ ν
  | [], k, v => [(k, v)]
  | (k', v') :: d, k, v => if k' = k then (k', v) :: d else (k', v') :: set d k v

/-- The keys. -/
def keys (d : Dict κ ν) : List κ := d.map Prod.fst

/-- Remove a key. -/
def erase (d : Dict κ ν) (k : κ) : Dict κ ν := d.filter fun p => p.1 ≠ k

@[simp] theorem get?_nil (k : κ) : get? ([] : Dict κ ν) k = none := rfl

/-- The law of update. -/
theorem get?_set (d : Dict κ ν) (k k' : κ) (v : ν) :
    (d.set k v).get? k' = if k = k' then some v else d.get? k' := by
  induction d with
  | nil => simp [set, get?]
  | cons p d ih =>
    obtain ⟨a, b⟩ := p
    by_cases hak : a = k
    · subst hak
      simp only [set, get?, if_true]
      split <;> rfl
    · simp only [set, get?, if_neg hak, ih]
      by_cases hak' : a = k'
      · subst hak'
        simp [Ne.symm hak]
      · simp [hak']

@[simp] theorem get?_set_self (d : Dict κ ν) (k : κ) (v : ν) : (d.set k v).get? k = some v := by
  rw [get?_set, if_pos rfl]

theorem get?_set_of_ne {k k' : κ} (h : k ≠ k') (d : Dict κ ν) (v : ν) :
    (d.set k v).get? k' = d.get? k' := by
  rw [get?_set, if_neg h]

/-- The law of removal. -/
theorem get?_erase (d : Dict κ ν) (k k' : κ) :
    (d.erase k).get? k' = if k = k' then none else d.get? k' := by
  induction d with
  | nil => simp [erase]
  | cons p d ih =>
    obtain ⟨a, b⟩ := p
    unfold erase at ih ⊢
    by_cases hak : a = k
    · subst hak
      rw [List.filter_cons_of_neg (by simp), ih, get?]
      split <;> rfl
    · rw [List.filter_cons_of_pos (by simpa using hak), get?, ih, get?]
      by_cases hak' : a = k'
      · rw [if_pos hak', if_neg fun h => hak (hak'.trans h.symm), if_pos hak']
      · rw [if_neg hak', if_neg hak']

/-- The keys of a dictionary are those with a value. -/
theorem mem_keys_iff {d : Dict κ ν} {k : κ} : k ∈ d.keys ↔ ∃ v, d.get? k = some v := by
  induction d with
  | nil => simp [keys]
  | cons p d ih =>
    obtain ⟨a, b⟩ := p
    by_cases h : a = k
    · simp [keys, get?, h]
    · simp only [keys, List.map_cons, List.mem_cons, get?, if_neg h]
      rw [← ih, keys]
      simp [Ne.symm h]

theorem get?_eq_none_iff {d : Dict κ ν} {k : κ} : d.get? k = none ↔ k ∉ d.keys := by
  rw [mem_keys_iff]
  cases d.get? k <;> simp

theorem mem_of_get?_eq_some {d : Dict κ ν} {k : κ} {v : ν} (h : d.get? k = some v) :
    (k, v) ∈ d := by
  induction d with
  | nil => simp at h
  | cons p d ih =>
    obtain ⟨a, b⟩ := p
    rw [get?] at h
    split at h
    · next hak => simp_all
    · exact List.mem_cons_of_mem _ (ih h)

theorem get?_eq_some_of_mem {d : Dict κ ν} {k : κ} {v : ν} (hd : d.keys.Nodup)
    (h : (k, v) ∈ d) : d.get? k = some v := by
  induction d with
  | nil => simp at h
  | cons p d ih =>
    obtain ⟨a, b⟩ := p
    obtain ⟨ha, hd⟩ : a ∉ keys d ∧ (keys d).Nodup := by simpa [keys] using hd
    rcases List.mem_cons.mp h with heq | h
    · obtain ⟨rfl, rfl⟩ : k = a ∧ v = b := by simpa using heq
      rw [get?, if_pos rfl]
    · have hne : a ≠ k := fun hak => ha (hak ▸ List.mem_map_of_mem (f := Prod.fst) h)
      rw [get?, if_neg hne, ih hd h]

/-- An update does not repeat a key. -/
theorem nodup_keys_set {d : Dict κ ν} (h : d.keys.Nodup) (k : κ) (v : ν) :
    (d.set k v).keys.Nodup := by
  induction d with
  | nil => simp [set, keys]
  | cons p d ih =>
    obtain ⟨a, b⟩ := p
    obtain ⟨ha, hd⟩ : a ∉ keys d ∧ (keys d).Nodup := by simpa [keys] using h
    by_cases hak : a = k
    · simpa [set, hak, keys] using h
    · have hnot : a ∉ keys (Dict.set d k v) := by
        rw [← get?_eq_none_iff, get?_set_of_ne (Ne.symm hak), get?_eq_none_iff]
        exact ha
      simpa [set, hak, keys] using ⟨by simpa [keys] using hnot, ih hd⟩

/-- A removal does not repeat a key. -/
theorem nodup_keys_erase {d : Dict κ ν} (h : d.keys.Nodup) (k : κ) : (d.erase k).keys.Nodup :=
  (List.filter_sublist.map Prod.fst).nodup h

/-- Reading a dictionary without repeated keys does not depend on their order. -/
theorem get?_eq_of_perm {d d' : Dict κ ν} (hp : d.Perm d') (hd : d.keys.Nodup) (k : κ) :
    d.get? k = d'.get? k := by
  have hd' : d'.keys.Nodup := (hp.map Prod.fst).nodup_iff.mp hd
  cases h : d'.get? k with
  | none =>
    rw [get?_eq_none_iff] at h ⊢
    rwa [keys, (hp.map Prod.fst).mem_iff]
  | some v => exact get?_eq_some_of_mem hd (hp.mem_iff.mpr (mem_of_get?_eq_some h))

end Dict
