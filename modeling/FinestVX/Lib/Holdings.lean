import FinestVX.Lib.Transition
import Mathlib.Data.List.Perm.Subperm
import Mathlib.Data.List.Nodup
import Mathlib.Tactic.Common

/-!
# A pool and its borrowers

Things that stand in a pool or are held by borrowers.  A step moves things between the
pool and one borrower, in any order and any number of them; so nothing is lost and nothing
is held twice, whatever the borrowers do.

## Main definitions

* `Holdings` — what is in the pool and what each borrower holds.
* `Holdings.Moves` — a step of one borrower.
* `Holdings.Conserved` — each thing is in one place, once.

## Main results

* `Holdings.Conserved.moves` — a step conserves the things.
* `Holdings.Conserved.in_one_place` — where a thing is.
* `Holdings.Conserved.length_lt` — while one is held, the pool is not full.
* `Holdings.Conserved.perm_of_idle`, `Holdings.Conserved.perm_of_length` — the pool while
  nobody holds anything, and a borrower that holds as many as there are.
-/

variable {η ι : Type}

/-- What is in a pool, in its order, and what each borrower holds. -/
structure Holdings (η ι : Type) where
  pool : List η
  held : ι → List η

namespace Holdings

variable {all : List η} {s s' : Holdings η ι} {i : ι}

/-- Everything is in the pool. -/
def full (all : List η) : Holdings η ι := ⟨all, fun _ => []⟩

/-- The step moves things between the pool and one borrower. -/
structure Moves (s : Holdings η ι) (i : ι) (s' : Holdings η ι) : Prop where
  perm : (s'.pool ++ s'.held i).Perm (s.pool ++ s.held i)
  others : ∀ j, j ≠ i → s'.held j = s.held j

/-- The thing is in the pool or held. -/
def Located (s : Holdings η ι) (k : η) : Prop := k ∈ s.pool ∨ ∃ i, k ∈ s.held i

/-- The things are those in the pool and those held, and each of them is in one place. -/
structure Conserved (all : List η) (s : Holdings η ι) : Prop where
  pool_nodup : s.pool.Nodup
  nodup : ∀ i, (s.pool ++ s.held i).Nodup
  disjoint : ∀ i j, i ≠ j → (s.held i).Disjoint (s.held j)
  located_iff : ∀ k, s.Located k ↔ k ∈ all

/-! ### Steps -/

/-- The first thing of the pool is taken. -/
theorem Moves.take {h : η} {rest : List η} (hpool : s.pool = h :: rest) (hrest : s'.pool = rest)
    (hheld : s'.held i = s.held i ++ [h]) (hothers : ∀ j, j ≠ i → s'.held j = s.held j) :
    Moves s i s' := by
  refine ⟨?_, hothers⟩
  rw [hpool, hrest, hheld, ← List.append_assoc, List.cons_append]
  exact List.perm_append_comm

/-- A thing is given back, at the end of the pool. -/
theorem Moves.give {h : η} {rest : List η} (hheld : s.held i = h :: rest)
    (hrest : s'.held i = rest) (hpool : s'.pool = s.pool ++ [h])
    (hothers : ∀ j, j ≠ i → s'.held j = s.held j) : Moves s i s' := by
  refine ⟨?_, hothers⟩
  rw [hpool, hrest, hheld, List.append_assoc, List.singleton_append]

/-- A borrower puts what it holds in another order. -/
theorem Moves.keep (hpool : s'.pool = s.pool) (hheld : (s'.held i).Perm (s.held i))
    (hothers : ∀ j, j ≠ i → s'.held j = s.held j) : Moves s i s' := by
  refine ⟨?_, hothers⟩
  rw [hpool]
  exact hheld.append_left _

theorem Moves.symm (h : Moves s i s') : Moves s' i s :=
  ⟨h.perm.symm, fun j hj => (h.others j hj).symm⟩

theorem Moves.mem_iff (h : Moves s i s') (k : η) :
    (k ∈ s'.pool ∨ k ∈ s'.held i) ↔ (k ∈ s.pool ∨ k ∈ s.held i) := by
  rw [← List.mem_append, ← List.mem_append]
  exact h.perm.mem_iff

theorem Moves.located (h : Moves s i s') {k : η} (hk : s.Located k) : s'.Located k := by
  have hself : k ∈ s.pool ∨ k ∈ s.held i → s'.Located k := by
    intro hk
    exact ((h.mem_iff k).mpr hk).imp_right fun hi => ⟨i, hi⟩
  rcases hk with hpool | ⟨j, hj⟩
  · exact hself (.inl hpool)
  · by_cases hji : j = i
    · subst hji
      exact hself (.inr hj)
    · rw [← h.others j hji] at hj
      exact .inr ⟨j, hj⟩

/-- After a step no other borrower holds what the pool and the borrower have. -/
theorem Conserved.notMem_of_moves (hs : s.Conserved all) (h : Moves s i s') {j : ι} (hj : j ≠ i)
    {k : η} (hk : k ∈ s'.pool ∨ k ∈ s'.held i) : k ∉ s'.held j := by
  rw [h.others j hj]
  intro hkj
  rcases (h.mem_iff k).mp hk with hpool | hheld
  · exact List.disjoint_of_nodup_append (hs.nodup j) hpool hkj
  · exact hs.disjoint i j (Ne.symm hj) hheld hkj

theorem conserved_full (h : all.Nodup) : (full all : Holdings η ι).Conserved all where
  pool_nodup := h
  nodup _ := by
    rw [full, List.append_nil]
    exact h
  disjoint _ _ _ := by simp [full]
  located_iff _ := by simp [full, Located]

/-- A step conserves the things. -/
theorem Conserved.moves (hs : s.Conserved all) (h : Moves s i s') : s'.Conserved all := by
  have hi : (s'.pool ++ s'.held i).Nodup := h.perm.nodup_iff.mpr (hs.nodup i)
  refine ⟨hi.of_append_left, ?_, ?_, ?_⟩
  · intro j
    by_cases hj : j = i
    · rw [hj]
      exact hi
    · refine List.nodup_append'.mpr ⟨hi.of_append_left, ?_, ?_⟩
      · rw [h.others j hj]
        exact (hs.nodup j).of_append_right
      · intro k hk
        exact hs.notMem_of_moves h hj (.inl hk)
  · intro j j' hne k hk hk'
    by_cases hj : j = i
    · subst hj
      exact hs.notMem_of_moves h (Ne.symm hne) (.inr hk) hk'
    · by_cases hj' : j' = i
      · subst hj'
        exact hs.notMem_of_moves h hj (.inr hk') hk
      · rw [h.others j hj] at hk
        rw [h.others j' hj'] at hk'
        exact hs.disjoint j j' hne hk hk'
  · intro k
    rw [← hs.located_iff k]
    exact ⟨h.symm.located, h.located⟩

/-! ### What conservation says -/

/-- A thing is in the pool once and held by nobody, or held once by one borrower. -/
theorem Conserved.in_one_place [DecidableEq η] (hs : s.Conserved all) {k : η} (hk : k ∈ all) :
    (s.pool.count k = 1 ∧ ∀ i, k ∉ s.held i) ∨
      (k ∉ s.pool ∧ ∃ i, (s.held i).count k = 1 ∧ ∀ j, k ∈ s.held j → j = i) := by
  rcases (hs.located_iff k).mpr hk with hpool | ⟨i, hi⟩
  · exact .inl ⟨List.count_eq_one_of_mem hs.pool_nodup hpool,
      fun j => List.disjoint_of_nodup_append (hs.nodup j) hpool⟩
  · have hnodup := hs.nodup i
    refine .inr ⟨?_, i, List.count_eq_one_of_mem hnodup.of_append_right hi, ?_⟩
    · intro hpool
      exact List.disjoint_of_nodup_append hnodup hpool hi
    · intro j hj
      by_contra hne
      exact hs.disjoint j i hne hj hi

theorem Conserved.length_le (hs : s.Conserved all) (i : ι) :
    s.pool.length + (s.held i).length ≤ all.length := by
  rw [← List.length_append]
  apply ((hs.nodup i).subperm ?_).length_le
  intro k hk
  apply (hs.located_iff k).mp
  exact (List.mem_append.mp hk).imp_right fun hi => ⟨i, hi⟩

/-- While a thing is held, there is room for it in the pool. -/
theorem Conserved.length_lt (hs : s.Conserved all) {k : η} (hk : k ∈ s.held i) :
    s.pool.length < all.length := by
  have hle := hs.length_le i
  have hpos := List.length_pos_of_mem hk
  omega

/-- While nothing is held, everything is in the pool. -/
theorem Conserved.perm_of_idle (hs : s.Conserved all) (hall : all.Nodup)
    (hidle : ∀ i, s.held i = []) : s.pool.Perm all := by
  apply (List.perm_ext_iff_of_nodup hs.pool_nodup hall).mpr
  intro k
  rw [← hs.located_iff k, Located]
  simp [hidle]

/-- A borrower that holds as many things as there are holds everything. -/
theorem Conserved.perm_of_length (hs : s.Conserved all) (hlength : all.length ≤ (s.held i).length) :
    s.pool = [] ∧ (s.held i).Perm all := by
  have hle := hs.length_le i
  refine ⟨List.eq_nil_of_length_eq_zero (by omega), ?_⟩
  apply ((hs.nodup i).of_append_right.subperm ?_).perm_of_length_le hlength
  intro k hk
  exact (hs.located_iff k).mp (.inr ⟨i, hk⟩)

end Holdings
