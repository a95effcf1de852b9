import FinestVX.Core.Books
import FinestVX.Lib.Forest

/-!
# The search for a cycle of accounts

From a code the walk goes up, from parent to parent, until there is none or it comes to a
code a second time.  The map of the parents may be any: the parents it names need not be
in it, and its cycles may be entered from outside.

## Main definitions

* `ParentIn parents a b` — `b` is the parent of `a`.
* `CycleLoop` — the runs of the loop that end, without a bound on their length.

## Main results

* `cycleLoop_findAccountCycle` — the loop ends, with what `findAccountCycle` returns.
* `CycleLoop.rooted`, `CycleLoop.isCycle` — what it means to end in either way.
* `findAccountCycle_eq_none_iff` — nothing is found just when the walk comes to a root.
* `findAccountCycle_spec` — when a cycle is found, and what it is.
-/

namespace FinestVX

open Relation

variable {parents : Dict String (Option String)} {path : List String} {code : String}

/-! ### The loop -/

/-- `b` is the parent of `a` in the map. -/
def ParentIn (parents : Dict String (Option String)) (a b : String) : Prop :=
  parents.get? a = some (some b)

theorem join_eq_some_iff_parentIn {a b : String} :
    (parents.get? a).join = some b ↔ ParentIn parents a b :=
  Option.join_eq_some_iff

theorem ParentIn.rightUnique : Relator.RightUnique (ParentIn parents) := by
  intro a b c hab hac
  rw [ParentIn, hab] at hac
  simpa using hac

/-- The runs of the loop of `_find_account_cycle` that end, from the path behind it and the
current code to what it returns. -/
inductive CycleLoop (parents : Dict String (Option String)) :
    List String → Option String → Option (List String) → Prop
  | exhausted (path : List String) : CycleLoop parents path none none
  | repeated {path : List String} {c : String} (seen : c ∈ path) :
    CycleLoop parents path (some c) (some (path.drop (path.idxOf c) ++ [c]))
  | visit {path : List String} {c : String} {result : Option (List String)} (fresh : c ∉ path)
    (rest : CycleLoop parents (path ++ [c]) (parents.get? c).join result) :
    CycleLoop parents path (some c) result

/-- The walk with a step for each account, and one to find the repetition, is a run of the
loop: it is not cut off. -/
theorem cycleLoop_findAccountCycleFrom {n : ℕ} {current : Option String} (hnodup : path.Nodup)
    (hkeys : ∀ c ∈ path, c ∈ parents.keys) (hn : parents.length < n + path.length) :
    CycleLoop parents path current (findAccountCycleFrom parents n path current) := by
  induction n generalizing path current with
  | zero =>
    -- the path would be longer than the list of keys it is drawn from
    have hle := (hnodup.subperm hkeys).length_le
    rw [Dict.keys, List.length_map] at hle
    omega
  | succ n ih =>
    cases current with
    | none => exact .exhausted path
    | some c =>
      rw [findAccountCycleFrom]
      split
      · next hseen => exact .repeated hseen
      · next hfresh =>
        apply CycleLoop.visit hfresh
        by_cases hkey : c ∈ parents.keys
        · apply ih
          · exact List.nodup_append.mpr ⟨hnodup, List.nodup_singleton c, fun a ha b hb hab =>
              hfresh (List.mem_singleton.mp hb ▸ hab ▸ ha)⟩
          · intro a ha
            rcases List.mem_append.mp ha with ha | ha
            · exact hkeys a ha
            · rwa [List.mem_singleton.mp ha]
          · rw [List.length_append, List.length_singleton]
            omega
        · -- the walk stops at a code that the map does not have
          rw [Dict.get?_eq_none_iff.mpr hkey, Option.join_none]
          cases n <;> exact .exhausted _

/-- The loop ends, with what `findAccountCycle` returns. -/
theorem cycleLoop_findAccountCycle (code : String) (parents : Dict String (Option String)) :
    CycleLoop parents [] (some code) (findAccountCycle code parents) := by
  apply cycleLoop_findAccountCycleFrom List.nodup_nil (by simp)
  rw [List.length_nil]
  omega

/-! ### How it ends -/

/-- A run that returns nothing has gone up to a code without a parent. -/
theorem CycleLoop.rooted {current : Option String} (h : CycleLoop parents path current none) :
    ∀ c ∈ current, Rooted (ParentIn parents) c := by
  generalize hresult : none = result at h
  induction h with
  | exhausted => simp
  | repeated => cases hresult
  | @visit path c result hfresh hrest ih =>
    rintro _ ⟨⟩
    cases hp : (parents.get? c).join with
    | none =>
      refine ⟨c, .refl, fun b hb => ?_⟩
      rw [join_eq_some_iff_parentIn.mpr hb] at hp
      cases hp
    | some p =>
      obtain ⟨r, hpr, hr⟩ := ih hresult p hp
      exact ⟨r, hpr.head (join_eq_some_iff_parentIn.mp hp), hr⟩

/-- A list of codes that goes once around a cycle of parents, the first code standing at
its end again. -/
structure IsCycle (parents : Dict String (Option String)) (cycle : List String) : Prop where
  length : 2 ≤ cycle.length
  closed : cycle.head? = cycle.getLast?
  nodup : cycle.dropLast.Nodup
  chain : cycle.IsChain (ParentIn parents)

/-- What is cut from a path that has come to one of its codes again. -/
theorem isCycle_of_mem {c : String} (hnodup : path.Nodup)
    (hchain : (path ++ [c]).IsChain (ParentIn parents)) (hc : c ∈ path) :
    IsCycle parents (path.drop (path.idxOf c) ++ [c]) := by
  have hlt : path.idxOf c < path.length := List.idxOf_lt_length_of_mem hc
  have hdrop : path.drop (path.idxOf c) = c :: path.drop (path.idxOf c + 1) := by
    rw [List.drop_eq_getElem_cons hlt, List.getElem_idxOf hlt]
  have hcut : path.drop (path.idxOf c) ++ [c] = (path ++ [c]).drop (path.idxOf c) := by
    rw [List.drop_append_of_le_length hlt.le]
  constructor
  · rw [List.length_append, List.length_drop, List.length_singleton]
    omega
  · rw [List.getLast?_concat, hdrop, List.cons_append, List.head?_cons]
  · rw [List.dropLast_concat]
    exact (List.drop_sublist _ path).nodup hnodup
  · rw [hcut]
    exact hchain.drop _

/-- A run that returns a list has gone around a cycle.  What it carries from round to round:
the path, with the current code behind it, leads from parent to parent, and away from where
the walk has begun. -/
theorem CycleLoop.isCycle {start c : String} {cycle : List String}
    (h : CycleLoop parents path (some c) (some cycle)) (hnodup : path.Nodup)
    (hchain : (path ++ [c]).IsChain (ParentIn parents))
    (habove : ∀ x ∈ path ++ [c], ReflTransGen (ParentIn parents) start x) :
    IsCycle parents cycle ∧ ∀ x ∈ cycle, ReflTransGen (ParentIn parents) start x := by
  generalize hcurrent : some c = current at h
  generalize hresult : some cycle = result at h
  induction h generalizing c with
  | exhausted => cases hcurrent
  | repeated hseen =>
    cases hcurrent
    cases hresult
    refine ⟨isCycle_of_mem hnodup hchain hseen, fun x hx => habove x ?_⟩
    rcases List.mem_append.mp hx with hx | hx
    · exact List.mem_append_left _ (List.mem_of_mem_drop hx)
    · exact List.mem_append_right _ hx
  | @visit path d result hfresh hrest ih =>
    cases hcurrent
    cases hp : (parents.get? d).join with
    | none =>
      rw [hp] at hrest
      cases hrest
      cases hresult
    | some p =>
      have hdp : ParentIn parents d p := join_eq_some_iff_parentIn.mp hp
      have hnodup' : (path ++ [d]).Nodup := by
        rw [List.nodup_append_comm, List.singleton_append, List.nodup_cons]
        exact ⟨hfresh, hnodup⟩
      have hchain' : (path ++ [d] ++ [p]).IsChain (ParentIn parents) := by
        rw [List.append_assoc, List.singleton_append, List.isChain_append_cons_cons]
        exact ⟨hchain, hdp, .singleton p⟩
      refine ih hnodup' hchain' ?_ hp.symm hresult
      intro x hx
      rcases List.mem_append.mp hx with hx | hx
      · exact habove x hx
      · rw [List.mem_singleton.mp hx]
        exact (habove d (by simp)).tail hdp

/-- The codes of a cycle are above themselves. -/
theorem IsCycle.exists_transGen {cycle : List String} (h : IsCycle parents cycle) :
    ∃ x ∈ cycle, TransGen (ParentIn parents) x x := by
  obtain ⟨hlength, hclosed, -, hchain⟩ := h
  match cycle, hlength with
  | x :: y :: l, _ =>
    obtain ⟨hxy, hyl⟩ := List.isChain_cons_cons.mp hchain
    refine ⟨x, List.mem_cons_self, TransGen.head' hxy ?_⟩
    apply List.relationReflTransGen_of_exists_isChain_cons l hyl
    rw [List.head?_cons, List.getLast?_cons_cons,
      List.getLast?_eq_some_getLast (by simp)] at hclosed
    exact (Option.some_inj.mp hclosed).symm

theorem rooted_iff_exists_end : Rooted (ParentIn parents) code ↔
    ∃ r, ReflTransGen (ParentIn parents) code r ∧
      (parents.get? r = some none ∨ parents.get? r = none) := by
  apply exists_congr
  intro r
  apply and_congr_right
  intro _
  unfold ParentIn
  cases parents.get? r with
  | none => simp
  | some p => cases p <;> simp

/-! ### The search -/

/-- What the search finds is a cycle above the code. -/
theorem isCycle_of_findAccountCycle {cycle : List String}
    (h : findAccountCycle code parents = some cycle) :
    IsCycle parents cycle ∧ ∀ x ∈ cycle, ReflTransGen (ParentIn parents) code x := by
  have hloop := cycleLoop_findAccountCycle code parents
  rw [h] at hloop
  refine hloop.isCycle List.nodup_nil (.singleton code) ?_
  intro x hx
  rw [List.mem_singleton.mp hx]

/-- The search finds nothing when the ancestors of the code come to an end. -/
theorem findAccountCycle_eq_none_iff :
    findAccountCycle code parents = none ↔ Rooted (ParentIn parents) code := by
  constructor
  · intro h
    have hloop := cycleLoop_findAccountCycle code parents
    rw [h] at hloop
    exact hloop.rooted code rfl
  · intro hrooted
    cases hfound : findAccountCycle code parents with
    | none => rfl
    | some cycle =>
      obtain ⟨hcycle, habove⟩ := isCycle_of_findAccountCycle hfound
      obtain ⟨x, hx, hxx⟩ := hcycle.exists_transGen
      have hx' := hrooted.of_reflTransGen ParentIn.rightUnique (habove x hx)
      exact absurd hxx (hx'.not_transGen ParentIn.rightUnique)

/-- The search ends.  It finds nothing just when the ancestors of the code come to an end, at
an account without a parent or at a parent that is not in the map; and otherwise it finds a
list that goes once around a cycle above the code. -/
theorem findAccountCycle_spec (code : String) (parents : Dict String (Option String)) :
    CycleLoop parents [] (some code) (findAccountCycle code parents) ∧
    (findAccountCycle code parents = none ↔
      ∃ r, ReflTransGen (ParentIn parents) code r ∧
        (parents.get? r = some none ∨ parents.get? r = none)) ∧
    ∀ cycle, findAccountCycle code parents = some cycle →
      2 ≤ cycle.length ∧ cycle.head? = cycle.getLast? ∧ cycle.dropLast.Nodup ∧
        cycle.IsChain (ParentIn parents) ∧
        ∀ x ∈ cycle, ReflTransGen (ParentIn parents) code x := by
  refine ⟨cycleLoop_findAccountCycle code parents, ?_, ?_⟩
  · rw [← rooted_iff_exists_end]
    exact findAccountCycle_eq_none_iff
  · intro cycle h
    obtain ⟨hcycle, habove⟩ := isCycle_of_findAccountCycle h
    exact ⟨hcycle.length, hcycle.closed, hcycle.nodup, hcycle.chain, habove⟩

/-- A walk that enters a cycle from outside returns the cycle alone. -/
example : findAccountCycle "A" [("A", some "B"), ("B", some "C"), ("C", some "B")] =
    some ["B", "C", "B"] := by decide

end FinestVX
