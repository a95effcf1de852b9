import FinestVX.Core.Charts

/-!
# Charts account by account

A chart of accounts can be given to the constructor of a book as a whole, in any order, or
entered account by account by `append_account`, where each account needs its parent.

## Main definitions

* `Book.appendAccounts` — accounts entered one after the other.
* `Enterable` — new codes, and parents before their children.
* `Book.EntersChart` — how accounts are entered, and which charts can be.

## Main results

* `Book.appendAccount_succeeds_iff` — the accounts that can be appended.
* `Book.appendAccounts_succeeds_iff` — the lists that can be entered.
* `Book.entersChart` — **a chart is accepted as a whole exactly when it can be entered in some
  order.**
-/

namespace FinestVX

open Except Relation

variable [Platform]

/-! ### One account -/

/-- One more account leaves a forest when its code is new and its parent is there. -/
theorem IsForest.append_iff {accounts : List Account} (h : IsForest accounts) {a : Account} :
    IsForest (accounts ++ [a]) ↔ a.code ∉ accounts.map Account.code ∧
      ∀ p ∈ a.parentCode, p ∈ accounts.map Account.code := by
  have hmono : ∀ {x y : Account}, HasParent accounts x y → HasParent (accounts ++ [a]) x y :=
    fun hxy => ⟨List.mem_append_left _ hxy.1, hxy.2⟩
  constructor
  · intro hlater
    have hnew : a.code ∉ accounts.map Account.code := by
      have hdistinct := hlater.distinct
      rw [List.map_append, List.map_singleton] at hdistinct
      intro hmem
      exact List.disjoint_of_nodup_append hdistinct hmem (List.mem_singleton.mpr rfl)
    refine ⟨hnew, fun p hp => ?_⟩
    have ha : a ∈ accounts ++ [a] := by simp
    obtain ⟨b, hb, rfl⟩ := hlater.parents a ha p hp
    rcases List.mem_append.mp hb with hb | hb
    · exact List.mem_map_of_mem hb
    · -- an account that is its own parent never reaches a root
      exfalso
      obtain rfl := List.mem_singleton.mp hb
      obtain ⟨r, hr, hroot⟩ := hlater.roots b ha
      have hself : ∀ x, ReflTransGen (HasParent (accounts ++ [b])) b x → x = b := by
        intro x hx
        induction hx with
        | refl => rfl
        | @tail x y _ hxy ih =>
          subst ih
          have hcode : y.code = x.code := Option.some.inj (hxy.2.symm.trans hp)
          exact List.inj_on_of_nodup_map hlater.distinct hxy.1 ha hcode
      rw [hself r hr, Option.mem_def.mp hp] at hroot
      cases hroot
  · rintro ⟨hnew, hparent⟩
    have hold : ∀ x ∈ accounts, ∃ r, ReflTransGen (HasParent (accounts ++ [a])) x r ∧
        r.parentCode = none := by
      intro x hx
      obtain ⟨r, hr, hroot⟩ := h.roots x hx
      exact ⟨r, ReflTransGen.mono (fun _ _ => hmono) _ _ hr, hroot⟩
    have hfind : ∀ p, a.parentCode = some p → ∃ b ∈ accounts, b.code = p := fun p hp =>
      List.mem_map.mp (hparent p hp)
    constructor
    · rw [List.map_append]
      refine h.distinct.append (List.nodup_singleton _) ?_
      intro c hc hc'
      rw [List.mem_singleton.mp hc'] at hc
      exact hnew hc
    · intro x hx p hp
      rcases List.mem_append.mp hx with hx | hx
      · obtain ⟨b, hb, hcode⟩ := h.parents x hx p hp
        exact ⟨b, List.mem_append_left _ hb, hcode⟩
      · obtain ⟨b, hb, hcode⟩ := hfind p (List.mem_singleton.mp hx ▸ hp)
        exact ⟨b, List.mem_append_left _ hb, hcode⟩
    · intro x hx
      rcases List.mem_append.mp hx with hx | hx
      · exact hold x hx
      · obtain rfl := List.mem_singleton.mp hx
        cases hp : x.parentCode with
        | none => exact ⟨x, .refl, hp⟩
        | some p =>
          obtain ⟨b, hb, hcode⟩ := hfind p hp
          obtain ⟨r, hr, hroot⟩ := hold b hb
          exact ⟨r, .head ⟨List.mem_append_left _ hb, hp.trans (congrArg some hcode.symm)⟩ hr, hroot⟩

namespace Book

theorem isForest (b : Book) : IsForest b.fields.accounts :=
  chartValid_iff_isForest.mp b.valid.accounts

/-- **An account can be appended** just when its code is new and its parent is an account of
the book. -/
theorem appendAccount_succeeds_iff {b : Book} {a : Account} : (b.appendAccount a).Succeeds ↔
    a.code ∉ b.fields.accounts.map Account.code ∧
      ∀ p ∈ a.parentCode, p ∈ b.fields.accounts.map Account.code := by
  have hpostable : ∀ t ∈ b.fields.transactions,
      Postable ((b.fields.accounts ++ [a]).map Account.code) t := by
    intro t ht
    have hold := b.valid.postable t ht
    refine ⟨hold.posted, fun e he => ?_⟩
    rw [List.map_append]
    exact List.mem_append_left _ (hold.accounts e he)
  rw [appendAccount, Built.new_succeeds_iff,
    BookFields.postInit_succeeds_iff_of_accounts ⟨_, b.valid.postInit⟩ hpostable,
    chartValid_iff_isForest, b.isForest.append_iff]

/-- Appending an account changes nothing else. -/
theorem fields_of_appendAccount {b b' : Book} {a : Account} (h : b.appendAccount a = .ok b') :
    b'.fields = { b.fields with accounts := b.fields.accounts ++ [a] } := by
  rw [(BookFields.of_eq_ok (Built.new_eq_ok_iff.mp h)).1]
  -- the texts are normalised already
  simp only [← (requireNonEmptyStr_eq_ok.mp (b.valid.code "")).2,
    ← (requireNonEmptyStr_eq_ok.mp (b.valid.name "")).2,
    ← eq_of_normalizeCurrency (b.valid.baseCurrency ""),
    ← (requireNonEmptyStr_eq_ok.mp (b.valid.legislativePack "")).2]

/-- Accounts entered one after the other. -/
def appendAccounts (b : Book) (accounts : List Account) : Except PyError Book :=
  accounts.foldlM appendAccount b

end Book

/-! ### Several accounts -/

/-- Each account has a new code, and its parent is there when it is entered. -/
def Enterable : List Account → List Account → Prop
  | _, [] => True
  | entered, a :: l => (a.code ∉ entered.map Account.code ∧
    ∀ p ∈ a.parentCode, p ∈ entered.map Account.code) ∧ Enterable (entered ++ [a]) l

/-- A list with its parents first can be entered. -/
theorem enterable_of_parentsFirst {all seen l : List Account}
    (h : ParentsFirst (HasParent all) seen l) (hdistinct : ((seen ++ l).map Account.code).Nodup)
    (hparents : ∀ a ∈ l, ∀ p, a.parentCode = some p → ∃ b ∈ all, b.code = p) :
    Enterable seen l := by
  induction l generalizing seen with
  | nil => trivial
  | cons a l ih =>
    obtain ⟨hfirst, hlater⟩ := h
    refine ⟨⟨?_, ?_⟩, ih hlater ?_ fun x hx => hparents x (List.mem_cons_of_mem _ hx)⟩
    · intro hmem
      rw [List.map_append] at hdistinct
      exact List.disjoint_of_nodup_append hdistinct hmem (by simp)
    · intro p hp
      obtain ⟨b, hb, rfl⟩ := hparents a List.mem_cons_self p hp
      exact List.mem_map_of_mem (hfirst b ⟨hb, hp⟩)
    · rwa [List.append_assoc]

namespace Book

theorem appendAccounts_cons (b : Book) (a : Account) (l : List Account) :
    b.appendAccounts (a :: l) = b.appendAccount a >>= fun b' => b'.appendAccounts l :=
  List.foldlM_cons

theorem fields_of_appendAccounts {b b' : Book} {l : List Account}
    (h : b.appendAccounts l = .ok b') :
    b'.fields = { b.fields with accounts := b.fields.accounts ++ l } := by
  induction l generalizing b with
  | nil =>
    cases h
    rw [List.append_nil]
  | cons a l ih =>
    rw [appendAccounts_cons] at h
    obtain ⟨c, hc, h⟩ := bind_eq_ok.mp h
    rw [ih h, fields_of_appendAccount hc]
    simp only [List.append_assoc, List.singleton_append]

theorem appendAccounts_succeeds_iff (b : Book) (l : List Account) :
    (b.appendAccounts l).Succeeds ↔ Enterable b.fields.accounts l := by
  induction l generalizing b with
  | nil => exact iff_of_true ⟨b, rfl⟩ trivial
  | cons a l ih =>
    rw [appendAccounts_cons, Enterable, ← appendAccount_succeeds_iff]
    cases hc : b.appendAccount a with
    | error e => simp
    | ok c =>
      have haccounts : c.fields.accounts = b.fields.accounts ++ [a] := by
        rw [fields_of_appendAccount hc]
      rw [ok_bind, ih c, haccounts, and_iff_right (succeeds_ok c)]

/-- The accounts of a chart can be entered, parents first. -/
theorem exists_enterable {b : Book} {l : List Account}
    (h : IsForest (b.fields.accounts ++ l)) : ∃ l', l'.Perm l ∧ Enterable b.fields.accounts l' := by
  have hunique : Relator.RightUnique (HasParent (b.fields.accounts ++ l)) := by
    intro x y z hy hz
    exact List.inj_on_of_nodup_map h.distinct hy.1 hz.1
      (Option.some.inj (hy.2.symm.trans hz.2))
  have hrooted : ∀ x ∈ l, Rooted (HasParent (b.fields.accounts ++ l)) x := by
    intro x hx
    obtain ⟨r, hr, hroot⟩ := h.roots x (List.mem_append_right _ hx)
    refine ⟨r, hr, fun y hy => ?_⟩
    rw [hy.2] at hroot
    cases hroot
  have hclosed : ∀ x ∈ l, ∀ y, HasParent (b.fields.accounts ++ l) x y →
      y ∈ b.fields.accounts ∨ y ∈ l := fun _ _ _ hy => List.mem_append.mp hy.1
  obtain ⟨l', hperm, hfirst⟩ := exists_parentsFirst hunique hclosed hrooted
  refine ⟨l', hperm, enterable_of_parentsFirst hfirst ?_ ?_⟩
  · exact (((List.Perm.refl _).append hperm).map Account.code).nodup_iff.mpr h.distinct
  · intro x hx p hp
    exact h.parents x (List.mem_append_right _ (hperm.mem_iff.mp hx)) p hp

/-- How accounts are entered into a book, and which charts can be. -/
structure EntersChart (b : Book) (l : List Account) : Prop where
  order : (b.appendAccounts l).Succeeds ↔ Enterable b.fields.accounts l
  result : ∀ b', b.appendAccounts l = .ok b' →
    b'.fields = { b.fields with accounts := b.fields.accounts ++ l }
  chart : (∃ l', l'.Perm l ∧ (b.appendAccounts l').Succeeds) ↔
    validateAccountCollection (b.fields.accounts ++ l) = .ok ()

/-- **A chart is accepted as a whole exactly when it can be entered in some order**, account by
account; the orders that can be entered are those with new codes and parents first. -/
theorem entersChart (b : Book) (l : List Account) : EntersChart b l where
  order := b.appendAccounts_succeeds_iff l
  result _ := fields_of_appendAccounts
  chart := by
    rw [validateAccountCollection_eq_ok]
    constructor
    · rintro ⟨l', hperm, b', hb'⟩
      have hchart := b'.valid.accounts
      rw [fields_of_appendAccounts hb'] at hchart
      exact hchart.perm ((List.Perm.refl _).append hperm)
    · intro hchart
      obtain ⟨l', hperm, henter⟩ := exists_enterable (chartValid_iff_isForest.mp hchart)
      exact ⟨l', hperm, (b.appendAccounts_succeeds_iff l').mpr henter⟩

end Book

end FinestVX
