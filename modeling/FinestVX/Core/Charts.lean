import FinestVX.Core.Cycles

/-!
# Charts of accounts

The check of a chart looks for a cycle above each account, with a set of the codes it
has seen.  It accepts the forests: the charts in which the parent codes lead from every
account to one without a parent.

## Main definitions

* `HasParent`, `IsForest` — the hierarchy that the parent codes describe.
* `validateChartOfAccounts` — the check, for callers outside of the constructors.

## Main results

* `findAccountCycle_parentMap_eq_none_iff` — the walk finds no cycle just from the accounts
  that a root is above.
* `chartValid_iff_isForest` — the check accepts the forests.
* `BookFields.postInit_succeeds_iff` — what the constructor of a book accepts.
-/

namespace FinestVX

open Except Relation

variable [Platform]

/-! ### The hierarchy -/

/-- `b` is the account that the parent code of `a` names. -/
def HasParent (accounts : List Account) (a b : Account) : Prop :=
  b ∈ accounts ∧ a.parentCode = some b.code

/-- The parent codes make a forest of the accounts. -/
structure IsForest (accounts : List Account) : Prop where
  distinct : (accounts.map Account.code).Nodup
  parents : ∀ a ∈ accounts, ∀ p, a.parentCode = some p → ∃ b ∈ accounts, b.code = p
  roots : ∀ a ∈ accounts, ∃ r, ReflTransGen (HasParent accounts) a r ∧ r.parentCode = none

/-- `validate_chart_of_accounts` -/
def validateChartOfAccounts (accounts : List Account) : Except PyError Unit :=
  validateAccountCollection accounts

variable {accounts : List Account}

/-- The parent that the walk looks up is the one of the account. -/
theorem get?_parentMap (hdistinct : (accounts.map Account.code).Nodup) {a : Account}
    (ha : a ∈ accounts) : ((parentMap accounts).get? a.code).join = a.parentCode := by
  have hkeys : (parentMap accounts).keys.Nodup := keys_parentMap accounts ▸ hdistinct
  have hmem : (a.code, a.parentCode) ∈ parentMap accounts :=
    List.mem_map_of_mem (f := fun a : Account => (a.code, a.parentCode)) ha
  rw [Dict.get?_eq_some_of_mem hkeys hmem]
  rfl

/-- The parent of an account, in the map that the walk goes along. -/
theorem parentIn_parentMap (hdistinct : (accounts.map Account.code).Nodup) {a : Account}
    {p : String} (ha : a ∈ accounts) :
    ParentIn (parentMap accounts) a.code p ↔ a.parentCode = some p := by
  rw [← join_eq_some_iff_parentIn, get?_parentMap hdistinct ha]

/-! ### The walk -/

section

variable (hdistinct : (accounts.map Account.code).Nodup)

include hdistinct

/-- Above an account there are accounts only, when all parents are known. -/
theorem exists_of_reflTransGen_parentIn
    (hparents : ∀ a ∈ accounts, ∀ p, a.parentCode = some p → ∃ b ∈ accounts, b.code = p)
    {a : Account} {c : String} (ha : a ∈ accounts)
    (h : ReflTransGen (ParentIn (parentMap accounts)) a.code c) :
    ∃ b ∈ accounts, b.code = c ∧ ReflTransGen (HasParent accounts) a b := by
  induction h with
  | refl => exact ⟨a, ha, rfl, .refl⟩
  | tail _ hstep ih =>
    obtain ⟨b, hb, rfl, hab⟩ := ih
    have hp := (parentIn_parentMap hdistinct hb).mp hstep
    obtain ⟨b', hb', rfl⟩ := hparents b hb _ hp
    exact ⟨b', hb', rfl, hab.tail ⟨hb', hp⟩⟩

theorem reflTransGen_parentIn_of_hasParent {a r : Account} (ha : a ∈ accounts)
    (h : ReflTransGen (HasParent accounts) a r) :
    r ∈ accounts ∧ ReflTransGen (ParentIn (parentMap accounts)) a.code r.code := by
  induction h with
  | refl => exact ⟨ha, .refl⟩
  | tail _ hstep ih =>
    obtain ⟨hb, hab⟩ := ih
    exact ⟨hstep.1, hab.tail ((parentIn_parentMap hdistinct hb).mpr hstep.2)⟩

/-- A walk along known parents finds no cycle just when there is a root above the account. -/
theorem findAccountCycle_parentMap_eq_none_iff
    (hparents : ∀ a ∈ accounts, ∀ p, a.parentCode = some p → ∃ b ∈ accounts, b.code = p)
    {a : Account} (ha : a ∈ accounts) :
    findAccountCycle a.code (parentMap accounts) = none ↔
      ∃ r, ReflTransGen (HasParent accounts) a r ∧ r.parentCode = none := by
  rw [findAccountCycle_eq_none_iff]
  constructor
  · rintro ⟨c, hac, hend⟩
    obtain ⟨r, hr, rfl, har⟩ := exists_of_reflTransGen_parentIn hdistinct hparents ha hac
    refine ⟨r, har, Option.eq_none_iff_forall_ne_some.mpr ?_⟩
    intro p hp
    exact hend p ((parentIn_parentMap hdistinct hr).mpr hp)
  · rintro ⟨r, har, hroot⟩
    obtain ⟨hr, hcode⟩ := reflTransGen_parentIn_of_hasParent hdistinct ha har
    refine ⟨r.code, hcode, ?_⟩
    intro p hp
    have hparent := (parentIn_parentMap hdistinct hr).mp hp
    rw [hroot] at hparent
    cases hparent

end

/-! ### What the check accepts -/

/-- The check of a chart of accounts accepts the forests. -/
theorem chartValid_iff_isForest : ChartValid accounts ↔ IsForest accounts := by
  constructor
  · intro h
    have hparents : ∀ a ∈ accounts, ∀ p, a.parentCode = some p → ∃ b ∈ accounts, b.code = p :=
      fun a ha p hp => List.mem_map.mp (h.parents a ha p hp)
    refine ⟨h.nodup, hparents, fun a ha => ?_⟩
    exact (findAccountCycle_parentMap_eq_none_iff h.nodup hparents ha).mp (h.acyclic a ha)
  · intro h
    exact
      { nodup := h.distinct
        parents := fun a ha p hp => List.mem_map.mpr (h.parents a ha p hp)
        acyclic := fun a ha =>
          (findAccountCycle_parentMap_eq_none_iff h.distinct h.parents ha).mpr (h.roots a ha) }

/-- What the constructor of a book accepts, check by check. -/
theorem BookFields.postInit_succeeds_iff {raw : BookFields} : raw.postInit.Succeeds ↔
    ((requireNonEmptyStr raw.code "code").Succeeds ∧ (requireNonEmptyStr raw.name "name").Succeeds ∧
      (normalizeCurrency raw.baseCurrency "base_currency").Succeeds ∧
      (requireNonEmptyStr raw.legislativePack "legislative_pack").Succeeds) ∧
    ChartValid raw.accounts ∧ PeriodsValid raw.periods ∧
    (∀ t ∈ raw.transactions, Postable (raw.accounts.map Account.code) t) ∧
    ∀ t ∈ raw.transactions, ∀ p ∈ t.fields.period, p ∈ raw.periods.map BookPeriod.period := by
  constructor
  · rintro ⟨b, h⟩
    have hvalid := (of_eq_ok h).2
    obtain ⟨haccounts, hperiods, htransactions⟩ := kept_of_eq_ok h
    obtain ⟨code, hcode, h⟩ := bind_eq_ok.mp h
    obtain ⟨name, hname, h⟩ := bind_eq_ok.mp h
    obtain ⟨currency, hcurrency, h⟩ := bind_eq_ok.mp h
    obtain ⟨pack, hpack, h⟩ := bind_eq_ok.mp h
    rw [← haccounts, ← hperiods, ← htransactions]
    exact ⟨⟨⟨_, hcode⟩, ⟨_, hname⟩, ⟨_, hcurrency⟩, ⟨_, hpack⟩⟩, hvalid.accounts, hvalid.periods,
      hvalid.postable, hvalid.knownPeriods⟩
  · rintro ⟨⟨⟨code, hcode⟩, ⟨name, hname⟩, ⟨currency, hcurrency⟩, ⟨pack, hpack⟩⟩, haccounts,
      hperiods, hpostable, hknown⟩
    have htransactions : validateTransactionsAgainstAccounts raw.transactions
        (raw.accounts.map Account.code) = .ok () :=
      checkAll_eq_ok.mpr fun t ht => requirePostable_eq_ok.mpr (hpostable t ht)
    have hperiodsKnown : checkAll (requireKnownPeriod (raw.periods.map BookPeriod.period))
        raw.transactions = .ok () :=
      checkAll_eq_ok.mpr fun t ht => requireKnownPeriod_eq_ok.mpr (hknown t ht)
    rw [postInit, hcode, ok_bind, hname, ok_bind, hcurrency, ok_bind, hpack, ok_bind,
      validateAccountCollection_eq_ok.mpr haccounts, ok_bind,
      validatePeriodCollection_eq_ok.mpr hperiods, ok_bind, htransactions, ok_bind, hperiodsKnown]
    exact ⟨_, rfl⟩

/-- Giving a book another chart, to which its transactions still refer, is a matter of the
chart alone. -/
theorem BookFields.postInit_succeeds_iff_of_accounts {raw : BookFields}
    (hraw : raw.postInit.Succeeds)
    (hpostable : ∀ t ∈ raw.transactions, Postable (accounts.map Account.code) t) :
    (BookFields.postInit { raw with accounts }).Succeeds ↔ ChartValid accounts := by
  obtain ⟨htexts, -, hperiods, -, hknown⟩ := postInit_succeeds_iff.mp hraw
  rw [postInit_succeeds_iff]
  constructor
  · rintro ⟨-, haccounts, -⟩
    exact haccounts
  · intro haccounts
    exact ⟨htexts, haccounts, hperiods, hpostable, hknown⟩

/-- The check of a chart raises nothing just when the codes are distinct, every parent is an
account, and every account has a root above it; this is also what decides whether a book can
have the chart.  The order of the accounts does not matter. -/
theorem validateAccountCollection_eq_ok_iff_isForest (accounts : List Account) :
    (validateAccountCollection accounts = .ok () ↔ IsForest accounts) ∧
    (validateChartOfAccounts accounts = .ok () ↔ IsForest accounts) ∧
    (∀ raw : BookFields, raw.postInit.Succeeds → IsForest raw.accounts) ∧
    (∀ raw : BookFields, raw.postInit.Succeeds →
      (∀ t ∈ raw.transactions, Postable (accounts.map Account.code) t) →
      ((BookFields.postInit { raw with accounts }).Succeeds ↔ IsForest accounts)) ∧
    ∀ accounts' : List Account, accounts.Perm accounts' →
      (validateAccountCollection accounts = .ok () ↔ validateAccountCollection accounts' = .ok ()) := by
  refine ⟨?_, ?_, ?_, ?_, ?_⟩
  · rw [validateAccountCollection_eq_ok, chartValid_iff_isForest]
  · rw [validateChartOfAccounts, validateAccountCollection_eq_ok, chartValid_iff_isForest]
  · intro raw hraw
    exact chartValid_iff_isForest.mp (BookFields.postInit_succeeds_iff.mp hraw).2.1
  · intro raw hraw hpostable
    rw [BookFields.postInit_succeeds_iff_of_accounts hraw hpostable, chartValid_iff_isForest]
  · intro accounts' hperm
    rw [validateAccountCollection_eq_ok, validateAccountCollection_eq_ok]
    exact ⟨fun h => h.perm hperm, fun h => h.perm hperm.symm⟩

end FinestVX
