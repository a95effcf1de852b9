import FinestVX.Core.Balance

/-!
# Transactions and books

The constructors of journal transactions and of books: the account hierarchy,
the non-overlapping periods, and the transactions that may only mention the
accounts and periods of their book.

## Main definitions

* `JournalTransaction`, `Book` — the objects.
* `findAccountCycle`, `validateAccountCollection`, `validatePeriodCollection`,
  `validateTransactionsAgainstAccounts` — the checks of a book.
* `Book.appendTransaction`, `Book.appendAccount` — a book with one more transaction or account.

## Main results

* `ChartValid.perm`, `PeriodsValid.perm` — the verdict on accounts and periods does
  not depend on their order.
* `BookFields.Valid` — what a book has passed; `BookFields.of_eq_ok` and
  `BookFields.Valid.postInit` say that it is just what the constructor checks.
* `Book.appendTransaction_succeeds_iff` — the transactions that can be appended.
-/

namespace FinestVX

open Except

variable [Platform]

/-! ### Transactions -/

/-- The fields of a `JournalTransaction`. -/
structure JournalTransactionFields where
  reference : String
  postedAt : DateTime
  description : String
  entries : List LedgerEntry
  period : Option FiscalPeriod := none
  state : TransactionState := .posted
  reversalOf : Option String := none
  deriving DecidableEq

/-- `JournalTransaction.__post_init__` -/
def JournalTransactionFields.postInit (t : JournalTransactionFields) :
    Except PyError JournalTransactionFields := do
  let reference ← requireNonEmptyStr t.reference "reference"
  let description ← requireNonEmptyStr t.description "description"
  let reversalOf ← normalizeOptionalStr t.reversalOf "reversal_of"
  if reversalOf = some reference then
    throw (.valueError "reversal_of must reference a different transaction")
  if t.state = .posted then
    validateTransactionEntries t.entries
  return { t with reference, description, reversalOf }

/-- Immutable bookkeeping transaction. -/
abbrev JournalTransaction := Built JournalTransactionFields.postInit

/-- What the fields of a transaction have passed. -/
structure JournalTransactionFields.Valid (t : JournalTransactionFields) : Prop where
  reference : ∀ f, requireNonEmptyStr t.reference f = .ok t.reference
  description : ∀ f, requireNonEmptyStr t.description f = .ok t.description
  reversalOf : ∀ f, normalizeOptionalStr t.reversalOf f = .ok t.reversalOf
  reversal_ne : t.reversalOf ≠ some t.reference
  balanced : t.state = .posted → validateTransactionEntries t.entries = .ok ()

theorem JournalTransactionFields.postInit_eq_ok {raw t : JournalTransactionFields} :
    raw.postInit = .ok t ↔
      requireNonEmptyStr raw.reference "reference" = .ok t.reference ∧
      requireNonEmptyStr raw.description "description" = .ok t.description ∧
      normalizeOptionalStr raw.reversalOf "reversal_of" = .ok t.reversalOf ∧
      t.reversalOf ≠ some t.reference ∧
      (t.state = .posted → validateTransactionEntries t.entries = .ok ()) ∧
      t.postedAt = raw.postedAt ∧ t.entries = raw.entries ∧ t.period = raw.period ∧
      t.state = raw.state := by
  constructor
  · intro h
    obtain ⟨reference, hreference, h⟩ := bind_eq_ok.mp h
    obtain ⟨description, hdescription, h⟩ := bind_eq_ok.mp h
    obtain ⟨reversal, hreversal, h⟩ := bind_eq_ok.mp h
    obtain ⟨hne, h⟩ := guard_eq_ok.mp h
    by_cases hposted : raw.state = .posted
    · rw [if_pos hposted] at h
      obtain ⟨_, hbalanced, h⟩ := bind_eq_ok.mp h
      cases h
      exact ⟨hreference, hdescription, hreversal, hne, fun _ => hbalanced, rfl, rfl, rfl, rfl⟩
    · rw [if_neg hposted] at h
      cases h
      exact ⟨hreference, hdescription, hreversal, hne, fun hp => absurd hp hposted, rfl, rfl, rfl,
        rfl⟩
  · rintro ⟨hreference, hdescription, hreversal, hne, hbalanced, hposted, hentries, hperiod, hstate⟩
    obtain ⟨reference, postedAt, description, entries, period, state, reversal⟩ := t
    simp only at *
    subst hposted hentries hperiod hstate
    simp only [postInit, hreference, hdescription, hreversal, ok_bind, if_neg hne]
    split
    · next hp => rw [hbalanced hp]; rfl
    · rfl

/-- What the constructor of a transaction makes of its arguments, and what it has checked. -/
theorem JournalTransactionFields.of_eq_ok {raw t : JournalTransactionFields}
    (h : raw.postInit = .ok t) :
    t = { raw with
      reference := Text.strip raw.reference
      description := Text.strip raw.description
      reversalOf := raw.reversalOf.map Text.strip } ∧ t.Valid := by
  obtain ⟨hreference, hdescription, hreversal, hne, hbalanced, hposted, hentries, hperiod, hstate⟩ :=
    postInit_eq_ok.mp h
  constructor
  · rw [← (requireNonEmptyStr_eq_ok.mp hreference).2,
      ← (requireNonEmptyStr_eq_ok.mp hdescription).2, ← eq_of_normalizeOptionalStr hreversal,
      ← hposted, ← hentries, ← hperiod, ← hstate]
  · exact
      { reference := requireNonEmptyStr_of_eq_ok hreference
        description := requireNonEmptyStr_of_eq_ok hdescription
        reversalOf := normalizeOptionalStr_of_eq_ok hreversal
        reversal_ne := hne
        balanced := hbalanced }

theorem JournalTransactionFields.Valid.postInit {t : JournalTransactionFields} (h : t.Valid) :
    t.postInit = .ok t :=
  postInit_eq_ok.mpr ⟨h.reference _, h.description _, h.reversalOf _, h.reversal_ne, h.balanced,
    rfl, rfl, rfl, rfl⟩

theorem JournalTransactionFields.postInit_of_eq_ok {raw t : JournalTransactionFields}
    (h : raw.postInit = .ok t) : t.postInit = .ok t :=
  (of_eq_ok h).2.postInit

namespace JournalTransaction

theorem valid (t : JournalTransaction) : t.fields.Valid := by
  obtain ⟨raw, h⟩ := t.built
  exact (JournalTransactionFields.of_eq_ok h).2

def reference (t : JournalTransaction) : String := t.fields.reference

def entries (t : JournalTransaction) : List LedgerEntry := t.fields.entries

def reversalOf (t : JournalTransaction) : Option String := t.fields.reversalOf

end JournalTransaction

/-! ### The account hierarchy -/

/-- The loop of `_find_account_cycle`, for at most `n` more steps. -/
def findAccountCycleFrom (parentMap : Dict String (Option String)) :
    ℕ → List String → Option String → Option (List String)
  | _, _, none => none
  | 0, _, some _ => none
  | n + 1, path, some current =>
    if current ∈ path then some (path.drop (path.idxOf current) ++ [current])
    else findAccountCycleFrom parentMap n (path ++ [current]) (parentMap.get? current).join

/-- `_find_account_cycle`; the walk visits every account at most once before it
stops, see `cycleLoop_findAccountCycle`. -/
def findAccountCycle (code : String) (parentMap : Dict String (Option String)) :
    Option (List String) :=
  findAccountCycleFrom parentMap (parentMap.length + 2) [] (some code)

omit [Platform] in
/-- The walk depends on the parents alone. -/
theorem findAccountCycleFrom_congr {m m' : Dict String (Option String)}
    (h : ∀ k, m.get? k = m'.get? k) (n : ℕ) (path : List String) (current : Option String) :
    findAccountCycleFrom m n path current = findAccountCycleFrom m' n path current := by
  induction n generalizing path current with
  | zero => cases current <;> rfl
  | succ n ih =>
    cases current with
    | none => rfl
    | some c => rw [findAccountCycleFrom, findAccountCycleFrom, h c, ih]

/-- The parent of each account. -/
def parentMap (accounts : List Account) : Dict String (Option String) :=
  accounts.map fun a => (a.code, a.parentCode)

/-- The check that the parent of an account is an account. -/
def requireParent (codes : List String) (a : Account) : Except PyError Unit :=
  match a.parentCode with
  | none => .ok ()
  | some p =>
    if p ∈ codes then .ok ()
    else .error (.valueError s!"Account {a.code} references missing parent account {p}")

/-- The check that no cycle leads through an account. -/
def requireNoCycle (parents : Dict String (Option String)) (code : String) : Except PyError Unit :=
  match findAccountCycle code parents with
  | none => .ok ()
  | some cycle =>
    .error (.valueError ("Chart of accounts contains cycle: " ++ String.intercalate " -> " cycle))

/-- `_validate_account_collection` -/
def validateAccountCollection (accounts : List Account) : Except PyError Unit := do
  checkDistinct Account.code
    (fun a => .valueError s!"Duplicate account code detected: {a.code}") [] accounts
  checkAll (requireParent (accounts.map Account.code)) accounts
  checkAll (requireNoCycle (parentMap accounts)) (accounts.map Account.code)

theorem keys_parentMap (accounts : List Account) :
    (parentMap accounts).keys = accounts.map Account.code := by
  simp [parentMap, Dict.keys]

/-- What the chart of accounts has passed. -/
structure ChartValid (accounts : List Account) : Prop where
  nodup : (accounts.map Account.code).Nodup
  parents : ∀ a ∈ accounts, ∀ p ∈ a.parentCode, p ∈ accounts.map Account.code
  acyclic : ∀ a ∈ accounts, findAccountCycle a.code (parentMap accounts) = none

theorem requireParent_eq_ok {codes : List String} {a : Account} :
    requireParent codes a = .ok () ↔ ∀ p ∈ a.parentCode, p ∈ codes := by
  unfold requireParent
  cases a.parentCode with
  | none => simp
  | some p => simp

omit [Platform] in
theorem requireNoCycle_eq_ok {parents : Dict String (Option String)} {code : String} :
    requireNoCycle parents code = .ok () ↔ findAccountCycle code parents = none := by
  unfold requireNoCycle
  cases findAccountCycle code parents <;> simp

theorem validateAccountCollection_eq_ok {accounts : List Account} :
    validateAccountCollection accounts = .ok () ↔ ChartValid accounts := by
  unfold validateAccountCollection
  constructor
  · intro h
    obtain ⟨_, hdistinct, h⟩ := bind_eq_ok.mp h
    obtain ⟨_, hparents, hcycles⟩ := bind_eq_ok.mp h
    exact
      { nodup := (checkDistinct_eq_ok.mp hdistinct).1
        parents := fun a ha => requireParent_eq_ok.mp (checkAll_eq_ok.mp hparents a ha)
        acyclic := fun a ha => requireNoCycle_eq_ok.mp
          (checkAll_eq_ok.mp hcycles _ (List.mem_map_of_mem ha)) }
  · intro h
    have hdistinct : checkDistinct Account.code
        (fun a => PyError.valueError s!"Duplicate account code detected: {a.code}") [] accounts =
          .ok () :=
      checkDistinct_eq_ok.mpr ⟨h.nodup, by simp⟩
    have hparents : checkAll (requireParent (accounts.map Account.code)) accounts = .ok () :=
      checkAll_eq_ok.mpr fun a ha => requireParent_eq_ok.mpr (h.parents a ha)
    have hcycles : checkAll (requireNoCycle (parentMap accounts)) (accounts.map Account.code) =
        .ok () := by
      apply checkAll_eq_ok.mpr
      intro c hc
      obtain ⟨a, ha, rfl⟩ := List.mem_map.mp hc
      exact requireNoCycle_eq_ok.mpr (h.acyclic a ha)
    rw [hdistinct, ok_bind, hparents, ok_bind, hcycles]

/-- The verdict on a chart of accounts does not depend on their order. -/
theorem ChartValid.perm {accounts accounts' : List Account} (h : ChartValid accounts)
    (hp : accounts.Perm accounts') : ChartValid accounts' := by
  have hcodes := hp.map Account.code
  have hkeys : (parentMap accounts).keys.Nodup := by
    rw [keys_parentMap]
    exact h.nodup
  have hget : ∀ k, (parentMap accounts).get? k = (parentMap accounts').get? k :=
    Dict.get?_eq_of_perm (hp.map _) hkeys
  have hlen : (parentMap accounts).length = (parentMap accounts').length := (hp.map _).length_eq
  exact
    { nodup := hcodes.nodup_iff.mp h.nodup
      parents := fun a ha p hpa => hcodes.mem_iff.mp (h.parents a (hp.mem_iff.mpr ha) p hpa)
      acyclic := by
        -- the walk reads the parents only, and has the same number of steps
        intro a ha
        rw [findAccountCycle, ← hlen, ← findAccountCycleFrom_congr hget]
        exact h.acyclic a (hp.mem_iff.mpr ha) }

/-! ### Periods -/

/-- The bounds of a period, as the key it is sorted by. -/
def periodKey (p : BookPeriod) : ℤ ×ₗ ℤ := toLex (p.fields.startDate.key, p.fields.endDate.key)

/-- `sorted(periods, key=...)`.  A sort of values of several kinds compares two
of different kinds at some point, and raises. -/
def sortedPeriods (periods : List BookPeriod) : Except PyError (List BookPeriod) :=
  if ∃ p ∈ periods, ∃ q ∈ periods, p.fields.startDate.kind ≠ q.fields.startDate.kind then
    .error (.typeError "can't compare datetime.datetime to datetime.date")
  else .ok (orderBy periodKey periods)

/-- The check of two periods that follow each other. -/
def requireDisjoint (pq : BookPeriod × BookPeriod) : Except PyError Unit := do
  if ← pq.2.fields.startDate.le? pq.1.fields.endDate then
    throw (.valueError ("Book periods must not overlap: " ++ pq.1.period.repr ++ " overlaps " ++
      pq.2.period.repr))

/-- `_validate_period_collection` -/
def validatePeriodCollection (periods : List BookPeriod) : Except PyError Unit := do
  checkDistinct BookPeriod.period
    (fun p => .valueError ("Duplicate fiscal period detected: " ++ p.period.repr)) [] periods
  let ordered ← sortedPeriods periods
  checkAll requireDisjoint (ordered.zip ordered.tail)

/-- What the periods of a book have passed. -/
structure PeriodsValid (periods : List BookPeriod) : Prop where
  nodup : (periods.map BookPeriod.period).Nodup
  kinds : ∀ p ∈ periods, ∀ q ∈ periods, p.fields.startDate.kind = q.fields.startDate.kind
  disjoint : ((orderBy periodKey periods).zip (orderBy periodKey periods).tail).Forall
    fun pq => pq.1.fields.endDate.key < pq.2.fields.startDate.key

theorem requireDisjoint_eq_ok {p q : BookPeriod}
    (hkind : p.fields.startDate.kind = q.fields.startDate.kind) :
    requireDisjoint (p, q) = .ok () ↔ p.fields.endDate.key < q.fields.startDate.key := by
  have hk : q.fields.startDate.kind = p.fields.endDate.kind := hkind ▸ p.valid.1
  unfold requireDisjoint DateValue.le?
  rw [if_pos hk, ok_bind]
  by_cases h : q.fields.startDate.key ≤ p.fields.endDate.key
  · simp [h, not_lt.mpr h]
  · simp [h, not_le.mp h]

theorem sortedPeriods_eq_ok {periods l : List BookPeriod} : sortedPeriods periods = .ok l ↔
    (∀ p ∈ periods, ∀ q ∈ periods, p.fields.startDate.kind = q.fields.startDate.kind) ∧
      orderBy periodKey periods = l := by
  unfold sortedPeriods
  rw [guard_eq_ok, Except.ok.injEq]
  push Not
  rfl

theorem validatePeriodCollection_eq_ok {periods : List BookPeriod} :
    validatePeriodCollection periods = .ok () ↔ PeriodsValid periods := by
  unfold validatePeriodCollection
  have hmem : ∀ pq ∈ (orderBy periodKey periods).zip (orderBy periodKey periods).tail,
      pq.1 ∈ periods ∧ pq.2 ∈ periods := by
    intro pq hpq
    obtain ⟨hp, hq⟩ := List.of_mem_zip hpq
    exact ⟨mem_orderBy.mp hp, mem_orderBy.mp (List.mem_of_mem_tail hq)⟩
  constructor
  · intro h
    obtain ⟨_, hdistinct, h⟩ := bind_eq_ok.mp h
    obtain ⟨_, hsorted, h⟩ := bind_eq_ok.mp h
    obtain ⟨hkinds, rfl⟩ := sortedPeriods_eq_ok.mp hsorted
    refine ⟨(checkDistinct_eq_ok.mp hdistinct).1, hkinds, List.forall_iff_forall_mem.mpr ?_⟩
    intro pq hpq
    have hkind := hkinds _ (hmem pq hpq).1 _ (hmem pq hpq).2
    exact (requireDisjoint_eq_ok hkind).mp (checkAll_eq_ok.mp h pq hpq)
  · intro h
    have hdistinct : checkDistinct BookPeriod.period
        (fun p => PyError.valueError ("Duplicate fiscal period detected: " ++ p.period.repr)) []
          periods = .ok () :=
      checkDistinct_eq_ok.mpr ⟨h.nodup, by simp⟩
    rw [hdistinct, ok_bind, sortedPeriods_eq_ok.mpr ⟨h.kinds, rfl⟩, ok_bind]
    apply checkAll_eq_ok.mpr
    intro pq hpq
    have hkind := h.kinds _ (hmem pq hpq).1 _ (hmem pq hpq).2
    exact (requireDisjoint_eq_ok hkind).mpr (List.forall_iff_forall_mem.mp h.disjoint pq hpq)

/-- Of two periods of a valid collection, one ends before the other starts. -/
theorem PeriodsValid.pairwise {periods : List BookPeriod} (h : PeriodsValid periods) :
    (orderBy periodKey periods).Pairwise
      fun p q => p.fields.endDate.key < q.fields.startDate.key := by
  have : IsTrans BookPeriod fun p q => p.fields.endDate.key < q.fields.startDate.key :=
    ⟨fun p q r hpq hqr => hpq.trans (q.valid.2.trans_lt hqr)⟩
  exact pairwise_of_zip_tail h.disjoint

/-- No two periods start at the same time. -/
theorem PeriodsValid.nodup_start {periods : List BookPeriod} (h : PeriodsValid periods) :
    (periods.map fun p => p.fields.startDate.key).Nodup := by
  refine ((orderBy_perm periodKey periods).map _).nodup_iff.mp ?_
  rw [List.nodup_iff_pairwise_ne, List.pairwise_map]
  refine h.pairwise.imp ?_
  intro p q hpq heq
  -- the end of `p` lies between the two starts
  have := p.valid.2
  omega

theorem PeriodsValid.eq_of_start {periods : List BookPeriod} (h : PeriodsValid periods)
    {p q : BookPeriod} (hp : p ∈ periods) (hq : q ∈ periods)
    (heq : p.fields.startDate.key = q.fields.startDate.key) : p = q :=
  List.inj_on_of_nodup_map h.nodup_start hp hq heq

theorem PeriodsValid.nodup_key {periods : List BookPeriod} (h : PeriodsValid periods) :
    (periods.map periodKey).Nodup := by
  refine List.Nodup.of_map (fun k => (ofLex k).1) ?_
  rw [List.map_map]
  exact h.nodup_start

/-- The verdict on the periods does not depend on their order. -/
theorem PeriodsValid.perm {periods periods' : List BookPeriod} (h : PeriodsValid periods)
    (hp : periods.Perm periods') : PeriodsValid periods' where
  nodup := (hp.map BookPeriod.period).nodup_iff.mp h.nodup
  kinds := fun p hpm q hqm => h.kinds p (hp.mem_iff.mpr hpm) q (hp.mem_iff.mpr hqm)
  disjoint := orderBy_eq_of_perm hp h.nodup_key ▸ h.disjoint

/-! ### Books -/

/-- The check of one transaction of a book. -/
def requirePostable (codes : List String) (t : JournalTransaction) : Except PyError Unit := do
  if t.fields.state ≠ .posted then
    throw (.valueError "Book can only contain posted transactions")
  checkAll (fun e : LedgerEntry =>
    if e.accountCode ∈ codes then .ok ()
    else .error (.valueError
      s!"Transaction {t.reference} references unknown account {e.accountCode}")) t.entries

/-- `_validate_transactions_against_accounts` -/
def validateTransactionsAgainstAccounts (transactions : List JournalTransaction)
    (codes : List String) : Except PyError Unit :=
  checkAll (requirePostable codes) transactions

/-- The check that the period of a transaction is a period of the book. -/
def requireKnownPeriod (periods : List FiscalPeriod) (t : JournalTransaction) :
    Except PyError Unit :=
  match t.fields.period with
  | none => .ok ()
  | some p =>
    if p ∈ periods then .ok ()
    else .error (.valueError
      (s!"Transaction {t.reference} references unknown fiscal period " ++ p.repr))

/-- The fields of a `Book`. -/
structure BookFields where
  code : String
  name : String
  baseCurrency : String
  fiscalCalendar : FiscalCalendar
  legislativePack : String := ""
  accounts : List Account := []
  periods : List BookPeriod := []
  transactions : List JournalTransaction := []
  deriving DecidableEq

/-- `Book.__post_init__` -/
def BookFields.postInit (b : BookFields) : Except PyError BookFields := do
  let code ← requireNonEmptyStr b.code "code"
  let name ← requireNonEmptyStr b.name "name"
  let baseCurrency ← normalizeCurrency b.baseCurrency "base_currency"
  let legislativePack ← requireNonEmptyStr b.legislativePack "legislative_pack"
  validateAccountCollection b.accounts
  validatePeriodCollection b.periods
  validateTransactionsAgainstAccounts b.transactions (b.accounts.map Account.code)
  checkAll (requireKnownPeriod (b.periods.map BookPeriod.period)) b.transactions
  return { b with code, name, baseCurrency, legislativePack }

/-- Root aggregate of accounts, periods and posted transactions. -/
abbrev Book := Built BookFields.postInit

/-- A transaction that a book with the accounts `codes` may contain. -/
structure Postable (codes : List String) (t : JournalTransaction) : Prop where
  posted : t.fields.state = .posted
  accounts : ∀ e ∈ t.entries, e.accountCode ∈ codes

theorem requirePostable_eq_ok {codes : List String} {t : JournalTransaction} :
    requirePostable codes t = .ok () ↔ Postable codes t := by
  unfold requirePostable
  constructor
  · intro h
    obtain ⟨hposted, h⟩ := guard_eq_ok.mp h
    refine ⟨not_not.mp hposted, fun e he => ?_⟩
    have := checkAll_eq_ok.mp h e he
    by_contra hmem
    rw [if_neg hmem] at this
    cases this
  · intro h
    simp only [h.posted, ne_eq, not_true_eq_false, if_false]
    exact checkAll_eq_ok.mpr fun e he => if_pos (h.accounts e he)

theorem requireKnownPeriod_eq_ok {periods : List FiscalPeriod} {t : JournalTransaction} :
    requireKnownPeriod periods t = .ok () ↔ ∀ p ∈ t.fields.period, p ∈ periods := by
  unfold requireKnownPeriod
  cases t.fields.period with
  | none => simp
  | some p => simp

/-- What the fields of a book have passed. -/
structure BookFields.Valid (b : BookFields) : Prop where
  code : ∀ f, requireNonEmptyStr b.code f = .ok b.code
  name : ∀ f, requireNonEmptyStr b.name f = .ok b.name
  baseCurrency : ∀ f, normalizeCurrency b.baseCurrency f = .ok b.baseCurrency
  baseCurrencyText : ∀ f, requireNonEmptyStr b.baseCurrency f = .ok b.baseCurrency
  legislativePack : ∀ f, requireNonEmptyStr b.legislativePack f = .ok b.legislativePack
  accounts : ChartValid b.accounts
  periods : PeriodsValid b.periods
  postable : ∀ t ∈ b.transactions, Postable (b.accounts.map Account.code) t
  knownPeriods : ∀ t ∈ b.transactions, ∀ p ∈ t.fields.period,
    p ∈ b.periods.map BookPeriod.period

/-- What the constructor of a book makes of its arguments, and what it has checked. -/
theorem BookFields.of_eq_ok {raw b : BookFields} (h : raw.postInit = .ok b) :
    b = { raw with
      code := Text.strip raw.code
      name := Text.strip raw.name
      baseCurrency := Platform.upper (Text.strip raw.baseCurrency)
      legislativePack := Text.strip raw.legislativePack } ∧ b.Valid := by
  obtain ⟨code, hcode, h⟩ := bind_eq_ok.mp h
  obtain ⟨name, hname, h⟩ := bind_eq_ok.mp h
  obtain ⟨currency, hcurrency, h⟩ := bind_eq_ok.mp h
  obtain ⟨pack, hpack, h⟩ := bind_eq_ok.mp h
  obtain ⟨_, haccounts, h⟩ := bind_eq_ok.mp h
  obtain ⟨_, hperiods, h⟩ := bind_eq_ok.mp h
  obtain ⟨_, hpostable, h⟩ := bind_eq_ok.mp h
  obtain ⟨_, hknown, h⟩ := bind_eq_ok.mp h
  cases h
  constructor
  · rw [(requireNonEmptyStr_eq_ok.mp hcode).2, (requireNonEmptyStr_eq_ok.mp hname).2,
      eq_of_normalizeCurrency hcurrency, (requireNonEmptyStr_eq_ok.mp hpack).2]
  · exact
      { code := requireNonEmptyStr_of_eq_ok hcode
        name := requireNonEmptyStr_of_eq_ok hname
        baseCurrency := normalizeCurrency_of_eq_ok hcurrency
        baseCurrencyText := requireNonEmptyStr_currency hcurrency
        legislativePack := requireNonEmptyStr_of_eq_ok hpack
        accounts := validateAccountCollection_eq_ok.mp haccounts
        periods := validatePeriodCollection_eq_ok.mp hperiods
        postable := fun t ht => requirePostable_eq_ok.mp (checkAll_eq_ok.mp hpostable t ht)
        knownPeriods := fun t ht => requireKnownPeriod_eq_ok.mp (checkAll_eq_ok.mp hknown t ht) }

/-- The constructor normalises texts; the parts of the book stay as they are. -/
theorem BookFields.kept_of_eq_ok {raw b : BookFields} (h : raw.postInit = .ok b) :
    b.accounts = raw.accounts ∧ b.periods = raw.periods ∧ b.transactions = raw.transactions := by
  rw [(of_eq_ok h).1]
  exact ⟨rfl, rfl, rfl⟩

theorem BookFields.Valid.postInit {b : BookFields} (h : b.Valid) : b.postInit = .ok b := by
  have hpostable : validateTransactionsAgainstAccounts b.transactions
      (b.accounts.map Account.code) = .ok () :=
    checkAll_eq_ok.mpr fun t ht => requirePostable_eq_ok.mpr (h.postable t ht)
  have hknown : checkAll (requireKnownPeriod (b.periods.map BookPeriod.period)) b.transactions =
      .ok () :=
    checkAll_eq_ok.mpr fun t ht => requireKnownPeriod_eq_ok.mpr (h.knownPeriods t ht)
  simp [BookFields.postInit, h.code, h.name, h.baseCurrency, h.legislativePack,
    validateAccountCollection_eq_ok.mpr h.accounts, validatePeriodCollection_eq_ok.mpr h.periods,
    hpostable, hknown]

theorem BookFields.postInit_of_eq_ok {raw b : BookFields} (h : raw.postInit = .ok b) :
    b.postInit = .ok b :=
  (of_eq_ok h).2.postInit

namespace Book

theorem valid (b : Book) : b.fields.Valid := by
  obtain ⟨raw, h⟩ := b.built
  exact (BookFields.of_eq_ok h).2

def code (b : Book) : String := b.fields.code

/-- `Book.append_transaction` -/
def appendTransaction (b : Book) (t : JournalTransaction) : Except PyError Book :=
  Built.new BookFields.postInit { b.fields with transactions := b.fields.transactions ++ [t] }

/-- `Book.append_account` -/
def appendAccount (b : Book) (a : Account) : Except PyError Book :=
  Built.new BookFields.postInit { b.fields with accounts := b.fields.accounts ++ [a] }

/-- A transaction can be appended just when the constructor admits it: it is posted, to
accounts of the book, in a period of the book. -/
theorem appendTransaction_succeeds_iff {b : Book} {t : JournalTransaction} :
    (b.appendTransaction t).Succeeds ↔ Postable (b.fields.accounts.map Account.code) t ∧
      ∀ p ∈ t.fields.period, p ∈ b.fields.periods.map BookPeriod.period := by
  rw [appendTransaction, Built.new_succeeds_iff]
  constructor
  · rintro ⟨r, hr⟩
    have hvalid := (BookFields.of_eq_ok hr).2
    obtain ⟨haccounts, hperiods, htransactions⟩ := BookFields.kept_of_eq_ok hr
    have ht : t ∈ r.transactions := by
      rw [htransactions]
      exact List.mem_append_right _ List.mem_cons_self
    rw [← show r.accounts = b.fields.accounts from haccounts,
      ← show r.periods = b.fields.periods from hperiods]
    exact ⟨hvalid.postable t ht, hvalid.knownPeriods t ht⟩
  · rintro ⟨hpostable, hknown⟩
    have hvalid : BookFields.Valid { b.fields with transactions := b.fields.transactions ++ [t] } :=
      { b.valid with
        postable := fun x hx => by
          rcases List.mem_append.mp hx with hx | hx
          · exact b.valid.postable x hx
          · rwa [List.mem_singleton.mp hx]
        knownPeriods := fun x hx => by
          rcases List.mem_append.mp hx with hx | hx
          · exact b.valid.knownPeriods x hx
          · rwa [List.mem_singleton.mp hx] }
    exact ⟨_, hvalid.postInit⟩

/-- Appending a transaction changes nothing else. -/
theorem fields_of_appendTransaction {b b' : Book} {t : JournalTransaction}
    (h : b.appendTransaction t = .ok b') :
    b'.fields = { b.fields with transactions := b.fields.transactions ++ [t] } := by
  rw [(BookFields.of_eq_ok (Built.new_eq_ok_iff.mp h)).1]
  -- the texts are normalised already
  simp only [← (requireNonEmptyStr_eq_ok.mp (b.valid.code "")).2,
    ← (requireNonEmptyStr_eq_ok.mp (b.valid.name "")).2,
    ← eq_of_normalizeCurrency (b.valid.baseCurrency ""),
    ← (requireNonEmptyStr_eq_ok.mp (b.valid.legislativePack "")).2]

end Book

end FinestVX
