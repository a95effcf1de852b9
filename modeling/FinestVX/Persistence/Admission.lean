import FinestVX.Persistence.RoundTrip

/-!
# What the schema admits

The constructors of the domain models and the constraints of the schema are two sets of
rules for one book.  The schema asks for three things that the constructors do not check:
the references of the transactions are the primary key of their table, an amount or a tax
rate must not be written with a minus sign, which a negative zero is, and the years are
stored as 64-bit integers.

## Main definitions

* `ChecksRanges` — the ranges of the fiscal periods and calendars of `ftllexengine`.
* `EntryAdmitted`, `BookFields.Admitted` — what the schema asks of a book.

## Main results

* `Tables.admitsAll_map_iff` — the rows of one table are inserted when each is admitted and
  their keys differ.
* `admitsAll_transactions_iff` — the same for transactions with their entries.
* `createBook_succeeds_iff` — **a book with a new code is created exactly when** the schema
  admits it.
-/

namespace FinestVX

open Except

/-! ### Sequences of inserts -/

namespace Tables

/-- Rows of one table are inserted one after the other when each one is admitted and no two
have the same key. -/
theorem admitsAll_map_iff {ρ κ : Type} {mk : ρ → CoreRow} {key : ρ → κ}
    (hpush : ∀ (t : Tables) (r x : ρ),
      (t.push (mk r)).Admits (mk x) ↔ t.Admits (mk x) ∧ key r ≠ key x)
    {t : Tables} {l : List ρ} :
    t.AdmitsAll (l.map mk) ↔ (∀ r ∈ l, t.Admits (mk r)) ∧ (l.map key).Nodup := by
  induction l generalizing t with
  | nil => simp [AdmitsAll]
  | cons r l ih =>
    rw [List.map_cons, AdmitsAll, ih, List.map_cons, List.nodup_cons, List.forall_mem_cons]
    simp only [hpush]
    constructor
    · rintro ⟨hr, hl, hnodup⟩
      refine ⟨⟨hr, fun x hx => (hl x hx).1⟩, ?_, hnodup⟩
      intro hmem
      obtain ⟨x, hx, hkey⟩ := List.mem_map.mp hmem
      exact (hl x hx).2 hkey.symm
    · rintro ⟨⟨hr, hl⟩, hfresh, hnodup⟩
      refine ⟨hr, fun x hx => ⟨hl x hx, ?_⟩, hnodup⟩
      intro hkey
      exact hfresh (hkey ▸ List.mem_map_of_mem hx)

theorem admitsAll_accounts_iff {t : Tables} {l : List AccountRow} :
    t.AdmitsAll (l.map .account) ↔
      (∀ r ∈ l, t.AdmitsAccount r) ∧ (l.map fun r => (r.bookCode, r.code)).Nodup := by
  refine admitsAll_map_iff ?_
  intro t r x
  simp only [Admits, AdmitsAccount, HasBook, push, List.forall_mem_append,
    List.forall_mem_singleton, ne_eq, Prod.mk.injEq]
  tauto

theorem admitsAll_periods_iff {t : Tables} {l : List PeriodRow} :
    t.AdmitsAll (l.map .period) ↔ (∀ r ∈ l, t.AdmitsPeriod r) ∧
      (l.map fun r => (r.bookCode, r.fiscalYear, r.quarter, r.month)).Nodup := by
  refine admitsAll_map_iff ?_
  intro t r x
  simp only [Admits, AdmitsPeriod, HasBook, push, List.forall_mem_append,
    List.forall_mem_singleton, ne_eq, Prod.mk.injEq]
  tauto

theorem admitsAll_entries_iff {t : Tables} {l : List EntryRow} :
    t.AdmitsAll (l.map .entry) ↔ (∀ r ∈ l, t.AdmitsEntry r) ∧
      (l.map fun r => (r.bookCode, r.transactionReference, r.lineNo)).Nodup := by
  refine admitsAll_map_iff ?_
  intro t r x
  simp only [Admits, AdmitsEntry, push, List.forall_mem_append, List.forall_mem_singleton, ne_eq,
    Prod.mk.injEq]
  tauto

end Tables

section

variable [Platform]

/-! ### What the schema asks -/

/-- The ranges that the constructors of fiscal periods and calendars check. -/
structure ChecksRanges : Prop where
  period : ∀ y q m, Platform.checkFiscalPeriod y q m = .ok () → (1 ≤ q ∧ q ≤ 4) ∧ 1 ≤ m ∧ m ≤ 12
  calendar : ∀ m, Platform.checkFiscalCalendar m = .ok () → 1 ≤ m ∧ m ≤ 12

/-- The amount and the tax rate of an entry are written without a minus sign, which a
negative zero has. -/
structure EntryAdmitted (e : LedgerEntry) : Prop where
  amount : e.decimalValue.neg = false
  taxRate : ∀ v ∈ e.fields.taxRate, ∀ d, v.toDec? = some d → d.neg = false

/-- What the schema asks of a book, beyond what its constructor checks. -/
structure BookFields.Admitted (b : BookFields) : Prop where
  references : (b.transactions.map JournalTransaction.reference).Nodup
  entries : ∀ t ∈ b.transactions, ∀ e ∈ t.fields.entries, EntryAdmitted e
  years : ∀ p ∈ b.periods, BindsInt p.fields.period.fiscalYear

/-! ### Entries -/

omit [Platform] in
theorem notLikeMinus_formatF {d : Dec} : NotLikeMinus d.formatF ↔ d.neg = false := by
  rw [NotLikeMinus, Dec.formatF, String.toList_ofList, Dec.formatFChars]
  obtain ⟨a, l, hdigits, hdigit⟩ := Dec.exists_digits_eq_cons (d.canon.coeff / 10 ^ d.places)
  cases d.neg with
  | true => simp
  | false =>
    -- the first character is a digit
    have hne : a ≠ '-' := by
      rintro rfl
      exact absurd hdigit (by decide)
    simp [hdigits, hne]

/-- The numbers of an entry are unsigned when the texts of its row have no minus sign. -/
theorem entryAdmitted_iff {code reference : String} {e : LedgerEntry} {lineNo : ℕ} :
    EntryAdmitted e ↔ NotLikeMinus (entryRow code reference e lineNo).amount ∧
      ∀ v ∈ (entryRow code reference e lineNo).taxRate, NotLikeMinus v := by
  have hrate : (∀ v ∈ e.fields.taxRate.map Decimal.formatF, NotLikeMinus v) ↔
      ∀ v ∈ e.fields.taxRate, ∀ d, v.toDec? = some d → d.neg = false := by
    simp only [Option.mem_map, forall_exists_index, and_imp, forall_apply_eq_imp_iff₂]
    constructor
    · intro h v hv d hd
      have hrate : NotLikeMinus (Decimal.formatF v) := h v hv
      rw [formatF_of_toDec? hd] at hrate
      exact notLikeMinus_formatF.mp hrate
    · intro h v hv
      -- the constructor lets only finite rates through
      obtain ⟨d, hd, -⟩ := e.valid.taxRate v hv
      rw [formatF_of_toDec? hd]
      exact notLikeMinus_formatF.mpr (h v hv d hd)
  constructor
  · intro h
    exact ⟨notLikeMinus_formatF.mpr h.amount, hrate.mpr h.taxRate⟩
  · rintro ⟨hamount, htaxRate⟩
    exact ⟨notLikeMinus_formatF.mp hamount, hrate.mp htaxRate⟩

/-- The row of an entry is admitted when its numbers are unsigned, its line is new and the
rows it refers to are there. -/
theorem admitsEntry_iff {t : Tables} {code reference : String} {e : LedgerEntry} {lineNo : ℕ}
    (haccount : ∃ a ∈ t.accounts, a.bookCode = code ∧ a.code = e.accountCode)
    (htransaction : ∃ x ∈ t.transactions, x.bookCode = code ∧ x.reference = reference)
    (hnew : ∀ r ∈ t.entries, ¬ (r.bookCode = code ∧ r.transactionReference = reference)) :
    t.AdmitsEntry (entryRow code reference e lineNo) ↔ EntryAdmitted e := by
  constructor
  · intro h
    exact entryAdmitted_iff.mpr ⟨h.2.2.1.2, h.2.2.2.1⟩
  · intro h
    obtain ⟨hamount, htaxRate⟩ := entryAdmitted_iff.mp h
    refine ⟨Int.natCast_nonneg _, ?_, ⟨Dec.formatF_ne_empty _, hamount⟩, htaxRate, ?_, htransaction,
      haccount⟩
    · show e.fields.side.value ∈ ["Dr", "Cr"]
      cases e.fields.side <;> simp [PostingSide.value]
    · rintro r hr ⟨hcode, hreference, -⟩
      exact hnew r hr ⟨hcode, hreference⟩

/-! ### Transactions -/

/-- The lines of a transaction are numbered. -/
theorem nodup_entryRows (code : String) (tx : JournalTransaction) :
    ((entryRows code tx).map fun r => (r.bookCode, r.transactionReference, r.lineNo)).Nodup := by
  refine List.Nodup.of_map (fun k => k.2.2) ?_
  rw [List.map_map, entryRows, List.map_map]
  have hlines : (tx.fields.entries.zipIdx.map Prod.snd).Nodup := by
    rw [List.zipIdx_map_snd]
    exact List.nodup_range'
  rw [show tx.fields.entries.zipIdx.map _ =
    (tx.fields.entries.zipIdx.map Prod.snd).map (Nat.cast : ℕ → ℤ) by rw [List.map_map]; rfl]
  exact hlines.map Nat.cast_injective

/-- The rows that the transactions of a book refer to are there. -/
structure Tables.Ready (t : Tables) (b : BookFields) : Prop where
  book : t.HasBook b.code
  accounts : ∀ a ∈ b.accounts, accountRow b.code a ∈ t.accounts
  linked : t.Linked

theorem Tables.Ready.pushAll {t : Tables} {b : BookFields} {rows : List CoreRow}
    (h : t.Ready b) (hrows : t.AdmitsAll rows) : (t.pushAll rows).Ready b where
  book := by
    obtain ⟨r, hr, hcode⟩ := h.book
    rw [Tables.pushAll_eq]
    exact ⟨r, List.mem_append_left _ hr, hcode⟩
  accounts a ha := by
    rw [Tables.pushAll_eq]
    exact List.mem_append_left _ (h.accounts a ha)
  linked := h.linked.pushAll hrows

/-- They are in the tables that hold the book. -/
theorem Holds.ready {t : Tables} {b : StoredBook} (h : Holds t b) (hlinked : t.Linked) :
    t.Ready b.fields where
  book := by
    have hbook := List.mem_of_find?_eq_some h.find?_book
    exact ⟨_, hbook, rfl⟩
  accounts a ha := by
    have hmem : accountRow b.code a ∈ (t.restrict b.code).accounts := by
      rw [h, tablesOf_some]
      exact List.mem_map_of_mem ha
    exact (List.mem_filter.mp hmem).1
  linked := hlinked

/-- The reference of a transaction is not in use in a book. -/
def Tables.Unused (t : Tables) (code reference : String) : Prop :=
  ∀ x ∈ t.transactions, ¬ (x.bookCode = code ∧ x.reference = reference)

/-- The entries of a transaction that was just inserted. -/
theorem admitsAll_entryRows_iff {t : Tables} {b : BookFields} {tx : JournalTransaction}
    (hready : t.Ready b) (hpostable : Postable (b.accounts.map Account.code) tx)
    (hunused : t.Unused b.code tx.reference) :
    (t.push (.transaction (transactionRow b.code tx))).AdmitsAll
        ((entryRows b.code tx).map .entry) ↔
      ∀ e ∈ tx.fields.entries, EntryAdmitted e := by
  have hadmits : ∀ e ∈ tx.fields.entries, ∀ lineNo,
      (t.push (.transaction (transactionRow b.code tx))).AdmitsEntry
        (entryRow b.code tx.reference e lineNo) ↔ EntryAdmitted e := by
    intro e he lineNo
    refine admitsEntry_iff ?_ ⟨_, List.mem_append_right _ (List.mem_singleton.mpr rfl), rfl, rfl⟩ ?_
    · obtain ⟨a, ha, hcode⟩ := List.mem_map.mp (hpostable.accounts e he)
      exact ⟨_, hready.accounts a ha, rfl, hcode⟩
    · -- an entry that is there has a transaction, and the reference is new
      rintro r hr ⟨hcode, hreference⟩
      obtain ⟨x, hx, hxcode, hxreference⟩ := hready.linked.entries r hr
      exact hunused x hx ⟨hxcode.trans hcode, hxreference.trans hreference⟩
  rw [Tables.admitsAll_entries_iff, and_iff_left (nodup_entryRows b.code tx)]
  constructor
  · intro h e he
    obtain ⟨i, hi, rfl⟩ := List.mem_iff_getElem.mp he
    exact (hadmits _ he i).mp (h _ (List.mem_map_of_mem (List.mk_mem_zipIdx_iff_getElem?.mpr
      (List.getElem?_eq_getElem hi))))
  · intro h r hr
    obtain ⟨⟨e, lineNo⟩, hmem, rfl⟩ := List.mem_map.mp hr
    have he := List.fst_mem_of_mem_zipIdx hmem
    exact (hadmits e he lineNo).mpr (h e he)

/-- The period of a transaction can be stored. -/
def PeriodBinds (tx : JournalTransaction) : Prop :=
  ∀ p ∈ tx.fields.period, BindsInt p.fiscalYear ∧ BindsInt p.quarter ∧ BindsInt p.month

/-- A transaction of a book is inserted with its entries when its reference is new and
their numbers are unsigned. -/
theorem admitsAll_transactionRows_iff {t : Tables} {b : BookFields} {tx : JournalTransaction}
    (hready : t.Ready b) (hpostable : Postable (b.accounts.map Account.code) tx)
    (hbinds : PeriodBinds tx) :
    t.AdmitsAll (transactionRows b.code tx) ↔
      (∀ e ∈ tx.fields.entries, EntryAdmitted e) ∧ t.Unused b.code tx.reference := by
  constructor
  · rintro ⟨hrow, hentries⟩
    have hunused : t.Unused b.code tx.reference := hrow.2.2.2.2.2.1
    exact ⟨(admitsAll_entryRows_iff hready hpostable hunused).mp hentries, hunused⟩
  · rintro ⟨hentries, hunused⟩
    refine ⟨?_, (admitsAll_entryRows_iff hready hpostable hunused).mpr hentries⟩
    have hstate : tx.fields.state.value ∈ ["draft", "posted", "reversed"] := by
      cases tx.fields.state <;> simp [TransactionState.value]
    show t.AdmitsTransaction (transactionRow b.code tx)
    refine ⟨?_, ?_, ?_, hstate, ?_, hunused, hready.book⟩
    · simpa [transactionRow] using fun p hp => (hbinds p hp).1
    · simpa [transactionRow] using fun p hp => (hbinds p hp).2.1
    · simpa [transactionRow] using fun p hp => (hbinds p hp).2.2
    · cases hperiod : tx.fields.period <;> simp [transactionRow, hperiod]

theorem filterMap_transactionRows (code : String) (tx : JournalTransaction) :
    (transactionRows code tx).filterMap CoreRow.transaction? = [transactionRow code tx] := by
  simp [transactionRows, CoreRow.transaction?, List.filterMap_map, Function.comp_def]

/-- **Transactions are inserted** when their references are new and distinct and the
numbers of their entries are unsigned. -/
theorem admitsAll_transactions_iff {t : Tables} {b : BookFields} {l : List JournalTransaction}
    (hready : t.Ready b)
    (hl : ∀ tx ∈ l, Postable (b.accounts.map Account.code) tx ∧ PeriodBinds tx) :
    t.AdmitsAll (l.flatMap (transactionRows b.code)) ↔
      (∀ tx ∈ l, ∀ e ∈ tx.fields.entries, EntryAdmitted e) ∧
        (∀ tx ∈ l, t.Unused b.code tx.reference) ∧
          (l.map JournalTransaction.reference).Nodup := by
  induction l generalizing t with
  | nil => simp [Tables.AdmitsAll]
  | cons tx l ih =>
    obtain ⟨⟨hpostable, hbinds⟩, hrest⟩ := List.forall_mem_cons.mp hl
    -- the reference that was inserted is in use from then on
    have hunused : ∀ reference, (t.pushAll (transactionRows b.code tx)).Unused b.code reference ↔
        t.Unused b.code reference ∧ tx.reference ≠ reference := by
      intro reference
      simp only [Tables.Unused, Tables.transactions_pushAll, filterMap_transactionRows,
        List.forall_mem_append, List.forall_mem_singleton, transactionRow, true_and]
      rfl
    rw [List.flatMap_cons, Tables.admitsAll_append]
    simp only [List.forall_mem_cons, List.map_cons, List.nodup_cons]
    constructor
    · rintro ⟨hrows, hall⟩
      obtain ⟨hentries, hfresh⟩ := (admitsAll_transactionRows_iff hready hpostable hbinds).mp hrows
      obtain ⟨hlater, hfreshLater, hnodup⟩ := (ih (hready.pushAll hrows) hrest).mp hall
      refine ⟨⟨hentries, hlater⟩, ⟨hfresh, fun x hx => ((hunused _).mp (hfreshLater x hx)).1⟩, ?_,
        hnodup⟩
      intro hmem
      obtain ⟨x, hx, hreference⟩ := List.mem_map.mp hmem
      exact ((hunused _).mp (hfreshLater x hx)).2 hreference.symm
    · rintro ⟨⟨hentries, hlater⟩, ⟨hfresh, hfreshLater⟩, hnew, hnodup⟩
      have hrows := (admitsAll_transactionRows_iff hready hpostable hbinds).mpr ⟨hentries, hfresh⟩
      refine ⟨hrows, (ih (hready.pushAll hrows) hrest).mpr ⟨hlater, ?_, hnodup⟩⟩
      intro x hx
      refine (hunused _).mpr ⟨hfreshLater x hx, ?_⟩
      intro hreference
      exact hnew (hreference ▸ List.mem_map_of_mem hx)

/-! ### Accounts and periods -/

/-- The accounts of a book with a new code are inserted. -/
theorem admitsAll_accountRows {t : Tables} {b : BookFields} (hvalid : b.Valid)
    (hbook : t.HasBook b.code) (hnone : ∀ a ∈ t.accounts, a.bookCode ≠ b.code) :
    t.AdmitsAll (b.accounts.map fun a => .account (accountRow b.code a)) := by
  have hrows : b.accounts.map (fun a => CoreRow.account (accountRow b.code a)) =
      (b.accounts.map (accountRow b.code)).map .account := by
    rw [List.map_map]
    rfl
  rw [hrows, Tables.admitsAll_accounts_iff]
  constructor
  · intro r hr
    obtain ⟨a, ha, rfl⟩ := List.mem_map.mp hr
    have hside : a.fields.normalSide.value ∈ ["Dr", "Cr"] := by
      cases a.fields.normalSide <;> simp [PostingSide.value]
    have hflag : ∀ flag : Bool, flag.toInt ∈ ([0, 1] : List ℤ) := by decide
    exact ⟨hside, hflag _, hflag _, fun x hx hkey => hnone x hx hkey.1, hbook⟩
  · rw [List.map_map]
    refine List.Nodup.of_map Prod.snd ?_
    rw [List.map_map]
    exact hvalid.accounts.nodup

/-- The periods of a book with a new code are inserted when their years can be stored. -/
theorem admitsAll_periodRows_iff {t : Tables} {b : BookFields} (hranges : ChecksRanges)
    (hvalid : b.Valid) (hbook : t.HasBook b.code)
    (hnone : ∀ p ∈ t.periods, p.bookCode ≠ b.code) :
    t.AdmitsAll (b.periods.map fun p => .period (periodRow b.code p)) ↔
      ∀ p ∈ b.periods, BindsInt p.fields.period.fiscalYear := by
  have hrows : b.periods.map (fun p => CoreRow.period (periodRow b.code p)) =
      (b.periods.map (periodRow b.code)).map .period := by
    rw [List.map_map]
    rfl
  have hnodup : ((b.periods.map (periodRow b.code)).map
      fun r => (r.bookCode, r.fiscalYear, r.quarter, r.month)).Nodup := by
    have hperiods := hvalid.periods.nodup.map periodToMapping_injective
    rw [List.map_map] at hperiods ⊢
    refine List.Nodup.of_map (fun k => (⟨k.2.1, k.2.2.1, k.2.2.2⟩ : PeriodPayload)) ?_
    rw [List.map_map]
    exact hperiods
  rw [hrows, Tables.admitsAll_periods_iff, and_iff_left hnodup, List.forall_mem_map]
  refine forall₂_congr fun p hp => ⟨And.left, fun hyear => ?_⟩
  obtain ⟨hquarter, hmonth⟩ := hranges.period _ _ _ p.fields.period.accepted
  have hstate : p.fields.state.value ∈ ["open", "closed", "locked"] := by
    cases p.fields.state <;> simp [FiscalPeriodState.value]
  exact ⟨hyear, hquarter, hmonth, hstate, fun x hx hkey => hnone x hx hkey.1, hbook⟩

/-! ### Books -/

/-- The periods of the transactions of a book can be stored when those of the book can. -/
theorem periodBinds_of_mem {b : BookFields} {tx : JournalTransaction} (hranges : ChecksRanges)
    (hvalid : b.Valid) (hyears : ∀ p ∈ b.periods, BindsInt p.fields.period.fiscalYear)
    (htx : tx ∈ b.transactions) : PeriodBinds tx := by
  intro q hq
  obtain ⟨p, hp, rfl⟩ := List.mem_map.mp (hvalid.knownPeriods tx htx q hq)
  obtain ⟨hquarter, hmonth⟩ := hranges.period _ _ _ p.fields.period.accepted
  have hsmall : ∀ {n : ℤ}, 1 ≤ n → n ≤ 12 → BindsInt n := by
    intro n h1 h12
    constructor <;> omega
  exact ⟨hyears p hp, hsmall hquarter.1 (hquarter.2.trans (by omega)), hsmall hmonth.1 hmonth.2⟩

/-- The row of a book with its accounts, which come first. -/
def headRows (b : BookFields) : List CoreRow :=
  .book (bookRow b) :: b.accounts.map fun a => .account (accountRow b.code a)

/-- The row of a book with a new code is inserted, and those of its accounts are. -/
theorem admitsAll_headRows {t : Tables} {b : BookFields} (hranges : ChecksRanges)
    (hvalid : b.Valid) (hlinked : t.Linked) (hnew : ∀ r ∈ t.books, r.bookCode ≠ b.code) :
    t.AdmitsAll (headRows b) := by
  refine ⟨⟨hranges.calendar _ b.fiscalCalendar.accepted, hnew⟩, ?_⟩
  refine admitsAll_accountRows hvalid ⟨_, List.mem_append_right _ (List.mem_singleton.mpr rfl), rfl⟩ ?_
  intro a ha hcode
  obtain ⟨r, hr, hbook⟩ := hlinked.accounts a ha
  exact hnew r hr (hbook.trans hcode)

/-- Transactions can follow the book and its accounts. -/
theorem ready_headRows {t : Tables} {b : BookFields} (hlinked : t.Linked)
    (hhead : t.AdmitsAll (headRows b)) : (t.pushAll (headRows b)).Ready b where
  book := by
    rw [Tables.pushAll_eq]
    exact ⟨bookRow b, List.mem_append_right _ (List.mem_filterMap.mpr
      ⟨_, List.mem_cons_self .., rfl⟩), rfl⟩
  accounts a ha := by
    rw [Tables.pushAll_eq]
    exact List.mem_append_right _ (List.mem_filterMap.mpr
      ⟨_, List.mem_cons_of_mem _ (List.mem_map_of_mem ha), rfl⟩)
  linked := hlinked.pushAll hhead

/-- **The rows of a book with a new code are inserted exactly when** the schema admits the
book. -/
theorem admitsAll_bookRows_iff {t : Tables} {b : BookFields} (hranges : ChecksRanges)
    (hvalid : b.Valid) (hlinked : t.Linked) (hnew : ∀ r ∈ t.books, r.bookCode ≠ b.code) :
    t.AdmitsAll (bookRows b) ↔ b.Admitted := by
  have hhead := admitsAll_headRows hranges hvalid hlinked hnew
  have hready := ready_headRows hlinked hhead
  have hnone : ∀ code, t.HasBook code → code ≠ b.code := by
    rintro code ⟨r, hr, rfl⟩
    exact hnew r hr
  -- no period and no transaction of the book is there yet
  have hperiods : (t.pushAll (headRows b)).AdmitsAll
      (b.periods.map fun p => .period (periodRow b.code p)) ↔
        ∀ p ∈ b.periods, BindsInt p.fields.period.fiscalYear := by
    refine admitsAll_periodRows_iff hranges hvalid hready.book ?_
    intro p hp
    refine hnone _ (hlinked.periods p ?_)
    simpa [Tables.pushAll_eq, headRows, CoreRow.period?, List.filterMap_map, Function.comp_def]
      using hp
  have hunused : ∀ reference, ((t.pushAll (headRows b)).pushAll
      (b.periods.map fun p => .period (periodRow b.code p))).Unused b.code reference := by
    rintro reference x hx ⟨hcode, -⟩
    refine hnone _ (hlinked.transactions x ?_) hcode
    simpa [headRows, CoreRow.transaction?, List.filterMap_map, Function.comp_def, Tables.push]
      using hx
  have hrows : bookRows b = headRows b ++
      (b.periods.map (fun p => .period (periodRow b.code p)) ++
        b.transactions.flatMap (transactionRows b.code)) := List.append_assoc _ _ _
  rw [hrows, Tables.admitsAll_append, Tables.admitsAll_append, and_iff_right hhead]
  have htransactions : ∀ hrest : (t.pushAll (headRows b)).AdmitsAll
      (b.periods.map fun p => .period (periodRow b.code p)), _ := fun hrest =>
    admitsAll_transactions_iff (hready.pushAll hrest) (l := b.transactions) fun tx htx =>
      ⟨hvalid.postable tx htx, periodBinds_of_mem hranges hvalid (hperiods.mp hrest) htx⟩
  constructor
  · rintro ⟨hrest, hall⟩
    obtain ⟨hentries, -, hnodup⟩ := (htransactions hrest).mp hall
    exact ⟨hnodup, hentries, hperiods.mp hrest⟩
  · intro h
    have hrest := hperiods.mpr h.years
    exact ⟨hrest, (htransactions hrest).mpr ⟨h.entries, fun _ _ => hunused _, h.references⟩⟩

/-- The parents of the accounts of a book are there when it has been inserted. -/
theorem parentsExist_bookRows {t : Tables} {b : BookFields} (hvalid : b.Valid)
    (hparents : t.ParentsExist) : (t.pushAll (bookRows b)).ParentsExist := by
  have haccounts : (t.pushAll (bookRows b)).accounts =
      t.accounts ++ b.accounts.map (accountRow b.code) := by
    rw [Tables.pushAll_eq]
    show t.accounts ++ (bookRows b).filterMap CoreRow.account? = _
    rw [filterMap_bookRows]
    simp [CoreRow.account?]
  rw [Tables.ParentsExist, haccounts]
  intro r hr p hp
  rcases List.mem_append.mp hr with hr | hr
  · obtain ⟨parent, hparent, hkeys⟩ := hparents r hr p hp
    exact ⟨parent, List.mem_append_left _ hparent, hkeys⟩
  · obtain ⟨a, ha, rfl⟩ := List.mem_map.mp hr
    obtain ⟨parent, hparent, hcode⟩ := List.mem_map.mp (hvalid.accounts.parents a ha p hp)
    exact ⟨_, List.mem_append_right _ (List.mem_map_of_mem hparent), rfl, hcode⟩

/-- Rows that are all admitted are inserted, when nothing else goes wrong. -/
theorem insertRows_of_admitsAll {clock : ℕ → ℤ} {ctx : AuditContext} {i : ℕ}
    {rows : List CoreRow} {db : Database} (hrows : db.tables.AdmitsAll rows) :
    insertRows { clock } ctx i rows db = .ok (db.insertAll ctx clock i rows) := by
  induction rows generalizing i db with
  | nil => rfl
  | cons r rows ih =>
    rw [insertRows, raising_none, ok_bind, execute, if_pos hrows.1, ok_bind]
    exact ih hrows.2

/-- **A book with a new code is created exactly when** the references of its transactions
are distinct, none of its numbers is a negative zero, and its years can be stored. -/
theorem createBook_succeeds_iff {clock : ℕ → ℤ} {ctx : AuditContext} {book : Book}
    {db : Database} (hranges : ChecksRanges) (hvalid : SchemaValid db.tables)
    (hparents : db.tables.ParentsExist)
    (hnew : ∀ r ∈ db.tables.books, r.bookCode ≠ book.code) :
    (createBook { clock } ctx book db).1.Succeeds ↔ book.fields.Admitted := by
  have hchecks : validateAccountCollection book.fields.accounts = .ok () :=
    validateAccountCollection_eq_ok.mpr book.valid.accounts
  rw [← admitsAll_bookRows_iff hranges book.valid hvalid.linked hnew, createBook, hchecks, orRaise]
  constructor
  · rintro ⟨receipt, hreceipt⟩
    exact (writeRows_ok (Prod.ext hreceipt rfl)).1
  · intro hrows
    have hinserted : insertRows { clock } ctx 0 (bookRows book.fields) db =
        .ok (db.insertAll ctx clock 0 (bookRows book.fields)) := insertRows_of_admitsAll hrows
    refine ⟨_, congrArg Prod.fst (writeRows_of_insertRows rfl rfl hinserted ?_)⟩
    rw [Database.tables_insertAll]
    exact parentsExist_bookRows book.valid hparents

end

/-! ### Evaluated -/

namespace Reference

theorem checksRanges : ChecksRanges where
  period y q m h := by
    have hrange : 1 ≤ y ∧ 1 ≤ q ∧ q ≤ 4 ∧ 1 ≤ m ∧ m ≤ 12 := by
      by_contra hnot
      change (if _ then _ else _) = _ at h
      rw [if_neg hnot] at h
      cases h
    exact ⟨⟨hrange.2.1, hrange.2.2.1⟩, hrange.2.2.2⟩
  calendar m h := by
    by_contra hnot
    change (if _ then _ else _) = _ at h
    rw [if_neg hnot] at h
    cases h

theorem plainBook_created : (createBook { clock := fun _ => 0 } auditor plainBook {}).1.Succeeds := by
  refine (createBook_succeeds_iff checksRanges schemaValid_empty (by decide) (by decide)).mpr ?_
  refine ⟨by decide, ?_, by decide⟩
  intro t ht e he
  obtain rfl := List.mem_singleton.mp ht
  rcases List.mem_cons.mp he with rfl | he
  · exact ⟨rfl, by simp [euros]⟩
  · obtain rfl := List.mem_singleton.mp he
    exact ⟨rfl, by simp [euros]⟩

/-- A book with one sale twice. -/
def doubledBook : Book :=
  ⟨bookFields [plainJanuary] [sale, sale], bookFields [plainJanuary] [sale, sale], by rfl⟩

/-- An entry of minus zero euros. -/
def minusZero (account : String) (side : PostingSide) : LedgerEntryFields :=
  { euros account side 0 0 with amount := ⟨.ofDec ⟨true, 0, 0⟩⟩ }

/-- A transaction of minus zero euros on one side and zero on the other. -/
def nothingSold : JournalTransactionFields :=
  { hundred with
    entries := [⟨minusZero "1000" .debit, minusZero "1000" .debit, by rfl⟩,
      ⟨euros "2000" .credit 0 0, euros "2000" .credit 0 0, by rfl⟩] }

/-- A book with a transaction of minus zero euros. -/
def minusZeroBook : Book :=
  ⟨bookFields [plainJanuary] [⟨nothingSold, nothingSold, by rfl⟩],
    bookFields [plainJanuary] [⟨nothingSold, nothingSold, by rfl⟩], by rfl⟩

/-- Two books that the constructor accepts and an empty store refuses. -/
theorem acceptedBooks_refused :
    ¬ (createBook {} auditor doubledBook {}).1.Succeeds ∧
      ¬ (createBook {} auditor minusZeroBook {}).1.Succeeds := by
  have hdoubled : (createBook {} auditor doubledBook {}).1 =
      .error (.constraintError "transactions: constraint failed") := by rfl
  have hminus : (createBook {} auditor minusZeroBook {}).1 =
      .error (.constraintError "entries: constraint failed") := by rfl
  rw [hdoubled, hminus]
  exact ⟨not_succeeds_error _, not_succeeds_error _⟩

end Reference

end FinestVX
