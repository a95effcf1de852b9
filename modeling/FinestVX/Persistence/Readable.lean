import FinestVX.Persistence.RoundTrip

/-!
# Stored books stay readable

The store never deletes a row, so a book that cannot be loaded once can never be
loaded again.  The writers let two kinds of objects through that the constructors
refuse when they are read back: periods bounded by datetimes, and appended
transactions whose period is not a period of their book.  Runs without these keep
every book readable.

## Main definitions

* `KeepsReadable` — the condition on a call.
* `Readable` — a book is loaded, with each of its stored transactions once.

## Main results

* `readable_of_run` — **in runs whose calls meet the condition every book stays
  readable.**
* `Reference.stray_unreadable` — an append that makes a book unreadable.
-/

namespace FinestVX

open Except Relation

section

variable [Platform]

/-- The period is one of the periods stored for the book. -/
def StoredPeriod (t : Tables) (code : String) (p : FiscalPeriod) : Prop :=
  ∃ row ∈ t.periods, row.bookCode = code ∧
    (row.fiscalYear, row.quarter, row.month) = (p.fiscalYear, p.quarter, p.month)

/-- A created book has periods bounded by dates, and an appended transaction that
has a period has one that is stored for its book. -/
def KeepsReadable (db : Database) : Op → Prop
  | .createBook book => ∀ p ∈ book.fields.periods, p.IsPlain
  | .appendTransaction code t => ∀ p ∈ t.fields.period, StoredPeriod db.tables code p
  | .appendReversal .. => True
  | .appendLegislativeResult .. => True

/-- Loading returns the book, and its transactions are those whose rows are
stored: every row belongs to one of them, and to no other. -/
def Readable (t : Tables) (code : String) : Prop :=
  ∃ book, loadBook t code = .ok book ∧
    (book.fields.transactions.map JournalTransaction.reference).Nodup ∧
    (book.fields.transactions.map (transactionRow code)).Perm
      (t.transactions.filter (·.bookCode = code)) ∧
    ∀ x ∈ book.fields.transactions, entryRows code x = selectEntries code x.reference t

/-! ### What is loaded -/

@[simp] theorem entryRow_readBack (code reference : String) (e : LedgerEntry) (lineNo : ℕ) :
    entryRow code reference e.readBack lineNo = entryRow code reference e lineNo := by
  have hwritten := entryToMapping_readBack e
  simp only [entryToMapping, EntryPayload.mk.injEq] at hwritten
  simp only [entryRow, hwritten]

@[simp] theorem entryRows_readBack (code : String) (t : JournalTransaction) :
    entryRows code t.readBack = entryRows code t := by
  change ((t.fields.entries.map LedgerEntry.readBack).zipIdx.map _) = _
  rw [List.zipIdx_map, List.map_map, entryRows]
  exact List.map_congr_left fun p _ => entryRow_readBack code t.fields.reference p.1 p.2

/-- A stored book whose periods are plain and all known is readable. -/
theorem Holds.readable {t : Tables} {b : StoredBook} (h : Holds t b) (hplain : b.Plain)
    (hknown : b.PeriodsKnown) : Readable t b.code := by
  have hperm := orderBy_perm JournalTransaction.orderKey b.transactions
  refine ⟨_, h.loadBook_ok hplain hknown, ?_, ?_, ?_⟩
  · change ((b.sorted.transactions.map JournalTransaction.readBack).map _).Nodup
    rw [List.map_map]
    exact (hperm.map JournalTransaction.reference).nodup_iff.mpr b.nodup_references
  · change ((b.sorted.transactions.map JournalTransaction.readBack).map _).Perm _
    rw [List.map_map, h.filter_transactions]
    exact hperm.map (transactionRow b.code)
  · intro x hx
    obtain ⟨y, hy, rfl⟩ := List.mem_map.mp hx
    rw [entryRows_readBack]
    exact (h.selectEntries_eq (mem_orderBy.mp hy)).symm

/-! ### What the calls preserve -/

/-- The periods of a stored book, in the tables. -/
theorem Holds.storedPeriod_iff {t : Tables} {b : StoredBook} (h : Holds t b) {p : FiscalPeriod} :
    StoredPeriod t b.code p ↔ p ∈ b.base.fields.periods.map BookPeriod.period := by
  have hrows : (t.restrict b.code).periods = b.base.fields.periods.map (periodRow b.code) := by
    rw [h, tablesOf_some]
  constructor
  · rintro ⟨row, hrow, hcode, hkey⟩
    have hmem : row ∈ (t.restrict b.code).periods :=
      List.mem_filter.mpr ⟨hrow, decide_eq_true hcode⟩
    rw [hrows] at hmem
    obtain ⟨q, hq, rfl⟩ := List.mem_map.mp hmem
    have hpq : q.period = p := by
      refine periodToMapping_injective ?_
      simp only [periodRow, Prod.mk.injEq] at hkey
      simp only [periodToMapping, PeriodPayload.mk.injEq]
      exact hkey
    exact hpq ▸ List.mem_map_of_mem hq
  · intro hp
    obtain ⟨q, hq, rfl⟩ := List.mem_map.mp hp
    have hmem : periodRow b.code q ∈ (t.restrict b.code).periods :=
      hrows ▸ List.mem_map_of_mem hq
    exact ⟨_, List.mem_of_mem_filter hmem, rfl, rfl⟩

theorem StoredBook.PeriodsKnown.append {b : StoredBook} (h : b.PeriodsKnown)
    {t : JournalTransaction} (ht) (hfresh)
    (hperiod : ∀ p ∈ t.fields.period, p ∈ b.base.fields.periods.map BookPeriod.period) :
    (b.append t ht hfresh).PeriodsKnown := by
  intro x hx p hp
  rw [StoredBook.transactions_append] at hx
  rcases List.mem_append.mp hx with hx | hx
  · exact h x hx p hp
  · rw [List.mem_singleton.mp hx] at hp
    exact hperiod p hp

/-- What a step of the ledger preserves, where the call meets the condition. -/
theorem LedgerStep.readable {db : Database} {σ σ' : Ledger} {op : Op}
    (hrefines : Refines db.tables σ)
    (h : ∀ code b, σ code = some b → b.Plain ∧ b.PeriodsKnown) (hkeeps : KeepsReadable db op)
    (hstep : LedgerStep σ op σ') : ∀ code b, σ' code = some b → b.Plain ∧ b.PeriodsKnown := by
  refine hstep.forall_stored (P := fun b => b.Plain ∧ b.PeriodsKnown) h ?_ ?_ ?_
  · intro book hnodup hop
    subst hop
    exact ⟨hkeeps, StoredBook.periodsKnown_ofBook book hnodup⟩
  · intro code b t ht hfresh hb hop hold
    subst hop
    obtain ⟨rfl, hholds⟩ := hrefines.holds hb
    exact ⟨hold.1, hold.2.append ht hfresh fun p hp =>
      hholds.storedPeriod_iff.mp (hkeeps p hp)⟩
  · intro code o r b original t ht hfresh hop hmem _ _ hreversal hold
    -- a reversal has the period of its original
    obtain ⟨-, -, hperiod, -⟩ := reversalOfTransaction_eq_ok hreversal
    exact ⟨hold.1, hold.2.append ht hfresh fun p hp => hold.2 original hmem p (hperiod ▸ hp)⟩

/-- **Every book stays readable** in runs, of calls that return or raise, where
each created book has plain dates and each appended transaction a stored period. -/
theorem readable_of_run {db : Database} (h : ReflTransGen (GuardedStep KeepsReadable) {} db) :
    ∀ code ∈ listBookCodes db.tables, Readable db.tables code := by
  obtain ⟨-, σ, hrefines, hbooks⟩ := exists_refines_of_run
    (P := fun σ => ∀ code b, σ code = some b → b.Plain ∧ b.PeriodsKnown) h
    (fun _ _ h => by cases h)
    fun _ _ _ _ hrefines hold hkeeps hstep => hstep.readable hrefines hold hkeeps
  intro code hcode
  obtain ⟨b, hb⟩ := hrefines.exists_of_hasBook (mem_listBookCodes.mp hcode)
  obtain ⟨rfl, hholds⟩ := hrefines.holds hb
  obtain ⟨hplain, hknown⟩ := hbooks _ b hb
  exact hholds.readable hplain hknown

end

/-! ### Evaluated -/

namespace Reference

/-- A call by the auditor, in an environment without faults. -/
def call (op : Op) : Call := ⟨op, auditor, {}⟩

/-- The sale under another reference, in a period. -/
def saleIn (reference : String) (period : FiscalPeriod) : JournalTransactionFields :=
  { hundred with reference := reference, period := some period }

/-- A sale in January. -/
def known : JournalTransaction :=
  ⟨saleIn "T2" firstMonth, saleIn "T2" firstMonth, by rfl⟩

/-- A sale in a month that is not a period of the book. -/
def stray : JournalTransaction :=
  ⟨saleIn "T2" ⟨2026, 1, 2, rfl⟩, saleIn "T2" ⟨2026, 1, 2, rfl⟩, by rfl⟩

theorem readable_known :
    Readable ((call (.appendTransaction "BK" known)).after
      ((call (.createBook plainBook)).after {})).tables "BK" := by
  have hbook : KeepsReadable {} (.createBook plainBook) :=
    show ∀ p ∈ plainBook.fields.periods, p.IsPlain by decide
  have hperiod : KeepsReadable ((call (.createBook plainBook)).after {})
      (.appendTransaction "BK" known) := by
    rintro p ⟨⟩
    exact ⟨periodRow "BK" plainJanuary, List.mem_singleton_self _, rfl, rfl⟩
  refine readable_of_run
    (.tail (.tail .refl ⟨call (.createBook plainBook), hbook, rfl⟩)
      ⟨call (.appendTransaction "BK" known), hperiod, rfl⟩) "BK" ?_
  decide

/-- The store accepts a transaction in a period the book does not have, and the book
cannot be loaded any more. -/
theorem stray_unreadable :
    (call (.createBook plainBook)).Returns {} ∧
    (call (.appendTransaction "BK" stray)).Returns ((call (.createBook plainBook)).after {}) ∧
    ∃ db, db = Call.afterAll
        [call (.createBook plainBook), call (.appendTransaction "BK" stray)] {} ∧
      "BK" ∈ listBookCodes db.tables ∧ ¬ (loadBook db.tables "BK").Succeeds := by
  refine ⟨⟨_, rfl⟩, ⟨_, rfl⟩, _, rfl, by decide, ?_⟩
  rintro ⟨book, hload⟩
  have hfails : (loadBook (Call.afterAll [call (.createBook plainBook),
      call (.appendTransaction "BK" stray)] {}).tables "BK").toOption = none := by rfl
  rw [hload] at hfails
  cases hfails

end Reference

end FinestVX
