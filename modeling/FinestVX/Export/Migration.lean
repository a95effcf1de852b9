import FinestVX.Export.LedgerJson
import FinestVX.Persistence.Admission
import FinestVX.Persistence.Constraints
import FinestVX.Persistence.Isolation
import FinestVX.Persistence.Reversal

/-!
# Moving a book to another database

A book that is loaded from a store can be exported, imported and created in another store; it
is loaded from there as the very same book.  What the schema asks of a book holds of all that
is stored, and the order of the queries and the canonical spelling of the amounts are reached
after one loading.

## Main definitions

* `Moved` — the way of a book from one database to another.

## Main results

* `admitted_of_loadBook` — the schema admits what is loaded.
* `toJson_of_loadBook` — what is loaded can be exported.
* `moved_of_loadBook` — **a loaded book can be moved and stays the same.**
-/

namespace FinestVX

open Except

section

variable [Platform]

/-! ### Loaded books -/

/-- The loaded book, from the stored one. -/
theorem Reachable.exists_stored {db : Database} (h : Reachable db) {code : String} {book : Book}
    (hload : loadBook db.tables code = .ok book) :
    ∃ b : StoredBook, b.code = code ∧ Holds db.tables b ∧ b.Plain ∧
      book.fields = b.sorted.readBack := by
  obtain ⟨σ, hσ⟩ := h.refines
  obtain ⟨b, hb, hfields⟩ := exists_stored_of_loadBook hσ hload
  obtain ⟨rfl, hholds⟩ := hσ.holds hb
  exact ⟨b, rfl, hholds, (hholds.loadBook_succeeds_iff.mp ⟨book, hload⟩).1, hfields⟩

/-- The entries of a stored book are rows. -/
theorem Holds.entryRow_mem {t : Tables} {b : StoredBook} (h : Holds t b) {x : JournalTransaction}
    (hx : x ∈ b.transactions) {r : EntryRow} (hr : r ∈ entryRows b.code x) : r ∈ t.entries := by
  have hmem : r ∈ (t.restrict b.code).entries := by
    rw [h, tablesOf_some]
    exact List.mem_flatMap.mpr ⟨x, hx, hr⟩
  exact List.mem_of_mem_filter hmem

/-- The periods of a stored book are rows. -/
theorem Holds.periodRow_mem {t : Tables} {b : StoredBook} (h : Holds t b) {p : BookPeriod}
    (hp : p ∈ b.base.fields.periods) : periodRow b.code p ∈ t.periods := by
  have hmem : periodRow b.code p ∈ (t.restrict b.code).periods := by
    rw [h, tablesOf_some]
    exact List.mem_map_of_mem hp
  exact List.mem_of_mem_filter hmem

/-- **The schema admits what is loaded.** -/
theorem admitted_of_loadBook {db : Database} (h : Reachable db) {code : String} {book : Book}
    (hload : loadBook db.tables code = .ok book) : book.fields.Admitted := by
  obtain ⟨b, -, hholds, -, hfields⟩ := h.exists_stored hload
  have hchecked := h.constrained.checked
  rw [hfields]
  constructor
  · change ((b.sorted.transactions.map JournalTransaction.readBack).map _).Nodup
    rw [List.map_map]
    exact ((orderBy_perm JournalTransaction.orderKey b.transactions).map
      JournalTransaction.reference).nodup_iff.mpr b.nodup_references
  · intro t ht e he
    obtain ⟨x, hx, rfl⟩ := List.mem_map.mp ht
    obtain ⟨y, hy, rfl⟩ := List.mem_map.mp he
    -- the row of the entry has passed the clauses of the table
    obtain ⟨n, hn⟩ := List.mem_iff_getElem?.mp hy
    have hrow : entryRow b.code x.fields.reference y n ∈ entryRows b.code x :=
      List.mem_map.mpr ⟨(y, n), List.mem_zipIdx_iff_getElem?.mpr hn, rfl⟩
    have hchecks := hchecked.entries _ (hholds.entryRow_mem (mem_orderBy.mp hx) hrow)
    rw [← entryRow_readBack] at hchecks
    exact entryAdmitted_iff.mpr ⟨hchecks.amount.2, hchecks.taxRate⟩
  · intro p hp
    exact (hchecked.periods _ (hholds.periodRow_mem (mem_orderBy.mp hp))).1

/-- A book that was loaded is loaded again as it is. -/
theorem loadBook_of_loaded {db : Database} (h : Reachable db) {code : String} {book : Book}
    (hload : loadBook db.tables code = .ok book) {t : Tables} {hnodup}
    (hholds : Holds t (StoredBook.ofBook book hnodup)) : loadBook t code = .ok book := by
  obtain ⟨b, rfl, -, hplain, hfields⟩ := h.exists_stored hload
  have hcode : book.code = b.code := by rw [Book.code, hfields]; rfl
  have hplain' : (StoredBook.ofBook book hnodup).Plain := by
    intro p hp
    rw [StoredBook.ofBook, hfields] at hp
    exact hplain p (mem_orderBy.mp hp)
  have hagain := hholds.loadBook_ok hplain' (StoredBook.periodsKnown_ofBook book hnodup)
  rw [← hcode]
  refine hagain.trans (congrArg _ (Built.ext ?_))
  -- everything is in the order of the queries already, and in canonical form
  have htransactions : orderBy JournalTransaction.orderKey book.fields.transactions =
      book.fields.transactions := by
    rw [hfields]
    refine orderBy_eq_self ?_
    exact List.pairwise_map.mpr (pairwise_orderBy JournalTransaction.orderKey b.transactions)
  have haccounts : orderBy Account.code book.fields.accounts = book.fields.accounts := by
    rw [hfields]
    exact orderBy_eq_self (pairwise_orderBy _ _)
  have hperiods : orderBy BookPeriod.orderKey book.fields.periods = book.fields.periods := by
    rw [hfields]
    exact orderBy_eq_self (pairwise_orderBy _ _)
  have hsorted : (StoredBook.ofBook book hnodup).sorted = book.fields := by
    rw [StoredBook.sorted, StoredBook.fields_ofBook, StoredBook.transactions_ofBook]
    change ({ book.fields with
      accounts := orderBy Account.code book.fields.accounts
      periods := orderBy BookPeriod.orderKey book.fields.periods
      transactions := orderBy JournalTransaction.orderKey book.fields.transactions } :
        BookFields) = book.fields
    rw [haccounts, hperiods, htransactions]
  change (StoredBook.ofBook book hnodup).sorted.readBack = book.fields
  rw [hsorted, hfields, BookFields.readBack_readBack]

/-- A book whose rows are admitted is created, when nothing else goes wrong. -/
theorem createBook_of_admitted (clock : ℕ → ℤ) (ctx : AuditContext) {book : Book} {db : Database}
    (hranges : ChecksRanges) (h : Constrained db.tables)
    (hnew : ∀ r ∈ db.tables.books, r.bookCode ≠ book.code) (hadmitted : book.fields.Admitted) :
    createBook { clock } ctx book db = (.ok (buildWriteReceipt (bookRows book.fields)),
      db.insertAll ctx clock 0 (bookRows book.fields)) := by
  have hrows := (admitsAll_bookRows_iff hranges book.valid h.linked hnew).mpr hadmitted
  have hinserted : insertRows { clock } ctx 0 (bookRows book.fields) db =
      .ok (db.insertAll ctx clock 0 (bookRows book.fields)) := insertRows_of_admitsAll hrows
  have hchecks : validateAccountCollection book.fields.accounts = .ok () :=
    validateAccountCollection_eq_ok.mpr book.valid.accounts
  rw [createBook, hchecks, orRaise]
  refine writeRows_of_insertRows rfl rfl hinserted ?_
  rw [Database.tables_insertAll]
  exact parentsExist_bookRows book.valid h.parents

/-! ### Their texts -/

omit [Platform] in
/-- What can be stored can be converted to a text. -/
theorem isConvertible_of_bindsInt {n : ℤ} (h : BindsInt n) : IsConvertible n := by
  have hlength : (Integer.digits n).length ≤ 19 := by
    refine (Nat.length_toDigits_le_iff (by norm_num) (by norm_num)).mpr ?_
    obtain ⟨hlo, hhi⟩ := h
    omega
  exact hlength.trans (by decide)

/-- **What is loaded can be exported.** -/
theorem toJson_of_loadBook (hranges : ChecksRanges) {db : Database} (h : Reachable db)
    {code : String} {book : Book} (hload : loadBook db.tables code = .ok book) :
    (toJson book).Succeeds := by
  have hsmall : ∀ {n : ℤ}, 1 ≤ n → n ≤ 12 → IsConvertible n := by
    intro n h1 h12
    exact isConvertible_of_bindsInt ⟨by omega, by omega⟩
  have hadmitted := admitted_of_loadBook h hload
  have hperiod : ∀ p ∈ book.fields.periods, ∀ n ∈ (periodToMapping p.fields.period).integers,
      IsConvertible n := by
    intro p hp n hn
    obtain ⟨hquarter, hmonth⟩ := hranges.period _ _ _ p.fields.period.accepted
    simp only [PeriodPayload.integers, periodToMapping, List.mem_cons, List.not_mem_nil,
      or_false] at hn
    rcases hn with rfl | rfl | rfl
    · exact isConvertible_of_bindsInt (hadmitted.years p hp)
    · exact hsmall hquarter.1 (by omega)
    · exact hsmall hmonth.1 hmonth.2
  refine toJson_succeeds_iff.mpr fun n hn => ?_
  rcases List.mem_cons.mp hn with rfl | hn
  · have hmonth := hranges.calendar _ book.fields.fiscalCalendar.accepted
    exact hsmall hmonth.1 hmonth.2
  rcases List.mem_append.mp hn with hn | hn
  · obtain ⟨q, hq, hn⟩ := List.mem_flatMap.mp hn
    obtain ⟨p, hp, rfl⟩ := List.mem_map.mp hq
    exact hperiod p hp n hn
  · obtain ⟨q, hq, hn⟩ := List.mem_flatMap.mp hn
    obtain ⟨t, ht, rfl⟩ := List.mem_map.mp hq
    -- the periods of the transactions are those of the book
    cases hknown : t.fields.period with
    | none =>
      simp [transactionToMapping, hknown] at hn
    | some period =>
      obtain ⟨p, hp, rfl⟩ := List.mem_map.mp (book.valid.knownPeriods t ht period hknown)
      simp only [transactionToMapping, hknown, Option.map_some, Option.elim_some] at hn
      exact hperiod p hp n hn

end

/-! ### The move -/

section

variable [ValuePlatform]

/-- The way of a book to another database: it is exported, imported and created there, and
loaded as the same book; the other books there are loaded as before. -/
structure Moved (clock : ℕ → ℤ) (ctx : AuditContext) (book : Book) (target : Database)
    (artifact : TextArtifact) (target' : Database) : Prop where
  exported : toJson book = .ok artifact
  imported : readJson artifact.content = .ok book
  created : createBook { clock } ctx book target =
    (.ok (buildWriteReceipt (bookRows book.fields)), target')
  loaded : loadBook target'.tables book.code = .ok book
  others : ∀ code, code ≠ book.code → loadBook target'.tables code = loadBook target.tables code

/-- **A loaded book can be moved and stays the same**, between any two reachable databases of
which the second has no book with its code. -/
theorem moved_of_loadBook (hranges : ChecksRanges) {db target : Database} (h : Reachable db)
    (htarget : Reachable target) {code : String} {book : Book}
    (hload : loadBook db.tables code = .ok book)
    (hnew : ∀ r ∈ target.tables.books, r.bookCode ≠ code) (clock : ℕ → ℤ) (ctx : AuditContext) :
    ∃ artifact target', Moved clock ctx book target artifact target' := by
  obtain ⟨b, rfl, -, hplain, hfields⟩ := h.exists_stored hload
  have hcode : book.code = b.code := by rw [Book.code, hfields]; rfl
  rw [← hcode] at hnew
  obtain ⟨artifact, hartifact⟩ := toJson_of_loadBook hranges h hload
  have hperiods : ∀ p ∈ book.fields.periods, p.IsPlain := by
    intro p hp
    rw [hfields] at hp
    exact hplain p (mem_orderBy.mp hp)
  obtain ⟨imported, hround⟩ := exists_jsonRoundTrip hartifact hperiods
  -- what is loaded is in canonical form
  have hsame : imported = book :=
    Built.ext (by rw [hround.fields, hfields, BookFields.readBack_readBack])
  have hcreated := createBook_of_admitted clock ctx hranges htarget.constrained hnew
    (admitted_of_loadBook h hload)
  obtain ⟨hnodup, hholds⟩ := Holds.of_createBook htarget.schemaValid hcreated
  refine ⟨artifact, _, hartifact, hsame ▸ hround.read, hcreated, ?_, ?_⟩
  · rw [hcode]
    exact loadBook_of_loaded h hload hholds
  · intro code' hne
    rw [← loadBook_restrict, Database.tables_insertAll, Tables.restrict_pushAll_of_ne _
      (fun r => bookCode_of_mem_bookRows) (Ne.symm hne), loadBook_restrict]

end

/-! ### Evaluated -/

namespace Reference

/-- The book of a branch, with the sale of the main one. -/
def branchBook : BookFields := { bookFields [plainJanuary] [sale] with code := "CO" }

/-- The database of the branch. -/
def branchStored : Database := (call (.createBook ⟨branchBook, branchBook, by rfl⟩)).after {}

/-- The book of the sale is moved from its database to that of the branch, where the book of the
branch can still be loaded. -/
theorem moved_plainBook : ∃ book artifact target',
    loadBook saleStored.tables "BK" = .ok book ∧
      Moved (fun _ => 0) auditor book branchStored artifact target' ∧
        (loadBook target'.tables "CO").Succeeds := by
  have hreach : Reachable saleStored := Reachable.empty.after _
  have hbranch : Reachable branchStored := Reachable.empty.after _
  have hloads : (loadBook saleStored.tables "BK").toBool = true := by decide +kernel
  have hothers : (loadBook branchStored.tables "CO").toBool = true := by decide +kernel
  cases hload : loadBook saleStored.tables "BK" with
  | error e =>
    rw [hload] at hloads
    cases hloads
  | ok book =>
    have hnew : ∀ r ∈ branchStored.tables.books, r.bookCode ≠ "BK" := by decide +kernel
    obtain ⟨artifact, target', hmoved⟩ := moved_of_loadBook checksRanges hreach hbranch hload hnew
      (fun _ => 0) auditor
    refine ⟨book, artifact, target', rfl, hmoved, ?_⟩
    obtain ⟨b, hb, -, -, hfields⟩ := hreach.exists_stored hload
    have hcode : "CO" ≠ book.code := by
      rw [Book.code, hfields]
      exact fun h => absurd (h.trans hb) (by decide)
    rw [hmoved.others "CO" hcode]
    cases hother : loadBook branchStored.tables "CO" with
    | error e =>
      rw [hother] at hothers
      cases hothers
    | ok other => exact succeeds_ok other

end Reference

end FinestVX
