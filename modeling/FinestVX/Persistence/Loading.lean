import FinestVX.Persistence.Ledger

/-!
# Loading a stored book

Loading reads the rows of a book back in the order of the queries, decodes them
and runs the constructors again.  On the rows of a stored book the decoding
gives the book back, sorted and with canonical amounts; the constructor then
refuses it in two cases only, both of which the write operations let through: a
period whose bounds are datetimes, and a transaction in a period that is not a
period of the book.

## Main definitions

* `StoredBook.sorted` — the book in the order of the queries.
* `StoredBook.Plain`, `StoredBook.PeriodsKnown` — the two conditions.
* `StoredBook.readBack` — the book that is loaded.

## Main results

* `deserializeBook_eq` — what is raised while a book is decoded is raised by its constructor.
* `Holds.loadBook_eq` — what loading amounts to on the rows of a stored book.
* `Holds.loadBook_ok`, `Holds.loadBook_succeeds_iff` — a stored book is loaded
  exactly when the two conditions hold.
-/

namespace FinestVX

open Except

variable [Platform]

/-! ### The queries -/

/-- The key periods are loaded by. -/
def BookPeriod.orderKey (p : BookPeriod) : String ×ₗ String ×ₗ ℤ ×ₗ ℤ ×ₗ ℤ :=
  (periodRow "" p).orderKey

/-- The key transactions are loaded by: time and reference. -/
def JournalTransaction.orderKey (t : JournalTransaction) : String ×ₗ String :=
  (transactionRow "" t).orderKey

namespace StoredBook

/-- The book in the order of the queries. -/
def sorted (b : StoredBook) : BookFields :=
  { b.fields with
    accounts := orderBy Account.code b.base.fields.accounts
    periods := orderBy BookPeriod.orderKey b.base.fields.periods
    transactions := orderBy JournalTransaction.orderKey b.transactions }

/-- The bounds of all periods are dates. -/
def Plain (b : StoredBook) : Prop := ∀ p ∈ b.base.fields.periods, p.IsPlain

/-- Every transaction with a period is in a period of the book. -/
def PeriodsKnown (b : StoredBook) : Prop :=
  ∀ t ∈ b.transactions, ∀ p ∈ t.fields.period, p ∈ b.base.fields.periods.map BookPeriod.period

end StoredBook

omit [Platform] in
/-- A query for another reference leaves the entries of a reference alone. -/
theorem get?_foldl_set_of_notMem {view : ℕ → Tables} {code reference : String}
    {l : List (TransactionRow × ℕ)} (h : ∀ p ∈ l, p.1.reference ≠ reference)
    (d : Dict String (List EntryRow)) :
    (l.foldl (fun d (r, j) => d.set r.reference (selectEntries code r.reference (view j)))
      d).get? reference = d.get? reference := by
  induction l generalizing d with
  | nil => rfl
  | cons p l ih =>
    rw [List.foldl_cons, ih fun q hq => h q (by simp [hq]),
      Dict.get?_set_of_ne (h p (by simp))]

omit [Platform] in
/-- Each transaction has the entries its own query returned. -/
theorem get?_entryRowsByReference {view : ℕ → Tables} {code : String}
    {rows : List TransactionRow} (hnodup : (rows.map TransactionRow.reference).Nodup)
    {r : TransactionRow} {j : ℕ} (hr : (r, j) ∈ rows.zipIdx) :
    (entryRowsByReference view code rows).get? r.reference =
      some (selectEntries code r.reference (view j)) := by
  have key : ∀ k (d : Dict String (List EntryRow)), (r, j) ∈ rows.zipIdx k →
      ((rows.zipIdx k).foldl
        (fun d (r, j) => d.set r.reference (selectEntries code r.reference (view j))) d).get?
          r.reference = some (selectEntries code r.reference (view j)) := by
    clear hr
    induction rows with
    | nil => simp
    | cons x rows ih =>
      intro k d hr
      rw [List.map_cons, List.nodup_cons] at hnodup
      rw [List.zipIdx_cons, List.foldl_cons]
      rw [List.zipIdx_cons] at hr
      rcases List.mem_cons.mp hr with heq | hr
      · -- the later queries are for other references
        cases heq
        rw [get?_foldl_set_of_notMem, Dict.get?_set_self]
        rintro ⟨y, i⟩ hy heq
        exact hnodup.1 (heq ▸ List.mem_map_of_mem (List.fst_mem_of_mem_zipIdx hy))
      · exact ih hnodup.2 (k + 1) _ hr
  exact key 0 [] hr

omit [Platform] in
/-- The payload of the transactions, each with its entries, when the database does not change. -/
theorem map_toPayload_entryRowsByReference {t : Tables} {code : String}
    {rows : List TransactionRow} (hnodup : (rows.map TransactionRow.reference).Nodup) :
    rows.map (fun r => r.toPayload
      (((entryRowsByReference (fun _ => t) code rows).get? r.reference).getD [])) =
      rows.map fun r => r.toPayload (selectEntries code r.reference t) := by
  refine List.map_congr_left fun r hr => ?_
  obtain ⟨j, hj⟩ := List.mem_iff_getElem?.mp hr
  rw [get?_entryRowsByReference hnodup (List.mk_mem_zipIdx_iff_getElem?.mpr hj), Option.getD_some]

/-- A book that is not stored is reported as such. -/
theorem loadBookFrom_of_unknown {view : ℕ → Tables} {code : String}
    (h : ¬ (view 0).HasBook code) :
    loadBookFrom view code = .error (.keyError s!"Unknown book: {code}") := by
  have hnone : (view 0).books.find? (·.bookCode = code) = none := by
    apply List.find?_eq_none.mpr
    intro b hb hcode
    exact h ⟨b, hb, of_decide_eq_true hcode⟩
  rw [loadBookFrom, hnone]

theorem loadBook_of_unknown {t : Tables} {code : String} (h : ¬ t.HasBook code) :
    loadBook t code = .error (.keyError s!"Unknown book: {code}") := by
  rw [loadBook, loadBookFromConnection, loadBookFrom_of_unknown h]

/-- **The two checks made after the constructor of the book cannot fail any more.** -/
theorem deserializeBook_eq (code : String) (payload : BookPayload) :
    deserializeBook code payload = reraise (bookFromMapping payload) fun e =>
      .persistenceIntegrityError
        s!"Stored book {strRepr code} could not be deserialized: {e.message}" := by
  unfold deserializeBook
  cases reraise (bookFromMapping payload) _ with
  | error e => rfl
  | ok book =>
    have haccounts : validateAccountCollection book.fields.accounts = .ok () :=
      validateAccountCollection_eq_ok.mpr book.valid.accounts
    have hbalanced : ∀ x ∈ book.fields.transactions,
        validateTransactionEntries x.fields.entries = .ok () := fun x hx =>
      x.valid.balanced (book.valid.postable x hx).posted
    rw [ok_bind, haccounts, reraise, Except.mapError, ok_bind,
      checkAll_eq_ok.mpr fun x hx => by rw [hbalanced x hx]; rfl, ok_bind]
    rfl

namespace Holds

variable {t : Tables} {b : StoredBook}

theorem find?_book (h : Holds t b) :
    t.books.find? (·.bookCode = b.code) = some (bookRow b.fields) := by
  have hfilter : t.books.filter (·.bookCode = b.code) = [bookRow b.fields] := by
    have := congrArg Tables.books h
    rwa [tablesOf_some] at this
  rw [← List.head?_filter, hfilter]
  rfl

theorem selectAccounts_eq (h : Holds t b) : selectAccounts b.code t =
    b.sorted.accounts.map (accountRow b.code) := by
  have hfilter : t.accounts.filter (·.bookCode = b.code) =
      b.base.fields.accounts.map (accountRow b.code) := by
    have := congrArg Tables.accounts h
    rwa [tablesOf_some] at this
  rw [selectAccounts, hfilter, orderBy_map]
  rfl

theorem selectPeriods_eq (h : Holds t b) : selectPeriods b.code t =
    b.sorted.periods.map (periodRow b.code) := by
  have hfilter : t.periods.filter (·.bookCode = b.code) =
      b.base.fields.periods.map (periodRow b.code) := by
    have := congrArg Tables.periods h
    rwa [tablesOf_some] at this
  rw [selectPeriods, hfilter, orderBy_map]
  rfl

theorem filter_transactions (h : Holds t b) : t.transactions.filter (·.bookCode = b.code) =
    b.transactions.map (transactionRow b.code) := by
  have := congrArg Tables.transactions h
  rwa [tablesOf_some] at this

theorem selectTransactions_eq (h : Holds t b) : selectTransactions b.code t =
    b.sorted.transactions.map (transactionRow b.code) := by
  rw [selectTransactions, h.filter_transactions, orderBy_map]
  rfl

theorem nodup_selectTransactions (h : Holds t b) :
    ((selectTransactions b.code t).map TransactionRow.reference).Nodup := by
  rw [h.selectTransactions_eq, List.map_map]
  change (b.sorted.transactions.map JournalTransaction.reference).Nodup
  exact ((orderBy_perm _ b.transactions).map _).nodup_iff.mpr b.nodup_references

/-- What loading amounts to on the rows of a stored book. -/
theorem loadBook_eq (h : Holds t b) :
    loadBook t b.code = deserializeBook b.code b.sorted.toMapping := by
  have hentries : ∀ x ∈ b.sorted.transactions, (transactionRow b.code x).toPayload
      (selectEntries b.code x.reference t) = transactionToMapping x := by
    intro x hx
    rw [h.selectEntries_eq (mem_orderBy.mp hx), toPayload_transactionRow]
  have htransactions : (selectTransactions b.code t).map
      (fun r => r.toPayload (selectEntries b.code r.reference t)) =
      b.sorted.transactions.map transactionToMapping := by
    rw [h.selectTransactions_eq, List.map_map]
    exact List.map_congr_left hentries
  -- the flags of an account are stored as integers
  have haccounts : (accountRow b.code · |>.toPayload) = accountToMapping := by
    funext a
    simp only [accountRow, AccountRow.toPayload, accountToMapping]
    cases a.fields.allowPosting <;> cases a.fields.active <;> rfl
  rw [loadBook, loadBookFromConnection, loadBookFrom, h.find?_book]
  dsimp only
  rw [buildBookPayload, map_toPayload_entryRowsByReference h.nodup_selectTransactions,
    htransactions, h.selectAccounts_eq, h.selectPeriods_eq, List.map_map, List.map_map]
  congr 1
  simp only [BookFields.toMapping]
  congr 1
  exact congrArg (List.map · b.sorted.accounts) haccounts

end Holds

/-! ### Decoding -/

namespace StoredBook

theorem named_sorted (b : StoredBook) : b.sorted.Named where
  code := b.base.valid.code
  name := b.base.valid.name
  baseCurrencyText := b.base.valid.baseCurrencyText
  legislativePack := b.base.valid.legislativePack

/-- The order of the queries keeps what the constructor checks, if the periods are known. -/
theorem valid_sorted (b : StoredBook) (hknown : b.PeriodsKnown) : b.sorted.Valid := by
  have haccounts := orderBy_perm Account.code b.base.fields.accounts
  have hperiods := orderBy_perm BookPeriod.orderKey b.base.fields.periods
  exact
    { code := b.base.valid.code
      name := b.base.valid.name
      baseCurrency := b.base.valid.baseCurrency
      baseCurrencyText := b.base.valid.baseCurrencyText
      legislativePack := b.base.valid.legislativePack
      accounts := b.base.valid.accounts.perm haccounts.symm
      periods := b.base.valid.periods.perm hperiods.symm
      postable := by
        intro t ht
        have hpostable := b.postable_of_mem (mem_orderBy.mp ht)
        exact ⟨hpostable.posted, fun e he =>
          (haccounts.map Account.code).mem_iff.mpr (hpostable.accounts e he)⟩
      knownPeriods := by
        intro t ht p hp
        exact (hperiods.map BookPeriod.period).mem_iff.mpr (hknown t (mem_orderBy.mp ht) p hp) }

/-- What is read back passes the checks of the constructor, if its periods are known. -/
theorem valid_readBack (b : StoredBook) (hknown : b.PeriodsKnown) : b.sorted.readBack.Valid :=
  (b.valid_sorted hknown).readBack

/-- The book that is loaded. -/
def readBack (b : StoredBook) (hknown : b.PeriodsKnown) : Book :=
  ⟨b.sorted.readBack, b.sorted.readBack, (b.valid_readBack hknown).postInit⟩

end StoredBook

namespace Holds

variable {t : Tables} {b : StoredBook}

/-- **A stored book is loaded** when its periods are plain and all known. -/
theorem loadBook_ok (h : Holds t b) (hplain : b.Plain) (hknown : b.PeriodsKnown) :
    loadBook t b.code = .ok (b.readBack hknown) := by
  have hdecode : bookFromMapping b.sorted.toMapping = .ok (b.readBack hknown) := by
    rw [bookFromMapping_toMapping b.named_sorted fun p hp => hplain p (mem_orderBy.mp hp)]
    exact Built.new_eq_ok_iff.mpr (b.valid_readBack hknown).postInit
  rw [h.loadBook_eq, deserializeBook_eq, hdecode]
  rfl

theorem succeeds_bookFromMapping (h : Holds t b) (hload : (loadBook t b.code).Succeeds) :
    (bookFromMapping b.sorted.toMapping).Succeeds := by
  rw [h.loadBook_eq, deserializeBook_eq] at hload
  obtain ⟨r, hr⟩ := hload
  unfold reraise at hr
  cases hmap : bookFromMapping b.sorted.toMapping with
  | ok r' => exact succeeds_ok r'
  | error e =>
    rw [hmap] at hr
    cases hr

/-- **A stored book is loaded exactly when** its periods have plain dates and
cover those of its transactions. -/
theorem loadBook_succeeds_iff (h : Holds t b) :
    (loadBook t b.code).Succeeds ↔ b.Plain ∧ b.PeriodsKnown := by
  constructor
  · intro hload
    have hdecode := h.succeeds_bookFromMapping hload
    have hplain : b.Plain := by
      intro p hp
      by_contra hnot
      exact bookFromMapping_toMapping_fails (mem_orderBy.mpr hp) hnot hdecode
    refine ⟨hplain, ?_⟩
    intro x hx p hp
    rw [bookFromMapping_toMapping b.named_sorted fun p hp => hplain p (mem_orderBy.mp hp)]
      at hdecode
    obtain ⟨r, hr⟩ := Built.new_succeeds_iff.mp hdecode
    obtain ⟨-, hperiods, htransactions⟩ := BookFields.kept_of_eq_ok hr
    have hread : x.readBack ∈ r.transactions := by
      rw [htransactions]
      exact List.mem_map_of_mem (mem_orderBy.mpr hx)
    have hmem := (BookFields.of_eq_ok hr).2.knownPeriods _ hread p hp
    rw [hperiods] at hmem
    exact ((orderBy_perm BookPeriod.orderKey b.base.fields.periods).map
      BookPeriod.period).mem_iff.mp hmem
  · rintro ⟨hplain, hknown⟩
    exact ⟨_, h.loadBook_ok hplain hknown⟩

end Holds

/-- A loaded book is the stored one, read back. -/
theorem exists_stored_of_loadBook {t : Tables} {σ : Ledger} (hσ : Refines t σ) {code : String}
    {book : Book} (hload : loadBook t code = .ok book) :
    ∃ b, σ code = some b ∧ book.fields = b.sorted.readBack := by
  have hbook : t.HasBook code := by
    by_contra hnone
    rw [loadBook_of_unknown hnone] at hload
    cases hload
  obtain ⟨b, hb⟩ := hσ.exists_of_hasBook hbook
  obtain ⟨rfl, hholds⟩ := hσ.holds hb
  obtain ⟨hplain, hknown⟩ := hholds.loadBook_succeeds_iff.mp ⟨book, hload⟩
  rw [hholds.loadBook_ok hplain hknown] at hload
  cases hload
  exact ⟨b, hb, rfl⟩

end FinestVX
