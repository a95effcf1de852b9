import FinestVX.Persistence.Growth
import FinestVX.Persistence.Loading

/-!
# No torn reads

Loading a book issues its queries one after the other, with no transaction around
them, and other connections commit writes in between.  What is loaded is nevertheless
the book of one committed state: the rows of a book, its accounts and its periods are
written together and never change, and so are a transaction and its entries.

## Main definitions

* `Seen` — the states successive queries see, between arbitrary calls.

## Main results

* `loadBookFrom_congr` — what loading depends on.
* `loadBook_not_torn` — **loading interleaved with writes** gives what loading from the
  state that the query for the transactions saw gives, unless the book did not exist
  at the first query.
-/

namespace FinestVX

open Except Relation

variable [Platform]

/-- The states successive queries see: `schedule i` are the calls executed between
query `i - 1` and query `i`. -/
def Seen (schedule : ℕ → List Call) : ℕ → Database
  | 0 => Call.afterAll (schedule 0) {}
  | i + 1 => Call.afterAll (schedule (i + 1)) (Seen schedule i)

theorem Seen.run (schedule : ℕ → List Call) {i j : ℕ} (h : i ≤ j) :
    ReflTransGen StoreStep (Seen schedule i) (Seen schedule j) := by
  induction j, h using Nat.le_induction with
  | base => exact .refl
  | succ j _ ih => exact ih.trans (Call.run_afterAll ..)

theorem Seen.reachable (schedule : ℕ → List Call) (i : ℕ) : Reachable (Seen schedule i) :=
  ReflTransGen.trans (Call.run_afterAll ..) (Seen.run schedule (Nat.zero_le i))

omit [Platform] in
/-- The entries that are loaded depend on the queries for the given transactions. -/
theorem entryRowsByReference_congr {view view' : ℕ → Tables} {code : String}
    {rows : List TransactionRow}
    (h : ∀ r ∈ rows, ∀ j, selectEntries code r.reference (view j) =
      selectEntries code r.reference (view' j)) :
    entryRowsByReference view code rows = entryRowsByReference view' code rows := by
  refine List.foldl_ext _ _ _ ?_
  intro d p hp
  have hmem : p.1 ∈ rows := List.fst_mem_of_mem_zipIdx hp
  simp only [h p.1 hmem p.2]

namespace StoredBook

theorem Extends.accounts {b b' : StoredBook} (h : b.Extends b') :
    b'.sorted.accounts = b.sorted.accounts :=
  congrArg (fun base : Book => orderBy Account.code base.fields.accounts) h.base

theorem Extends.periods {b b' : StoredBook} (h : b.Extends b') :
    b'.sorted.periods = b.sorted.periods :=
  congrArg (fun base : Book => orderBy BookPeriod.orderKey base.fields.periods) h.base

end StoredBook

/-- What loading depends on: the result of each query. -/
theorem loadBookFrom_congr {view view' : ℕ → Tables} {code : String}
    (hbook : (view 0).books.find? (·.bookCode = code) =
      (view' 0).books.find? (·.bookCode = code))
    (haccounts : selectAccounts code (view 1) = selectAccounts code (view' 1))
    (hperiods : selectPeriods code (view 2) = selectPeriods code (view' 2))
    (htransactions : selectTransactions code (view 3) = selectTransactions code (view' 3))
    (hentries : ∀ r ∈ selectTransactions code (view' 3), ∀ j,
      selectEntries code r.reference (view (4 + j)) =
        selectEntries code r.reference (view' (4 + j))) :
    loadBookFrom view code = loadBookFrom view' code := by
  have hrows := entryRowsByReference_congr hentries
  simp only [loadBookFrom, hbook, haccounts, hperiods, htransactions, hrows]

/-- **No torn reads**, from either kind of connection: with any calls before and
between the queries, either the book did not exist at the first query, which is
reported, or the result is that of loading from the state the query for the
transactions saw. -/
theorem loadBook_not_torn (schedule : ℕ → List Call) (code : String) :
    (¬ (Seen schedule 0).tables.HasBook code ∧
      loadBookFromConnection (fun i => (Seen schedule i).tables) code =
        .error (.keyError s!"Unknown book: {code}") ∧
      loadBookFromAsyncConnection (fun i => (Seen schedule i).tables) code =
        .error (.keyError s!"Unknown book: {code}")) ∨
    (loadBookFromConnection (fun i => (Seen schedule i).tables) code =
        loadBook (Seen schedule 3).tables code ∧
      loadBookFromAsyncConnection (fun i => (Seen schedule i).tables) code =
        asyncLoadBook (Seen schedule 3).tables code) := by
  by_cases hbook : (Seen schedule 0).tables.HasBook code
  · refine .inr ?_
    obtain ⟨σ, hσ⟩ := (Seen.reachable schedule 0).refines
    obtain ⟨b, hb⟩ := hσ.exists_of_hasBook hbook
    obtain ⟨rfl, hholds⟩ := hσ.holds hb
    -- at every query the tables hold an extension of the book of the first one
    have hlater : ∀ i, ∃ b', b.Extends b' ∧ Holds (Seen schedule i).tables b' := by
      intro i
      obtain ⟨σ', hσ', -, hext⟩ :=
        hσ.of_run (Seen.reachable schedule 0).keyed (Seen.run schedule (Nat.zero_le i))
      obtain ⟨b', hb', hbext⟩ := hext _ b hb
      exact ⟨b', hbext, (hσ'.holds hb').2⟩
    obtain ⟨b₁, hext₁, hholds₁⟩ := hlater 1
    obtain ⟨b₂, hext₂, hholds₂⟩ := hlater 2
    obtain ⟨b₃, hext₃, hholds₃⟩ := hlater 3
    have hload : loadBookFrom (fun i => (Seen schedule i).tables) b.code =
        loadBookFrom (fun _ => (Seen schedule 3).tables) b.code := by
      refine loadBookFrom_congr ?_ ?_ ?_ rfl ?_
      · have h₃ := hholds₃.find?_book
        rw [hext₃.code] at h₃
        rw [hholds.find?_book, h₃, hext₃.bookRow]
      · have h₁ := hholds₁.selectAccounts_eq
        have h₃ := hholds₃.selectAccounts_eq
        rw [hext₁.code] at h₁
        rw [hext₃.code] at h₃
        rw [h₁, h₃, hext₁.accounts, hext₃.accounts]
      · have h₂ := hholds₂.selectPeriods_eq
        have h₃ := hholds₃.selectPeriods_eq
        rw [hext₂.code] at h₂
        rw [hext₃.code] at h₃
        rw [h₂, h₃, hext₂.periods, hext₃.periods]
      · -- a transaction is stored together with its entries
        intro r hr j
        obtain ⟨hmem, hcode⟩ := List.mem_filter.mp (mem_orderBy.mp hr)
        have hkept := selectEntries_of_run (Seen.reachable schedule 3)
          (Seen.run schedule (show 3 ≤ 4 + j by omega)) hmem
        rwa [of_decide_eq_true hcode] at hkept
    exact ⟨hload, hload⟩
  · exact .inl ⟨hbook, loadBookFrom_of_unknown hbook, loadBookFrom_of_unknown hbook⟩

end FinestVX
