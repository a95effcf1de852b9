import FinestVX.Lib.Unwinding
import FinestVX.Persistence.Loading

/-!
# Books do not interfere

Many books live in one database.  Every check of a write looks at the rows of its own
book, and every row a write inserts belongs to it, so what the calls on one book
return, what is loaded of it and what the audit log says about it are the same
whatever happens to the other books.

## Main definitions

* `Op.bookCode`, `AuditRow.bookCode` — the book an operation and an audit row are about.
* `BookView`, `bookView` — what a database holds of one book.

## Main results

* `Tables.admits_restrict` — the constraints on rows of a book see that book only.
* `unwinding_bookView` — a call acts on the book it is about.
* `books_isolated` — **a run looks to one book like the run of its own calls.**
-/

namespace FinestVX

open Except

/-! ### What belongs to a book -/

/-- The book an operation is about. -/
def Op.bookCode [Platform] : Op → String
  | .createBook book => book.code
  | .appendTransaction code _ => code
  | .appendReversal code _ _ => code
  | .appendLegislativeResult code _ _ => code

/-- The book an audit row is about, which its payload names. -/
def AuditRow.bookCode (a : AuditRow) : Option String :=
  match a.rowPayload with
  | .object fields =>
    match fields.lookup "book_code" with
    | some (.text code) => some code
    | _ => none
  | _ => none

/-- An audit row but for its number, which counts the rows of all books. -/
def AuditRow.unnumbered (a : AuditRow) : AuditRow := { a with seq := 0 }

/-- What a database holds of one book. -/
structure BookView where
  tables : Tables
  trail : List AuditRow

/-- The audit rows of a book, but for their numbers. -/
def bookTrail (code : String) (log : List AuditRow) : List AuditRow :=
  (log.filter (·.bookCode = some code)).map AuditRow.unnumbered

/-- The rows of a book and its audit rows. -/
def bookView (code : String) (db : Database) : BookView :=
  ⟨db.tables.restrict code, bookTrail code db.auditLog⟩

theorem bookView_eq_iff {code : String} {db db' : Database} : bookView code db = bookView code db' ↔
    db.tables.restrict code = db'.tables.restrict code ∧
      bookTrail code db.auditLog = bookTrail code db'.auditLog := by
  rw [bookView, bookView, BookView.mk.injEq]

@[simp] theorem bookTrail_append (code : String) (log log' : List AuditRow) :
    bookTrail code (log ++ log') = bookTrail code log ++ bookTrail code log' := by
  rw [bookTrail, List.filter_append, List.map_append]
  rfl

theorem bookTrail_singleton (code : String) (a : AuditRow) :
    bookTrail code [a] = if a.bookCode = some code then [a.unnumbered] else [] := by
  rw [bookTrail, List.filter_singleton]
  by_cases h : a.bookCode = some code <;> simp [h]

/-! ### Constraints see one book -/

namespace Tables

/-- The constraints on a row look at the rows of its book. -/
theorem admits_restrict (t : Tables) (r : CoreRow) :
    (t.restrict r.bookCode).Admits r ↔ t.Admits r := by
  cases r <;> simp only [CoreRow.bookCode, Admits]
  case book r => simp [AdmitsBook, restrict]
  case account r => simp +contextual [AdmitsAccount, HasBook, restrict]
  case period r => simp +contextual [AdmitsPeriod, HasBook, restrict]
  case transaction r => simp +contextual [AdmitsTransaction, HasBook, restrict]
  case entry r => simp +contextual [AdmitsEntry, restrict, and_assoc]

/-- The parents of accounts are looked for in their book. -/
theorem parentsExist_iff_restrict (t : Tables) :
    t.ParentsExist ↔ ∀ code, (t.restrict code).ParentsExist := by
  simp only [ParentsExist, restrict, List.mem_filter, decide_eq_true_eq]
  constructor
  · rintro h code a ⟨ha, hcode⟩ p hp
    obtain ⟨b, hb, hbook, hparent⟩ := h a ha p hp
    exact ⟨b, ⟨hb, hbook.trans hcode⟩, hbook, hparent⟩
  · intro h a ha p hp
    obtain ⟨b, ⟨hb, -⟩, hbook, hparent⟩ := h a.bookCode a ⟨ha, rfl⟩ p hp
    exact ⟨b, hb, hbook, hparent⟩

/-- After rows of one book were inserted, the parents of its accounts decide. -/
theorem parentsExist_pushAll_iff {t : Tables} (h : t.ParentsExist) {rows : List CoreRow}
    {code : String} (hrows : ∀ r ∈ rows, r.bookCode = code) :
    (t.pushAll rows).ParentsExist ↔ ((t.pushAll rows).restrict code).ParentsExist := by
  constructor
  · intro hall
    exact (parentsExist_iff_restrict _).mp hall code
  · intro hcode
    refine (parentsExist_iff_restrict _).mpr fun code' => ?_
    by_cases hne : code = code'
    · exact hne ▸ hcode
    · rw [restrict_pushAll_of_ne t hrows hne]
      exact (parentsExist_iff_restrict t).mp h code'

end Tables

/-! ### Inserting -/

section

variable [Platform] {w : World} {ctx : AuditContext} {code : String} {db db' : Database}

@[simp] theorem bookCode_auditInsert (ctx : AuditContext) (ms : ℤ) (log : List AuditRow)
    (r : CoreRow) : (auditInsert ctx ms log r).bookCode = some r.bookCode := by
  cases r <;> simp [AuditRow.bookCode, auditInsert, CoreRow.payload, CoreRow.bookCode]

@[simp] theorem bookCode_auditResult (ctx : AuditContext) (ms : ℤ) (log : List AuditRow)
    (code reference : String) (result : LegislativeValidationResult) :
    (auditResult ctx ms log code reference result).bookCode = some code := by
  simp [AuditRow.bookCode, auditResult, resultPayload]

/-- A row of a book is inserted into what is held of it. -/
theorem bookView_insert_self (ms : ℤ) {r : CoreRow} (hr : r.bookCode = code) :
    bookView code (db.insert ctx ms r) = ⟨(bookView code db).tables.push r,
      (bookView code db).trail ++ [(auditInsert ctx ms [] r).unnumbered]⟩ := by
  rw [bookView, Database.insert, Tables.restrict_push, if_pos hr, bookTrail_append]
  congr 2
  rw [bookTrail_singleton, bookCode_auditInsert, hr, if_pos rfl]
  rfl

/-- A row of another book changes nothing that is held of a book. -/
theorem bookView_insert_of_ne (ms : ℤ) {r : CoreRow} (hr : r.bookCode ≠ code) :
    bookView code (db.insert ctx ms r) = bookView code db := by
  refine bookView_eq_iff.mpr ⟨?_, ?_⟩
  · rw [Database.insert, Tables.restrict_push, if_neg hr]
  · rw [Database.insert, bookTrail_append, bookTrail_singleton, bookCode_auditInsert,
      if_neg fun h => hr (Option.some.inj h), List.append_nil]

theorem bookView_insertAll_of_ne {clock : ℕ → ℤ} {i : ℕ} {rows : List CoreRow} {code' : String}
    (hrows : ∀ r ∈ rows, r.bookCode = code') (hne : code' ≠ code) :
    bookView code (db.insertAll ctx clock i rows) = bookView code db := by
  induction rows generalizing i db with
  | nil => rfl
  | cons r rows ih =>
    rw [Database.insertAll, ih fun x hx => hrows x (by simp [hx]),
      bookView_insert_of_ne _ (by rwa [hrows r (by simp)])]

/-- Inserting rows of a book succeeds, fails and acts on what is held of the book in a way
that depends on nothing else. -/
theorem map_bookView_insertRows {i : ℕ} {rows : List CoreRow}
    (hrows : ∀ r ∈ rows, r.bookCode = code) (h : bookView code db = bookView code db') :
    (insertRows w ctx i rows db).map (bookView code) =
      (insertRows w ctx i rows db').map (bookView code) := by
  induction rows generalizing i db db' with
  | nil => exact congrArg Except.ok h
  | cons r rows ih =>
    obtain ⟨hr, hrest⟩ := List.forall_mem_cons.mp hrows
    have hadmits : db.tables.Admits r ↔ db'.tables.Admits r := by
      rw [← db.tables.admits_restrict, ← db'.tables.admits_restrict, hr,
        (bookView_eq_iff.mp h).1]
    rw [insertRows, insertRows]
    cases raising (w.insertFault i) with
    | error e => rfl
    | ok _ =>
      rw [ok_bind, ok_bind, execute, execute]
      by_cases hd : db.tables.Admits r
      · rw [if_pos hd, if_pos (hadmits.mp hd), ok_bind, ok_bind]
        exact ih hrest (by rw [bookView_insert_self _ hr, bookView_insert_self _ hr, h])
      · rw [if_neg hd, if_neg fun hd' => hd (hadmits.mpr hd')]

/-! ### One call -/

/-- Two outcomes of a write that a book cannot tell apart. -/
def SameTo (code : String) (x y : Except PyError StoreWriteReceipt × Database) : Prop :=
  x.1 = y.1 ∧ bookView code x.2 = bookView code y.2

omit [Platform] in
/-- An operation whose effect on a book depends on the book only, in one transaction. -/
theorem sameTo_executeWrite {operation : Database → Except PyError Database}
    {receipt : StoreWriteReceipt} (h : bookView code db = bookView code db')
    (hop : (operation db).map (bookView code) = (operation db').map (bookView code))
    (hparents : ∀ d, operation db = .ok d →
      (d.tables.ParentsExist ↔ (d.tables.restrict code).ParentsExist))
    (hparents' : ∀ d, operation db' = .ok d →
      (d.tables.ParentsExist ↔ (d.tables.restrict code).ParentsExist)) :
    SameTo code (executeWrite w operation receipt db) (executeWrite w operation receipt db') := by
  unfold executeWrite withConnection runTransaction
  cases raising w.beginFault with
  | error e => exact ⟨rfl, h⟩
  | ok _ =>
    simp only [ok_bind]
    cases hd : operation db with
    | error e =>
      cases hd' : operation db' with
      | ok d' => simp [hd, hd', Except.map] at hop
      | error e' =>
        obtain rfl : e = e' := by simpa [hd, hd', Except.map] using hop
        exact ⟨rfl, h⟩
    | ok d =>
      cases hd' : operation db' with
      | error e' => simp [hd, hd', Except.map] at hop
      | ok d' =>
        have hview : bookView code d = bookView code d' := by
          simpa [hd, hd', Except.map] using hop
        have hiff : d.tables.ParentsExist ↔ d'.tables.ParentsExist := by
          rw [hparents d hd, hparents' d' hd', (bookView_eq_iff.mp hview).1]
        simp only [ok_bind, commit]
        cases raising w.commitFault with
        | error e => exact ⟨rfl, h⟩
        | ok _ =>
          by_cases hp : d.tables.ParentsExist
          · simpa [hp, hiff.mp hp] using ⟨rfl, hview⟩
          · have hp' : ¬ d'.tables.ParentsExist := fun hp' => hp (hiff.mpr hp')
            simpa [hp, hp'] using ⟨rfl, h⟩

/-- Rows of a book are written in a way that depends on the book only. -/
theorem sameTo_writeRows {rows : List CoreRow} (hrows : ∀ r ∈ rows, r.bookCode = code)
    (hparents : db.tables.ParentsExist) (hparents' : db'.tables.ParentsExist)
    (h : bookView code db = bookView code db') :
    SameTo code (writeRows w ctx rows db) (writeRows w ctx rows db') := by
  refine sameTo_executeWrite h (map_bookView_insertRows hrows h) ?_ ?_
  · intro d hd
    obtain ⟨-, rfl⟩ := insertRows_eq_ok hd
    rw [Database.tables_insertAll]
    exact Tables.parentsExist_pushAll_iff hparents hrows
  · intro d hd
    obtain ⟨-, rfl⟩ := insertRows_eq_ok hd
    rw [Database.tables_insertAll]
    exact Tables.parentsExist_pushAll_iff hparents' hrows

omit [Platform] in
/-- Checks that give the same result are followed by writes. -/
theorem sameTo_orRaise {α : Type} {checks checks' : Except PyError α}
    {k k' : α → Except PyError StoreWriteReceipt × Database} (hchecks : checks = checks')
    (h : bookView code db = bookView code db')
    (hk : ∀ a, checks = .ok a → SameTo code (k a) (k' a)) :
    SameTo code (orRaise checks db k) (orRaise checks' db' k') := by
  subst hchecks
  cases hc : checks with
  | error e => exact ⟨rfl, h⟩
  | ok a => exact hk a hc

/-- The checks of `append_transaction` look at the book only. -/
theorem appendTransactionChecks_restrict (w : World) (code : String) (t : JournalTransaction)
    (tables : Tables) : appendTransactionChecks w code t (tables.restrict code) =
      appendTransactionChecks w code t tables := by
  unfold appendTransactionChecks
  rw [accountCodes_restrict]

/-- The checks of `append_reversal` look at the book only. -/
theorem reversalTransaction_restrict (w : World) (code o r : String) (tables : Tables) :
    reversalTransaction w code o r (tables.restrict code) =
      reversalTransaction w code o r tables := by
  have hchecks : reversalChecks code o r (tables.restrict code) =
      reversalChecks code o r tables := by
    unfold reversalChecks
    simp only [findTransaction_restrict, hasBook_restrict, exists_transaction_restrict]
  unfold reversalTransaction
  rw [hchecks, selectEntries_restrict]

theorem tables_of_insertResult {code ref : String} {result : LegislativeValidationResult}
    {d : Database} (h : insertResult w ctx code ref result db = .ok d) : d.tables = db.tables := by
  obtain ⟨_, -, h⟩ := bind_eq_ok.mp h
  cases h
  rfl

/-- **A call acts on the book it is about**, in a way that depends on this book only. -/
theorem Call.sameTo_run (c : Call) (hparents : db.tables.ParentsExist)
    (hparents' : db'.tables.ParentsExist)
    (h : bookView c.op.bookCode db = bookView c.op.bookCode db') :
    SameTo c.op.bookCode (c.run db) (c.run db') := by
  obtain ⟨op, ctx, w⟩ := c
  have hrestrict := (bookView_eq_iff.mp h).1
  cases op with
  | createBook book =>
    exact sameTo_orRaise rfl h fun _ _ =>
      sameTo_writeRows (fun _ => bookCode_of_mem_bookRows) hparents hparents' h
  | appendTransaction code t =>
    refine sameTo_orRaise ?_ h fun _ _ =>
      sameTo_writeRows (fun _ => bookCode_of_mem_transactionRows) hparents hparents' h
    rw [← appendTransactionChecks_restrict, ← appendTransactionChecks_restrict w code t db'.tables]
    exact congrArg _ hrestrict
  | appendReversal code o r =>
    refine sameTo_orRaise ?_ h fun _ _ =>
      sameTo_writeRows (fun _ => bookCode_of_mem_transactionRows) hparents hparents' h
    rw [← reversalTransaction_restrict, ← reversalTransaction_restrict w code o r db'.tables]
    exact congrArg _ hrestrict
  | appendLegislativeResult code ref result =>
    -- the one row that is inserted is an audit row
    refine sameTo_executeWrite h ?_ ?_ ?_
    · unfold insertResult
      cases raising (w.insertFault 0) with
      | error e => rfl
      | ok _ =>
        refine congrArg Except.ok (bookView_eq_iff.mpr ⟨hrestrict, ?_⟩)
        rw [bookTrail_append, bookTrail_append, (bookView_eq_iff.mp h).2]
        have hlogs : ∀ log, bookTrail code [auditResult ctx (w.clock 0) log code ref result] =
            [(auditResult ctx (w.clock 0) [] code ref result).unnumbered] := by
          intro log
          rw [bookTrail_singleton, if_pos (bookCode_auditResult ..)]
          rfl
        exact congrArg _ ((hlogs _).trans (hlogs _).symm)
    · intro d hd
      rw [tables_of_insertResult hd]
      exact iff_of_true hparents ((Tables.parentsExist_iff_restrict _).mp hparents _)
    · intro d hd
      rw [tables_of_insertResult hd]
      exact iff_of_true hparents' ((Tables.parentsExist_iff_restrict _).mp hparents' _)

/-- A call leaves the other books alone. -/
theorem Call.bookView_run_of_ne (c : Call) (hne : c.op.bookCode ≠ code) :
    bookView code (c.run db).2 = bookView code db := by
  cases hrun : c.run db with
  | mk outcome db' =>
    cases outcome with
    | error e => rw [Call.run_error hrun]
    | ok receipt =>
      obtain ⟨op, ctx, w⟩ := c
      cases op with
      | createBook book =>
        obtain ⟨_, -, h⟩ := orRaise_ok hrun
        obtain ⟨-, -, rfl⟩ := writeRows_ok h
        exact bookView_insertAll_of_ne (fun _ => bookCode_of_mem_bookRows) hne
      | appendTransaction code' t =>
        obtain ⟨_, -, h⟩ := orRaise_ok hrun
        obtain ⟨-, -, rfl⟩ := writeRows_ok h
        exact bookView_insertAll_of_ne (fun _ => bookCode_of_mem_transactionRows) hne
      | appendReversal code' o r =>
        obtain ⟨_, -, h⟩ := orRaise_ok hrun
        obtain ⟨-, -, rfl⟩ := writeRows_ok h
        exact bookView_insertAll_of_ne (fun _ => bookCode_of_mem_transactionRows) hne
      | appendLegislativeResult code' ref result =>
        obtain ⟨hinsert, -⟩ := executeWrite_ok hrun
        obtain ⟨_, -, hinsert⟩ := bind_eq_ok.mp hinsert
        cases hinsert
        have hother : ¬ some code' = some code := fun h => hne (Option.some.inj h)
        refine bookView_eq_iff.mpr ⟨rfl, ?_⟩
        rw [bookTrail_append, bookTrail_singleton, bookCode_auditResult, if_neg hother,
          List.append_nil]

/-- The parents of accounts exist after every call. -/
theorem Call.parentsExist_run (c : Call) (h : db.tables.ParentsExist) :
    (c.run db).2.tables.ParentsExist := by
  change (c.after db).tables.ParentsExist
  rcases c.after_cases db with hsame | ⟨rows, -, -, hparents, heffect⟩
  · rwa [hsame]
  · rwa [heffect.tables]

/-! ### Runs -/

/-- The call is about the book. -/
def Call.about (code : String) (c : Call) : Bool := c.op.bookCode = code

/-- **A call acts on the book it is about and on no other.** -/
theorem unwinding_bookView (code : String) : Unwinding Call.run (Call.about code) (bookView code)
    fun db => db.tables.ParentsExist where
  keeps c db h := c.parentsExist_run h
  outcome c db db' h h' hown hview := by
    obtain rfl := of_decide_eq_true hown
    exact (c.sameTo_run h h' hview).1
  consistent c db db' h h' hown hview := by
    obtain rfl := of_decide_eq_true hown
    exact (c.sameTo_run h h' hview).2
  respects c db _ hother := c.bookView_run_of_ne (of_decide_eq_false hother)

/-- A book is loaded from its own rows. -/
theorem loadBook_restrict (t : Tables) (code : String) :
    loadBook (t.restrict code) code = loadBook t code := by
  have haccounts : selectAccounts code (t.restrict code) = selectAccounts code t := by
    simp [selectAccounts, Tables.restrict]
  have hperiods : selectPeriods code (t.restrict code) = selectPeriods code t := by
    simp [selectPeriods, Tables.restrict]
  have htransactions : selectTransactions code (t.restrict code) = selectTransactions code t := by
    simp [selectTransactions, Tables.restrict]
  have hbook : (t.restrict code).books.find? (·.bookCode = code) =
      t.books.find? (·.bookCode = code) := find?_filter _ _ _ fun _ h => h
  unfold loadBook loadBookFromConnection loadBookFrom
  simp only [haccounts, hperiods, htransactions, hbook, entryRowsByReference,
    selectEntries_restrict]

/-- **Books do not interfere.**  What the calls on one book return or raise, what is loaded
of it after the run, and its audit rows but for their numbers are what they are when the
calls on other books are left out. -/
theorem books_isolated (calls : List Call) (code : String) :
    outcomesOf Call.run (Call.about code) calls {} =
        outcomesOf Call.run (Call.about code) (calls.filter (Call.about code)) {} ∧
      loadBook (Call.afterAll calls {}).tables code =
        loadBook (Call.afterAll (calls.filter (Call.about code)) {}).tables code ∧
      bookTrail code (Call.afterAll calls {}).auditLog =
        bookTrail code (Call.afterAll (calls.filter (Call.about code)) {}).auditLog := by
  have hempty : ({} : Database).tables.ParentsExist := by
    intro a ha
    cases ha
  obtain ⟨houtcomes, hview⟩ := (unwinding_bookView code).purge calls hempty
  obtain ⟨htables, htrail⟩ := bookView_eq_iff.mp hview
  refine ⟨houtcomes, ?_, htrail⟩
  rw [← loadBook_restrict, ← loadBook_restrict (Call.afterAll (calls.filter _) {}).tables]
  exact congrArg (loadBook · code) htables

end

end FinestVX
