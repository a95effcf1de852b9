import FinestVX.Persistence.RoundTrip

/-!
# The errors of appending a transaction

Whether a book is stored is read off its accounts: a book without accounts is reported as
an unknown one.

## Main definitions

* `RaisesKeyError`, `RaisesValueError` — the exceptions that tell the caller what is wrong.
* `World.Answers` — the query is answered, and the faults are those of the database.
* `AppendContract` — what each exception says about the book and the entries.

## Main results

* `writeRows_error_cases` — what a group of inserts raises.
* `appendContract_iff` — **the exceptions mean what they say exactly when** the book, if it
  is stored, has an account.
* `Reference.emptyBook_unknown` — a stored book that is reported as unknown.
-/

namespace FinestVX

open Except

section

variable [Platform]

/-! ### The exceptions -/

/-- A `KeyError` is raised. -/
def RaisesKeyError {α : Type} (outcome : Except PyError α) : Prop :=
  ∃ msg, outcome = .error (.keyError msg)

/-- A `ValueError` is raised. -/
def RaisesValueError {α : Type} (outcome : Except PyError α) : Prop :=
  ∃ msg, outcome = .error (.valueError msg)

/-- A fault of the transaction that a call makes. -/
def World.Faults (w : World) (e : PyError) : Prop :=
  w.beginFault = some e ∨ (∃ i, w.insertFault i = some e) ∨ w.commitFault = some e

/-- The query is answered; what goes wrong in the transaction is an error of the database,
which is neither of the two exceptions. -/
structure World.Answers (w : World) : Prop where
  select : w.selectFault = none
  notKeyError : ∀ msg, ¬ w.Faults (.keyError msg)
  notValueError : ∀ msg, ¬ w.Faults (.valueError msg)

omit [Platform] in
theorem eq_of_raising {fault : Option PyError} {e : PyError} (h : raising fault = .error e) :
    fault = some e := by
  cases fault with
  | none => cases h
  | some e' =>
    cases h
    rfl

/-- An insert that raises meets a fault or breaks a constraint. -/
theorem insertRows_error_cases {w : World} {ctx : AuditContext} {i : ℕ} {rows : List CoreRow}
    {db : Database} {e : PyError} (h : insertRows w ctx i rows db = .error e) :
    w.Faults e ∨ ∃ msg, e = .constraintError msg := by
  induction rows generalizing i db with
  | nil => cases h
  | cons r rows ih =>
    rw [insertRows] at h
    cases hfault : raising (w.insertFault i) with
    | error e' =>
      rw [hfault] at h
      cases h
      exact .inl (.inr (.inl ⟨i, eq_of_raising hfault⟩))
    | ok _ =>
      rw [hfault, ok_bind, execute] at h
      split at h
      · exact ih h
      · cases h
        exact .inr ⟨_, rfl⟩

/-- A group of inserts that raises meets a fault or breaks a constraint. -/
theorem writeRows_error_cases {w : World} {ctx : AuditContext} {rows : List CoreRow}
    {db : Database} {e : PyError} (h : (writeRows w ctx rows db).1 = .error e) :
    w.Faults e ∨ ∃ msg, e = .constraintError msg := by
  have hrun : runTransaction w (insertRows w ctx 0 rows) db = .error e := by
    unfold writeRows executeWrite withConnection at h
    cases hrun : runTransaction w (insertRows w ctx 0 rows) db with
    | ok db' =>
      rw [hrun] at h
      cases h
    | error e' =>
      rw [hrun] at h
      cases h
      rfl
  rw [runTransaction] at hrun
  cases hbegin : raising w.beginFault with
  | error e' =>
    rw [hbegin] at hrun
    cases hrun
    exact .inl (.inl (eq_of_raising hbegin))
  | ok _ =>
    rw [hbegin, ok_bind] at hrun
    cases hrows : insertRows w ctx 0 rows db with
    | error e' =>
      rw [hrows] at hrun
      cases hrun
      exact insertRows_error_cases hrows
    | ok db' =>
      rw [hrows, ok_bind, commit] at hrun
      cases hcommit : raising w.commitFault with
      | error e' =>
        rw [hcommit] at hrun
        cases hrun
        exact .inl (.inr (.inr (eq_of_raising hcommit)))
      | ok _ =>
        rw [hcommit, ok_bind] at hrun
        split at hrun
        · cases hrun
        · cases hrun
          exact .inr ⟨_, rfl⟩

theorem World.Answers.not_keyError {w : World} (h : w.Answers) {ctx : AuditContext}
    {rows : List CoreRow} {db : Database} : ¬ RaisesKeyError (writeRows w ctx rows db).1 := by
  rintro ⟨msg, hraises⟩
  rcases writeRows_error_cases hraises with hfault | ⟨_, hconstraint⟩
  · exact h.notKeyError msg hfault
  · cases hconstraint

theorem World.Answers.not_valueError {w : World} (h : w.Answers) {ctx : AuditContext}
    {rows : List CoreRow} {db : Database} : ¬ RaisesValueError (writeRows w ctx rows db).1 := by
  rintro ⟨msg, hraises⟩
  rcases writeRows_error_cases hraises with hfault | ⟨_, hconstraint⟩
  · exact h.notValueError msg hfault
  · cases hconstraint

/-! ### Appending -/

/-- Some entry names an account that is not in the chart of the book. -/
def UnknownAccount (tables : Tables) (code : String) (t : JournalTransaction) : Prop :=
  ∃ e ∈ t.entries, e.accountCode ∉ accountCodes code tables

variable {w : World} {ctx : AuditContext} {code : String} {t : JournalTransaction} {db : Database}

/-- A posted transaction passes the checks that concern it alone. -/
theorem appendTransaction_eq (hselect : w.selectFault = none) (hposted : t.fields.state = .posted) :
    appendTransaction w ctx code t db =
      if accountCodes code db.tables = [] then (.error (.keyError s!"Unknown book: {code}"), db)
      else orRaise (checkAll (requireKnownAccount code (accountCodes code db.tables)) t.entries) db
        fun _ => writeRows w ctx (transactionRows code t) db := by
  have hchecks : appendTransactionChecks w code t db.tables =
      if accountCodes code db.tables = [] then .error (.keyError s!"Unknown book: {code}")
      else checkAll (requireKnownAccount code (accountCodes code db.tables)) t.entries := by
    rw [appendTransactionChecks, t.valid.balanced hposted, hselect]
    simp [hposted]
  rw [appendTransaction, hchecks]
  split
  · rfl
  · rfl

/-- The check of the accounts raises the exception that names an unknown one. -/
theorem checkAll_requireKnownAccount (code : String) (known : List String)
    (entries : List LedgerEntry) :
    (checkAll (requireKnownAccount code known) entries = .ok () ∧
      ∀ e ∈ entries, e.accountCode ∈ known) ∨
    ∃ e ∈ entries, e.accountCode ∉ known ∧
      checkAll (requireKnownAccount code known) entries =
        .error (.valueError s!"Unknown account code for book {code}: {e.accountCode}") := by
  induction entries with
  | nil => exact .inl ⟨rfl, by simp⟩
  | cons e entries ih =>
    rw [checkAll]
    by_cases he : e.accountCode ∈ known
    · have hcheck : requireKnownAccount code known e = .ok () := if_pos he
      rw [hcheck, ok_bind]
      rcases ih with ⟨hok, hall⟩ | ⟨x, hx, hunknown, herror⟩
      · exact .inl ⟨hok, List.forall_mem_cons.mpr ⟨he, hall⟩⟩
      · exact .inr ⟨x, List.mem_cons_of_mem _ hx, hunknown, herror⟩
    · have hcheck : requireKnownAccount code known e =
          .error (.valueError s!"Unknown account code for book {code}: {e.accountCode}") := if_neg he
      rw [hcheck]
      exact .inr ⟨e, List.mem_cons_self .., he, rfl⟩

/-- The exceptions say that there is no such book, and that an account is not one of its
chart; a call that raises leaves every table as it was. -/
structure AppendContract (w : World) (ctx : AuditContext) (code : String) (t : JournalTransaction)
    (db : Database) : Prop where
  keyError : RaisesKeyError (appendTransaction w ctx code t db).1 ↔ ¬ db.tables.HasBook code
  valueError : RaisesValueError (appendTransaction w ctx code t db).1 ↔
    db.tables.HasBook code ∧ UnknownAccount db.tables code t
  unchanged : ∀ e, (appendTransaction w ctx code t db).1 = .error e →
    (appendTransaction w ctx code t db).2 = db

omit [Platform] in
/-- The accounts of a book are stored with it. -/
theorem hasBook_of_accountCodes (hlinked : db.tables.Linked)
    (hcodes : accountCodes code db.tables ≠ []) : db.tables.HasBook code := by
  obtain ⟨c, hc⟩ := List.exists_mem_of_ne_nil _ hcodes
  obtain ⟨a, ha, -⟩ := List.mem_map.mp hc
  obtain ⟨hmem, hcode⟩ := List.mem_filter.mp ha
  exact of_decide_eq_true hcode ▸ hlinked.accounts a hmem

/-- **The exceptions mean what they say exactly when** the book, if it is stored, has an
account. -/
theorem appendContract_iff (hreach : Reachable db) (hanswers : w.Answers)
    (hposted : t.fields.state = .posted) :
    AppendContract w ctx code t db ↔
      (db.tables.HasBook code → accountCodes code db.tables ≠ []) := by
  have hcases : appendTransaction w ctx code t db = _ :=
    appendTransaction_eq hanswers.select hposted
  constructor
  · intro hcontract hbook hnone
    have hkey : RaisesKeyError (appendTransaction w ctx code t db).1 := by
      rw [hcases, if_pos hnone]
      exact ⟨_, rfl⟩
    exact hcontract.keyError.mp hkey hbook
  · intro hchart
    have hunchanged : ∀ e, (appendTransaction w ctx code t db).1 = .error e →
        (appendTransaction w ctx code t db).2 = db := by
      intro e he
      exact Call.run_error (c := ⟨.appendTransaction code t, ctx, w⟩) (Prod.ext he rfl)
    by_cases hnone : accountCodes code db.tables = []
    · have hbook : ¬ db.tables.HasBook code := fun hbook => hchart hbook hnone
      rw [if_pos hnone] at hcases
      refine ⟨?_, ?_, hunchanged⟩
      · rw [hcases]
        exact iff_of_true ⟨_, rfl⟩ hbook
      · rw [hcases]
        refine iff_of_false ?_ fun h => hbook h.1
        rintro ⟨msg, hraises⟩
        cases hraises
    · have hbook : db.tables.HasBook code :=
        hasBook_of_accountCodes hreach.schemaValid.linked hnone
      rw [if_neg hnone] at hcases
      rcases checkAll_requireKnownAccount code (accountCodes code db.tables) t.entries with
        ⟨hok, hall⟩ | ⟨e, he, hunknown, herror⟩
      · -- the accounts are all known, and what is left is the transaction of the database
        have hwrite : appendTransaction w ctx code t db =
            writeRows w ctx (transactionRows code t) db := by rw [hcases, hok, orRaise]
        refine ⟨?_, ?_, hunchanged⟩
        · rw [hwrite]
          exact iff_of_false hanswers.not_keyError (not_not.mpr hbook)
        · rw [hwrite]
          apply iff_of_false hanswers.not_valueError
          intro h
          obtain ⟨-, e, he, hunknown⟩ := h
          exact hunknown (hall e he)
      · rw [herror, orRaise] at hcases
        refine ⟨?_, ?_, hunchanged⟩
        · rw [hcases]
          refine iff_of_false ?_ (not_not.mpr hbook)
          rintro ⟨msg, hraises⟩
          cases hraises
        · rw [hcases]
          exact iff_of_true ⟨_, rfl⟩ ⟨hbook, e, he, hunknown⟩

end

/-! ### A book without accounts -/

namespace Reference

/-- A book without accounts. -/
def emptyFields : BookFields := { bookFields [plainJanuary] [] with accounts := [] }

/-- The constructor accepts it. -/
def emptyBook : Book := ⟨emptyFields, emptyFields, by rfl⟩

/-- The database with the book without accounts. -/
def emptyStored : Database := (createBook {} auditor emptyBook {}).2

theorem reachable_emptyStored : Reachable emptyStored :=
  Reachable.empty.after ⟨.createBook emptyBook, auditor, {}⟩

theorem answers_calm : World.Answers {} where
  select := rfl
  notKeyError := by simp [World.Faults]
  notValueError := by simp [World.Faults]

/-- A book is stored, and a transaction for it is refused because the book is unknown. -/
theorem emptyBook_unknown : Reachable emptyStored ∧ emptyStored.tables.HasBook "BK" ∧
    sale.fields.state = .posted ∧ emptyStored.tables.transactions = [] ∧
    (appendTransaction {} auditor "BK" sale emptyStored).1 = .error (.keyError "Unknown book: BK") ∧
    ¬ AppendContract {} auditor "BK" sale emptyStored := by
  have hbook : emptyStored.tables.HasBook "BK" := ⟨_, List.mem_cons_self .., rfl⟩
  have hraises : (appendTransaction {} auditor "BK" sale emptyStored).1 =
      .error (.keyError "Unknown book: BK") := rfl
  refine ⟨reachable_emptyStored, hbook, rfl, rfl, hraises, ?_⟩
  intro hcontract
  exact hcontract.keyError.mp ⟨_, hraises⟩ hbook

theorem appendContract_clockedBook :
    AppendContract {} auditor "BK" sale (createBook {} auditor clockedBook {}).2 := by
  have hreach : Reachable (createBook {} auditor clockedBook {}).2 :=
    Reachable.empty.after ⟨.createBook clockedBook, auditor, {}⟩
  apply (appendContract_iff hreach answers_calm rfl).mpr
  intro _ hnone
  exact absurd hnone (by decide)

end Reference

end FinestVX
