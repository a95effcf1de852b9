import FinestVX.Persistence.Readable

/-!
# Validation reports

The validators that collect findings instead of raising: a transaction in the context of a
book, and a whole book.  A transaction is checked for its balance and its accounts; that
its period is one of the book is checked by the constructor of the book alone.

## Main definitions

* `ValidationFinding`, `ValidationReport` — what a validator returns.
* `validateTransaction`, `validateBook` — the validators.
* `Accepted` — a validator has returned a report without an error.
* `Agrees` — the validator accepts what can be appended.

## Main results

* `validateTransaction_posted` — on a posted transaction the findings are its unknown
  accounts.
* `validateBook_eq` — every book passes its own validator.
* `agrees_iff` — **the validator agrees with the book exactly when** the period of the
  transaction is known or one of its accounts is not.
* `Reference.stray_accepted` — a transaction that is accepted and cannot be appended.
-/

namespace FinestVX

open Except

/-! ### Reports -/

/-- Severity of a finding. -/
inductive ValidationSeverity
  | error
  | warning
  | info
  deriving DecidableEq, Repr

/-- A finding of a validator. -/
structure ValidationFinding where
  code : String
  message : String
  severity : ValidationSeverity
  source : String
  deriving DecidableEq, Repr

/-- The findings of a validator, in order. -/
structure ValidationReport where
  findings : List ValidationFinding := []
  deriving DecidableEq, Repr

namespace ValidationReport

/-- `ValidationReport.accepted`: no finding is an error. -/
def accepted (r : ValidationReport) : Bool := r.findings.all fun f => f.severity ≠ .error

/-- A report of errors alone is accepted when there are none. -/
theorem accepted_iff_of_errors {r : ValidationReport}
    (h : ∀ f ∈ r.findings, f.severity = .error) : r.accepted = true ↔ r.findings = [] := by
  rw [accepted, List.all_eq_true, List.eq_nil_iff_forall_not_mem]
  exact forall₂_congr fun f hf => by simp [h f hf]

end ValidationReport

/-- `_report_from_exception` -/
def reportFromException (code message source : String) : ValidationReport :=
  ⟨[⟨code, message, .error, source⟩]⟩

/-- Report the `TypeError` or `ValueError` of a check, or go on. -/
def orReport (check : Except PyError Unit) (code source : String)
    (k : Except PyError ValidationReport) : Except PyError ValidationReport :=
  match check with
  | .ok () => k
  | .error e =>
    if e.isTypeOrValueError then .ok (reportFromException code e.message source) else .error e

section

variable [Platform]

/-! ### The validators -/

/-- `validate_transaction_balance` -/
def validateTransactionBalance (t : JournalTransaction) : Except PyError Unit :=
  validateTransactionEntries t.fields.entries

/-- The entries of a transaction whose account is not an account of the book. -/
def unknownAccounts (book : Book) (t : JournalTransaction) : List LedgerEntry :=
  t.entries.filter fun e => e.accountCode ∉ book.fields.accounts.map Account.code

/-- `validate_transaction` -/
def validateTransaction (book : Book) (t : JournalTransaction) : Except PyError ValidationReport :=
  orReport (validateTransactionBalance t) "TRANSACTION_BALANCE_INVALID" "core.transaction"
    (.ok ⟨(unknownAccounts book t).map fun e =>
      ⟨"TRANSACTION_UNKNOWN_ACCOUNT", s!"Unknown account code: {e.accountCode}", .error,
        "core.transaction"⟩⟩)

/-- `validate_book` -/
def validateBook (book : Book) : Except PyError ValidationReport :=
  orReport (validateAccountCollection book.fields.accounts) "BOOK_CHART_INVALID" "core.book" do
    let findings ← book.fields.transactions.mapM fun t => do
      let report ← validateTransaction book t
      return report.findings ++ (unknownAccounts book t).map fun e =>
        ⟨"BOOK_UNKNOWN_ACCOUNT_REFERENCE",
          s!"Transaction {t.reference} references unknown account {e.accountCode}", .error,
          "core.book"⟩
    return ⟨findings.flatten⟩

/-- A validator has returned a report without an error. -/
def Accepted (x : Except PyError ValidationReport) : Prop := ∃ r, x = .ok r ∧ r.accepted = true

theorem unknownAccounts_eq_nil_iff {book : Book} {t : JournalTransaction} :
    unknownAccounts book t = [] ↔
      ∀ e ∈ t.entries, e.accountCode ∈ book.fields.accounts.map Account.code := by
  rw [unknownAccounts, List.filter_eq_nil_iff]
  exact forall₂_congr fun e _ => by simp

/-- A posted transaction is balanced, so that its findings are its unknown accounts. -/
theorem validateTransaction_posted {book : Book} {t : JournalTransaction}
    (hposted : t.fields.state = .posted) :
    validateTransaction book t = .ok ⟨(unknownAccounts book t).map fun e =>
      ⟨"TRANSACTION_UNKNOWN_ACCOUNT", s!"Unknown account code: {e.accountCode}", .error,
        "core.transaction"⟩⟩ := by
  rw [validateTransaction, validateTransactionBalance, t.valid.balanced hposted]
  rfl

theorem accepted_validateTransaction_iff {book : Book} {t : JournalTransaction}
    (hposted : t.fields.state = .posted) : Accepted (validateTransaction book t) ↔
      Postable (book.fields.accounts.map Account.code) t := by
  rw [validateTransaction_posted hposted]
  constructor
  · rintro ⟨r, hr, haccepted⟩
    cases hr
    rw [ValidationReport.accepted_iff_of_errors (by simp), List.map_eq_nil_iff,
      unknownAccounts_eq_nil_iff] at haccepted
    exact ⟨hposted, haccepted⟩
  · intro hpostable
    refine ⟨_, rfl, ?_⟩
    rw [ValidationReport.accepted_iff_of_errors (by simp), List.map_eq_nil_iff]
    exact unknownAccounts_eq_nil_iff.mpr hpostable.accounts

/-- **Every book passes its own validator**, without a finding. -/
theorem validateBook_eq (book : Book) : validateBook book = .ok ⟨[]⟩ := by
  have htransactions : ∀ t ∈ book.fields.transactions, (do
      let report ← validateTransaction book t
      return report.findings ++ (unknownAccounts book t).map fun e =>
        (⟨"BOOK_UNKNOWN_ACCOUNT_REFERENCE",
          s!"Transaction {t.reference} references unknown account {e.accountCode}", .error,
          "core.book"⟩ : ValidationFinding)) =
        (.ok ((fun _ => []) t) : Except PyError (List ValidationFinding)) := by
    intro t ht
    have hpostable := book.valid.postable t ht
    rw [validateTransaction_posted hpostable.posted, ok_bind,
      unknownAccounts_eq_nil_iff.mpr hpostable.accounts]
    rfl
  rw [validateBook, validateAccountCollection_eq_ok.mpr book.valid.accounts, orReport,
    mapM_eq_ok_map htransactions, ok_bind]
  simp

/-! ### Agreement with the book -/

/-- The validator accepts a transaction exactly when it can be appended to the book. -/
def Agrees (book : Book) (t : JournalTransaction) : Prop :=
  Accepted (validateTransaction book t) ↔ (book.appendTransaction t).Succeeds

/-- **The validator agrees with the book exactly when** the transaction has no period or
one of the book, or posts to an account that the book does not have. -/
theorem agrees_iff {book : Book} {t : JournalTransaction} (hposted : t.fields.state = .posted) :
    Agrees book t ↔ (∀ p ∈ t.fields.period, p ∈ book.fields.periods.map BookPeriod.period) ∨
      ∃ e ∈ t.entries, e.accountCode ∉ book.fields.accounts.map Account.code := by
  rw [Agrees, accepted_validateTransaction_iff hposted, Book.appendTransaction_succeeds_iff]
  constructor
  · intro h
    by_cases hpostable : Postable (book.fields.accounts.map Account.code) t
    · exact .inl (h.mp hpostable).2
    · right
      by_contra hnone
      push Not at hnone
      exact hpostable ⟨hposted, hnone⟩
  · rintro (hknown | ⟨e, he, hunknown⟩)
    · exact ⟨fun hpostable => ⟨hpostable, hknown⟩, And.left⟩
    · -- neither accepts an unknown account
      have hnot : ¬ Postable (book.fields.accounts.map Account.code) t := fun hpostable =>
        hunknown (hpostable.accounts e he)
      exact ⟨fun hpostable => (hnot hpostable).elim, fun h => (hnot h.1).elim⟩

end

/-! ### Evaluated -/

namespace Reference

theorem agrees_known : Agrees plainBook known :=
  (agrees_iff rfl).mpr (.inl (by decide))

/-- A transaction in a period that the book does not have is accepted by the validator,
and cannot be appended. -/
theorem stray_accepted : stray.fields.state = .posted ∧
    Accepted (validateTransaction plainBook stray) ∧
    ¬ (plainBook.appendTransaction stray).Succeeds := by
  refine ⟨rfl, ⟨⟨[]⟩, by rfl, rfl⟩, ?_⟩
  rw [Book.appendTransaction_succeeds_iff]
  rintro ⟨-, hknown⟩
  have hmem := hknown ⟨2026, 1, 2, rfl⟩ rfl
  revert hmem
  decide

end Reference

end FinestVX
