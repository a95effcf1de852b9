import FinestVX.Gateway.Verdicts
import FinestVX.Persistence.Admission
import FinestVX.Persistence.AppendErrors
import FinestVX.Persistence.Constraints

/-!
# Validating before posting

A caller can ask the service for a report on a transaction before it is posted.  The report
is about the balance, the accounts and the rules of the pack; what else posting depends on is
the reference, the period, and how the numbers are written.

## Main definitions

* `LegislativeValidationResult.accepted` — a verdict without issues.
* `Preflight` — what is checked before posting, and what is not.

## Main results

* `post_succeeds_iff` — when a posting returns.
* `appendTransaction_succeeds_iff` — when the ledger write returns.
* `accepted_report_iff` — what an accepted report says.
* `preflight_iff` — **a transaction is posted with a clean verdict exactly when** its report is
  accepted and the rest is as it should be.
-/

namespace FinestVX

open Except

section

variable [Platform]

/-! ### Definitions -/

/-- `LegislativeValidationResult.accepted` -/
def LegislativeValidationResult.accepted (r : LegislativeValidationResult) : Bool :=
  r.issues.isEmpty

/-- The report of the service on a transaction is accepted, and what it is not about is as it
should be: the reference is not in use, the period is one of the book, and no number is a
negative zero. -/
structure Preflight (s : FinestVXService) (db : Database) (code : String)
    (t : JournalTransaction) : Prop where
  posted : t.fields.state = .posted
  report : Accepted (s.validateTransaction none db.tables code t)
  unused : db.tables.Unused code t.reference
  period : ∀ p ∈ t.fields.period, StoredPeriod db.tables code p
  numbers : ∀ e ∈ t.fields.entries, EntryAdmitted e

/-! ### Posting -/

/-- **When a posting returns**: the ledger write is made in time, and every later step goes
through. -/
theorem post_succeeds_iff {p : Posting} {w : GatewayWorld} {ctx : AuditContext} {code : String}
    {db : Database} (hreach : Reachable db) :
    ((p.post w ctx code).run db).1.Succeeds ↔
      w.ledger.Commits (p.op code) ctx db ∧ Completes p w code db := by
  rw [p.post_eq]
  by_cases hcommits : w.ledger.Commits (p.op code) ctx db
  swap
  · obtain ⟨e, hrun⟩ := Submission.run_submit_of_not_commits hcommits
    rw [Procedure.run_bind_of_error hrun]
    exact ⟨fun h => (not_succeeds_error e h).elim, fun h => (hcommits h.1).elim⟩
  obtain ⟨c, db', rows, -, -, hwrites, hadmits, hparents, heffect, hrun⟩ :=
    Submission.run_submit_of_commits hcommits
  obtain ⟨σ, hσ⟩ := hreach.refines
  obtain ⟨b, tx, ht, hfresh, rfl, hbefore, rfl, hreference, hafter, hperiod⟩ :=
    hσ.posting hwrites hadmits
  rcases hrun with ⟨hserved, receipt, hrun⟩ | ⟨hserved, e, hrun⟩
  · rw [Procedure.run_bind_of_ok hrun,
      Procedure.run_bind_pure (auditLegislation w ctx b.code p.reference p.select), succeeds_map,
      auditLegislation_succeeds_iff (by rwa [heffect.tables]), heffect.tables,
      loadBook_after_iff hreference hbefore hafter hperiod]
    constructor
    · rintro ⟨⟨hbook, hkeeps, hstripped⟩, hread, hpool, haudit⟩
      exact ⟨hcommits, hserved, hbook, hkeeps, hstripped, hread, hpool, haudit⟩
    · rintro ⟨-, h⟩
      exact ⟨⟨h.book, h.period, h.stripped⟩, h.read, h.pool, h.audit⟩
  · rw [Procedure.run_bind_of_error hrun]
    exact ⟨fun h => (not_succeeds_error e h).elim, fun h => (hserved h.2.served).elim⟩

/-- The verdict that a posted transaction is returned with. -/
theorem legislativeResult_of_post {w : GatewayWorld} {ctx : AuditContext} {code : String}
    {t : JournalTransaction} {db db' : Database} {r : PostedTransactionResult}
    (h : (postTransaction w ctx code t).run db = (.ok r, db')) :
    r.legislativeResult = verdict t := by
  obtain ⟨receipt, db₁, -, h⟩ := Procedure.run_bind_eq_ok.mp h
  obtain ⟨legislative, db₂, haudit, h⟩ := Procedure.run_bind_eq_ok.mp h
  cases h
  rcases auditLegislation_cases w ctx code t.reference (fun _ => .ok t) db₁ with ⟨-, hraises⟩ |
    ⟨book, x, auditContext, ms, -, hselect, -, -, hverdict⟩
  · exact (hraises ⟨legislative, by rw [haudit]⟩).elim
  · cases hselect
    exact hverdict legislative (by rw [haudit])

/-! ### The ledger write -/

/-- The rows of a transaction have no parents. -/
theorem parentsExist_pushAll_transactionRows {tables : Tables}
    (h : tables.ParentsExist) (code : String) (t : JournalTransaction) :
    (tables.pushAll (transactionRows code t)).ParentsExist := by
  rw [pushAll_transactionRows]
  exact h

/-- **When the ledger write returns.** -/
theorem appendTransaction_succeeds_iff {clock : ℕ → ℤ} {ctx : AuditContext} {code : String}
    {t : JournalTransaction} {db : Database} (hparents : db.tables.ParentsExist) :
    (appendTransaction { clock } ctx code t db).1.Succeeds ↔ t.fields.state = .posted ∧
      accountCodes code db.tables ≠ [] ∧
      (∀ e ∈ t.entries, e.accountCode ∈ accountCodes code db.tables) ∧
      db.tables.AdmitsAll (transactionRows code t) := by
  constructor
  · rintro ⟨receipt, hreceipt⟩
    obtain ⟨_, hchecks, hwrite⟩ := orRaise_ok (Prod.ext hreceipt rfl)
    obtain ⟨hposted, hbook, hknown⟩ := appendTransactionChecks_eq_ok hchecks
    exact ⟨hposted, hbook, hknown, (writeRows_ok hwrite).1⟩
  · rintro ⟨hposted, hbook, hknown, hadmits⟩
    have hcases : appendTransaction { clock } ctx code t db = _ := appendTransaction_eq rfl hposted
    rw [hcases, if_neg hbook]
    rcases checkAll_requireKnownAccount code (accountCodes code db.tables) t.entries with
      ⟨hok, -⟩ | ⟨e, he, hunknown, -⟩
    · rw [hok, orRaise]
      refine ⟨_, congrArg Prod.fst (writeRows_of_insertRows rfl rfl
        (insertRows_of_admitsAll hadmits) ?_)⟩
      rw [Database.tables_insertAll]
      exact parentsExist_pushAll_transactionRows hparents code t
    · exact (hunknown (hknown e he)).elim

/-- A period that is stored can be stored again. -/
theorem periodBinds_of_stored {tables : Tables} (hchecked : tables.Checked) {code : String}
    {t : JournalTransaction} (h : ∀ p ∈ t.fields.period, StoredPeriod tables code p) :
    PeriodBinds t := by
  intro p hp
  obtain ⟨row, hrow, -, hkey⟩ := h p hp
  obtain ⟨hyear, hquarter, hmonth, -⟩ := hchecked.periods row hrow
  have hsmall : ∀ {n : ℤ}, 1 ≤ n → n ≤ 12 → BindsInt n := by
    intro n h1 h12
    constructor <;> omega
  obtain ⟨hy, hq, hm⟩ : row.fiscalYear = p.fiscalYear ∧ row.quarter = p.quarter ∧
      row.month = p.month := by simpa using hkey
  rw [← hy, ← hq, ← hm]
  exact ⟨hyear, hsmall hquarter.1 (hquarter.2.trans (by omega)), hsmall hmonth.1 hmonth.2⟩

/-- The accounts of a loaded book are those of the stored one. -/
theorem Refines.postable_iff_of_loadBook {tables : Tables} {σ : Ledger} (hσ : Refines tables σ)
    {code : String} {b : StoredBook} (hb : σ code = some b) {book : Book}
    (hload : loadBook tables code = .ok book) {t : JournalTransaction} :
    Postable (book.fields.accounts.map Account.code) t ↔ Postable b.accountCodes t := by
  obtain ⟨b', hb', hfields⟩ := exists_stored_of_loadBook hσ hload
  cases hb'.symm.trans hb
  have haccounts : ∀ c, c ∈ book.fields.accounts.map Account.code ↔ c ∈ b.accountCodes := by
    intro c
    rw [hfields]
    exact ((orderBy_perm Account.code b.base.fields.accounts).map Account.code).mem_iff
  exact ⟨fun h => ⟨h.posted, fun e he => (haccounts _).mp (h.accounts e he)⟩,
    fun h => ⟨h.posted, fun e he => (haccounts _).mpr (h.accounts e he)⟩⟩

/-! ### The report -/

/-- The report of the default registry is that on the verdict. -/
theorem validateLegislativeTransaction_eq_ok_iff {registry : LegislativePackRegistry}
    (hregistry : createDefaultPackRegistry = .ok registry) {book : Book} {t : JournalTransaction}
    {r : ValidationReport} :
    validateLegislativeTransaction registry book t = .ok r ↔
      book.fields.legislativePack = latviaPackCode ∧
        r = reportFromLegislativeResult (verdict t) := by
  have hdefault : registry = [(latviaPackCode, latviaStandard2026Pack)] :=
    Except.ok.inj (hregistry.symm.trans createDefaultPackRegistry_eq)
  rw [hdefault, validateLegislativeTransaction_eq_ok]
  exact exists_pack_iff

omit [Platform] in
/-- Two reports are accepted together when each of them is. -/
theorem accepted_combined {r r' : ValidationReport} :
    (combined r r').accepted = true ↔ r.accepted = true ∧ r'.accepted = true := by
  rw [combined, ValidationReport.accepted, List.all_append, Bool.and_eq_true]
  rfl

/-- **What an accepted report says**, with the default registry. -/
theorem accepted_report_iff {s : FinestVXService} (hs : createDefaultPackRegistry = .ok s.registry)
    {tables : Tables} {code : String} {t : JournalTransaction} (hposted : t.fields.state = .posted) :
    Accepted (s.validateTransaction none tables code t) ↔
      ∃ book, loadBook tables code = .ok book ∧ book.fields.legislativePack = latviaPackCode ∧
        Postable (book.fields.accounts.map Account.code) t ∧ (verdict t).issues = [] := by
  have hclean : (reportFromLegislativeResult (verdict t)).accepted = true ↔
      (verdict t).issues = [] := by
    rw [ValidationReport.accepted_iff_of_errors (by simp [reportFromLegislativeResult]),
      reportFromLegislativeResult, List.map_eq_nil_iff]
  constructor
  · rintro ⟨r, hr, haccepted⟩
    obtain ⟨book, hbook, hr⟩ := bind_eq_ok.mp hr
    obtain ⟨core, hcore, hr⟩ := bind_eq_ok.mp hr
    obtain ⟨legislative, hlegislative, hr⟩ := bind_eq_ok.mp hr
    obtain ⟨hpack, rfl⟩ := (validateLegislativeTransaction_eq_ok_iff hs).mp hlegislative
    cases hr
    obtain ⟨haccepted, hissues⟩ := accepted_combined.mp haccepted
    refine ⟨book, hbook, hpack, ?_, hclean.mp hissues⟩
    exact (accepted_validateTransaction_iff hposted).mp ⟨core, hcore, haccepted⟩
  · rintro ⟨book, hload, hpack, hpostable, hissues⟩
    obtain ⟨core, hcore, haccepted⟩ := (accepted_validateTransaction_iff hposted).mpr hpostable
    refine ⟨combined core (reportFromLegislativeResult (verdict t)), ?_,
      accepted_combined.mpr ⟨haccepted, hclean.mpr hissues⟩⟩
    refine bind_eq_ok.mpr ⟨book, hload, bind_eq_ok.mpr ⟨core, hcore, ?_⟩⟩
    exact bind_eq_ok.mpr ⟨_, (validateLegislativeTransaction_eq_ok_iff hs).mpr ⟨hpack, rfl⟩, rfl⟩

/-! ### The theorem -/

/-- **A transaction is posted with a clean verdict exactly when** its report is accepted before,
its reference is not in use, its period is one of the book, and no number is a negative zero. -/
theorem preflight_iff {s : FinestVXService} (hs : createDefaultPackRegistry = .ok s.registry)
    {db : Database} (hreach : Reachable db) (clock clock' : ℕ → ℤ) (ctx : AuditContext)
    (code : String) (t : JournalTransaction) :
    (∃ r, ((postTransaction (faultless clock clock') ctx code t).run db).1 = .ok r ∧
      r.legislativeResult.accepted = true) ↔ Preflight s db code t := by
  have hparents := hreach.constrained.parents
  have hchecked := hreach.constrained.checked
  have hlinked := hreach.schemaValid.linked
  obtain ⟨σ, hσ⟩ := hreach.refines
  -- the rows of a transaction of a stored book, when its period is one of the book
  have hrows : ∀ b : StoredBook, Holds db.tables b → Postable b.accountCodes t →
      (∀ p ∈ t.fields.period, StoredPeriod db.tables b.code p) →
      (db.tables.AdmitsAll (transactionRows b.code t) ↔
        (∀ e ∈ t.fields.entries, EntryAdmitted e) ∧ db.tables.Unused b.code t.reference) :=
    fun b hholds hpostable hperiod => admitsAll_transactionRows_iff (b := b.fields)
      (hholds.ready hlinked) hpostable (periodBinds_of_stored hchecked hperiod)
  have hpost : ((postTransaction (faultless clock clock') ctx code t).run db).1.Succeeds ↔
      (appendTransaction { clock } ctx code t db).1.Succeeds ∧
        Completes (.transaction t) (faultless clock clock') code db :=
    post_succeeds_iff (p := .transaction t) hreach
  constructor
  · rintro ⟨r, hr, hclean⟩
    obtain ⟨hwrite, hcompletes⟩ := hpost.mp ⟨r, hr⟩
    obtain ⟨hposted, hbook, hknown, hadmits⟩ := (appendTransaction_succeeds_iff hparents).mp hwrite
    obtain ⟨b, hb⟩ := hσ.exists_of_accountCodes hbook
    obtain ⟨rfl, hholds⟩ := hσ.holds hb
    have hpostable : Postable b.accountCodes t := ⟨hposted, hholds.accountCodes ▸ hknown⟩
    obtain ⟨hnumbers, hunused⟩ := (hrows b hholds hpostable hcompletes.period).mp hadmits
    obtain ⟨book, hload, hpack⟩ := hcompletes.book
    have hverdict : r.legislativeResult = verdict t := legislativeResult_of_post (Prod.ext hr rfl)
    have hissues : (verdict t).issues = [] := List.isEmpty_iff.mp (hverdict ▸ hclean)
    refine ⟨hposted, (accepted_report_iff hs hposted).mpr ?_, hunused, hcompletes.period, hnumbers⟩
    exact ⟨book, hload, hpack, (hσ.postable_iff_of_loadBook hb hload).mpr hpostable, hissues⟩
  · intro h
    obtain ⟨book, hload, hpack, hpostable, hissues⟩ := (accepted_report_iff hs h.posted).mp h.report
    obtain ⟨b, hb, -⟩ := exists_stored_of_loadBook hσ hload
    obtain ⟨rfl, hholds⟩ := hσ.holds hb
    have hstored := (hσ.postable_iff_of_loadBook hb hload).mp hpostable
    have hwrite : (appendTransaction { clock } ctx b.code t db).1.Succeeds := by
      refine (appendTransaction_succeeds_iff hparents).mpr ⟨h.posted, ?_, ?_, ?_⟩
      · rw [hholds.accountCodes]
        intro hnone
        -- a posted transaction has entries, and these have accounts
        obtain ⟨hlength, -⟩ :=
          validateTransactionEntries_eq_ok_iff.mp (t.valid.balanced h.posted)
        obtain ⟨e, he⟩ := List.exists_mem_of_length_pos (Nat.lt_of_lt_of_le (by omega) hlength)
        have := hstored.accounts e he
        rw [hnone] at this
        cases this
      · rw [hholds.accountCodes]
        exact hstored.accounts
      · exact (hrows b hholds hstored h.period).mpr ⟨h.numbers, h.unused⟩
    obtain ⟨r, hr⟩ := hpost.mpr ⟨hwrite,
      { served := trivial
        book := ⟨book, hload, hpack⟩
        period := h.period
        stripped := trivial
        read := rfl
        pool := rfl
        audit := ⟨rfl, rfl, rfl⟩ }⟩
    have hverdict : r.legislativeResult = verdict t := legislativeResult_of_post (Prod.ext hr rfl)
    exact ⟨r, hr, by rw [hverdict]; exact List.isEmpty_iff.mpr hissues⟩

end

/-! ### Evaluated -/

namespace Reference

/-- A transaction of the Latvian book is reported on, and posted with a clean verdict. -/
theorem preflight_known : Preflight defaultService latvianStored "BK" known := by
  have hreach : Reachable latvianStored := Reachable.empty.after _
  have hs : createDefaultPackRegistry = .ok defaultService.registry := createDefaultPackRegistry_eq
  refine (preflight_iff hs hreach (fun _ => 0) (fun _ => 0) auditor "BK" known).mp ?_
  exact ⟨_, by rfl, by rfl⟩

end Reference

end FinestVX
