import FinestVX.Gateway.Posting
import FinestVX.Persistence.Growth

/-!
# Verdicts in the audit log

A posting through the gateway ends with the verdict of the pack in the audit log.  Over a
whole run, with postings that raise halfway, the log has one verdict at most on every
transaction that was posted, and it is the one the pack comes to again on the stored book.

## Main definitions

* `verdict` — what the built-in pack finds in a transaction.
* `GatewayCall`, `returnedPostings` — the calls of the service that write, and the postings
  that return.
* `Accounted` — the verdicts in the audit log are those on the transactions of a trail.

## Main results

* `verdict_readBack` — storing a transaction does not change the verdict on it.
* `auditLegislation_cases` — what the steps after the ledger write can do.
* `accounted_of_run` — **the verdicts of a run are accounted for**, and none of a posting that
  returned is missing.
-/

namespace FinestVX

open Except

section

variable [Platform]

/-! ### The verdict on a transaction -/

/-- What the built-in pack finds in a transaction of a book that declares it. -/
def verdict (t : JournalTransaction) : LegislativeValidationResult :=
  ⟨latviaPackCode, (t.entries.zipIdx.filter fun e =>
    e.1.fields.taxRate.any differsFromStandardRate).map fun e => vatRateMismatch e.2⟩

/-- The built-in pack comes to the verdict, on a book that declares it. -/
theorem latviaValidateTransaction_eq_verdict {book : Book} {t : JournalTransaction}
    (h : book.fields.legislativePack = latviaPackCode) :
    latviaStandard2026Pack.validateTransaction book t = .ok (verdict t) := by
  have hissues : latviaIssues book t = (verdict t).issues := by
    rw [latviaIssues, if_neg (not_not.mpr h), List.append_nil]
    rfl
  change latviaValidateTransaction book t = _
  rw [latviaValidateTransaction_eq, hissues]
  rfl

/-- The pack that the default registry has for a book, and what it returns. -/
theorem exists_pack_iff {book : Book} {t : JournalTransaction}
    {p : LegislativeValidationResult → Prop} :
    (∃ pack, LegislativePackRegistry.resolve [(latviaPackCode, latviaStandard2026Pack)]
      book.fields.legislativePack = .ok pack ∧
        ∃ r, pack.validateTransaction book t = .ok r ∧ p r) ↔
      book.fields.legislativePack = latviaPackCode ∧ p (verdict t) := by
  rw [resolve_default (book.valid.legislativePack _)]
  by_cases hcode : book.fields.legislativePack = latviaPackCode
  · rw [if_pos hcode]
    simp [hcode, latviaValidateTransaction_eq_verdict hcode]
  · rw [if_neg hcode]
    simp [hcode]

/-- Validation in a subinterpreter comes to the verdict, when the book declares the built-in
pack. -/
theorem runnerValidate_eq_ok_iff {book : Book} {t : JournalTransaction}
    {r : LegislativeValidationResult} :
    runnerValidate book.fields.legislativePack book t = .ok r ↔
      book.fields.legislativePack = latviaPackCode ∧ r = verdict t := by
  rw [runnerValidate_eq_ok]
  refine Iff.trans ?_ (exists_pack_iff (p := (r = ·)))
  simp

/-- **Storing a transaction** does not change the verdict on it. -/
theorem verdict_readBack (t : JournalTransaction) : verdict t.readBack = verdict t := by
  have hrate : ∀ e : LedgerEntry, e.readBack.fields.taxRate.any differsFromStandardRate =
      e.fields.taxRate.any differsFromStandardRate := by
    intro e
    change (canonRate e.fields.taxRate).any differsFromStandardRate = _
    cases e.fields.taxRate with
    | none => rfl
    | some v =>
      cases v with
      | finite d held =>
        have hvalue : d.canon.numEq standardVatRate = d.numEq standardVatRate := by
          rw [Bool.eq_iff_iff, Dec.numEq_iff, Dec.numEq_iff, Dec.value_canon]
        exact congrArg Bool.not hvalue
      | _ => rfl
  have hentries : t.readBack.entries = t.entries.map LedgerEntry.readBack := rfl
  rw [verdict, verdict, hentries, List.zipIdx_map, List.filter_map, List.map_map]
  simp only [Function.comp_def, Prod.map_fst, Prod.map_snd, hrate, id_eq]

/-! ### The calls -/

/-- A call of the service that writes. -/
inductive GatewayCall
  | createBook (s : Submission) (ctx : AuditContext) (book : Book)
  | post (w : GatewayWorld) (ctx : AuditContext) (code : String) (p : Posting)

namespace GatewayCall

/-- Execute a call. -/
def run : GatewayCall → Procedure PyError Database Unit
  | createBook s ctx book => (s.submit (.createBook book) ctx).discard
  | post w ctx code p => (p.post w ctx code).discard

/-- The database after a call. -/
def after (c : GatewayCall) (db : Database) : Database := (c.run.run db).2

/-- The database after some calls. -/
def afterAll (calls : List GatewayCall) (db : Database) : Database :=
  calls.foldl (fun db c => c.after db) db

/-- The book and the reference of a posting. -/
def postings : GatewayCall → List (String × String)
  | createBook .. => []
  | post _ _ code p => [(code, p.reference)]

end GatewayCall

/-- The postings of the calls that return, in order. -/
def returnedPostings : List GatewayCall → Database → List (String × String)
  | [], _ => []
  | c :: calls, db =>
    (match (c.run.run db).1 with
      | .ok _ => c.postings
      | .error _ => []) ++ returnedPostings calls (c.after db)

/-! ### The steps after the ledger write -/

/-- The row of a legislative result. -/
theorem after_appendLegislativeResult {w : World} {ctx : AuditContext} {code reference : String}
    {result : LegislativeValidationResult} {db : Database}
    (h : Call.Returns ⟨.appendLegislativeResult code reference result, ctx, w⟩ db) :
    Call.after ⟨.appendLegislativeResult code reference result, ctx, w⟩ db = { db with
      auditLog := db.auditLog ++
        [auditResult ctx (w.clock 0) db.auditLog code reference result] } := by
  obtain ⟨receipt, hreceipt⟩ := h
  have hrun : Call.run ⟨.appendLegislativeResult code reference result, ctx, w⟩ db =
      (.ok receipt, Call.after ⟨.appendLegislativeResult code reference result, ctx, w⟩ db) :=
    Prod.ext hreceipt rfl
  obtain ⟨hinsert, -⟩ := executeWrite_ok hrun
  obtain ⟨_, -, hinsert⟩ := bind_eq_ok.mp hinsert
  exact (Except.ok.inj hinsert).symm

/-- **What the steps after the ledger write can do**: raise and change nothing, or write the
verdict on the transaction that is selected in the loaded book. -/
theorem auditLegislation_cases (w : GatewayWorld) (ctx : AuditContext) (code reference : String)
    (select : Book → Except PyError JournalTransaction) (db : Database) :
    (((auditLegislation w ctx code reference select).run db).2 = db ∧
      ¬ ((auditLegislation w ctx code reference select).run db).1.Succeeds) ∨
    ∃ book t auditContext ms, loadBook db.tables code = .ok book ∧ select book = .ok t ∧
      book.fields.legislativePack = latviaPackCode ∧
      ((auditLegislation w ctx code reference select).run db).2 = { db with
        auditLog := db.auditLog ++
          [auditResult auditContext ms db.auditLog code reference (verdict t)] } ∧
      ∀ a, ((auditLegislation w ctx code reference select).run db).1 = .ok a → a.1 = verdict t := by
  rw [auditLegislation, Procedure.run_bind_of_ok (Procedure.run_read db)]
  rcases Procedure.run_lift_bind_cases (getBook w.readFault db.tables code) _ db with
    ⟨e, -, hrun⟩ | ⟨book, hbook, hrun⟩
  · rw [hrun]
    exact .inl ⟨rfl, not_succeeds_error e⟩
  rw [hrun]
  rcases Procedure.run_lift_bind_cases (select book) _ db with ⟨e, -, hrun⟩ | ⟨t, hselect, hrun⟩
  · rw [hrun]
    exact .inl ⟨rfl, not_succeeds_error e⟩
  rw [hrun]
  rcases Procedure.run_lift_bind_cases (raising w.poolFault) _ db with
    ⟨e, -, hrun⟩ | ⟨_, -, hrun⟩
  · rw [hrun]
    exact .inl ⟨rfl, not_succeeds_error e⟩
  rw [hrun]
  rcases Procedure.run_lift_bind_cases (runnerValidate book.fields.legislativePack book t) _ db
    with ⟨e, -, hrun⟩ | ⟨result, hresult, hrun⟩
  · rw [hrun]
    exact .inl ⟨rfl, not_succeeds_error e⟩
  rw [hrun]
  obtain ⟨hpack, rfl⟩ := runnerValidate_eq_ok_iff.mp hresult
  rcases Procedure.run_lift_bind_cases (legislativeAuditContext ctx) _ db with
    ⟨e, -, hrun⟩ | ⟨auditContext, -, hrun⟩
  · rw [hrun]
    exact .inl ⟨rfl, not_succeeds_error e⟩
  rw [hrun]
  obtain ⟨_, -, hload⟩ := bind_eq_ok.mp hbook
  -- the last step is the write of the verdict
  by_cases hcommits : w.audit.Commits (.appendLegislativeResult code reference (verdict t))
      auditContext db
  · obtain ⟨w', hreturns, hafter⟩ := Submission.after_of_commits hcommits
    rw [after_appendLegislativeResult hreturns] at hafter
    refine .inr ⟨book, t, auditContext, w'.clock 0, hload, hselect, hpack, ?_⟩
    rw [← hafter]
    cases hsubmit : (w.audit.submit (.appendLegislativeResult code reference (verdict t))
        auditContext).run db with
    | mk outcome db' =>
      cases outcome with
      | ok receipt =>
        rw [Procedure.run_bind_of_ok hsubmit]
        refine ⟨rfl, fun a ha => ?_⟩
        cases ha
        rfl
      | error e =>
        rw [Procedure.run_bind_of_error hsubmit]
        refine ⟨rfl, fun a ha => ?_⟩
        cases ha
  · obtain ⟨e, hrun⟩ := Submission.run_submit_of_not_commits hcommits
    rw [Procedure.run_bind_of_error hrun]
    exact .inl ⟨rfl, not_succeeds_error e⟩

/-! ### The ledger write -/

/-- What a posting adds to the ledger. -/
theorem LedgerStep.posted {σ σ' : Ledger} {p : Posting} {code : String}
    (h : LedgerStep σ (p.op code) σ') : ∃ b tx b', σ code = some b ∧ σ' code = some b' ∧
      b'.base = b.base ∧ b'.transactions = b.transactions ++ [tx] ∧
      (∀ x ∈ b.transactions, x.reference ≠ tx.reference) ∧
      requireNonEmptyStr p.reference "reference" = .ok tx.reference ∧
      ∀ t, p = .transaction t → tx = t := by
  cases p with
  | transaction t =>
    cases h with
    | append hb ht hfresh =>
      refine ⟨_, t, _, hb, Function.update_self .., rfl, StoredBook.transactions_append .., hfresh,
        t.valid.reference _, ?_⟩
      intro t' ht'
      exact Posting.transaction.inj ht'
  | reversal o r =>
    cases h with
    | reverse hb horiginal hreference hnone hreversal ht hfresh =>
      refine ⟨_, _, _, hb, Function.update_self .., rfl, StoredBook.transactions_append .., hfresh,
        (reversalOfTransaction_eq_ok hreversal).1, ?_⟩
      intro t' ht'
      cases ht'

/-- The transactions of a loaded book, and its pack. -/
theorem Refines.of_loadBook {tables : Tables} {σ : Ledger} (hσ : Refines tables σ) {code : String}
    {b : StoredBook} (hb : σ code = some b) {book : Book}
    (hload : loadBook tables code = .ok book) :
    (∀ x, x ∈ book.fields.transactions ↔ ∃ y ∈ b.transactions, y.readBack = x) ∧
      book.fields.legislativePack = b.base.fields.legislativePack := by
  obtain ⟨b', hb', hfields⟩ := exists_stored_of_loadBook hσ hload
  cases hb'.symm.trans hb
  rw [hfields]
  refine ⟨fun x => ?_, rfl⟩
  change x ∈ (orderBy _ b.transactions).map JournalTransaction.readBack ↔ _
  rw [List.mem_map]
  simp only [mem_orderBy]

/-- The transaction that is validated is the one that was posted, up to its form. -/
theorem verdict_of_select {tables : Tables} {σ : Ledger} (hσ : Refines tables σ) {code : String}
    {b : StoredBook} (hb : σ code = some b) {book : Book}
    (hload : loadBook tables code = .ok book) {p : Posting} {tx x : JournalTransaction}
    (htx : tx ∈ b.transactions)
    (hreference : requireNonEmptyStr p.reference "reference" = .ok tx.reference)
    (hsame : ∀ t, p = .transaction t → tx = t) (hselect : p.select book = .ok x) :
    verdict x = verdict tx ∧ p.reference = tx.reference := by
  cases p with
  | transaction t =>
    cases hselect
    obtain rfl := hsame x rfl
    exact ⟨rfl, rfl⟩
  | reversal o r =>
    change nextTransaction r book = .ok x at hselect
    unfold nextTransaction at hselect
    split at hselect
    · next z hfind =>
      cases hselect
      have hfound := List.find?_some hfind
      obtain ⟨y, hy, rfl⟩ := ((hσ.of_loadBook hb hload).1 x).mp (List.mem_of_find?_eq_some hfind)
      -- the reference that was found is stripped, and so is the one that was given
      obtain rfl : y.reference = r := of_decide_eq_true hfound
      have hstripped : requireNonEmptyStr y.reference "reference" = .ok y.reference :=
        y.valid.reference _
      have href : y.reference = tx.reference := Except.ok.inj (hstripped.symm.trans hreference)
      obtain rfl := List.inj_on_of_nodup_map b.nodup_references hy htx href
      exact ⟨verdict_readBack y, rfl⟩
    · cases hselect

/-! ### The trail -/

/-- The row of the audit log holds the verdict on a transaction of a book. -/
structure HoldsVerdict (e : String × JournalTransaction) (row : AuditRow) : Prop where
  rowPk : row.rowPk = s!"{e.1}:{e.2.reference}"
  payload : row.rowPayload = resultPayload e.1 e.2.reference (verdict e.2)

/-- The book and the reference of a transaction. -/
def trailKey (e : String × JournalTransaction) : String × String := (e.1, e.2.reference)

/-- The transaction is in a book of the ledger that declares the built-in pack. -/
def Ledger.Has (σ : Ledger) (e : String × JournalTransaction) : Prop :=
  ∃ b, σ e.1 = some b ∧ e.2 ∈ b.transactions ∧ b.base.fields.legislativePack = latviaPackCode

/-- The verdicts in the audit log are those on the transactions of a trail. -/
structure Traced (db : Database) (trail : List (String × JournalTransaction)) : Prop where
  keyed : db.tables.Keyed
  ledger : ∃ σ, Refines db.tables σ ∧ ∀ e ∈ trail, σ.Has e
  rows : List.Forall₂ HoldsVerdict trail (resultRows db.auditLog)
  once : (trail.map trailKey).Nodup

theorem Ledger.Has.extends {σ σ' : Ledger} {e : String × JournalTransaction} (h : σ.Has e)
    (hext : σ.Extends σ') : σ'.Has e := by
  obtain ⟨b, hb, hmem, hpack⟩ := h
  obtain ⟨b', hb', hbext⟩ := hext _ b hb
  exact ⟨b', hb', hbext.transactions.subset hmem, hbext.base ▸ hpack⟩

/-- A write of ledger rows leaves the verdicts alone. -/
theorem resultRows_after {c : Call} {db : Database} {rows : List CoreRow}
    (hwrites : Writes db.tables c.op rows)
    (hop : ∀ code reference result, c.op ≠ .appendLegislativeResult code reference result)
    {db' : Database} (heffect : Effect c db rows db') :
    resultRows db'.auditLog = resultRows db.auditLog := by
  refine heffect.resultRows_eq ?_
  generalize c.op = op at hwrites hop
  cases hwrites with
  | createBook book => simp [bookRows]
  | appendTransaction => simp [transactionRows]
  | appendReversal => simp [transactionRows]
  | appendLegislativeResult code reference result => exact (hop code reference result rfl).elim

/-- A call that writes ledger rows keeps the trail. -/
theorem Traced.write {db db' : Database} {trail : List (String × JournalTransaction)}
    (h : Traced db trail) {c : Call} {rows : List CoreRow} (hwrites : Writes db.tables c.op rows)
    (hadmits : db.tables.AdmitsAll rows) (heffect : Effect c db rows db')
    (hop : ∀ code reference result, c.op ≠ .appendLegislativeResult code reference result) :
    Traced db' trail := by
  obtain ⟨σ, hσ, htrail⟩ := h.ledger
  obtain ⟨σ', hstep, hσ'⟩ := hσ.step h.keyed hwrites hadmits
  refine ⟨?_, ⟨σ', ?_, fun e he => (htrail e he).extends hstep.extends⟩, ?_, h.once⟩
  · rw [heffect.tables]
    exact h.keyed.pushAll hadmits
  · rwa [heffect.tables]
  · rw [resultRows_after hwrites hop heffect]
    exact h.rows

/-- Creating a book keeps the trail. -/
theorem Traced.createBook {db : Database} {trail : List (String × JournalTransaction)}
    (h : Traced db trail) (s : Submission) (ctx : AuditContext) (book : Book) :
    Traced ((s.submit (.createBook book) ctx).run db).2 trail := by
  by_cases hcommits : s.Commits (.createBook book) ctx db
  · obtain ⟨c, db', rows, hop, -, hwrites, hadmits, -, heffect, hrun⟩ :=
      Submission.run_submit_of_commits hcommits
    have hdb : ((s.submit (.createBook book) ctx).run db).2 = db' := by
      rcases hrun with ⟨-, receipt, hrun⟩ | ⟨-, e, hrun⟩ <;> rw [hrun]
    rw [hdb]
    rw [← hop] at hwrites
    refine h.write hwrites hadmits heffect fun _ _ _ hresult => ?_
    cases hop.symm.trans hresult
  · obtain ⟨e, hrun⟩ := Submission.run_submit_of_not_commits hcommits
    rwa [hrun]

/-- **A posting** adds the verdict on its transaction to the trail, or raises. -/
theorem Traced.post {db : Database} {trail : List (String × JournalTransaction)}
    (h : Traced db trail) (w : GatewayWorld) (ctx : AuditContext) (code : String) (p : Posting) :
    ∃ added, Traced ((p.post w ctx code).run db).2 (trail ++ added) ∧
      (((p.post w ctx code).run db).1.Succeeds → added.map trailKey = [(code, p.reference)]) := by
  rw [p.post_eq]
  by_cases hcommits : w.ledger.Commits (p.op code) ctx db
  swap
  · obtain ⟨e, hrun⟩ := Submission.run_submit_of_not_commits hcommits
    rw [Procedure.run_bind_of_error hrun]
    exact ⟨[], by rwa [List.append_nil], fun hsucceeds => (not_succeeds_error e hsucceeds).elim⟩
  obtain ⟨c, db', rows, hop, -, hwrites, hadmits, -, heffect, hrun⟩ :=
    Submission.run_submit_of_commits hcommits
  have hposting : ∀ code' reference result,
      c.op ≠ .appendLegislativeResult code' reference result := by
    intro code' reference result hresult
    rw [hop] at hresult
    cases p <;> cases hresult
  -- the ledger rows are written, whatever comes later
  obtain ⟨σ, hσ, htrail⟩ := h.ledger
  obtain ⟨σ', hstep, hσ'⟩ := hσ.step h.keyed hwrites hadmits
  rw [← heffect.tables] at hσ'
  rw [← hop] at hwrites
  have hwritten : Traced db' trail := h.write hwrites hadmits heffect hposting
  rcases hrun with ⟨-, receipt, hrun⟩ | ⟨-, e, hrun⟩
  swap
  · rw [Procedure.run_bind_of_error hrun]
    exact ⟨[], by rwa [List.append_nil], fun hsucceeds => (not_succeeds_error e hsucceeds).elim⟩
  rw [Procedure.run_bind_of_ok hrun]
  rw [Procedure.run_bind_pure (auditLegislation w ctx code p.reference p.select), succeeds_map]
  dsimp only
  rcases auditLegislation_cases w ctx code p.reference p.select db' with ⟨hsame, hraises⟩ |
    ⟨book, x, auditContext, ms, hload, hselect, hpack, hafter, -⟩
  · rw [hsame]
    exact ⟨[], by rwa [List.append_nil], fun hsucceeds => (hraises hsucceeds).elim⟩
  -- the verdict is on the transaction that has just been written
  obtain ⟨b, tx, b', hb, hb', hbase, htransactions, hfresh, hreference, hsame⟩ := hstep.posted
  have htx : tx ∈ b'.transactions := by
    rw [htransactions]
    simp
  obtain ⟨hverdict, href⟩ := verdict_of_select hσ' hb' hload htx hreference hsame hselect
  refine ⟨[(code, tx)], ?_, fun _ => by rw [href]; rfl⟩
  rw [hafter, hverdict, href]
  refine ⟨hwritten.keyed, ⟨σ', hσ', ?_⟩, ?_, ?_⟩
  · intro e he
    rcases List.mem_append.mp he with he | he
    · exact (htrail e he).extends hstep.extends
    · rw [List.mem_singleton.mp he]
      exact ⟨b', hb', htx, (hσ'.of_loadBook hb' hload).2 ▸ hpack⟩
  · have hrow : resultRows (db'.auditLog ++
        [auditResult auditContext ms db'.auditLog code tx.reference (verdict tx)]) =
        resultRows db'.auditLog ++
          [auditResult auditContext ms db'.auditLog code tx.reference (verdict tx)] := by
      rw [resultRows, List.filter_append, resultRows]
      simp [auditResult]
    dsimp only
    rw [hrow]
    exact List.rel_append hwritten.rows (.cons ⟨rfl, rfl⟩ .nil)
  · rw [List.map_append]
    refine List.Nodup.append h.once (List.nodup_singleton _) ?_
    intro k hk hk'
    obtain ⟨e, he, rfl⟩ := List.mem_map.mp hk
    obtain ⟨hcode, he2⟩ := Prod.ext_iff.mp (List.mem_singleton.mp hk')
    -- a transaction of the trail was there before, and had another reference
    obtain ⟨b₀, hb₀, hmem, -⟩ := htrail e he
    change e.1 = code at hcode
    rw [hcode, hb] at hb₀
    cases hb₀
    exact hfresh e.2 hmem he2

/-- The trail after a run, with the postings that returned in it. -/
theorem Traced.run {db : Database} {trail : List (String × JournalTransaction)}
    (h : Traced db trail) (calls : List GatewayCall) :
    ∃ added, Traced (GatewayCall.afterAll calls db) (trail ++ added) ∧
      (returnedPostings calls db).Sublist (added.map trailKey) := by
  induction calls generalizing db trail with
  | nil => exact ⟨[], by rwa [List.append_nil], List.nil_sublist _⟩
  | cons c calls ih =>
    -- one call adds what it has posted, when it returns
    have hcall : ∃ added, Traced (c.after db) (trail ++ added) ∧
        (match (c.run.run db).1 with
          | .ok _ => c.postings
          | .error _ => []).Sublist (added.map trailKey) := by
      cases c with
      | createBook s ctx book =>
        refine ⟨[], ?_, ?_⟩
        · rw [List.append_nil, GatewayCall.after, GatewayCall.run, Procedure.snd_run_discard]
          exact h.createBook s ctx book
        · split <;> exact List.Sublist.refl _
      | post w ctx code p =>
        obtain ⟨added, hadded, hreturns⟩ := h.post w ctx code p
        refine ⟨added, ?_, ?_⟩
        · rwa [GatewayCall.after, GatewayCall.run, Procedure.snd_run_discard]
        · split
          · next receipt hok =>
            have hsucceeds := (Procedure.succeeds_discard (p.post w ctx code) db).mp ⟨_, hok⟩
            rw [hreturns hsucceeds]
            exact List.Sublist.refl _
          · exact List.nil_sublist _
    obtain ⟨first, hfirst, hsub⟩ := hcall
    obtain ⟨added, hadded, hrest⟩ := ih hfirst
    refine ⟨first ++ added, by rwa [← List.append_assoc], ?_⟩
    rw [returnedPostings, List.map_append]
    exact hsub.append hrest

/-! ### The theorem -/

/-- The verdicts in the audit log are accounted for: each is that on a transaction of its own,
which is stored, and on which the pack comes to the same verdict when its book is loaded. -/
structure Accounted (db : Database) (trail : List (String × JournalTransaction)) : Prop where
  rows : List.Forall₂ HoldsVerdict trail (resultRows db.auditLog)
  once : (trail.map trailKey).Nodup
  stored : ∀ e ∈ trail, trailKey e ∈ db.tables.transactions.map fun r => (r.bookCode, r.reference)
  revalidated : ∀ e ∈ trail, ∀ book, loadBook db.tables e.1 = .ok book →
    ∃ t ∈ book.fields.transactions, t.reference = e.2.reference ∧
      runnerValidate book.fields.legislativePack book t = .ok (verdict e.2)

/-- **The verdicts of a run are accounted for**: after any calls of the service that write,
those that raise halfway included, every verdict in the audit log is that on a transaction of
its own, and none of a posting that returned is missing. -/
theorem accounted_of_run (calls : List GatewayCall) :
    ∃ trail, Accounted (GatewayCall.afterAll calls {}) trail ∧
      (returnedPostings calls {}).Sublist (trail.map trailKey) := by
  have hempty : Traced {} [] :=
    { keyed := Reachable.empty.keyed
      ledger := ⟨_, Refines.empty, by simp⟩
      rows := .nil
      once := List.nodup_nil }
  obtain ⟨trail, htraced, hreturned⟩ := hempty.run calls
  rw [List.nil_append] at htraced
  obtain ⟨σ, hσ, htrail⟩ := htraced.ledger
  refine ⟨trail, ⟨htraced.rows, htraced.once, ?_, ?_⟩, hreturned⟩
  · intro e he
    obtain ⟨b, hb, hmem, -⟩ := htrail e he
    obtain ⟨hcode, hholds⟩ := hσ.holds hb
    obtain ⟨r, hr, hbook, href⟩ := (hholds.exists_transaction_iff
      fun x => x.reference = e.2.reference).mpr ⟨e.2, hmem, rfl⟩
    exact List.mem_map.mpr ⟨r, hr, Prod.ext (hbook.trans hcode) href⟩
  · intro e he book hload
    obtain ⟨b, hb, hmem, hpack⟩ := htrail e he
    obtain ⟨htransactions, hloaded⟩ := hσ.of_loadBook hb hload
    refine ⟨e.2.readBack, (htransactions _).mpr ⟨e.2, hmem, rfl⟩, rfl, ?_⟩
    exact runnerValidate_eq_ok_iff.mpr ⟨hloaded.trans hpack, (verdict_readBack e.2).symm⟩

end

end FinestVX