import FinestVX.Gateway.Service
import FinestVX.Runtime.Submissions

/-!
# Posting through the gateway

Posting a transaction, or the reversal of one, is three steps that commit on their own: the
ledger rows are written, the book is loaded and its pack validates the transaction in a
subinterpreter, and the result is written to the audit log.  Nothing undoes the first step
when a later one raises.

## Main definitions

* `GatewayWorld` — what the environment does during a call.
* `postTransaction`, `postReversal` — the two calls.
* `AllOrNothing` — both writes are made and the call returns, or neither and it raises.
* `Completes` — what the steps after the first one need.

## Main results

* `auditLegislation_succeeds_iff` — when the steps after the ledger write go through.
* `allOrNothing_iff` — **a call is all or nothing exactly when** the ledger write is not
  made, or every later step goes through.
* `Reference.unknownPack_halfPosted` — a transaction that is stored by a call that raises.
-/

namespace FinestVX

open Except

section

variable [Platform]

/-! ### The calls -/

/-- What the environment does during a call of the gateway. -/
structure GatewayWorld where
  ledger : Submission
  readFault : Option PyError
  poolFault : Option PyError
  audit : Submission

/-- A gateway without faults. -/
def faultless (clock clock' : ℕ → ℤ) : GatewayWorld :=
  ⟨.served { clock }, none, none, .served { clock := clock' }⟩

/-- `PostedTransactionResult` -/
structure PostedTransactionResult where
  ledgerWrite : StoreWriteReceipt
  legislativeResult : LegislativeValidationResult
  legislativeWrite : StoreWriteReceipt

/-- The audit context of the legislative result. -/
def legislativeAuditContext (ctx : AuditContext) : Except PyError AuditContext :=
  Built.new AuditContextFields.postInit
    { ctx.fields with reason := ctx.fields.reason ++ ":legislative-validation" }

/-- The steps after the ledger write: load the book, select the transaction to validate,
validate it in a subinterpreter of the pool, and write the result to the audit log. -/
def auditLegislation (w : GatewayWorld) (ctx : AuditContext) (code reference : String)
    (select : Book → Except PyError JournalTransaction) :
    Procedure PyError Database (LegislativeValidationResult × StoreWriteReceipt) := do
  let db ← Procedure.read
  let book ← Procedure.lift (getBook w.readFault db.tables code)
  let t ← Procedure.lift (select book)
  let _ ← Procedure.lift (raising w.poolFault)
  let result ← Procedure.lift (runnerValidate book.fields.legislativePack book t)
  let legislativeContext ← Procedure.lift (legislativeAuditContext ctx)
  let legislativeWrite ←
    w.audit.submit (.appendLegislativeResult code reference result) legislativeContext
  return (result, legislativeWrite)

/-- `FinestVXService.post_transaction` -/
def postTransaction (w : GatewayWorld) (ctx : AuditContext) (code : String)
    (t : JournalTransaction) : Procedure PyError Database PostedTransactionResult := do
  let ledgerWrite ← w.ledger.submit (.appendTransaction code t) ctx
  let legislative ← auditLegislation w ctx code t.reference fun _ => .ok t
  return ⟨ledgerWrite, legislative.1, legislative.2⟩

/-- `next(tx for tx in book.transactions if tx.reference == reversal_ref)` -/
def nextTransaction (reversalRef : String) (book : Book) : Except PyError JournalTransaction :=
  match book.fields.transactions.find? fun t => t.reference = reversalRef with
  | some t => .ok t
  | none => .error .stopIteration

/-- `FinestVXService.post_reversal` -/
def postReversal (w : GatewayWorld) (ctx : AuditContext) (code originalRef reversalRef : String) :
    Procedure PyError Database PostedTransactionResult := do
  let ledgerWrite ← w.ledger.submit (.appendReversal code originalRef reversalRef) ctx
  let legislative ← auditLegislation w ctx code reversalRef (nextTransaction reversalRef)
  return ⟨ledgerWrite, legislative.1, legislative.2⟩

/-- What is posted. -/
inductive Posting
  | transaction (t : JournalTransaction)
  | reversal (originalRef reversalRef : String)

namespace Posting

/-- The ledger write of the call. -/
def op (code : String) : Posting → Op
  | transaction t => .appendTransaction code t
  | reversal originalRef reversalRef => .appendReversal code originalRef reversalRef

/-- The reference the result is audited under. -/
def reference : Posting → String
  | transaction t => t.reference
  | reversal _ reversalRef => reversalRef

/-- The transaction of the loaded book that is validated. -/
def select : Posting → Book → Except PyError JournalTransaction
  | transaction t, _ => .ok t
  | reversal _ reversalRef, book => nextTransaction reversalRef book

/-- The call. -/
def post (w : GatewayWorld) (ctx : AuditContext) (code : String) :
    Posting → Procedure PyError Database PostedTransactionResult
  | transaction t => postTransaction w ctx code t
  | reversal originalRef reversalRef => postReversal w ctx code originalRef reversalRef

/-- A reference that the caller gives has no white space around it. -/
def Stripped : Posting → Prop
  | transaction _ => True
  | reversal _ reversalRef => Text.strip reversalRef = reversalRef

end Posting

theorem Posting.post_eq (p : Posting) (w : GatewayWorld) (ctx : AuditContext) (code : String) :
    p.post w ctx code = (do
      let ledgerWrite ← w.ledger.submit (p.op code) ctx
      let legislative ← auditLegislation w ctx code p.reference p.select
      return ⟨ledgerWrite, legislative.1, legislative.2⟩) := by
  cases p with
  | transaction t => rfl
  | reversal originalRef reversalRef => rfl

/-! ### All or nothing -/

/-- The rows of the audit log that hold a legislative result. -/
def resultRows (log : List AuditRow) : List AuditRow :=
  log.filter (·.tableName = "legislative_validation")

/-- The ledger rows of the transaction and one audit row of its legislative result have been
added. -/
structure Posted (p : Posting) (code : String) (db db' : Database) : Prop where
  ledger : ∃ t, Writes db.tables (p.op code) (transactionRows code t) ∧
    db'.tables = db.tables.pushAll (transactionRows code t)
  audit : ∃ row, row.rowPk = s!"{code}:{p.reference}" ∧
    resultRows db'.auditLog = resultRows db.auditLog ++ [row]

/-- Nothing has been added. -/
structure NotPosted (db db' : Database) : Prop where
  ledger : db'.tables = db.tables
  audit : resultRows db'.auditLog = resultRows db.auditLog

/-- The call returns and both writes are made, or it raises and neither is. -/
def AllOrNothing (p : Posting) (code : String) (db : Database)
    (outcome : Except PyError PostedTransactionResult × Database) : Prop :=
  match outcome.1 with
  | .ok _ => Posted p code db outcome.2
  | .error _ => NotPosted db outcome.2

/-- What the steps after the ledger write need. -/
structure Completes (p : Posting) (w : GatewayWorld) (code : String) (db : Database) : Prop where
  served : w.ledger.IsServed
  book : ∃ book, loadBook db.tables code = .ok book ∧ book.fields.legislativePack = latviaPackCode
  period : KeepsReadable db (p.op code)
  stripped : p.Stripped
  read : w.readFault = none
  pool : w.poolFault = none
  audit : w.audit.Faultless

/-! ### The steps after the ledger write -/

/-- The audit context of the legislative result can always be made. -/
theorem legislativeAuditContext_succeeds (ctx : AuditContext) :
    (legislativeAuditContext ctx).Succeeds := by
  obtain ⟨raw, hraw⟩ := ctx.built
  obtain ⟨actor, hactor, hraw⟩ := bind_eq_ok.mp hraw
  obtain ⟨reason, hreason, hraw⟩ := bind_eq_ok.mp hraw
  obtain ⟨hne, hstrip⟩ := requireNonEmptyStr_eq_ok.mp hreason
  have hreasonEq : ctx.fields.reason = reason := congrArg AuditContextFields.reason
    (Except.ok.inj hraw).symm
  have hactorEq : ctx.fields.actor = actor := congrArg AuditContextFields.actor
    (Except.ok.inj hraw).symm
  have hsuffix : Text.strip (reason ++ ":legislative-validation") =
      reason ++ ":legislative-validation" :=
    Text.strip_append (by rw [hstrip, Text.strip_strip]) (by decide +kernel) (hstrip ▸ hne)
      (by decide)
  have hlong : requireNonEmptyStr (reason ++ ":legislative-validation") "reason" =
      .ok (reason ++ ":legislative-validation") := by
    refine requireNonEmptyStr_eq_ok.mpr ⟨?_, hsuffix.symm⟩
    rw [hsuffix]
    intro h
    have := congrArg String.toList h
    simp at this
  refine Built.new_succeeds_iff.mpr ?_
  rw [AuditContextFields.postInit, hactorEq, requireNonEmptyStr_of_eq_ok hactor, ok_bind,
    hreasonEq, hlong]
  exact ⟨_, rfl⟩

/-- The write of a legislative result returns when it is served without a fault. -/
theorem submit_result_succeeds_iff {s : Submission} {code reference : String}
    {result : LegislativeValidationResult} {ctx : AuditContext} {db : Database}
    (hparents : db.tables.ParentsExist) :
    ((s.submit (.appendLegislativeResult code reference result) ctx).run db).1.Succeeds ↔
      s.Faultless := by
  cases s with
  | refused e => exact ⟨fun h => (not_succeeds_error e h).elim, False.elim⟩
  | abandoned e w =>
    refine ⟨fun h => ?_, False.elim⟩
    cases w with
    | none => exact (not_succeeds_error e h).elim
    | some w => exact (not_succeeds_error e h).elim
  | served w =>
    change (executeWrite w (insertResult w ctx code reference result) _ db).1.Succeeds ↔
      w.beginFault = none ∧ w.insertFault 0 = none ∧ w.commitFault = none
    unfold executeWrite withConnection runTransaction insertResult commit
    cases w.beginFault with
    | some e => simp [raising]
    | none =>
      cases w.insertFault 0 with
      | some e => simp [raising]
      | none =>
        cases w.commitFault with
        | some e => simp [raising]
        | none => simp [raising, hparents]

/-- **The steps after the ledger write** go through exactly when the book is loaded, its pack
is the built-in one, its transaction is found and nothing else raises. -/
theorem auditLegislation_succeeds_iff {w : GatewayWorld} {ctx : AuditContext}
    {code reference : String} {select : Book → Except PyError JournalTransaction} {db : Database}
    (hparents : db.tables.ParentsExist) :
    ((auditLegislation w ctx code reference select).run db).1.Succeeds ↔
      (∃ book, loadBook db.tables code = .ok book ∧
        book.fields.legislativePack = latviaPackCode ∧ (select book).Succeeds) ∧
      w.readFault = none ∧ w.poolFault = none ∧ w.audit.Faultless := by
  have hraising : ∀ {fault : Option PyError} {a : Unit}, raising fault = .ok a ↔ fault = none := by
    intro fault a
    cases fault <;> simp [raising]
  have haudit : ∀ (result : LegislativeValidationResult) (ctx : AuditContext),
      ((w.audit.submit (.appendLegislativeResult code reference result) ctx >>= fun write =>
        (pure (result, write) : Procedure PyError Database _)).run db).1.Succeeds ↔
          w.audit.Faultless := by
    intro result ctx
    rw [← submit_result_succeeds_iff hparents, Procedure.succeeds_bind]
    constructor
    · rintro ⟨receipt, t, hrun, -⟩
      exact ⟨receipt, by rw [hrun]⟩
    · rintro ⟨receipt, hreceipt⟩
      exact ⟨receipt, _, Prod.ext hreceipt rfl, succeeds_ok _⟩
  obtain ⟨legislativeContext, hcontext⟩ := legislativeAuditContext_succeeds ctx
  rw [auditLegislation, Procedure.run_bind_of_ok (Procedure.run_read db),
    Procedure.succeeds_lift_bind]
  constructor
  · rintro ⟨book, hbook, h⟩
    obtain ⟨_, hread, hload⟩ := bind_eq_ok.mp hbook
    obtain ⟨t, hselect, h⟩ := Procedure.succeeds_lift_bind.mp h
    obtain ⟨_, hpool, h⟩ := Procedure.succeeds_lift_bind.mp h
    obtain ⟨result, hresult, h⟩ := Procedure.succeeds_lift_bind.mp h
    obtain ⟨_, -, h⟩ := Procedure.succeeds_lift_bind.mp h
    exact ⟨⟨book, hload, runnerValidate_succeeds_iff.mp ⟨result, hresult⟩, t, hselect⟩,
      hraising.mp hread, hraising.mp hpool, (haudit _ _).mp h⟩
  · rintro ⟨⟨book, hload, hpack, t, hselect⟩, hread, hpool, hfaultless⟩
    obtain ⟨result, hresult⟩ := (runnerValidate_succeeds_iff (t := t)).mpr hpack
    refine ⟨book, bind_eq_ok.mpr ⟨(), hraising.mpr hread, hload⟩, ?_⟩
    refine Procedure.succeeds_lift_bind.mpr ⟨t, hselect, ?_⟩
    refine Procedure.succeeds_lift_bind.mpr ⟨(), hraising.mpr hpool, ?_⟩
    refine Procedure.succeeds_lift_bind.mpr ⟨result, hresult, ?_⟩
    exact Procedure.succeeds_lift_bind.mpr ⟨legislativeContext, hcontext, (haudit _ _).mpr hfaultless⟩

/-- The one row that a legislative result adds. -/
theorem run_submit_result {s : Submission} {code reference : String}
    {result : LegislativeValidationResult} {ctx : AuditContext} {db db' : Database}
    {receipt : StoreWriteReceipt}
    (h : (s.submit (.appendLegislativeResult code reference result) ctx).run db =
      (.ok receipt, db')) :
    ∃ row, row.rowPk = s!"{code}:{reference}" ∧ row.tableName = "legislative_validation" ∧
      db'.auditLog = db.auditLog ++ [row] := by
  cases s with
  | refused e => cases h
  | served w =>
    obtain ⟨hinsert, -⟩ := executeWrite_ok h
    obtain ⟨_, -, hinsert⟩ := bind_eq_ok.mp hinsert
    cases hinsert
    exact ⟨_, rfl, rfl, rfl⟩
  | abandoned e w => cases w <;> cases h

/-- The steps after the ledger write leave the ledger alone. -/
theorem tables_auditLegislation (w : GatewayWorld) (ctx : AuditContext) (code reference : String)
    (select : Book → Except PyError JournalTransaction) (db : Database) :
    ((auditLegislation w ctx code reference select).run db).2.tables = db.tables := by
  let r : Database → Database → Prop := fun db db' => db'.tables = db.tables
  have hrefl : ∀ db, r db db := fun _ => rfl
  have htrans : ∀ a b c, r a b → r b c → r a c := fun _ _ _ hab hbc => hbc.trans hab
  have hlift : ∀ {α : Type} (x : Except PyError α), Procedure.Keeps r (Procedure.lift x) :=
    fun x => Procedure.keeps_lift hrefl x
  have hsubmit : ∀ result ctx, Procedure.Keeps r
      (w.audit.submit (.appendLegislativeResult code reference result) ctx) := by
    intro result ctx db
    by_cases hcommits : w.audit.Commits (.appendLegislativeResult code reference result) ctx db
    · obtain ⟨c, db', rows, -, -, hwrites, -, -, heffect, hrun⟩ :=
        Submission.run_submit_of_commits hcommits
      cases hwrites
      have htables : db'.tables = db.tables := heffect.tables
      rcases hrun with ⟨-, receipt, hrun⟩ | ⟨-, e, hrun⟩
      · rwa [hrun]
      · rwa [hrun]
    · obtain ⟨e, hrun⟩ := Submission.run_submit_of_not_commits hcommits
      rw [hrun]
  have hkeeps : Procedure.Keeps r (auditLegislation w ctx code reference select) := by
    refine Procedure.keeps_bind htrans (Procedure.keeps_read hrefl) fun _ _ => ?_
    refine Procedure.keeps_bind htrans (hlift _) fun _ _ => ?_
    refine Procedure.keeps_bind htrans (hlift _) fun _ _ => ?_
    refine Procedure.keeps_bind htrans (hlift _) fun _ _ => ?_
    refine Procedure.keeps_bind htrans (hlift _) fun _ _ => ?_
    refine Procedure.keeps_bind htrans (hlift _) fun _ _ => ?_
    exact Procedure.keeps_bind htrans (hsubmit _ _) fun _ _ => Procedure.keeps_pure hrefl _
  exact hkeeps db

/-- The steps after the ledger write, when they go through. -/
theorem run_auditLegislation {w : GatewayWorld} {ctx : AuditContext} {code reference : String}
    {select : Book → Except PyError JournalTransaction} {db db' : Database}
    {a : LegislativeValidationResult × StoreWriteReceipt}
    (h : (auditLegislation w ctx code reference select).run db = (.ok a, db')) :
    ∃ row, row.rowPk = s!"{code}:{reference}" ∧
      resultRows db'.auditLog = resultRows db.auditLog ++ [row] := by
  have hlift : ∀ {α β : Type} {x : Except PyError α} {f : α → Procedure PyError Database β}
      {b : β}, (Procedure.lift x >>= f).run db = (.ok b, db') →
        ∃ a, (f a).run db = (.ok b, db') := by
    intro α β x f b h
    obtain ⟨a, t, ha, h⟩ := Procedure.run_bind_eq_ok.mp h
    cases ha
    exact ⟨a, h⟩
  rw [auditLegislation, Procedure.run_bind_of_ok (Procedure.run_read db)] at h
  obtain ⟨book, h⟩ := hlift h
  obtain ⟨t, h⟩ := hlift h
  obtain ⟨_, h⟩ := hlift h
  obtain ⟨result, h⟩ := hlift h
  obtain ⟨legislativeContext, h⟩ := hlift h
  obtain ⟨receipt, u, hsubmit, h⟩ := Procedure.run_bind_eq_ok.mp h
  cases h
  obtain ⟨row, hpk, htable, hlog⟩ := run_submit_result hsubmit
  refine ⟨row, hpk, ?_⟩
  rw [hlog, resultRows, List.filter_append, resultRows]
  simp [htable]

/-! ### The ledger write -/

/-- The audit rows of ledger rows hold no legislative result. -/
theorem Effect.resultRows_eq {c : Call} {db db' : Database} {rows : List CoreRow}
    (h : Effect c db rows db') (hrows : rows ≠ []) :
    resultRows db'.auditLog = resultRows db.auditLog := by
  have hinsert : ∀ (ctx : AuditContext) (clock : ℕ → ℤ) (i : ℕ) (rows : List CoreRow)
      (db : Database),
      resultRows (db.insertAll ctx clock i rows).auditLog = resultRows db.auditLog := by
    intro ctx clock i rows
    induction rows generalizing i with
    | nil => exact fun _ => rfl
    | cons r rows ih =>
      intro db
      have htable : r.tableName ≠ "legislative_validation" := by
        cases r <;> simp [CoreRow.tableName]
      rw [Database.insertAll, ih]
      change resultRows (db.auditLog ++ [auditInsert ctx (clock i) db.auditLog r]) = _
      rw [resultRows, List.filter_append, resultRows]
      simp [auditInsert, htable]
  cases h with
  | insert => exact hinsert ..
  | result hnil => exact (hrows hnil).elim

/-- The rows of a transaction stay where later steps leave the ledger alone. -/
theorem Effect.not_notPosted {c : Call} {db db' db'' : Database} {code : String}
    {t : JournalTransaction} (h : Effect c db (transactionRows code t) db')
    (htables : db''.tables = db'.tables) : ¬ NotPosted db db'' := by
  intro hnot
  have hlength := congrArg (fun t : Tables => t.transactions.length)
    (h.tables.symm.trans (htables.symm.trans hnot.ledger))
  rw [pushAll_transactionRows] at hlength
  simp at hlength

/-- What a posting adds to a stored book. -/
theorem Refines.posting {db : Database} {σ : Ledger} (h : Refines db.tables σ) {p : Posting}
    {code : String} {rows : List CoreRow} (hwrites : Writes db.tables (p.op code) rows)
    (hadmits : db.tables.AdmitsAll rows) :
    ∃ b tx ht hfresh, b.code = code ∧ Holds db.tables b ∧ rows = transactionRows code tx ∧
      requireNonEmptyStr p.reference "reference" = .ok tx.reference ∧
      Holds (db.tables.pushAll rows) (b.append tx ht hfresh) ∧
      (b.PeriodsKnown → (KeepsReadable db (p.op code) ↔
        ∀ q ∈ tx.fields.period, q ∈ b.base.fields.periods.map BookPeriod.period)) := by
  cases p with
  | transaction t =>
    cases hwrites with
    | appendTransaction hposted hbook hknown =>
    obtain ⟨b, hb⟩ := h.exists_of_accountCodes hbook
    obtain ⟨rfl, hholds⟩ := h.holds hb
    have ht : Postable b.accountCodes t := ⟨hposted, hholds.accountCodes ▸ hknown⟩
    have hfresh := hholds.fresh hadmits
    refine ⟨b, t, ht, hfresh, rfl, hholds, rfl, t.valid.reference _,
      ((h.append hb ht hfresh).holds (Function.update_self ..)).2, fun _ => ?_⟩
    exact forall₂_congr fun q _ => hholds.storedPeriod_iff
  | reversal o r =>
    cases hwrites with
    | appendReversal htx =>
    obtain ⟨b, original, hb, hmem, -, -, hreversal⟩ := h.reversalTransaction_eq_ok htx
    obtain ⟨rfl, hholds⟩ := h.holds hb
    obtain ⟨hreference, -, hperiod, -⟩ := reversalOfTransaction_eq_ok hreversal
    have ht := postable_of_reversal hmem hreversal
    have hfresh := hholds.fresh hadmits
    refine ⟨b, _, ht, hfresh, rfl, hholds, rfl, hreference,
      ((h.append hb ht hfresh).holds (Function.update_self ..)).2, fun hknown => ?_⟩
    -- a reversal has the period of its original
    refine ⟨fun _ q hq => hknown original hmem q (hperiod ▸ hq), fun _ => trivial⟩

/-- A reference is found in a loaded book when one of its transactions has it. -/
theorem nextTransaction_succeeds_iff {reversalRef : String} {book : Book} :
    (nextTransaction reversalRef book).Succeeds ↔
      ∃ t ∈ book.fields.transactions, t.reference = reversalRef := by
  unfold nextTransaction
  cases hfind : book.fields.transactions.find? fun t => t.reference = reversalRef with
  | some t =>
    have hreference := List.find?_some hfind
    exact ⟨fun _ => ⟨t, List.mem_of_find?_eq_some hfind, of_decide_eq_true hreference⟩,
      fun _ => succeeds_ok t⟩
  | none =>
    refine ⟨fun h => (not_succeeds_error _ h).elim, ?_⟩
    rintro ⟨t, ht, hreference⟩
    exact (List.find?_eq_none.mp hfind t ht (decide_eq_true hreference)).elim

/-- The transaction that was written is found again when its reference had no white space
around it. -/
theorem select_succeeds_iff {p : Posting} {b : StoredBook} {tx : JournalTransaction} {ht hfresh}
    (hreference : requireNonEmptyStr p.reference "reference" = .ok tx.reference) (hknown) :
    (p.select ((b.append tx ht hfresh).readBack hknown)).Succeeds ↔ p.Stripped := by
  cases p with
  | transaction t => exact ⟨fun _ => trivial, fun _ => succeeds_ok t⟩
  | reversal o r =>
    have hstrip : tx.reference = Text.strip r := (requireNonEmptyStr_eq_ok.mp hreference).2
    refine nextTransaction_succeeds_iff.trans ⟨?_, fun hstripped => ?_⟩
    · rintro ⟨x, -, rfl⟩
      -- the references of a book are stripped
      exact (requireNonEmptyStr_eq_ok.mp (x.valid.reference "reference")).2.symm
    · have hmem : tx ∈ (b.append tx ht hfresh).transactions := by
        rw [StoredBook.transactions_append]
        simp
      exact ⟨tx.readBack, List.mem_map_of_mem (mem_orderBy.mpr hmem), hstrip.trans hstripped⟩

/-- The book that is loaded after the ledger write, in terms of the one before. -/
theorem loadBook_after_iff {p : Posting} {b : StoredBook} {tx : JournalTransaction} {ht hfresh}
    {db : Database} {rows : List CoreRow}
    (hreference : requireNonEmptyStr p.reference "reference" = .ok tx.reference)
    (hbefore : Holds db.tables b) (hafter : Holds (db.tables.pushAll rows) (b.append tx ht hfresh))
    (hperiod : b.PeriodsKnown → (KeepsReadable db (p.op b.code) ↔
      ∀ q ∈ tx.fields.period, q ∈ b.base.fields.periods.map BookPeriod.period)) :
    (∃ book, loadBook (db.tables.pushAll rows) b.code = .ok book ∧
      book.fields.legislativePack = latviaPackCode ∧ (p.select book).Succeeds) ↔
    (∃ book, loadBook db.tables b.code = .ok book ∧
      book.fields.legislativePack = latviaPackCode) ∧ KeepsReadable db (p.op b.code) ∧
        p.Stripped := by
  constructor
  · rintro ⟨book, hload, hpack, hselect⟩
    obtain ⟨hplain, hknown'⟩ := hafter.loadBook_succeeds_iff.mp ⟨book, hload⟩
    have hknown : b.PeriodsKnown := fun x hx => hknown' x (by simp [hx])
    have htx : ∀ q ∈ tx.fields.period, q ∈ b.base.fields.periods.map BookPeriod.period :=
      hknown' tx (by simp)
    have hbook := (hafter.loadBook_ok hplain hknown').symm.trans hload
    cases hbook
    exact ⟨⟨_, hbefore.loadBook_ok hplain hknown, hpack⟩, (hperiod hknown).mpr htx,
      (select_succeeds_iff hreference hknown').mp hselect⟩
  · rintro ⟨⟨book, hload, hpack⟩, hkeeps, hstripped⟩
    obtain ⟨hplain, hknown⟩ := hbefore.loadBook_succeeds_iff.mp ⟨book, hload⟩
    have hknown' := hknown.append ht hfresh ((hperiod hknown).mp hkeeps)
    have hbook := (hbefore.loadBook_ok hplain hknown).symm.trans hload
    cases hbook
    exact ⟨_, hafter.loadBook_ok hplain hknown', hpack,
      (select_succeeds_iff hreference hknown').mpr hstripped⟩

/-! ### The theorem -/

/-- **A call is all or nothing exactly when** its ledger write is not made, or is served in
time and every later step goes through. -/
theorem allOrNothing_iff {p : Posting} {w : GatewayWorld} {ctx : AuditContext} {code : String}
    {db : Database} (hreach : Reachable db) :
    AllOrNothing p code db ((p.post w ctx code).run db) ↔
      ¬ w.ledger.Commits (p.op code) ctx db ∨ Completes p w code db := by
  rw [p.post_eq]
  by_cases hcommits : w.ledger.Commits (p.op code) ctx db
  · obtain ⟨c, db', rows, -, -, hwrites, hadmits, hparents, heffect, hrun⟩ :=
      Submission.run_submit_of_commits hcommits
    obtain ⟨σ, hσ⟩ := hreach.refines
    obtain ⟨b, tx, ht, hfresh, rfl, hbefore, rfl, hreference, hafter, hperiod⟩ :=
      hσ.posting hwrites hadmits
    have hselected := loadBook_after_iff hreference hbefore hafter hperiod
    rcases hrun with ⟨hserved, receipt, hrun⟩ | ⟨hserved, e, hrun⟩
    · rw [Procedure.run_bind_of_ok hrun]
      have hlater : ((auditLegislation w ctx b.code p.reference p.select).run db').1.Succeeds ↔ _ :=
        auditLegislation_succeeds_iff (by rwa [heffect.tables])
      rw [heffect.tables, hselected] at hlater
      cases hlegislative : (auditLegislation w ctx b.code p.reference p.select).run db' with
      | mk outcome db'' =>
        have htables : db''.tables = db'.tables := by
          have := tables_auditLegislation w ctx b.code p.reference p.select db'
          rwa [hlegislative] at this
        rw [hlegislative] at hlater
        cases outcome with
        | ok legislative =>
          rw [Procedure.run_bind_of_ok hlegislative]
          obtain ⟨⟨hbook, hkeeps, hstripped⟩, hread, hpool, haudit⟩ := hlater.mp (succeeds_ok _)
          refine ⟨fun _ => .inr ⟨hserved, hbook, hkeeps, hstripped, hread, hpool, haudit⟩,
            fun _ => ⟨⟨tx, hwrites, htables.trans heffect.tables⟩, ?_⟩⟩
          obtain ⟨row, hpk, hlog⟩ := run_auditLegislation hlegislative
          rw [heffect.resultRows_eq (List.cons_ne_nil _ _)] at hlog
          exact ⟨row, hpk, hlog⟩
        | error e =>
          rw [Procedure.run_bind_of_error hlegislative]
          refine ⟨fun h => (heffect.not_notPosted htables h).elim, ?_⟩
          rintro (hnot | h)
          · exact (hnot hcommits).elim
          · refine (not_succeeds_error e (hlater.mpr ?_)).elim
            exact ⟨⟨h.book, h.period, h.stripped⟩, h.read, h.pool, h.audit⟩
    · rw [Procedure.run_bind_of_error hrun]
      refine ⟨fun h => (heffect.not_notPosted rfl h).elim, ?_⟩
      rintro (hnot | h)
      · exact (hnot hcommits).elim
      · exact (hserved h.served).elim
  · obtain ⟨e, hrun⟩ := Submission.run_submit_of_not_commits hcommits
    rw [Procedure.run_bind_of_error hrun]
    exact ⟨fun _ => .inl hcommits, fun _ => ⟨rfl, rfl⟩⟩

end

/-! ### Evaluated -/

namespace Reference

/-- A gateway without faults. -/
def openGateway : GatewayWorld := ⟨.served {}, none, none, .served {}⟩

theorem posted_latvianStored : AllOrNothing (.transaction known) "BK" latvianStored
    (((Posting.transaction known).post openGateway auditor "BK").run latvianStored) := by
  have hreach : Reachable latvianStored := Reachable.empty.after _
  have hiff : AllOrNothing (.transaction known) "BK" latvianStored
      (((Posting.transaction known).post openGateway auditor "BK").run latvianStored) ↔ _ :=
    allOrNothing_iff hreach
  refine hiff.mpr (.inr ?_)
  obtain ⟨book, hload, hbook⟩ :=
    roundTrip_of_createBook schemaValid_empty createBook_latvianBook (by decide)
  exact
    { served := trivial
      book := ⟨book, hload, hbook.legislativePack⟩
      period := by
        intro q hq
        cases hq
        exact ⟨_, List.mem_cons_self .., rfl, rfl⟩
      stripped := trivial
      read := rfl
      pool := rfl
      audit := ⟨rfl, rfl, rfl⟩ }

/-- A transaction of a book under another pack is stored by a call that raises. -/
theorem unknownPack_halfPosted : Reachable saleStored ∧
    ((postTransaction openGateway auditor "BK" known).run saleStored).1.toOption.isNone ∧
    ((postTransaction openGateway auditor "BK" known).run saleStored).2.tables.transactions.map
      TransactionRow.reference = ["T1", "T2"] ∧
    ¬ AllOrNothing (.transaction known) "BK" saleStored
      ((postTransaction openGateway auditor "BK" known).run saleStored) := by
  have houtcome : ∃ e db, (postTransaction openGateway auditor "BK" known).run saleStored =
      (.error e, db) ∧ db.tables.transactions.map TransactionRow.reference = ["T1", "T2"] :=
    ⟨_, _, by rfl, by rfl⟩
  obtain ⟨e, db, hrun, hreferences⟩ := houtcome
  rw [hrun]
  refine ⟨Reachable.empty.after _, rfl, hreferences, ?_⟩
  intro hnot
  have hsame := hnot.ledger
  rw [hsame] at hreferences
  exact absurd hreferences (by decide)

end Reference

end FinestVX
