import FinestVX.Gateway.Posting
import FinestVX.Persistence.Admission
import FinestVX.Persistence.AppendErrors
import FinestVX.Persistence.Constraints

/-!
# The reference of a reversal

The reference that a caller gives to a reversal is stripped by the constructor of the
transaction, and compared as it is by the check before it and by the search after it.

## Main definitions

* `Tables.InUse` — a transaction of the book has the reference.
* `ReversalContract` — the reference is compared in the form in which it is stored.

## Main results

* `reversal_outcome` — what becomes of the reversal of a stored transaction.
* `reversalContract_iff` — **references are compared in their stored form exactly when**
  the one that is given needs no stripping, or is refused either way.
* `Reference.padded_references` — a clash that the check overlooks, and a reversal that is
  committed and not found.
-/

namespace FinestVX

open Except

section

variable [Platform]

/-! ### The transaction of a reversal -/

/-- What balances, balances with the sides exchanged. -/
theorem validateTransactionEntries_map_inverted {entries : List LedgerEntry}
    (h : validateTransactionEntries entries = .ok ()) :
    validateTransactionEntries (entries.map LedgerEntry.inverted) = .ok () := by
  obtain ⟨hlen, hsum⟩ := validateTransactionEntries_eq_ok_iff.mp h
  refine validateTransactionEntries_eq_ok_iff.mpr ⟨by rwa [List.length_map], fun c => ?_⟩
  obtain ⟨d, k, hd, hk, heq⟩ := hsum c
  refine ⟨k, d, ?_, ?_, heq.symm⟩
  · rw [sideTotal, amounts_map_inverted]
    exact hk
  · rw [sideTotal, amounts_map_inverted]
    exact hd

variable {original : JournalTransaction} {o r : String}

/-- The constructor of the reversal, after the inverted entries. -/
theorem reversalOfTransaction_eq (original : JournalTransaction) (o r : String) :
    reversalOfTransaction original o r = Built.new JournalTransactionFields.postInit
      { reference := r, postedAt := original.fields.postedAt, description := "Reversal of " ++ o,
        entries := original.fields.entries.map LedgerEntry.inverted,
        period := original.fields.period, state := .posted, reversalOf := some o } := by
  rw [reversalOfTransaction, mapM_eq_ok_map fun e _ => invertEntry_eq_ok e, ok_bind]

/-- The description of a reversal is not blank. -/
theorem requireNonEmptyStr_description (o : String) :
    (requireNonEmptyStr ("Reversal of " ++ o) "description").Succeeds := by
  refine ⟨_, requireNonEmptyStr_eq_ok.mpr ⟨?_, rfl⟩⟩
  refine Text.strip_ne_empty (c := 'R') ?_ (by decide)
  rw [String.toList_append]
  exact List.mem_append_left _ (by decide)

/-- The reversal of a balanced transaction is made when its stripped reference is not blank
and not the one of the original. -/
theorem reversalOfTransaction_succeeds (hbalanced : validateTransactionEntries original.entries = .ok ())
    (ho : requireNonEmptyStr o "reversal_of" = .ok o) (hblank : Text.strip r ≠ "")
    (hother : Text.strip r ≠ o) : (reversalOfTransaction original o r).Succeeds := by
  obtain ⟨description, hdescription⟩ := requireNonEmptyStr_description o
  rw [reversalOfTransaction_eq, Built.new_succeeds_iff]
  refine ⟨{ reference := Text.strip r, postedAt := original.fields.postedAt,
            description := description,
            entries := original.fields.entries.map LedgerEntry.inverted,
            period := original.fields.period, state := .posted, reversalOf := some o },
    JournalTransactionFields.postInit_eq_ok.mpr ⟨requireNonEmptyStr_eq_ok.mpr ⟨hblank, rfl⟩,
      hdescription, ?_, ?_, ?_, rfl, rfl, rfl, rfl⟩⟩
  · rw [Platform.normalizeOptionalStr_some, ho]
    rfl
  · intro h
    exact hother (Option.some.inj h).symm
  · exact fun _ => validateTransactionEntries_map_inverted hbalanced

/-- Otherwise the constructor refuses the reference. -/
theorem reversalOfTransaction_error (ho : requireNonEmptyStr o "reversal_of" = .ok o)
    (h : Text.strip r = "" ∨ Text.strip r = o) :
    RaisesValueError (reversalOfTransaction original o r) := by
  obtain ⟨description, hdescription⟩ := requireNonEmptyStr_description o
  rw [reversalOfTransaction_eq]
  by_cases hblank : Text.strip r = ""
  · refine ⟨"reference" ++ " cannot be blank", Built.new_eq_error_iff.mpr ?_⟩
    rw [JournalTransactionFields.postInit, Platform.requireNonEmptyStr_eq, if_pos hblank]
    rfl
  · refine ⟨"reversal_of must reference a different transaction", Built.new_eq_error_iff.mpr ?_⟩
    rw [JournalTransactionFields.postInit, requireNonEmptyStr_eq_ok.mpr ⟨hblank, rfl⟩, ok_bind,
      hdescription, ok_bind, Platform.normalizeOptionalStr_some, ho]
    have hsame : some o = some (Text.strip r) := by rw [h.resolve_left hblank]
    show (if some o = some (Text.strip r) then _ else _) = _
    rw [if_pos hsame]
    rfl

/-! ### The lookup of the original -/

/-- A transaction of the book has the reference. -/
def Tables.InUse (t : Tables) (code reference : String) : Prop :=
  ∃ x ∈ t.transactions, x.bookCode = code ∧ x.reference = reference

/-- A transaction of the book is a reversal of the one with the reference. -/
def Tables.IsReversed (t : Tables) (code reference : String) : Prop :=
  ∃ x ∈ t.transactions, x.bookCode = code ∧ x.reversalOf = some reference

instance (t : Tables) (code reference : String) : Decidable (t.InUse code reference) :=
  inferInstanceAs (Decidable (∃ x ∈ t.transactions, _))

instance (t : Tables) (code reference : String) : Decidable (t.IsReversed code reference) :=
  inferInstanceAs (Decidable (∃ x ∈ t.transactions, _))

variable {t : Tables} {b : StoredBook} {code : String} {w : World}

theorem Holds.findTransaction_eq (h : Holds t b) (hmem : original ∈ b.transactions) :
    findTransaction b.code original.reference t = some (transactionRow b.code original) := by
  have hfirst : ∀ {l : List JournalTransaction}, (l.map JournalTransaction.reference).Nodup →
      original ∈ l → (l.map (transactionRow b.code)).find?
        (fun x => x.bookCode = b.code ∧ x.reference = original.reference) =
          some (transactionRow b.code original) := by
    intro l hnodup hl
    induction l with
    | nil => cases hl
    | cons x l ih =>
      rw [List.map_cons, List.nodup_cons] at hnodup
      rw [List.map_cons, List.find?_cons]
      rcases List.mem_cons.mp hl with rfl | hl
      · rw [decide_eq_true (p := (transactionRow b.code original).bookCode = b.code ∧
          (transactionRow b.code original).reference = original.reference) ⟨rfl, rfl⟩]
      · have hne : ¬ ((transactionRow b.code x).bookCode = b.code ∧
            (transactionRow b.code x).reference = original.reference) := by
          rintro ⟨-, heq⟩
          have hsame : x.reference = original.reference := heq
          exact hnodup.1 (hsame ▸ List.mem_map_of_mem hl)
        rw [decide_eq_false hne]
        exact ih hnodup.2 hl
  rw [← findTransaction_restrict, h, tablesOf_some]
  exact hfirst b.nodup_references hmem

/-- The reversal of a stored transaction that is not reversed yet: the reference is looked up
as it is, and then handed to the constructor. -/
theorem Holds.reversalTransaction_eq (h : Holds t b) (hmem : original ∈ b.transactions)
    (hselect : w.selectFault = none) (hfresh : ¬ t.IsReversed b.code original.reference) :
    (t.InUse b.code r ∧
      RaisesValueError (reversalTransaction w b.code original.reference r t)) ∨
    (¬ t.InUse b.code r ∧ reversalTransaction w b.code original.reference r t =
      reversalOfTransaction original.readBack original.reference r) := by
  have hchecks : reversalChecks b.code original.reference r t =
      if t.InUse b.code r then .error (.valueError
        s!"Reversal reference {strRepr r} is already in use in book {strRepr b.code}")
      else .ok (transactionRow b.code original) := by
    rw [reversalChecks, h.findTransaction_eq hmem]
    exact if_neg hfresh
  rw [reversalTransaction, hselect, raising_none, ok_bind, hchecks]
  by_cases hused : t.InUse b.code r
  · rw [if_pos hused]
    exact .inl ⟨hused, _, rfl⟩
  · rw [if_neg hused, ok_bind, h.selectEntries_eq hmem, toPayload_transactionRow]
    have hread : transactionFromMapping
        { transactionToMapping original with reference := original.reference } =
          .ok original.readBack := transactionFromMapping_transactionToMapping original
    rw [hread, ok_bind]
    exact .inr ⟨hused, rfl⟩

/-! ### The insert -/

/-- The reversal of a stored transaction is admitted when its stored reference is new: its
amounts and its period are those of the original. -/
theorem Holds.admitsAll_reversal (h : Holds t b) (hconstrained : Constrained t)
    (hmem : original ∈ b.transactions) {tx : JournalTransaction}
    (hreversal : reversalOfTransaction original.readBack original.reference r = .ok tx) :
    t.AdmitsAll (transactionRows b.code tx) ↔ ¬ t.InUse b.code tx.reference := by
  have hpostable : Postable b.accountCodes tx := postable_of_reversal hmem hreversal
  obtain ⟨-, -, hperiod, -, -, -⟩ := reversalOfTransaction_eq_ok hreversal
  have hrow : transactionRow b.code original ∈ (t.restrict b.code).transactions := by
    rw [h, tablesOf_some]
    exact List.mem_map_of_mem hmem
  have hbinds : PeriodBinds tx := by
    have hchecks := hconstrained.checked.transactions _ (List.mem_filter.mp hrow).1
    intro p hp
    rw [hperiod] at hp
    have hp : original.fields.period = some p := hp
    exact ⟨hchecks.fiscalYear _ (by simp [transactionRow, hp]),
      hchecks.quarter _ (by simp [transactionRow, hp]),
      hchecks.month _ (by simp [transactionRow, hp])⟩
  have hentries : ∀ e ∈ tx.fields.entries, EntryAdmitted e := by
    intro e he
    -- the entry mirrors a stored one, which has passed the checks
    obtain ⟨i, hi, rfl⟩ := List.mem_iff_getElem.mp he
    have hnew : entryRow b.code tx.fields.reference tx.fields.entries[i] i ∈ entryRows b.code tx :=
      List.mem_map.mpr ⟨(tx.fields.entries[i], i),
        List.mk_mem_zipIdx_iff_getElem?.mpr (List.getElem?_eq_getElem hi), rfl⟩
    obtain ⟨j, hj, hget⟩ := List.mem_iff_getElem.mp hnew
    have hmirrors := mirrors_of_reversal b.code hreversal
    have hj' : j < (entryRows b.code original).length := hmirrors.length_eq ▸ hj
    have hmirror : Mirrors (entryRows b.code original)[j] (entryRows b.code tx)[j] :=
      hmirrors.get hj' hj
    rw [hget] at hmirror
    have hstored : (entryRows b.code original)[j] ∈ (t.restrict b.code).entries := by
      rw [h, tablesOf_some]
      exact List.mem_flatMap.mpr ⟨original, hmem, List.getElem_mem hj'⟩
    have hchecks := hconstrained.checked.entries _ (List.mem_filter.mp hstored).1
    exact entryAdmitted_iff.mpr ⟨hmirror.amount ▸ hchecks.amount.2, hmirror.taxRate ▸ hchecks.taxRate⟩
  have hready := h.ready hconstrained.linked
  have hiff : t.AdmitsAll (transactionRows b.fields.code tx) ↔ _ :=
    admitsAll_transactionRows_iff hready hpostable hbinds
  rw [and_iff_right hentries] at hiff
  refine hiff.trans ?_
  simp only [Tables.Unused, Tables.InUse, not_exists, not_and]
  rfl

/-! ### The call -/

variable {ctx : AuditContext} {clock clock' : ℕ → ℤ} {db : Database}

/-- The references in use are stripped. -/
theorem Reachable.strip_eq (hreach : Reachable db) {reference : String}
    (hused : db.tables.InUse code reference) : Text.strip reference = reference := by
  obtain ⟨σ, hσ⟩ := hreach.refines
  obtain ⟨row, hrow, -, rfl⟩ := hused
  obtain ⟨b, x, -, -, hreference⟩ := hσ.exists_of_mem hrow
  rw [← hreference]
  exact (requireNonEmptyStr_eq_ok.mp (x.valid.reference "reference")).2.symm

/-- The check or the constructor refuses the reference. -/
def Tables.Refuses (t : Tables) (code o r : String) : Prop :=
  t.InUse code r ∨ Text.strip r = "" ∨ Text.strip r = o

/-- **The reversal of a stored transaction that is not reversed yet** is refused, clashes with
a stored reference when it is inserted, or is made. -/
theorem reversal_outcome (hreach : Reachable db) (hstored : db.tables.InUse code o)
    (hfresh : ¬ db.tables.IsReversed code o) :
    (db.tables.Refuses code o r ∧ RaisesValueError (appendReversal { clock } ctx code o r db).1) ∨
    (¬ db.tables.Refuses code o r ∧ db.tables.InUse code (Text.strip r) ∧
      ¬ RaisesValueError (appendReversal { clock } ctx code o r db).1 ∧
      ¬ (appendReversal { clock } ctx code o r db).1.Succeeds) ∨
    (¬ db.tables.Refuses code o r ∧ ¬ db.tables.InUse code (Text.strip r) ∧
      (appendReversal { clock } ctx code o r db).1.Succeeds) := by
  obtain ⟨σ, hσ⟩ := hreach.refines
  obtain ⟨row, hrow, rfl, rfl⟩ := hstored
  obtain ⟨b, original, hb, hmem, horiginal⟩ := hσ.exists_of_mem hrow
  obtain ⟨hcode, hholds⟩ := hσ.holds hb
  rw [← hcode, ← horiginal] at hfresh ⊢
  have hbalanced : validateTransactionEntries original.readBack.entries = .ok () :=
    original.readBack.valid.balanced (b.postable_of_mem hmem).posted
  have hnamed : requireNonEmptyStr original.reference "reversal_of" = .ok original.reference :=
    original.valid.reference "reversal_of"
  rcases hholds.reversalTransaction_eq (w := { clock }) hmem rfl hfresh with
    ⟨hused, msg, herror⟩ | ⟨hunused, htx⟩
  · refine .inl ⟨.inl hused, msg, ?_⟩
    rw [appendReversal, herror]
    rfl
  by_cases hrefused : Text.strip r = "" ∨ Text.strip r = original.reference
  · have hraises : RaisesValueError
        (reversalOfTransaction original.readBack original.reference r) :=
      reversalOfTransaction_error hnamed hrefused
    obtain ⟨msg, herror⟩ := hraises
    refine .inl ⟨.inr hrefused, msg, ?_⟩
    rw [appendReversal, htx, herror]
    rfl
  have hnot : ¬ db.tables.Refuses b.code original.reference r := by
    intro h
    rcases h with hused | hblank
    · exact hunused hused
    · exact hrefused hblank
  rw [not_or] at hrefused
  obtain ⟨tx, hreversal⟩ := reversalOfTransaction_succeeds hbalanced hnamed hrefused.1 hrefused.2
  obtain ⟨hreference, -, -, -, -, -⟩ := reversalOfTransaction_eq_ok hreversal
  have hstrip : tx.reference = Text.strip r := (requireNonEmptyStr_eq_ok.mp hreference).2
  have hadmits := hholds.admitsAll_reversal hreach.constrained hmem hreversal
  have hwrite : appendReversal { clock } ctx b.code original.reference r db =
      writeRows { clock } ctx (transactionRows b.code tx) db := by
    rw [appendReversal, htx, hreversal]
    rfl
  rw [hstrip] at hadmits
  rw [hwrite]
  by_cases hclash : db.tables.InUse b.code (Text.strip r)
  · have hanswers : World.Answers { clock } :=
      ⟨rfl, by simp [World.Faults], by simp [World.Faults]⟩
    refine .inr (.inl ⟨hnot, hclash, hanswers.not_valueError, ?_⟩)
    rintro ⟨receipt, hreceipt⟩
    exact hadmits.mp (writeRows_ok (Prod.ext hreceipt rfl)).1 hclash
  · have hinsert : insertRows { clock } ctx 0 (transactionRows b.code tx) db =
        .ok (db.insertAll ctx clock 0 (transactionRows b.code tx)) :=
      insertRows_of_admitsAll (hadmits.mpr hclash)
    refine .inr (.inr ⟨hnot, hclash, _, congrArg Prod.fst
      (writeRows_of_insertRows rfl rfl hinsert ?_)⟩)
    -- a transaction brings no accounts
    rw [Database.tables_insertAll, pushAll_transactionRows]
    exact hreach.constrained.parents

/-- The reversal that was committed is found when its reference needed no stripping and the
book could be loaded before. -/
theorem postReversal_succeeds_iff (hreach : Reachable db)
    (hpack : ∀ row ∈ db.tables.books, row.bookCode = code → row.legislativePack = latviaPackCode)
    (hcommit : (appendReversal { clock } ctx code o r db).1.Succeeds) :
    ((postReversal (faultless clock clock') ctx code o r).run db).1.Succeeds ↔
      (loadBook db.tables code).Succeeds ∧ Text.strip r = r := by
  obtain ⟨receipt, hreceipt⟩ := hcommit
  have hrun : (Call.run ⟨.appendReversal code o r, ctx, { clock }⟩ db) =
      (.ok receipt, (appendReversal { clock } ctx code o r db).2) := Prod.ext hreceipt rfl
  obtain ⟨rows, hwrites, hadmits, hparents, heffect⟩ := Call.run_ok hrun
  obtain ⟨σ, hσ⟩ := hreach.refines
  have hposting : ∃ b tx ht hfresh, _ := hσ.posting (p := .reversal o r) hwrites hadmits
  obtain ⟨b, tx, ht, hfresh, rfl, hbefore, rfl, hreference, hafter, hperiod⟩ := hposting
  have hloaded := loadBook_after_iff (p := .reversal o r) hreference hbefore hafter hperiod
  have hsubmit : ((faultless clock clock').ledger.submit (.appendReversal b.code o r) ctx).run db =
      (.ok receipt, (appendReversal { clock } ctx b.code o r db).2) := hrun
  have haudit : ((auditLegislation (faultless clock clock') ctx b.code r (nextTransaction r)).run
      (appendReversal { clock } ctx b.code o r db).2).1.Succeeds ↔ _ :=
    auditLegislation_succeeds_iff (by rwa [heffect.tables])
  rw [heffect.tables] at haudit
  have hsteps : ((postReversal (faultless clock clock') ctx b.code o r).run db).1.Succeeds ↔
      ((auditLegislation (faultless clock clock') ctx b.code r (nextTransaction r)).run
        (appendReversal { clock } ctx b.code o r db).2).1.Succeeds := by
    rw [postReversal, Procedure.run_bind_of_ok hsubmit, Procedure.succeeds_bind,
      Procedure.succeeds_run_iff]
    constructor
    · rintro ⟨a, u, ha, -⟩
      exact ⟨a, u, ha⟩
    · rintro ⟨a, u, ha⟩
      exact ⟨a, u, ha, succeeds_ok _⟩
  -- the pack of the book that is loaded is the one of its row
  have hregistered : (∃ book, loadBook db.tables b.code = .ok book ∧
      book.fields.legislativePack = latviaPackCode) ↔ (loadBook db.tables b.code).Succeeds := by
    constructor
    · rintro ⟨book, hload, -⟩
      exact ⟨book, hload⟩
    · intro hload
      obtain ⟨hplain, hknown⟩ := hbefore.loadBook_succeeds_iff.mp hload
      refine ⟨_, hbefore.loadBook_ok hplain hknown, ?_⟩
      exact hpack _ (List.mem_of_find?_eq_some hbefore.find?_book) rfl
  rw [hsteps, haudit]
  constructor
  · rintro ⟨hbook, -⟩
    obtain ⟨hbook, -, hstripped⟩ := hloaded.mp hbook
    exact ⟨hregistered.mp hbook, hstripped⟩
  · rintro ⟨hload, hstripped⟩
    exact ⟨hloaded.mpr ⟨hregistered.mpr hload, trivial, hstripped⟩, rfl, rfl, rfl, rfl, rfl⟩

/-- A reversal that is found was given a reference without white space around it. -/
theorem strip_eq_of_postReversal (hreach : Reachable db)
    (hpack : ∀ row ∈ db.tables.books, row.bookCode = code → row.legislativePack = latviaPackCode)
    (hcommit : (appendReversal { clock } ctx code o r db).1.Succeeds)
    (hfound : ((postReversal (faultless clock clock') ctx code o r).run db).1.Succeeds) :
    Text.strip r = r :=
  ((postReversal_succeeds_iff hreach hpack hcommit).mp hfound).2

/-! ### The theorem -/

/-- The reference of a reversal is compared in the form in which it is stored: it is refused
with a `ValueError` just when it is blank or in use in that form, and a reversal that is
committed is found by the gateway. -/
structure ReversalContract (clock clock' : ℕ → ℤ) (ctx : AuditContext) (code o r : String)
    (db : Database) : Prop where
  valueError : RaisesValueError (appendReversal { clock } ctx code o r db).1 ↔
    Text.strip r = "" ∨ db.tables.InUse code (Text.strip r)
  succeeds : ¬ (Text.strip r = "" ∨ db.tables.InUse code (Text.strip r)) →
    (appendReversal { clock } ctx code o r db).1.Succeeds
  found : (appendReversal { clock } ctx code o r db).1.Succeeds →
    ((postReversal (faultless clock clock') ctx code o r).run db).1.Succeeds

/-- **References are compared in their stored form exactly when** the one that is given is
blank, or names the original, or has no white space around it; and a reversal that is made is
found when the book could be loaded before. -/
theorem reversalContract_iff (hreach : Reachable db) (hstored : db.tables.InUse code o)
    (hfresh : ¬ db.tables.IsReversed code o)
    (hpack : ∀ row ∈ db.tables.books, row.bookCode = code →
      row.legislativePack = latviaPackCode) :
    ReversalContract clock clock' ctx code o r db ↔
      Text.strip r = "" ∨ Text.strip r = o ∨
        (Text.strip r = r ∧ (db.tables.InUse code r ∨ (loadBook db.tables code).Succeeds)) := by
  rcases reversal_outcome hreach hstored hfresh with
    ⟨hrefused, hraises⟩ | ⟨hnot, hclash, hvalue, hfails⟩ | ⟨hnot, hunused, hmade⟩
  · -- the reference is refused in either form
    have hraises : RaisesValueError (appendReversal { clock } ctx code o r db).1 := hraises
    have hfails : ¬ (appendReversal { clock } ctx code o r db).1.Succeeds := by
      obtain ⟨msg, herror⟩ := hraises
      rw [herror]
      exact not_succeeds_error _
    have hclash : Text.strip r = "" ∨ db.tables.InUse code (Text.strip r) := by
      rcases hrefused with hused | hblank | hsame
      · rw [hreach.strip_eq hused]
        exact .inr hused
      · exact .inl hblank
      · rw [hsame]
        exact .inr hstored
    have hright : Text.strip r = "" ∨ Text.strip r = o ∨
        (Text.strip r = r ∧ (db.tables.InUse code r ∨ (loadBook db.tables code).Succeeds)) := by
      rcases hrefused with hused | hblank | hsame
      · exact .inr (.inr ⟨hreach.strip_eq hused, .inl hused⟩)
      · exact .inl hblank
      · exact .inr (.inl hsame)
    exact iff_of_true ⟨iff_of_true hraises hclash, fun h => absurd hclash h,
      fun h => absurd h hfails⟩ hright
  · -- the check has overlooked the stored reference
    have hvalue : ¬ RaisesValueError (appendReversal { clock } ctx code o r db).1 := hvalue
    constructor
    · intro hcontract
      exact absurd (hcontract.valueError.mpr (.inr hclash)) hvalue
    · intro h
      rcases h with hblank | hsame | ⟨hstrip, -⟩
      · exact absurd (.inr (.inl hblank)) hnot
      · exact absurd (.inr (.inr hsame)) hnot
      · rw [hstrip] at hclash
        exact absurd (.inl hclash) hnot
  · -- the reversal is made, under the stripped reference
    have hmade : (appendReversal { clock } ctx code o r db).1.Succeeds := hmade
    have hfound : ((postReversal (faultless clock clock') ctx code o r).run db).1.Succeeds ↔ _ :=
      postReversal_succeeds_iff hreach hpack hmade
    constructor
    · intro hcontract
      obtain ⟨hload, hstrip⟩ := hfound.mp (hcontract.found hmade)
      exact .inr (.inr ⟨hstrip, .inr hload⟩)
    · intro h
      rcases h with hblank | hsame | ⟨hstrip, hused | hload⟩
      · exact absurd (.inr (.inl hblank)) hnot
      · exact absurd (.inr (.inr hsame)) hnot
      · exact absurd (.inl hused) hnot
      · refine ⟨?_, fun _ => hmade, fun _ => hfound.mpr ⟨hload, hstrip⟩⟩
        constructor
        · rintro ⟨msg, herror⟩
          rw [herror] at hmade
          exact absurd hmade (not_succeeds_error _)
        · intro h
          rcases h with hblank | hused
          · exact absurd (.inr (.inl hblank)) hnot
          · exact absurd hused hunused

end

/-! ### Padded references -/

namespace Reference

/-- The database with a second sale, `T2`. -/
def twoSales : Database := (call (.appendTransaction "BK" known)).after latvianStored

theorem reachable_latvianStored : Reachable latvianStored := Reachable.empty.after _

theorem reachable_twoSales : Reachable twoSales := reachable_latvianStored.after _

/-- A clock that stands still. -/
def still : ℕ → ℤ := fun _ => 0

/-- A clash of the stored references is left to the database, and a reversal is committed
and then not found. -/
theorem padded_references :
    (Reachable twoSales ∧ twoSales.tables.InUse "BK" "T1" ∧
      ¬ twoSales.tables.IsReversed "BK" "T1" ∧
      (∀ row ∈ twoSales.tables.books, row.bookCode = "BK" →
        row.legislativePack = latviaPackCode)) ∧
    ((appendReversal { clock := still } auditor "BK" "T1" " T2" twoSales).1 =
        .error (.constraintError "transactions: constraint failed") ∧
      ¬ ReversalContract still still auditor "BK" "T1" " T2" twoSales) ∧
    ((appendReversal { clock := still } auditor "BK" "T1" "R1 " twoSales).1.Succeeds ∧
      (appendReversal { clock := still } auditor "BK" "T1" "R1 " twoSales).2.tables.transactions.map
        TransactionRow.reference = ["T1", "T2", "R1"] ∧
      ¬ ((postReversal (faultless still still) auditor "BK" "T1" "R1 ").run twoSales).1.Succeeds ∧
      ¬ ReversalContract still still auditor "BK" "T1" "R1 " twoSales) := by
  have hpack : ∀ row ∈ twoSales.tables.books, row.bookCode = "BK" →
      row.legislativePack = latviaPackCode := by decide
  have hclash : (appendReversal { clock := still } auditor "BK" "T1" " T2" twoSales).1 =
      .error (.constraintError "transactions: constraint failed") := by rfl
  have hcommitted : (appendReversal { clock := still } auditor "BK" "T1" "R1 " twoSales).1.Succeeds :=
    ⟨_, by rfl⟩
  have hlost :
      ¬ ((postReversal (faultless still still) auditor "BK" "T1" "R1 ").run twoSales).1.Succeeds := by
    intro hfound
    have hstrip : Text.strip "R1 " = "R1 " :=
      strip_eq_of_postReversal reachable_twoSales hpack hcommitted hfound
    exact absurd hstrip (by decide)
  refine ⟨⟨reachable_twoSales, by decide, by decide, hpack⟩, ⟨hclash, ?_⟩, hcommitted, by rfl,
    hlost, fun hcontract => hlost (hcontract.found hcommitted)⟩
  intro hcontract
  have hused : twoSales.tables.InUse "BK" (Text.strip " T2") := by decide
  obtain ⟨msg, hvalue⟩ := hcontract.valueError.mpr (.inr hused)
  rw [hclash] at hvalue
  cases hvalue

theorem reversalContract_plain :
    ReversalContract still still auditor "BK" "T1" "R1" latvianStored := by
  have hstored : latvianStored.tables.InUse "BK" "T1" := by decide
  have hfresh : ¬ latvianStored.tables.IsReversed "BK" "T1" := by decide
  refine (reversalContract_iff reachable_latvianStored hstored hfresh (by decide)).mpr ?_
  obtain ⟨book, hload, -⟩ :=
    roundTrip_of_createBook schemaValid_empty createBook_latvianBook (by decide)
  exact .inr (.inr ⟨by decide, .inr ⟨book, hload⟩⟩)

end Reference

end FinestVX
