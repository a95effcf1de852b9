import FinestVX.Persistence.Growth
import FinestVX.Persistence.Readable

/-!
# Reversals

A reversal mirrors the entries of its original, so the two cancel, and the
reversal of a reversal has the entries of the original again.  That a
transaction is reversed once is checked by `append_reversal` only; the other two
writers store whatever `reversal_of` they are given.

## Main definitions

* `ReversedOnce` — no transaction has two reversals.
* `ReversesFresh` — the condition on a call that keeps it so.
* `Mirrors`, `ReversalStored` — an entry on the opposite side, and what a reversal
  adds to the tables.
* `signedSum` — debits less credits of an account in a currency.

## Main results

* `reversedOnce_of_run` — **in runs whose calls meet the condition no transaction
  is reversed twice.**
* `appendReversal_cancels` — **a reversal cancels its original exactly.**
* `Reference.reversed_twice` — two reversals of one transaction.
-/

namespace FinestVX

open Except Relation

section

variable [Platform]

/-! ### One reversal each -/

/-- At most one stored transaction of a book is the reversal of a given one. -/
def ReversedOnce (t : Tables) : Prop :=
  ∀ code X, t.transactions.countP (fun x => x.bookCode = code ∧ x.reversalOf = some X) ≤ 1

/-- The transactions of a created book reverse different ones, and an appended
transaction reverses one that no stored transaction of its book reverses. -/
def ReversesFresh (db : Database) : Op → Prop
  | .createBook book => (book.fields.transactions.filterMap JournalTransaction.reversalOf).Nodup
  | .appendTransaction code t => ∀ o ∈ t.reversalOf,
      ∀ x ∈ db.tables.transactions, ¬ (x.bookCode = code ∧ x.reversalOf = some o)
  | .appendReversal .. => True
  | .appendLegislativeResult .. => True

/-- The transactions of a stored book reverse different ones. -/
def StoredBook.ReversedOnce (b : StoredBook) : Prop :=
  (b.transactions.filterMap JournalTransaction.reversalOf).Nodup

theorem StoredBook.ReversedOnce.append {b : StoredBook} (h : b.ReversedOnce)
    {t : JournalTransaction} (ht) (hfresh)
    (hreversal : ∀ o ∈ t.reversalOf, ∀ x ∈ b.transactions, x.reversalOf ≠ some o) :
    (b.append t ht hfresh).ReversedOnce := by
  rw [StoredBook.ReversedOnce, StoredBook.transactions_append, List.filterMap_append]
  refine List.Nodup.append h ?_ ?_
  · cases hr : t.reversalOf <;> simp [hr]
  · intro o ho ho'
    obtain ⟨x, hx, hxo⟩ := List.mem_filterMap.mp ho
    obtain ⟨y, hy, hyo⟩ := List.mem_filterMap.mp ho'
    rw [List.mem_singleton.mp hy] at hyo
    exact hreversal o hyo x hx hxo

/-- The rows of a stored book, counted by what they reverse. -/
theorem Holds.countP_reversalOf {t : Tables} {b : StoredBook} (h : Holds t b) (X : String) :
    t.transactions.countP (fun x => x.bookCode = b.code ∧ x.reversalOf = some X) =
      (b.transactions.filterMap JournalTransaction.reversalOf).count X := by
  have hsplit : t.transactions.countP (fun x => x.bookCode = b.code ∧ x.reversalOf = some X) =
      (t.transactions.filter (·.bookCode = b.code)).countP (·.reversalOf = some X) := by
    rw [List.countP_filter]
    refine List.countP_congr ?_
    intro x _
    simp [and_comm]
  rw [hsplit, h.filter_transactions, List.countP_map, List.count_filterMap]
  refine List.countP_congr ?_
  intro x _
  change decide (x.reversalOf = some X) = true ↔ _
  simp

/-- What a step of the ledger preserves, where the call meets the condition. -/
theorem LedgerStep.reversedOnce {db : Database} {σ σ' : Ledger} {op : Op}
    (hrefines : Refines db.tables σ) (h : ∀ code b, σ code = some b → b.ReversedOnce)
    (hfresh : ReversesFresh db op) (hstep : LedgerStep σ op σ') :
    ∀ code b, σ' code = some b → b.ReversedOnce := by
  refine hstep.forall_stored h ?_ ?_ ?_
  · intro book hnodup hop
    subst hop
    rw [StoredBook.ReversedOnce, StoredBook.transactions_ofBook]
    exact hfresh
  · intro code b t ht hnew hb hop hold
    -- the condition speaks of the rows, which are those of the stored book
    subst hop
    obtain ⟨rfl, hholds⟩ := hrefines.holds hb
    refine hold.append ht hnew ?_
    intro o ho x hx heq
    obtain ⟨row, hrow, hcode, hreversal⟩ := (hholds.exists_transaction_iff
      fun row => row.reversalOf = some o).mpr ⟨x, hx, heq⟩
    exact hfresh o ho row hrow ⟨hcode, hreversal⟩
  · intro code o r b original t ht hnew hop hmem href hnone hreversal hold
    -- `append_reversal` has made the check itself
    refine hold.append ht hnew ?_
    intro o' ho' x hx
    rw [reversalOf_of_reversal (href ▸ original.valid.reference _) hreversal] at ho'
    cases ho'
    exact hnone x hx

/-- **No transaction is reversed twice** in runs where created books and appended
transactions reverse each transaction once. -/
theorem reversedOnce_of_run {db : Database} (h : ReflTransGen (GuardedStep ReversesFresh) {} db) :
    ReversedOnce db.tables := by
  obtain ⟨-, σ, hrefines, hbooks⟩ := exists_refines_of_run
    (P := fun σ => ∀ code b, σ code = some b → b.ReversedOnce) h (fun _ _ h => by cases h)
    fun _ _ _ _ hrefines hold hfresh hstep => hstep.reversedOnce hrefines hold hfresh
  intro code X
  cases hσ : σ code with
  | none =>
    -- a code without a book has no rows
    refine (List.countP_eq_zero.mpr ?_).trans_le (Nat.zero_le 1)
    intro x hx hcount
    have hmem : x ∈ (db.tables.restrict code).transactions :=
      List.mem_filter.mpr ⟨hx, decide_eq_true (of_decide_eq_true hcount).1⟩
    rw [hrefines.rows, hσ] at hmem
    cases hmem
  | some b =>
    obtain ⟨rfl, hholds⟩ := hrefines.holds hσ
    rw [hholds.countP_reversalOf]
    exact List.nodup_iff_count_le_one.mp (hbooks _ b hσ) X

/-! ### The entries of a reversal -/

/-- `e'` posts the amount of `e` to the same account, on the opposite side. -/
structure Mirrors (e e' : EntryRow) : Prop where
  lineNo : e'.lineNo = e.lineNo
  accountCode : e'.accountCode = e.accountCode
  amount : e'.amount = e.amount
  currency : e'.currency = e.currency
  description : e'.description = e.description
  taxRate : e'.taxRate = e.taxRate
  side : (e.side = "Dr" ∧ e'.side = "Cr") ∨ (e.side = "Cr" ∧ e'.side = "Dr")
  decimal : ∃ d held, Decimal.ofText? e.amount = some (.finite d held)

theorem mirrors_inverted (code reference reference' : String) (e : LedgerEntry) (lineNo : ℕ) :
    Mirrors (entryRow code reference e lineNo) (entryRow code reference' e.inverted lineNo) where
  lineNo := rfl
  accountCode := rfl
  amount := rfl
  currency := rfl
  description := rfl
  taxRate := rfl
  side := by
    simp only [entryRow, LedgerEntry.inverted]
    cases e.fields.side with
    | debit => exact .inl ⟨rfl, rfl⟩
    | credit => exact .inr ⟨rfl, rfl⟩
  decimal := ⟨_, _, Decimal.ofText?_formatF e.held⟩

/-- The entries of a reversal mirror those of its original, line by line. -/
theorem mirrors_of_reversal {original t : JournalTransaction} {o r : String} (code : String)
    (h : reversalOfTransaction original.readBack o r = .ok t) :
    List.Forall₂ Mirrors (entryRows code original) (entryRows code t) := by
  obtain ⟨-, -, -, -, -, hentries⟩ := reversalOfTransaction_eq_ok h
  have hrows : entryRows code t = original.readBack.entries.zipIdx.map fun p =>
      entryRow code t.fields.reference p.1.inverted p.2 := by
    rw [entryRows, show t.fields.entries = _ from hentries, List.zipIdx_map, List.map_map]
    rfl
  rw [hrows, ← entryRows_readBack, entryRows]
  refine List.forall₂_map_left_iff.mpr (List.forall₂_map_right_iff.mpr ?_)
  exact List.forall₂_same.mpr fun p _ => mirrors_inverted code _ _ p.1 p.2

/-! ### Sums -/

/-- The amount of an entry, a credit as a negative number. -/
def EntryRow.signed (e : EntryRow) : ℚ :=
  match Decimal.ofText? e.amount with
  | some (.finite d _) => if e.side = "Dr" then d.value else -d.value
  | _ => 0

/-- Debits less credits of an account in a currency. -/
def signedSum (account currency : String) (entries : List EntryRow) : ℚ :=
  ((entries.filter fun e => e.accountCode = account ∧ e.currency = currency).map
    EntryRow.signed).sum

omit [Platform] in
theorem Mirrors.signed {e e' : EntryRow} (h : Mirrors e e') : e'.signed = -e.signed := by
  obtain ⟨d, held, hd⟩ := h.decimal
  have hd' : Decimal.ofText? e'.amount = some (.finite d held) := by rw [h.amount, hd]
  rcases h.side with ⟨hs, hs'⟩ | ⟨hs, hs'⟩
  · simp [EntryRow.signed, hd, hd', hs, hs']
  · simp [EntryRow.signed, hd, hd', hs, hs']

omit [Platform] in
/-- What mirrors each other cancels. -/
theorem signedSum_mirrors {l l' : List EntryRow} (h : List.Forall₂ Mirrors l l')
    (account currency : String) :
    signedSum account currency l + signedSum account currency l' = 0 := by
  induction h with
  | nil => simp [signedSum]
  | @cons e e' l l' he _ ih =>
    unfold signedSum at ih ⊢
    rw [List.filter_cons, List.filter_cons, he.accountCode, he.currency]
    split
    · rw [List.map_cons, List.map_cons, List.sum_cons, List.sum_cons, he.signed,
        add_add_add_comm, add_neg_cancel, zero_add, ih]
    · exact ih

omit [Platform] in
/-- The mirror of a mirror is the entry again. -/
theorem Mirrors.toPayload_eq {e e' e'' : EntryRow} (h : Mirrors e e') (h' : Mirrors e' e'') :
    e''.toPayload = e.toPayload := by
  have hside : e''.side = e.side := by
    rcases h.side with ⟨hs, hs'⟩ | ⟨hs, hs'⟩ <;> rcases h'.side with ⟨ht, ht'⟩ | ⟨ht, ht'⟩ <;>
      simp_all
  simp only [EntryRow.toPayload, h'.accountCode, h.accountCode, hside, h'.amount, h.amount,
    h'.currency, h.currency, h'.description, h.description, h'.taxRate, h.taxRate]

omit [Platform] in
theorem map_toPayload_of_mirrors {l l' l'' : List EntryRow} (h : List.Forall₂ Mirrors l l')
    (h' : List.Forall₂ Mirrors l' l'') :
    l''.map EntryRow.toPayload = l.map EntryRow.toPayload := by
  induction h generalizing l'' with
  | nil =>
    cases h'
    rfl
  | cons he _ ih =>
    cases h' with
    | cons he' h' => rw [List.map_cons, List.map_cons, he.toPayload_eq he', ih h']

/-! ### What a reversal stores -/

/-- The later tables have one more transaction, `new`, with its entries; it mirrors
`original`. -/
structure ReversalStored (t t' : Tables) (code : String) (original new : TransactionRow) :
    Prop where
  original_mem : original ∈ t.transactions
  original_code : original.bookCode = code
  tables : t' = { t with
    transactions := t.transactions ++ [new]
    entries := t.entries ++ selectEntries code new.reference t' }
  bookCode : new.bookCode = code
  postedAt : new.postedAt = original.postedAt
  period : (new.periodFiscalYear, new.periodQuarter, new.periodMonth) =
    (original.periodFiscalYear, original.periodQuarter, original.periodMonth)
  reversalOf : new.reversalOf = some original.reference
  kept : selectEntries code original.reference t' = selectEntries code original.reference t
  entries : List.Forall₂ Mirrors (selectEntries code original.reference t')
    (selectEntries code new.reference t')

/-- What a successful reversal stores. -/
theorem reversalStored_of_run {w : World} {ctx : AuditContext} {code o r : String}
    {db db' : Database} {receipt : StoreWriteReceipt} (h : Reachable db)
    (hrun : appendReversal w ctx code o r db = (.ok receipt, db')) :
    ∃ original new, original.reference = o ∧ requireNonEmptyStr r "reference" = .ok new.reference ∧
      ReversalStored db.tables db'.tables code original new := by
  obtain ⟨σ, hσ⟩ := h.refines
  obtain ⟨t, ht, hrun⟩ := orRaise_ok hrun
  obtain ⟨hall, -, rfl⟩ := writeRows_ok hrun
  obtain ⟨b, x, hb, hx, rfl, -, hreversal⟩ := hσ.reversalTransaction_eq_ok ht
  obtain ⟨rfl, hholds⟩ := hσ.holds hb
  have hpostable := postable_of_reversal hx hreversal
  have hfresh := hholds.fresh hall
  obtain ⟨hr, hposted, hperiod, -, -, -⟩ := reversalOfTransaction_eq_ok hreversal
  rw [Database.tables_insertAll]
  -- the book after the reversal, and the entries of the two transactions in it
  obtain ⟨-, hholds'⟩ := (hσ.append hb hpostable hfresh).holds (Function.update_self ..)
  have hnew : selectEntries b.code (transactionRow b.code t).reference
      (db.tables.pushAll (transactionRows b.code t)) = entryRows b.code t :=
    hholds'.selectEntries_eq (x := t) (by simp)
  have hold : selectEntries b.code (transactionRow b.code x).reference
      (db.tables.pushAll (transactionRows b.code t)) = entryRows b.code x :=
    hholds'.selectEntries_eq (x := x) (by simp [hx])
  refine ⟨transactionRow b.code x, transactionRow b.code t, rfl, hr, ?_⟩
  exact
    { original_mem := by
        have hmem : transactionRow b.code x ∈ (db.tables.restrict b.code).transactions := by
          rw [hholds, tablesOf_some]
          exact List.mem_map_of_mem hx
        exact (List.mem_filter.mp hmem).1
      original_code := rfl
      tables := by rw [hnew, pushAll_transactionRows]
      bookCode := rfl
      postedAt := by simp only [transactionRow, hposted]; rfl
      period := by simp only [transactionRow, hperiod]; rfl
      reversalOf := reversalOf_of_reversal (x.valid.reference _) hreversal
      kept := hold.trans (hholds.selectEntries_eq hx).symm
      entries := by
        rw [hold, hnew]
        exact mirrors_of_reversal b.code hreversal }

/-- Between `db` and `db'` the transaction `o` was cancelled by one under the
reference `r`: the new transaction and its entries are all that was added; over the
two the sum of every account and currency is zero; and the reversal of the reversal,
at any later time, has the entries of `o` again. -/
def CancelledBy (code o r : String) (db db' : Database) : Prop :=
  ∃ original new, original.reference = o ∧ requireNonEmptyStr r "reference" = .ok new.reference ∧
    ReversalStored db.tables db'.tables code original new ∧
    (∀ account currency, signedSum account currency (selectEntries code o db'.tables) +
      signedSum account currency (selectEntries code new.reference db'.tables) = 0) ∧
    ∀ (w : World) (ctx : AuditContext) (r₂ : String) (db₁ db₂ : Database)
      (receipt : StoreWriteReceipt), ReflTransGen StoreStep db' db₁ →
      appendReversal w ctx code new.reference r₂ db₁ = (.ok receipt, db₂) →
      ∃ again, requireNonEmptyStr r₂ "reference" = .ok again ∧
        (selectEntries code again db₂.tables).map EntryRow.toPayload =
          (selectEntries code o db.tables).map EntryRow.toPayload

/-- **A reversal cancels its original exactly**, in every reachable database. -/
theorem appendReversal_cancels {w : World} {ctx : AuditContext} {code o r : String}
    {db db' : Database} {receipt : StoreWriteReceipt} (h : Reachable db)
    (hrun : appendReversal w ctx code o r db = (.ok receipt, db')) :
    CancelledBy code o r db db' := by
  obtain ⟨original, new, rfl, hr, hstored⟩ := reversalStored_of_run h hrun
  refine ⟨original, new, rfl, hr, hstored, signedSum_mirrors hstored.entries, ?_⟩
  intro w₂ ctx₂ r₂ db₁ db₂ receipt₂ hlater hrun₂
  have hreach : Reachable db' := by
    have hafter : db' = (⟨.appendReversal code original.reference r, ctx, w⟩ : Call).after db :=
      (congrArg Prod.snd hrun).symm
    exact hafter ▸ h.after _
  obtain ⟨original₂, new₂, href, hr₂, hstored₂⟩ := reversalStored_of_run (hreach.trans hlater) hrun₂
  -- the entries of the reversal are those it was stored with
  have hkept : selectEntries code new.reference db₁.tables =
      selectEntries code new.reference db'.tables := by
    have hmem : new ∈ db'.tables.transactions := by
      rw [hstored.tables]
      simp
    have := selectEntries_of_run hreach hlater hmem
    rwa [hstored.bookCode] at this
  have hmirror := hstored₂.entries
  rw [hstored₂.kept, href, hkept] at hmirror
  have hagain := map_toPayload_of_mirrors hstored.entries hmirror
  rw [hstored.kept] at hagain
  exact ⟨new₂.reference, hr₂, hagain⟩

end

/-! ### Evaluated -/

namespace Reference

/-- A transaction that names the sale as the one it reverses. -/
def refundFields (reference : String) : JournalTransactionFields :=
  { hundred with reference := reference, reversalOf := some "T1" }

def firstRefund : JournalTransaction := ⟨refundFields "R1", refundFields "R1", by rfl⟩

def secondRefund : JournalTransaction := ⟨refundFields "R2", refundFields "R2", by rfl⟩

/-- The database with the book of one sale. -/
def saleStored : Database := (call (.createBook plainBook)).after {}

/-- The database after the first refund. -/
def refundStored : Database := (call (.appendTransaction "BK" firstRefund)).after saleStored

theorem reversedOnce_firstRefund : ReversedOnce refundStored.tables := by
  have hbook : ReversesFresh {} (.createBook plainBook) :=
    show (plainBook.fields.transactions.filterMap JournalTransaction.reversalOf).Nodup by decide
  have hrefund : ReversesFresh saleStored (.appendTransaction "BK" firstRefund) := by
    rintro o ⟨⟩
    decide
  exact reversedOnce_of_run
    (.tail (.tail .refl ⟨call (.createBook plainBook), hbook, rfl⟩)
      ⟨call (.appendTransaction "BK" firstRefund), hrefund, rfl⟩)

/-- The store accepts two transactions that both reverse the sale. -/
theorem reversed_twice :
    (call (.createBook plainBook)).Returns {} ∧
    (call (.appendTransaction "BK" firstRefund)).Returns saleStored ∧
    (call (.appendTransaction "BK" secondRefund)).Returns refundStored ∧
    ∃ db, db = (call (.appendTransaction "BK" secondRefund)).after refundStored ∧
      (∃ x ∈ db.tables.transactions, x.bookCode = "BK" ∧ x.reference = "T1") ∧
      ¬ ReversedOnce db.tables := by
  refine ⟨⟨_, rfl⟩, ⟨_, rfl⟩, ⟨_, rfl⟩, _, rfl, by decide, ?_⟩
  intro h
  have hcount := h "BK" "T1"
  revert hcount
  decide

theorem cancelledBy_reversal : CancelledBy "BK" "T1" "R1" saleStored
    ((call (.appendReversal "BK" "T1" "R1")).after saleStored) := by
  have hreach : Reachable saleStored := Reachable.empty.after _
  exact appendReversal_cancels (w := {}) (r := "R1") hreach (Prod.ext (by rfl) rfl)

end Reference

end FinestVX
