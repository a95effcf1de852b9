import FinestVX.Persistence.Calls
import Mathlib.Logic.Function.Basic

/-!
# The abstract ledger

What the database is for: a map from book codes to books that only ever grow.
A stored book is a book some `create_book` was called with, and the
transactions appended to it since.  The tables of a reachable database hold just
the rows of such a ledger, and every call is a step of it.

## Main definitions

* `StoredBook`, `Ledger`, `LedgerStep` — the abstract machine.
* `Tables.restrict`, `tablesOf` — the rows of one book, in the tables and of a
  stored book.
* `Holds`, `Refines` — the tables hold the rows of a book, and of the ledger book
  by book.

## Main results

* `LedgerStep.forall_stored` — the induction rule of properties of stored books.
* `Refines.step` — every call is matched by a step of the ledger.
* `Reachable.exists_ledgerRun` — **every run of calls is matched by a run of the ledger.**
* `exists_refines_of_run`, `exists_refines_of_returned` — what the steps of the ledger preserve
  holds after every run.
-/

namespace FinestVX

open Except Relation

variable [Platform]

/-! ### Stored books -/

/-- A book as it was created, with the transactions appended to it. -/
structure StoredBook where
  base : Book
  appended : List JournalTransaction
  postable : ∀ t ∈ appended, Postable (base.fields.accounts.map Account.code) t
  nodup : ((base.fields.transactions ++ appended).map JournalTransaction.reference).Nodup

namespace StoredBook

/-- All transactions, in the order they were stored. -/
def transactions (b : StoredBook) : List JournalTransaction :=
  b.base.fields.transactions ++ b.appended

/-- The fields of the book as it stands. -/
def fields (b : StoredBook) : BookFields := { b.base.fields with transactions := b.transactions }

def code (b : StoredBook) : String := b.base.fields.code

/-- The codes of the accounts. -/
def accountCodes (b : StoredBook) : List String := b.base.fields.accounts.map Account.code

/-- A book as it is created. -/
def ofBook (book : Book)
    (h : (book.fields.transactions.map JournalTransaction.reference).Nodup) : StoredBook where
  base := book
  appended := []
  postable := by simp
  nodup := by simpa using h

/-- A book with one more transaction. -/
def append (b : StoredBook) (t : JournalTransaction) (ht : Postable b.accountCodes t)
    (hfresh : ∀ x ∈ b.transactions, x.reference ≠ t.reference) : StoredBook where
  base := b.base
  appended := b.appended ++ [t]
  postable := by
    intro x hx
    rcases List.mem_append.mp hx with hx | hx
    · exact b.postable x hx
    · rwa [List.mem_singleton.mp hx]
  nodup := by
    rw [← List.append_assoc, List.map_append]
    refine List.Nodup.append b.nodup (List.nodup_singleton _) ?_
    intro c hc hc'
    obtain ⟨x, hx, rfl⟩ := List.mem_map.mp hc
    exact hfresh x hx (List.mem_singleton.mp hc')

@[simp] theorem transactions_ofBook (book : Book) (h) :
    (ofBook book h).transactions = book.fields.transactions :=
  List.append_nil _

@[simp] theorem transactions_append (b : StoredBook) (t : JournalTransaction) (ht) (hfresh) :
    (b.append t ht hfresh).transactions = b.transactions ++ [t] :=
  (List.append_assoc _ _ _).symm

@[simp] theorem fields_ofBook (book : Book) (h) : (ofBook book h).fields = book.fields := by
  rw [fields, transactions_ofBook]
  rfl

theorem nodup_references (b : StoredBook) :
    (b.transactions.map JournalTransaction.reference).Nodup :=
  b.nodup

/-- Every transaction of a stored book may be posted to it. -/
theorem postable_of_mem (b : StoredBook) {t : JournalTransaction} (ht : t ∈ b.transactions) :
    Postable b.accountCodes t := by
  rcases List.mem_append.mp ht with ht | ht
  · exact b.base.valid.postable t ht
  · exact b.postable t ht

end StoredBook

/-! ### The abstract machine -/

/-- A map from codes to stored books. -/
abbrev Ledger := String → Option StoredBook

/-- What an operation does to the ledger when it succeeds. -/
inductive LedgerStep (σ : Ledger) : Op → Ledger → Prop
  /-- A book with a new code is created. -/
  | create {book : Book} (hnew : σ book.code = none)
      (hnodup : (book.fields.transactions.map JournalTransaction.reference).Nodup) :
      LedgerStep σ (.createBook book)
        (Function.update σ book.code (some (.ofBook book hnodup)))
  /-- A transaction with a new reference is appended to a book. -/
  | append {code : String} {b : StoredBook} {t : JournalTransaction} (hb : σ code = some b)
      (ht : Postable b.accountCodes t) (hfresh : ∀ x ∈ b.transactions, x.reference ≠ t.reference) :
      LedgerStep σ (.appendTransaction code t)
        (Function.update σ code (some (b.append t ht hfresh)))
  /-- The reversal of a transaction that has none is appended to its book. -/
  | reverse {code o r : String} {b : StoredBook} {original t : JournalTransaction}
      (hb : σ code = some b) (horiginal : original ∈ b.transactions)
      (hreference : original.reference = o) (hnone : ∀ x ∈ b.transactions, x.reversalOf ≠ some o)
      (hreversal : reversalOfTransaction original.readBack o r = .ok t)
      (ht : Postable b.accountCodes t) (hfresh : ∀ x ∈ b.transactions, x.reference ≠ t.reference) :
      LedgerStep σ (.appendReversal code o r)
        (Function.update σ code (some (b.append t ht hfresh)))
  /-- A legislative result goes to the audit log only. -/
  | result {code ref : String} {result : LegislativeValidationResult} :
      LedgerStep σ (.appendLegislativeResult code ref result) σ

/-- A property of all stored books is preserved by a step that preserves it of the
book the step is about. -/
theorem LedgerStep.forall_stored {P : StoredBook → Prop} {σ σ' : Ledger} {op : Op}
    (hstep : LedgerStep σ op σ') (h : ∀ code b, σ code = some b → P b)
    (hcreate : ∀ book hnodup, op = .createBook book → P (.ofBook book hnodup))
    (happend : ∀ code b t ht hfresh, σ code = some b → op = .appendTransaction code t → P b →
      P (b.append t ht hfresh))
    (hreverse : ∀ code o r b original t ht hfresh, op = .appendReversal code o r →
      original ∈ b.transactions → original.reference = o →
      (∀ x ∈ b.transactions, x.reversalOf ≠ some o) →
      reversalOfTransaction original.readBack o r = .ok t → P b → P (b.append t ht hfresh)) :
    ∀ code b, σ' code = some b → P b := by
  -- a step replaces the book it is about and leaves the others alone
  have hupdate : ∀ code b, P b → ∀ code' b', Function.update σ code (some b) code' = some b' →
      P b' := by
    intro code b hb code' b' hb'
    by_cases hc : code' = code
    · subst hc
      rw [Function.update_self] at hb'
      cases hb'
      exact hb
    · rw [Function.update_of_ne hc] at hb'
      exact h code' b' hb'
  cases hstep with
  | create hnew hnodup => exact hupdate _ _ (hcreate _ hnodup rfl)
  | append hb ht hfresh => exact hupdate _ _ (happend _ _ _ ht hfresh hb rfl (h _ _ hb))
  | reverse hb horiginal hreference hnone hreversal ht hfresh =>
    exact hupdate _ _ (hreverse _ _ _ _ _ _ ht hfresh rfl horiginal hreference hnone hreversal
      (h _ _ hb))
  | result => exact h

/-! ### The rows of one book -/

/-- The rows of one book. -/
def Tables.restrict (t : Tables) (code : String) : Tables where
  books := t.books.filter (·.bookCode = code)
  accounts := t.accounts.filter (·.bookCode = code)
  periods := t.periods.filter (·.bookCode = code)
  transactions := t.transactions.filter (·.bookCode = code)
  entries := t.entries.filter (·.bookCode = code)

/-- The rows of a stored book, or none. -/
def tablesOf : Option StoredBook → Tables
  | none => {}
  | some b => Tables.pushAll {} (bookRows b.fields)

/-- The rows of a book are those of a stored book. -/
def Holds (t : Tables) (b : StoredBook) : Prop := t.restrict b.code = tablesOf (some b)

/-- The tables hold the rows of the ledger, book by book. -/
structure Refines (t : Tables) (σ : Ledger) : Prop where
  rows : ∀ code, t.restrict code = tablesOf (σ code)
  code : ∀ code b, σ code = some b → b.code = code

namespace Tables

omit [Platform] in
theorem restrict_push (t : Tables) (r : CoreRow) (code : String) :
    (t.push r).restrict code =
      if r.bookCode = code then (t.restrict code).push r else t.restrict code := by
  by_cases h : r.bookCode = code
  · rw [if_pos h]
    cases r <;> simp_all [push, restrict, CoreRow.bookCode]
  · rw [if_neg h]
    cases r <;> simp_all [push, restrict, CoreRow.bookCode]

omit [Platform] in
/-- Inserting rows of a book adds them to its rows. -/
theorem restrict_pushAll_self (t : Tables) {rows : List CoreRow} {code : String}
    (h : ∀ r ∈ rows, r.bookCode = code) :
    (t.pushAll rows).restrict code = (t.restrict code).pushAll rows := by
  induction rows generalizing t with
  | nil => rfl
  | cons r rows ih =>
    rw [pushAll_cons, ih _ fun x hx => h x (by simp [hx]), restrict_push, if_pos (h r (by simp)),
      pushAll_cons]

omit [Platform] in
/-- Inserting rows of another book leaves the rows of a book alone. -/
theorem restrict_pushAll_of_ne (t : Tables) {rows : List CoreRow} {code code' : String}
    (h : ∀ r ∈ rows, r.bookCode = code) (hne : code ≠ code') :
    (t.pushAll rows).restrict code' = t.restrict code' := by
  induction rows generalizing t with
  | nil => rfl
  | cons r rows ih =>
    rw [pushAll_cons, ih _ fun x hx => h x (by simp [hx]), restrict_push,
      if_neg (by rw [h r (by simp)]; exact hne)]

end Tables

theorem bookCode_of_mem_transactionRows {code : String} {t : JournalTransaction} {r : CoreRow}
    (h : r ∈ transactionRows code t) : r.bookCode = code := by
  rcases List.mem_cons.mp h with rfl | h
  · rfl
  · obtain ⟨e, he, rfl⟩ := List.mem_map.mp h
    obtain ⟨x, -, rfl⟩ := List.mem_map.mp he
    rfl

theorem bookCode_of_mem_bookRows {b : BookFields} {r : CoreRow} (h : r ∈ bookRows b) :
    r.bookCode = b.code := by
  simp only [bookRows, List.mem_append, List.mem_cons, List.mem_map, List.mem_flatMap] at h
  rcases h with ((rfl | ⟨a, -, rfl⟩) | ⟨p, -, rfl⟩) | ⟨t, -, h⟩
  · rfl
  · rfl
  · rfl
  · exact bookCode_of_mem_transactionRows h

/-- Inserting the rows of a transaction. -/
theorem pushAll_transactionRows (t : Tables) (code : String) (x : JournalTransaction) :
    t.pushAll (transactionRows code x) = { t with
      transactions := t.transactions ++ [transactionRow code x]
      entries := t.entries ++ entryRows code x } := by
  rw [Tables.pushAll_eq, transactionRows]
  simp [List.filterMap_cons, List.filterMap_map, Function.comp_def, CoreRow.book?,
    CoreRow.account?, CoreRow.period?, CoreRow.transaction?, CoreRow.entry?]

/-- The rows of a book with one more transaction. -/
theorem bookRows_append (b : StoredBook) (t : JournalTransaction) (ht) (hfresh) :
    bookRows (b.append t ht hfresh).fields = bookRows b.fields ++ transactionRows b.code t := by
  simp only [bookRows, StoredBook.fields, StoredBook.transactions_append, List.flatMap_append,
    List.flatMap_singleton, List.append_assoc]
  rfl

/-! ### The tables of one book -/

/-- A selection among the rows of a book, part by part. -/
theorem filterMap_bookRows {β : Type} (f : CoreRow → Option β) (b : BookFields) :
    (bookRows b).filterMap f = (f (.book (bookRow b))).toList ++
      b.accounts.filterMap (fun a => f (.account (accountRow b.code a))) ++
      b.periods.filterMap (fun p => f (.period (periodRow b.code p))) ++
      b.transactions.flatMap fun t => (f (.transaction (transactionRow b.code t))).toList ++
        (entryRows b.code t).filterMap fun e => f (.entry e) := by
  have hcons : ∀ (r : CoreRow) (l : List CoreRow),
      (r :: l).filterMap f = (f r).toList ++ l.filterMap f := by
    intro r l
    rw [List.filterMap_cons]
    cases f r <;> rfl
  simp only [bookRows, transactionRows, List.filterMap_append, List.cons_append, hcons,
    List.filterMap_map, List.filterMap_flatMap, List.append_assoc, Function.comp_def]

/-- The tables of a stored book, one by one. -/
theorem tablesOf_some (b : StoredBook) : tablesOf (some b) =
    { books := [bookRow b.fields]
      accounts := b.base.fields.accounts.map (accountRow b.code)
      periods := b.base.fields.periods.map (periodRow b.code)
      transactions := b.transactions.map (transactionRow b.code)
      entries := b.transactions.flatMap (entryRows b.code) } := by
  rw [tablesOf, Tables.pushAll_eq]
  simp only [filterMap_bookRows, List.nil_append, Tables.mk.injEq]
  refine ⟨?_, ?_, ?_, ?_, ?_⟩ <;>
    simp [CoreRow.book?, CoreRow.account?, CoreRow.period?, CoreRow.transaction?, CoreRow.entry?,
      StoredBook.fields, StoredBook.code, ← List.map_eq_flatMap]

/-! ### Queries see one book -/

omit [Platform] in
theorem accountCodes_restrict (t : Tables) (code : String) :
    accountCodes code (t.restrict code) = accountCodes code t := by
  simp [accountCodes, Tables.restrict]

omit [Platform] in
theorem hasBook_restrict (t : Tables) (code : String) :
    (t.restrict code).HasBook code ↔ t.HasBook code := by
  simp [Tables.HasBook, Tables.restrict]

omit [Platform] in
theorem find?_filter {α : Type} (p q : α → Bool) (l : List α) (h : ∀ a, q a = true → p a = true) :
    (l.filter p).find? q = l.find? q := by
  rw [List.find?_filter]
  congr 1
  funext a
  cases hq : q a
  · simp
  · simp [h a hq]

omit [Platform] in
theorem findTransaction_restrict (t : Tables) (code reference : String) :
    findTransaction code reference (t.restrict code) = findTransaction code reference t :=
  find?_filter _ _ _ fun x hx => by simp_all

omit [Platform] in
theorem selectEntries_restrict (t : Tables) (code reference : String) :
    selectEntries code reference (t.restrict code) = selectEntries code reference t := by
  unfold selectEntries
  congr 1
  simp only [Tables.restrict, List.filter_filter]
  refine List.filter_congr ?_
  intro e _
  by_cases h : e.bookCode = code <;> simp [h]

omit [Platform] in
theorem exists_transaction_restrict (t : Tables) (code : String) (p : TransactionRow → Prop) :
    (∃ x ∈ (t.restrict code).transactions, x.bookCode = code ∧ p x) ↔
      ∃ x ∈ t.transactions, x.bookCode = code ∧ p x := by
  simp only [Tables.restrict, List.mem_filter, decide_eq_true_eq]
  constructor
  · rintro ⟨x, ⟨hx, -⟩, hcode, hp⟩
    exact ⟨x, hx, hcode, hp⟩
  · rintro ⟨x, hx, hcode, hp⟩
    exact ⟨x, ⟨hx, hcode⟩, hcode, hp⟩

/-! ### The simulation -/

theorem Refines.holds {t : Tables} {σ : Ledger} (h : Refines t σ) {code : String}
    {b : StoredBook} (hb : σ code = some b) : b.code = code ∧ Holds t b := by
  obtain rfl := h.code code b hb
  exact ⟨rfl, by rw [Holds, h.rows, hb]⟩

/-- No rows of a book without its row in `books`. -/
theorem Refines.eq_none {t : Tables} {σ : Ledger} (h : Refines t σ) {code : String}
    (hbook : ∀ b ∈ t.books, b.bookCode ≠ code) : σ code = none := by
  cases hσ : σ code with
  | none => rfl
  | some b =>
    have hrows := h.rows code
    rw [hσ, tablesOf_some] at hrows
    have hmem : bookRow b.fields ∈ (t.restrict code).books := by rw [hrows]; simp
    have := List.mem_filter.mp hmem
    exact absurd (of_decide_eq_true this.2) (hbook _ this.1)

/-- Replacing the rows of one book. -/
theorem Refines.update {t t' : Tables} {σ : Ledger} (h : Refines t σ) {code : String}
    {b : StoredBook} (hcode : b.code = code) (hself : t'.restrict code = tablesOf (some b))
    (hother : ∀ code', code ≠ code' → t'.restrict code' = t.restrict code') :
    Refines t' (Function.update σ code (some b)) where
  rows code' := by
    by_cases hc : code' = code
    · subst hc
      rw [Function.update_self, hself]
    · rw [Function.update_of_ne hc, hother code' (Ne.symm hc), h.rows code']
  code code' b' hb' := by
    by_cases hc : code' = code
    · subst hc
      rw [Function.update_self] at hb'
      cases hb'
      exact hcode
    · rw [Function.update_of_ne hc] at hb'
      exact h.code code' b' hb'

/-- Inserting the rows of a new transaction refines appending it. -/
theorem Refines.append {t : Tables} {σ : Ledger} (h : Refines t σ) {code : String}
    {b : StoredBook} (hb : σ code = some b) {tx : JournalTransaction} (ht) (hfresh) :
    Refines (t.pushAll (transactionRows code tx))
      (Function.update σ code (some (b.append tx ht hfresh))) := by
  have hcode := h.code code b hb
  refine h.update hcode ?_ ?_
  · rw [Tables.restrict_pushAll_self t fun r => bookCode_of_mem_transactionRows, h.rows, hb,
      tablesOf, tablesOf, bookRows_append, Tables.pushAll_append, hcode]
  · intro code' hne
    exact Tables.restrict_pushAll_of_ne t (fun r => bookCode_of_mem_transactionRows) hne

/-- The references of a book are distinct where the primary key holds. -/
theorem nodup_references {t : Tables} (hkeyed : t.Keyed) {code : String}
    {l : List JournalTransaction}
    (h : (t.restrict code).transactions = l.map (transactionRow code)) :
    (l.map JournalTransaction.reference).Nodup := by
  have hsub := List.Sublist.nodup
    ((List.filter_sublist (p := fun x => decide (x.bookCode = code))).map _) hkeyed.transactions
  rw [show t.transactions.filter (fun x => decide (x.bookCode = code)) = _ from h,
    List.map_map] at hsub
  refine List.Nodup.of_map (fun r => (code, r)) ?_
  rw [List.map_map]
  exact hsub

/-- A book with a new code is in the tables with just the rows that were inserted. -/
theorem restrict_pushAll_bookRows {t : Tables} {book : Book} (hempty : t.restrict book.code = {}) :
    (t.pushAll (bookRows book.fields)).restrict book.code =
      Tables.pushAll {} (bookRows book.fields) := by
  have hcodes : ∀ r ∈ bookRows book.fields, r.bookCode = book.code := fun r =>
    bookCode_of_mem_bookRows
  rw [Tables.restrict_pushAll_self t hcodes, hempty]

/-- The references of a book that could be inserted are distinct. -/
theorem nodup_references_of_admitsAll {t : Tables} {book : Book} (hkeyed : t.Keyed)
    (hempty : t.restrict book.code = {}) (hadmits : t.AdmitsAll (bookRows book.fields)) :
    (book.fields.transactions.map JournalTransaction.reference).Nodup := by
  have htransactions : ((t.pushAll (bookRows book.fields)).restrict book.code).transactions =
      book.fields.transactions.map (transactionRow book.code) := by
    rw [restrict_pushAll_bookRows hempty, Tables.transactions_pushAll, filterMap_bookRows]
    simp [CoreRow.transaction?, ← List.map_eq_flatMap, Book.code]
  exact nodup_references (hkeyed.pushAll hadmits) htransactions

theorem Holds.ofBook {t : Tables} {book : Book} (hempty : t.restrict book.code = {}) (hnodup) :
    Holds (t.pushAll (bookRows book.fields)) (StoredBook.ofBook book hnodup) := by
  rw [Holds, tablesOf, StoredBook.fields_ofBook]
  exact restrict_pushAll_bookRows hempty

/-- The reference of an appended transaction is new. -/
theorem Holds.fresh {t : Tables} {b : StoredBook} (h : Holds t b) {tx : JournalTransaction}
    (hadmits : t.AdmitsAll (transactionRows b.code tx)) :
    ∀ x ∈ b.transactions, x.reference ≠ tx.reference := by
  intro x hx heq
  have hmem : transactionRow b.code x ∈ (t.restrict b.code).transactions := by
    rw [h, tablesOf_some]
    exact List.mem_map_of_mem hx
  exact hadmits.1.2.2.2.2.2.1 _ (List.mem_filter.mp hmem).1 ⟨rfl, heq⟩

theorem Holds.accountCodes {t : Tables} {b : StoredBook} (h : Holds t b) :
    FinestVX.accountCodes b.code t = b.accountCodes := by
  rw [← accountCodes_restrict, h, tablesOf_some]
  simp [FinestVX.accountCodes, StoredBook.accountCodes, List.filter_map, accountRow,
    Function.comp_def, Account.code]

/-- A book with an account exists. -/
theorem Refines.exists_of_accountCodes {t : Tables} {σ : Ledger} (h : Refines t σ) {code : String}
    (hne : FinestVX.accountCodes code t ≠ []) : ∃ b, σ code = some b := by
  cases hσ : σ code with
  | some b => exact ⟨b, rfl⟩
  | none =>
    rw [← accountCodes_restrict, h.rows, hσ] at hne
    exact absurd rfl hne

omit [Platform] in
theorem mem_listBookCodes {t : Tables} {code : String} :
    code ∈ listBookCodes t ↔ t.HasBook code := by
  simp [listBookCodes, Tables.HasBook]

/-- A book with a row exists. -/
theorem Refines.exists_of_hasBook {t : Tables} {σ : Ledger} (h : Refines t σ) {code : String}
    (hbook : t.HasBook code) : ∃ b, σ code = some b := by
  cases hσ : σ code with
  | some b => exact ⟨b, rfl⟩
  | none =>
    obtain ⟨b, hb, -⟩ := (hasBook_restrict t code).mpr hbook
    rw [h.rows, hσ] at hb
    cases hb

/-- The codes of the books are those of the ledger. -/
theorem Refines.mem_listBookCodes {t : Tables} {σ : Ledger} (h : Refines t σ) {code : String} :
    code ∈ listBookCodes t ↔ ∃ b, σ code = some b := by
  rw [FinestVX.mem_listBookCodes]
  refine ⟨h.exists_of_hasBook, ?_⟩
  rintro ⟨b, hb⟩
  by_contra hnone
  have hbook : ∀ r ∈ t.books, r.bookCode ≠ code := fun r hr hcode => hnone ⟨r, hr, hcode⟩
  have heq := h.eq_none hbook
  rw [hb] at heq
  cases heq

/-! ### Reading a transaction -/

/-- The entries of one of several transactions with distinct references. -/
theorem filter_flatMap_entryRows {code : String} {l : List JournalTransaction}
    (hl : (l.map JournalTransaction.reference).Nodup) {t : JournalTransaction} (ht : t ∈ l) :
    (l.flatMap (entryRows code)).filter
      (fun e => e.bookCode = code ∧ e.transactionReference = t.reference) = entryRows code t := by
  have hrows : ∀ x : JournalTransaction, ∀ e ∈ entryRows code x,
      e.bookCode = code ∧ e.transactionReference = x.reference := by
    intro x e he
    obtain ⟨p, -, rfl⟩ := List.mem_map.mp he
    exact ⟨rfl, rfl⟩
  have hnone : ∀ x : JournalTransaction, x.reference ≠ t.reference → (entryRows code x).filter
      (fun e => e.bookCode = code ∧ e.transactionReference = t.reference) = [] := by
    intro x hx
    apply List.filter_eq_nil_iff.mpr
    intro e he h
    exact hx ((hrows x e he).2.symm.trans (of_decide_eq_true h).2)
  -- the references are distinct, so the rows selected are all in one summand
  induction l with
  | nil => simp at ht
  | cons x l ih =>
    rw [List.map_cons, List.nodup_cons] at hl
    rw [List.flatMap_cons, List.filter_append]
    rcases List.mem_cons.mp ht with rfl | ht
    · have hrest : (l.flatMap (entryRows code)).filter
          (fun e => e.bookCode = code ∧ e.transactionReference = t.reference) = [] := by
        rw [List.filter_flatMap, List.flatMap_eq_nil_iff]
        intro y hy
        exact hnone y fun heq => hl.1 (heq ▸ List.mem_map_of_mem hy)
      rw [hrest, List.append_nil]
      exact List.filter_eq_self.mpr fun e he => decide_eq_true (hrows t e he)
    · have hne : x.reference ≠ t.reference := fun heq => hl.1 (heq ▸ List.mem_map_of_mem ht)
      rw [hnone x hne, List.nil_append, ih hl.2 ht]

/-- Entry rows are written in line order. -/
theorem orderBy_entryRows (code : String) (t : JournalTransaction) :
    orderBy EntryRow.lineNo (entryRows code t) = entryRows code t := by
  refine orderBy_eq_self (List.pairwise_map.mpr ?_)
  have hsorted : (t.fields.entries.zipIdx.map Prod.snd).Pairwise (· < ·) := by
    rw [List.zipIdx_map_snd]
    exact List.pairwise_lt_range'
  refine (List.pairwise_map.mp hsorted).imp fun {a b} hab => ?_
  change (a.2 : ℤ) ≤ b.2
  omega

/-- The rows of a transaction are read back as its mapping. -/
theorem toPayload_transactionRow (code : String) (t : JournalTransaction) :
    (transactionRow code t).toPayload (entryRows code t) = transactionToMapping t := by
  have hentries : (entryRows code t).map EntryRow.toPayload =
      t.fields.entries.map entryToMapping := by
    rw [entryRows, List.map_map]
    change t.fields.entries.zipIdx.map (entryToMapping ∘ Prod.fst) = _
    rw [← List.map_map, List.zipIdx_map_fst]
  have hperiod : (transactionRow code t).periodPayload = t.fields.period.map periodToMapping := by
    unfold TransactionRow.periodPayload transactionRow
    cases t.fields.period <;> rfl
  simp only [TransactionRow.toPayload, hentries, hperiod]
  rfl

/-- The row of a stored transaction is found by its reference. -/
theorem Refines.findTransaction_eq_some {t : Tables} {σ : Ledger} (h : Refines t σ)
    {code reference : String} {row : TransactionRow}
    (hrow : findTransaction code reference t = some row) :
    ∃ b x, σ code = some b ∧ x ∈ b.transactions ∧ x.reference = reference ∧
      row = transactionRow code x := by
  rw [← findTransaction_restrict, h.rows] at hrow
  cases hσ : σ code with
  | none =>
    rw [hσ] at hrow
    cases hrow
  | some b =>
    rw [hσ, tablesOf_some, h.code code b hσ] at hrow
    have hp := List.find?_some hrow
    obtain ⟨x, hx, rfl⟩ := List.mem_map.mp (List.mem_of_find?_eq_some hrow)
    exact ⟨b, x, rfl, hx, (of_decide_eq_true hp).2, rfl⟩

/-- A row of `transactions` is the one of a stored transaction. -/
theorem Refines.exists_of_mem {t : Tables} {σ : Ledger} (h : Refines t σ) {row : TransactionRow}
    (hrow : row ∈ t.transactions) :
    ∃ b x, σ row.bookCode = some b ∧ x ∈ b.transactions ∧ x.reference = row.reference := by
  cases hfind : findTransaction row.bookCode row.reference t with
  | none =>
    have hnone := List.find?_eq_none.mp hfind row hrow
    simp at hnone
  | some _ =>
    obtain ⟨b, x, hb, hx, href, -⟩ := h.findTransaction_eq_some hfind
    exact ⟨b, x, hb, hx, href⟩

/-- The entries of a stored transaction. -/
theorem Holds.selectEntries_eq {t : Tables} {b : StoredBook} (h : Holds t b)
    {x : JournalTransaction} (hx : x ∈ b.transactions) :
    selectEntries b.code x.reference t = entryRows b.code x := by
  rw [← selectEntries_restrict, h, tablesOf_some, selectEntries]
  dsimp only
  rw [filter_flatMap_entryRows b.nodup_references hx, orderBy_entryRows]

theorem Holds.exists_transaction_iff {t : Tables} {b : StoredBook} (h : Holds t b)
    (p : TransactionRow → Prop) : (∃ x ∈ t.transactions, x.bookCode = b.code ∧ p x) ↔
      ∃ x ∈ b.transactions, p (transactionRow b.code x) := by
  rw [← exists_transaction_restrict, h, tablesOf_some]
  simp only [List.mem_map]
  constructor
  · rintro ⟨_, ⟨x, hx, rfl⟩, -, hp⟩
    exact ⟨x, hx, hp⟩
  · rintro ⟨x, hx, hp⟩
    exact ⟨_, ⟨x, hx, rfl⟩, rfl, hp⟩

/-! ### Reversals -/

/-- The entry with the other side. -/
def LedgerEntry.inverted (e : LedgerEntry) : LedgerEntry :=
  ⟨{ e.fields with side := e.fields.side.flip }, { e.fields with side := e.fields.side.flip },
    LedgerEntryFields.Valid.postInit { e.valid with }⟩

/-- Inverting an entry does not raise. -/
theorem invertEntry_eq_ok (e : LedgerEntry) : invertEntry e = .ok e.inverted :=
  Built.new_eq_ok_iff.mpr (LedgerEntryFields.Valid.postInit { e.valid with })

/-- The debits of the inverted entries are the credits of the entries. -/
theorem amounts_map_inverted (s : PostingSide) (c : String) (entries : List LedgerEntry) :
    amounts s c (entries.map LedgerEntry.inverted) = amounts s.flip c entries := by
  induction entries with
  | nil => rfl
  | cons e entries ih =>
    have hside : e.inverted.side = s ↔ e.side = s.flip := by
      show e.fields.side.flip = s ↔ e.fields.side = s.flip
      cases e.fields.side <;> cases s <;> simp [PostingSide.flip]
    rw [List.map_cons, amounts_cons, amounts_cons, ih]
    simp only [hside]
    rfl

/-- What the reversal of a transaction consists of. -/
theorem reversalOfTransaction_eq_ok {original t : JournalTransaction} {o r : String}
    (h : reversalOfTransaction original o r = .ok t) :
    requireNonEmptyStr r "reference" = .ok t.reference ∧
      t.fields.postedAt = original.fields.postedAt ∧ t.fields.period = original.fields.period ∧
      t.fields.state = .posted ∧ normalizeOptionalStr (some o) "reversal_of" = .ok t.reversalOf ∧
      t.entries = original.entries.map LedgerEntry.inverted := by
  unfold reversalOfTransaction at h
  rw [mapM_eq_ok_map fun e _ => invertEntry_eq_ok e, ok_bind] at h
  obtain ⟨href, -, hrev, -, -, hposted, hentries, hperiod, hstate⟩ :=
    JournalTransactionFields.postInit_eq_ok.mp (Built.new_eq_ok_iff.mp h)
  exact ⟨href, hposted, hperiod, hstate, hrev, hentries⟩

/-- A reversal names its original. -/
theorem reversalOf_of_reversal {original t : JournalTransaction} {o r : String}
    (ho : requireNonEmptyStr o "reversal_of" = .ok o)
    (h : reversalOfTransaction original o r = .ok t) : t.reversalOf = some o := by
  obtain ⟨-, -, -, -, hof, -⟩ := reversalOfTransaction_eq_ok h
  rw [Platform.normalizeOptionalStr_some, ho] at hof
  exact (Except.ok.inj hof).symm

/-- The lookup of the original, on a database that refines a ledger. -/
theorem Refines.reversalTransaction_eq_ok {t : Tables} {σ : Ledger} (h : Refines t σ) {w : World}
    {code o r : String} {tx : JournalTransaction}
    (htx : reversalTransaction w code o r t = .ok tx) :
    ∃ b original, σ code = some b ∧ original ∈ b.transactions ∧ original.reference = o ∧
      (∀ x ∈ b.transactions, x.reversalOf ≠ some o) ∧
      reversalOfTransaction original.readBack o r = .ok tx := by
  obtain ⟨_, -, htx⟩ := bind_eq_ok.mp htx
  obtain ⟨row, hrow, htx⟩ := bind_eq_ok.mp htx
  obtain ⟨payload, hpayload, htx⟩ := bind_eq_ok.mp htx
  -- the checks have found the row, and no reversal of it
  unfold reversalChecks at hrow
  split at hrow
  · split at hrow <;> cases hrow
  next row' hfind =>
  obtain ⟨hnone, hrow⟩ := guard_eq_ok.mp hrow
  obtain ⟨-, hrow⟩ := guard_eq_ok.mp hrow
  cases hrow
  obtain ⟨b, original, hb, hmem, rfl, rfl⟩ := h.findTransaction_eq_some hfind
  obtain ⟨rfl, hholds⟩ := h.holds hb
  refine ⟨b, original, hb, hmem, rfl, ?_, ?_⟩
  · intro x hx heq
    exact hnone ((hholds.exists_transaction_iff fun x =>
      x.reversalOf = some original.reference).mpr ⟨x, hx, heq⟩)
  · -- the rows of the original are read back as its mapping
    rw [hholds.selectEntries_eq hmem, toPayload_transactionRow] at hpayload
    have heq : ({ transactionToMapping original with reference := original.reference } :
        TransactionPayload) = transactionToMapping original := rfl
    rw [heq, transactionFromMapping_transactionToMapping] at hpayload
    cases hpayload
    exact htx

/-- The reversal of a stored transaction may be posted. -/
theorem postable_of_reversal {b : StoredBook} {original t : JournalTransaction} {o r : String}
    (hmem : original ∈ b.transactions)
    (h : reversalOfTransaction original.readBack o r = .ok t) : Postable b.accountCodes t := by
  obtain ⟨-, -, -, hstate, -, hentries⟩ := reversalOfTransaction_eq_ok h
  refine ⟨hstate, ?_⟩
  intro e he
  rw [hentries] at he
  obtain ⟨e', he', rfl⟩ := List.mem_map.mp he
  obtain ⟨e'', he'', rfl⟩ := List.mem_map.mp he'
  exact (b.postable_of_mem hmem).accounts e'' he''

/-! ### Every call is a step of the ledger -/

/-- **Every call that returns is matched by a step of the ledger.** -/
theorem Refines.step {t : Tables} {σ : Ledger} (h : Refines t σ) (hkeyed : t.Keyed) {op : Op}
    {rows : List CoreRow} (hwrites : Writes t op rows) (hadmits : t.AdmitsAll rows) :
    ∃ σ', LedgerStep σ op σ' ∧ Refines (t.pushAll rows) σ' := by
  cases hwrites with
  | createBook book =>
    -- a code without a row in `books` has no rows at all
    have hnew : σ book.code = none := h.eq_none hadmits.1.2
    have hempty : t.restrict book.code = {} := by rw [h.rows, hnew, tablesOf]
    have hnodup := nodup_references_of_admitsAll hkeyed hempty hadmits
    refine ⟨_, .create hnew hnodup, h.update rfl (Holds.ofBook hempty hnodup) ?_⟩
    intro code' hne
    exact Tables.restrict_pushAll_of_ne t (fun r => bookCode_of_mem_bookRows) hne
  | appendTransaction hposted hbook hknown =>
    obtain ⟨b, hb⟩ := h.exists_of_accountCodes hbook
    obtain ⟨rfl, hholds⟩ := h.holds hb
    have ht : Postable b.accountCodes _ := ⟨hposted, hholds.accountCodes ▸ hknown⟩
    exact ⟨_, .append hb ht (hholds.fresh hadmits), h.append hb ht _⟩
  | appendReversal htx =>
    obtain ⟨b, original, hb, hmem, href, hnone, hreversal⟩ := h.reversalTransaction_eq_ok htx
    obtain ⟨rfl, hholds⟩ := h.holds hb
    have ht := postable_of_reversal hmem hreversal
    exact ⟨_, .reverse hb hmem href hnone hreversal ht (hholds.fresh hadmits), h.append hb ht _⟩
  | appendLegislativeResult => exact ⟨σ, .result, h⟩

/-- The empty database refines the empty ledger. -/
theorem Refines.empty : Refines {} fun _ => none where
  rows _ := rfl
  code _ _ h := by cases h

/-- A call leaves the ledger alone, or is a step of it. -/
theorem Refines.after {db : Database} {σ : Ledger} (h : Refines db.tables σ)
    (hkeyed : db.tables.Keyed) (c : Call) : ∃ σ', (σ' = σ ∨ LedgerStep σ c.op σ') ∧
      Refines (c.after db).tables σ' := by
  rcases c.after_cases db with hsame | ⟨rows, hwrites, hadmits, -, heffect⟩
  · exact ⟨σ, .inl rfl, by rwa [hsame]⟩
  · obtain ⟨σ', hstep, hrefines⟩ := h.step hkeyed hwrites hadmits
    exact ⟨σ', .inr hstep, by rwa [heffect.tables]⟩

/-- **What every step of the ledger preserves** holds of the ledger after every run
whose calls meet the condition `G`. -/
theorem exists_refines_of_run {G : Database → Op → Prop} {P : Ledger → Prop} {db : Database}
    (hrun : ReflTransGen (GuardedStep G) {} db) (hempty : P fun _ => none)
    (hstep : ∀ db σ op σ', Refines db.tables σ → P σ → G db op → LedgerStep σ op σ' → P σ') :
    db.tables.Keyed ∧ ∃ σ, Refines db.tables σ ∧ P σ := by
  refine invariant_of_step (p := fun db => db.tables.Keyed ∧ ∃ σ, Refines db.tables σ ∧ P σ)
    hrun ?_ ?_
  · exact ⟨⟨List.nodup_nil, List.nodup_nil, List.nodup_nil⟩, _, Refines.empty, hempty⟩
  · rintro db _ ⟨hkeyed, σ, hσ, hP⟩ ⟨c, hG, rfl⟩
    obtain ⟨σ', hcases, hσ'⟩ := hσ.after hkeyed c
    refine ⟨Call.keyed_after hkeyed, σ', hσ', ?_⟩
    rcases hcases with rfl | hledger
    · exact hP
    · exact hstep db σ c.op σ' hσ hP hG hledger

/-- What every step of the ledger preserves of the ledger and the operations so far, holds after
the calls of a run and the operations of those that returned. -/
theorem exists_refines_after {P : List Op → Ledger → Prop} (calls : List Call) {db : Database}
    {ops : List Op} {σ : Ledger} (hrefines : Refines db.tables σ) (hkeyed : db.tables.Keyed)
    (h : P ops σ)
    (hstep : ∀ ops σ op σ', P ops σ → LedgerStep σ op σ' → P (ops ++ [op]) σ') :
    ∃ σ', Refines (Call.afterAll calls db).tables σ' ∧ P (ops ++ returned calls db) σ' := by
  induction calls generalizing db σ ops with
  | nil => exact ⟨σ, hrefines, by rwa [returned, List.append_nil]⟩
  | cons c calls ih =>
    cases hrun : c.run db with
    | mk outcome db' =>
      have hafter : c.after db = db' := congrArg Prod.snd hrun
      have hall : Call.afterAll (c :: calls) db = Call.afterAll calls db' := hafter ▸ rfl
      have hkeyed' : db'.tables.Keyed := hafter ▸ Call.keyed_after hkeyed
      rw [hall, returned, hrun, hafter]
      cases outcome with
      | error e =>
        -- a call that raises changes nothing
        rw [Call.run_error hrun] at hkeyed' ⊢
        exact ih hrefines hkeyed h
      | ok receipt =>
        obtain ⟨rows, hwrites, hadmits, -, heffect⟩ := Call.run_ok hrun
        obtain ⟨σ₁, hledger, hσ₁⟩ := hrefines.step hkeyed hwrites hadmits
        rw [← heffect.tables] at hσ₁
        obtain ⟨σ₂, hσ₂, hP⟩ := ih hσ₁ hkeyed' (hstep _ _ _ _ h hledger)
        rw [List.append_assoc] at hP
        exact ⟨σ₂, hσ₂, hP⟩

/-- **What every step of the ledger preserves** of the ledger and the operations that led to it,
holds after every run and the operations that returned in it. -/
theorem exists_refines_of_returned {P : List Op → Ledger → Prop} (calls : List Call)
    (hempty : P [] fun _ => none)
    (hstep : ∀ ops σ op σ', P ops σ → LedgerStep σ op σ' → P (ops ++ [op]) σ') :
    ∃ σ, Refines (Call.afterAll calls {}).tables σ ∧ P (returned calls {}) σ :=
  exists_refines_after calls Refines.empty Reachable.empty.keyed hempty hstep

/-- **Every run of calls is matched by a run of the ledger.** -/
theorem Reachable.exists_ledgerRun {db : Database} (h : Reachable db) :
    ∃ σ, ReflTransGen (fun σ σ' => ∃ op, LedgerStep σ op σ') (fun _ => none) σ ∧
      db.tables.Keyed ∧ Refines db.tables σ := by
  refine simulation_of_step (R := fun db σ => db.tables.Keyed ∧ Refines db.tables σ) h ?_ ?_
  · exact ⟨⟨List.nodup_nil, List.nodup_nil, List.nodup_nil⟩, Refines.empty⟩
  · rintro db _ σ ⟨hkeyed, hσ⟩ ⟨c, rfl⟩
    obtain ⟨σ', hcases, hσ'⟩ := hσ.after hkeyed c
    refine ⟨σ', ?_, Call.keyed_after hkeyed, hσ'⟩
    rcases hcases with rfl | hledger
    · exact .refl
    · exact .single ⟨c.op, hledger⟩

/-- Every reachable database refines a ledger. -/
theorem Reachable.refines {db : Database} (h : Reachable db) : ∃ σ, Refines db.tables σ := by
  obtain ⟨σ, -, -, hσ⟩ := h.exists_ledgerRun
  exact ⟨σ, hσ⟩

end FinestVX
