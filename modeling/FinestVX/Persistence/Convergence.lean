import FinestVX.Persistence.Growth
import FinestVX.Persistence.Readable

/-!
# The order of the calls

What is loaded from a store does not depend on the order in which its calls were executed, nor
on the calls that raised: it is determined by the set of the operations that returned.

## Main definitions

* `Contributes` — the transactions that a set of operations puts into a book.
* `Explains` — the operations account for all that is stored, and nothing is missing.

## Main results

* `Explains.step` — one more operation explains the ledger after its step.
* `converges_of_returned` — **equal sets of operations leave equal books.**
-/

namespace FinestVX

open Except Relation

section

variable [Platform]

/-! ### What the operations put into the books -/

/-- The transactions that the operations put into a book, whatever their order. -/
inductive Contributes (ops : List Op) (code : String) : JournalTransaction → Prop
  | created {book : Book} {t : JournalTransaction} (h : .createBook book ∈ ops)
      (hcode : book.code = code) (ht : t ∈ book.fields.transactions) : Contributes ops code t
  | appended {t : JournalTransaction} (h : .appendTransaction code t ∈ ops) :
      Contributes ops code t
  | reversed {o r : String} {x t : JournalTransaction} (h : .appendReversal code o r ∈ ops)
      (hx : Contributes ops code x) (hreference : x.reference = o)
      (ht : reversalOfTransaction x.readBack o r = .ok t) : Contributes ops code t

theorem Contributes.mono {ops ops' : List Op} {code : String} {t : JournalTransaction}
    (h : Contributes ops code t) (hsub : ops ⊆ ops') : Contributes ops' code t := by
  induction h with
  | created h hcode ht => exact .created (hsub h) hcode ht
  | appended h => exact .appended (hsub h)
  | reversed h _ hreference ht ih => exact .reversed (hsub h) ih hreference ht

/-- What an operation does is there. -/
def Done (σ : Ledger) : Op → Prop
  | .createBook book => ∃ b, σ book.code = some b ∧ b.base = book
  | .appendTransaction code t => ∃ b, σ code = some b ∧ t ∈ b.transactions
  | .appendReversal code o r => ∃ b x t, σ code = some b ∧ x ∈ b.transactions ∧
    x.reference = o ∧ reversalOfTransaction x.readBack o r = .ok t ∧ t ∈ b.transactions
  | .appendLegislativeResult .. => True

/-- What was done stays. -/
theorem Done.of_extends {σ σ' : Ledger} {op : Op} (h : Done σ op) (hext : σ.Extends σ') :
    Done σ' op := by
  cases op with
  | createBook book =>
    obtain ⟨b, hb, hbase⟩ := h
    obtain ⟨b', hb', hbext⟩ := hext _ b hb
    exact ⟨b', hb', hbext.base.trans hbase⟩
  | appendTransaction code t =>
    obtain ⟨b, hb, ht⟩ := h
    obtain ⟨b', hb', hbext⟩ := hext _ b hb
    exact ⟨b', hb', hbext.transactions.subset ht⟩
  | appendReversal code o r =>
    obtain ⟨b, x, t, hb, hx, hreference, hreversal, ht⟩ := h
    obtain ⟨b', hb', hbext⟩ := hext _ b hb
    exact ⟨b', x, t, hb', hbext.transactions.subset hx, hreference, hreversal,
      hbext.transactions.subset ht⟩
  | appendLegislativeResult => trivial

theorem LedgerStep.done {σ σ' : Ledger} {op : Op} (h : LedgerStep σ op σ') : Done σ' op := by
  cases h with
  | create hnew hnodup => exact ⟨_, Function.update_self .., rfl⟩
  | append hb ht hfresh => exact ⟨_, Function.update_self .., by simp⟩
  | reverse hb horiginal hreference _ hreversal ht hfresh =>
    exact ⟨_, _, _, Function.update_self .., by simp [horiginal], hreference, hreversal, by simp⟩
  | result => trivial

/-! ### The ledger is explained by the operations -/

/-- All that is stored comes from the operations, and all they do is stored. -/
structure Explains (ops : List Op) (σ : Ledger) : Prop where
  done : ∀ op ∈ ops, Done σ op
  base : ∀ code b, σ code = some b → .createBook b.base ∈ ops ∧ b.code = code
  sound : ∀ code b, σ code = some b → ∀ t ∈ b.transactions, Contributes ops code t

namespace Explains

variable {ops ops' : List Op} {σ σ' : Ledger}

theorem empty : Explains [] fun _ => none where
  done _ h := absurd h List.not_mem_nil
  base _ _ h := by cases h
  sound _ _ h := by cases h

/-- Replacing one book by a book that is explained. -/
theorem update (h : Explains ops σ) {op : Op} {code : String} {b : StoredBook}
    (hdone : Done (Function.update σ code (some b)) op)
    (hext : σ.Extends (Function.update σ code (some b)))
    (hbase : .createBook b.base ∈ ops ++ [op]) (hcode : b.code = code)
    (hsound : ∀ t ∈ b.transactions, Contributes (ops ++ [op]) code t) :
    Explains (ops ++ [op]) (Function.update σ code (some b)) where
  done op' hop' := by
    rcases List.mem_append.mp hop' with hop' | hop'
    · exact (h.done op' hop').of_extends hext
    · rwa [List.mem_singleton.mp hop']
  base code' b' hb' := by
    by_cases hc : code' = code
    · subst hc
      rw [Function.update_self] at hb'
      cases hb'
      exact ⟨hbase, hcode⟩
    · rw [Function.update_of_ne hc] at hb'
      exact ⟨List.mem_append_left _ (h.base code' b' hb').1, (h.base code' b' hb').2⟩
  sound code' b' hb' := by
    by_cases hc : code' = code
    · subst hc
      rw [Function.update_self] at hb'
      cases hb'
      exact hsound
    · rw [Function.update_of_ne hc] at hb'
      intro t ht
      exact (h.sound code' b' hb' t ht).mono (List.subset_append_left _ _)

/-- **One more operation** explains the ledger after its step. -/
theorem step (h : Explains ops σ) {op : Op} (hstep : LedgerStep σ op σ') :
    Explains (ops ++ [op]) σ' := by
  have hdone := hstep.done
  have hext := hstep.extends
  have hlast : op ∈ ops ++ [op] := by simp
  cases hstep with
  | @create book hnew hnodup =>
    refine h.update hdone hext hlast rfl ?_
    intro t ht
    rw [StoredBook.transactions_ofBook] at ht
    exact .created hlast rfl ht
  | @append code b t hb ht hfresh =>
    obtain ⟨hbase, hcode⟩ := h.base code b hb
    refine h.update hdone hext (List.mem_append_left _ hbase) hcode ?_
    intro x hx
    rw [StoredBook.transactions_append] at hx
    rcases List.mem_append.mp hx with hx | hx
    · exact (h.sound code b hb x hx).mono (List.subset_append_left _ _)
    · rw [List.mem_singleton.mp hx]
      exact .appended hlast
  | @reverse code o r b original t hb horiginal hreference hnone hreversal ht hfresh =>
    obtain ⟨hbase, hcode⟩ := h.base code b hb
    refine h.update hdone hext (List.mem_append_left _ hbase) hcode ?_
    intro x hx
    have hold : ∀ y ∈ b.transactions, Contributes (ops ++ [.appendReversal code o r]) code y :=
      fun y hy => (h.sound code b hb y hy).mono (List.subset_append_left _ _)
    rw [StoredBook.transactions_append] at hx
    rcases List.mem_append.mp hx with hx | hx
    · exact hold x hx
    · rw [List.mem_singleton.mp hx]
      exact .reversed hlast (hold original horiginal) hreference hreversal
  | result =>
    refine ⟨?_, ?_, ?_⟩
    · intro op' hop'
      rcases List.mem_append.mp hop' with hop' | hop'
      · exact h.done op' hop'
      · rw [List.mem_singleton.mp hop']
        trivial
    · intro code b hb
      exact ⟨List.mem_append_left _ (h.base code b hb).1, (h.base code b hb).2⟩
    · intro code b hb t ht
      exact (h.sound code b hb t ht).mono (List.subset_append_left _ _)

/-- The transactions of a book are those that the operations put into it. -/
theorem mem_iff (h : Explains ops σ) {code : String} {b : StoredBook} (hb : σ code = some b)
    {t : JournalTransaction} : t ∈ b.transactions ↔ Contributes ops code t := by
  refine ⟨h.sound code b hb t, ?_⟩
  intro ht
  induction ht with
  | created hop hcode ht =>
    obtain ⟨b', hb', hbase⟩ := h.done _ hop
    rw [hcode, hb] at hb'
    cases hb'
    exact List.mem_append_left _ (hbase ▸ ht)
  | appended hop =>
    obtain ⟨b', hb', ht⟩ := h.done _ hop
    rw [hb] at hb'
    cases hb'
    exact ht
  | @reversed o r x t hop _ hreference hreversal ih =>
    obtain ⟨b', y, u, hb', hy, hyreference, hyreversal, hu⟩ := h.done _ hop
    rw [hb] at hb'
    cases hb'
    -- the original is the one transaction with its reference
    have hsame : x = y :=
      List.inj_on_of_nodup_map b.nodup_references ih hy (hreference.trans hyreference.symm)
    rw [hsame, hyreversal] at hreversal
    cases hreversal
    exact hu

/-- A book is created by the operations. -/
theorem exists_book_iff (h : Explains ops σ) {code : String} :
    (∃ b, σ code = some b) ↔ ∃ book, .createBook book ∈ ops ∧ book.code = code := by
  constructor
  · rintro ⟨b, hb⟩
    exact ⟨b.base, h.base code b hb⟩
  · rintro ⟨book, hop, rfl⟩
    obtain ⟨b, hb, -⟩ := h.done _ hop
    exact ⟨b, hb⟩

/-- Equal sets of operations explain equal books. -/
theorem sorted_eq (h : Explains ops σ) (h' : Explains ops' σ') (hops : ∀ op, op ∈ ops ↔ op ∈ ops')
    {code : String} {b b' : StoredBook} (hb : σ code = some b) (hb' : σ' code = some b') :
    b.sorted = b'.sorted := by
  have hbase : b.base = b'.base := by
    obtain ⟨hop, hcode⟩ := h.base code b hb
    obtain ⟨b'', hb'', hbase⟩ := h'.done _ ((hops _).mp hop)
    have hcode' : b.base.code = code := hcode
    rw [hcode', hb'] at hb''
    cases hb''
    exact hbase.symm
  have hmem : ∀ t, t ∈ b.transactions ↔ t ∈ b'.transactions := by
    intro t
    rw [h.mem_iff hb, h'.mem_iff hb']
    exact ⟨fun ht => ht.mono fun op => (hops op).mp, fun ht => ht.mono fun op => (hops op).mpr⟩
  have hperm : b.transactions.Perm b'.transactions :=
    (List.perm_ext_iff_of_nodup (List.Nodup.of_map _ b.nodup_references)
      (List.Nodup.of_map _ b'.nodup_references)).mpr hmem
  -- transactions are ordered by a key that ends with the reference
  have hkeys : (b.transactions.map JournalTransaction.orderKey).Nodup := by
    refine List.Nodup.of_map (fun k : String ×ₗ String => (ofLex k).2) ?_
    rw [List.map_map]
    exact b.nodup_references
  rw [StoredBook.sorted, StoredBook.sorted, orderBy_eq_of_perm hperm hkeys]
  simp only [StoredBook.fields, hbase]

end Explains

/-! ### Runs -/

/-- **Equal sets of operations leave equal books**: runs from the empty database in which the
same operations return, in any order and with any calls that raise between them, leave the same
list of books, and each of them is loaded as the same book. -/
theorem converges_of_returned {calls calls' : List Call}
    (h : ∀ op, op ∈ returned calls {} ↔ op ∈ returned calls' {}) :
    listBookCodes (Call.afterAll calls {}).tables =
        listBookCodes (Call.afterAll calls' {}).tables ∧
      ∀ code, loadBook (Call.afterAll calls {}).tables code =
        loadBook (Call.afterAll calls' {}).tables code := by
  obtain ⟨σ, hσ, hexplains⟩ := exists_refines_of_returned calls Explains.empty
    fun _ _ _ _ h hstep => Explains.step h hstep
  obtain ⟨σ', hσ', hexplains'⟩ := exists_refines_of_returned calls' Explains.empty
    fun _ _ _ _ h hstep => Explains.step h hstep
  have hbooks : ∀ code, (∃ b, σ code = some b) ↔ ∃ b, σ' code = some b := by
    intro code
    rw [hexplains.exists_book_iff, hexplains'.exists_book_iff]
    simp only [h]
  constructor
  · have hreach : Reachable (Call.afterAll calls {}) := Call.run_afterAll calls {}
    have hreach' : Reachable (Call.afterAll calls' {}) := Call.run_afterAll calls' {}
    have hcodes := hreach.keyed.books
    refine orderBy_eq_of_perm ((List.perm_ext_iff_of_nodup hcodes hreach'.keyed.books).mpr ?_)
      (by rwa [List.map_id])
    intro code
    have hmem := hbooks code
    rw [← hσ.mem_listBookCodes, ← hσ'.mem_listBookCodes, listBookCodes, listBookCodes,
      mem_orderBy, mem_orderBy] at hmem
    exact hmem
  · intro code
    by_cases hbook : ∃ b, σ code = some b
    · obtain ⟨b, hb⟩ := hbook
      obtain ⟨b', hb'⟩ := (hbooks code).mp ⟨b, hb⟩
      obtain ⟨hcode, hholds⟩ := hσ.holds hb
      obtain ⟨hcode', hholds'⟩ := hσ'.holds hb'
      have hload := hholds.loadBook_eq
      have hload' := hholds'.loadBook_eq
      rw [hcode, hexplains.sorted_eq hexplains' h hb hb'] at hload
      rw [hcode'] at hload'
      rw [hload, hload']
    · have hnone : ¬ (Call.afterAll calls {}).tables.HasBook code := fun hhas =>
        hbook (hσ.exists_of_hasBook hhas)
      have hnone' : ¬ (Call.afterAll calls' {}).tables.HasBook code := fun hhas =>
        hbook ((hbooks code).mpr (hσ'.exists_of_hasBook hhas))
      rw [loadBook_of_unknown hnone, loadBook_of_unknown hnone']

end

/-! ### Evaluated -/

namespace Reference

/-- Two sales in one order. -/
def inOrder : List Call :=
  [call (.createBook plainBook), call (.appendTransaction "BK" known),
    call (.appendReversal "BK" "T1" "R1")]

/-- The same in another order, with a call that raises. -/
def outOfOrder : List Call :=
  [call (.appendReversal "BK" "T1" "R1"), call (.createBook plainBook),
    call (.appendReversal "BK" "T1" "R1"), call (.appendTransaction "BK" known)]

theorem converges_inOrder : loadBook (Call.afterAll inOrder {}).tables "BK" =
    loadBook (Call.afterAll outOfOrder {}).tables "BK" := by
  have hreturned : returned inOrder {} = [.createBook plainBook, .appendTransaction "BK" known,
      .appendReversal "BK" "T1" "R1"] := by rfl
  have hreturned' : returned outOfOrder {} = [.createBook plainBook,
      .appendReversal "BK" "T1" "R1", .appendTransaction "BK" known] := by rfl
  refine (converges_of_returned ?_).2 "BK"
  intro op
  rw [hreturned, hreturned']
  exact ((List.Perm.swap _ _ _).cons _).mem_iff

end Reference

end FinestVX
