import FinestVX.Persistence.Isolation
import FinestVX.Persistence.Reversal

/-!
# The store and the aggregate

The same operations on a book in memory, by the constructor and `append_transaction` of the
aggregate, and in the store.  The store checks less than the aggregate, which refuses
transactions in periods that are not its own; it shows this when the book is loaded.

## Main definitions

* `carryOut`, `inMemory` — operations on a book in memory.
* `BookFields.loaded` — a book in the order of the queries, in canonical form.
* `Implements` — what is loaded is the book in memory.

## Main results

* `implements_of_returned` — **the store implements the aggregate.**
-/

namespace FinestVX

open Except

section

variable [Platform]

/-! ### The book in memory -/

/-- Append the reversal of a transaction, as the store reads it. -/
def Book.reverse (b : Book) (o r : String) : Except PyError Book :=
  match b.fields.transactions.find? (·.reference = o) with
  | none => .error (.valueError "no such transaction")
  | some x => do b.appendTransaction (← reversalOfTransaction x.readBack o r)

/-- No book before it is created, and none after an operation on it has raised. -/
abbrev InMemory := Option (Except PyError Book)

/-- What an operation does to its book in memory. -/
def carryOut : Op → InMemory → InMemory
  | .createBook book, _ => some (.ok book)
  | .appendTransaction _ t, s => s.map (· >>= fun b => b.appendTransaction t)
  | .appendReversal _ o r, s => s.map (· >>= fun b => b.reverse o r)
  | .appendLegislativeResult .., s => s

/-- One more operation on the book with the given code. -/
def inMemoryStep (code : String) (s : InMemory) (op : Op) : InMemory :=
  if op.bookCode = code then carryOut op s else s

/-- The book in memory after some operations. -/
def inMemory (code : String) (ops : List Op) : InMemory := ops.foldl (inMemoryStep code) none

/-- A book in the order of the queries, in canonical form. -/
def BookFields.loaded (b : BookFields) : BookFields :=
  BookFields.readBack { b with
    accounts := orderBy Account.code b.accounts
    periods := orderBy BookPeriod.orderKey b.periods
    transactions := orderBy JournalTransaction.orderKey b.transactions }

/-- The book in memory is the stored one, while the store has not accepted a period that the
aggregate refuses. -/
def Matches : Option StoredBook → InMemory → Prop
  | none, s => s = none
  | some b, s => (b.PeriodsKnown → ∃ a : Book, s = some (.ok a) ∧ a.fields = b.fields) ∧
    (¬ b.PeriodsKnown → ∃ e, s = some (.error e))

/-! ### Operations on both -/

theorem inMemoryStep_of_ne {code : String} {op : Op} (h : op.bookCode ≠ code) (s : InMemory) :
    inMemoryStep code s op = s := if_neg h

/-- An unknown period stays unknown. -/
theorem StoredBook.PeriodsKnown.of_append {b : StoredBook} {t : JournalTransaction} {ht} {hfresh}
    (h : (b.append t ht hfresh).PeriodsKnown) : b.PeriodsKnown ∧
      ∀ p ∈ t.fields.period, p ∈ b.base.fields.periods.map BookPeriod.period := by
  constructor
  · intro x hx p hp
    exact h x (by simp [hx]) p hp
  · intro p hp
    exact h t (by simp) p hp

/-- Appending in memory and in the store. -/
theorem Matches.append {b : StoredBook} {s s' : InMemory} (h : Matches (some b) s)
    {t : JournalTransaction} (ht : Postable b.accountCodes t)
    (hfresh : ∀ x ∈ b.transactions, x.reference ≠ t.reference)
    (hok : ∀ a : Book, s = some (.ok a) → a.fields = b.fields → s' = some (a.appendTransaction t))
    (herror : ∀ e, s = some (.error e) → s' = some (.error e)) :
    Matches (some (b.append t ht hfresh)) s' := by
  constructor
  · intro hknown
    obtain ⟨hold, hperiod⟩ := hknown.of_append
    obtain ⟨a, hs, hfields⟩ := h.1 hold
    have hcodes : a.fields.accounts.map Account.code = b.accountCodes := by
      rw [hfields]
      rfl
    have hsucceeds : (a.appendTransaction t).Succeeds :=
      Book.appendTransaction_succeeds_iff.mpr ⟨hcodes ▸ ht, by rw [hfields]; exact hperiod⟩
    obtain ⟨a', ha'⟩ := hsucceeds
    refine ⟨a', by rw [hok a hs hfields, ha'], ?_⟩
    rw [Book.fields_of_appendTransaction ha', hfields]
    simp only [StoredBook.fields, StoredBook.transactions_append]
    rfl
  · intro hunknown
    by_cases hold : b.PeriodsKnown
    · obtain ⟨a, hs, hfields⟩ := h.1 hold
      rw [hok a hs hfields]
      cases happend : a.appendTransaction t with
      | error e => exact ⟨e, rfl⟩
      | ok a' =>
        -- the aggregate has checked the period
        obtain ⟨-, hperiod⟩ := Book.appendTransaction_succeeds_iff.mp ⟨a', happend⟩
        rw [hfields] at hperiod
        exact absurd (hold.append ht hfresh hperiod) hunknown
    · obtain ⟨e, hs⟩ := h.2 hold
      exact ⟨e, herror e hs⟩

/-- The transaction with a reference of its own is found by it. -/
theorem find?_reference {l : List JournalTransaction}
    (hnodup : (l.map JournalTransaction.reference).Nodup) {x : JournalTransaction} (hx : x ∈ l) :
    l.find? (·.reference = x.reference) = some x := by
  cases hfind : l.find? (·.reference = x.reference) with
  | none => exact absurd (decide_eq_true rfl) (List.find?_eq_none.mp hfind x hx)
  | some y =>
    have hreference : y.reference = x.reference := by simpa using List.find?_some hfind
    rw [List.inj_on_of_nodup_map hnodup (List.mem_of_find?_eq_some hfind) hx hreference]

/-- **One more operation** on the ledger and in memory. -/
theorem matches_step {ops : List Op} {σ σ' : Ledger} {op : Op}
    (h : ∀ code, Matches (σ code) (inMemory code ops)) (hstep : LedgerStep σ op σ') :
    ∀ code, Matches (σ' code) (inMemory code (ops ++ [op])) := by
  intro code
  have hlast : inMemory code (ops ++ [op]) = inMemoryStep code (inMemory code ops) op := by
    rw [inMemory, List.foldl_append]
    rfl
  rw [hlast]
  by_cases hcode : op.bookCode = code
  · subst hcode
    have hold := h op.bookCode
    rw [inMemoryStep, if_pos rfl]
    cases hstep with
    | @create book hnew hnodup =>
      change Matches (Function.update σ book.code _ book.code) _
      rw [Function.update_self]
      refine ⟨fun _ => ⟨book, rfl, (StoredBook.fields_ofBook book hnodup).symm⟩, fun hnot => ?_⟩
      exact absurd (StoredBook.periodsKnown_ofBook book hnodup) hnot
    | @append c b t hb ht hfresh =>
      change Matches (σ c) (inMemory c ops) at hold
      change Matches (Function.update σ c _ c) (carryOut _ (inMemory c ops))
      rw [hb] at hold
      rw [Function.update_self]
      refine hold.append ht hfresh ?_ ?_
      · intro a hs _
        rw [hs]
        rfl
      · intro e hs
        rw [hs]
        rfl
    | @reverse c o r b original t hb horiginal hreference hnone hreversal ht hfresh =>
      change Matches (σ c) (inMemory c ops) at hold
      change Matches (Function.update σ c _ c) (carryOut _ (inMemory c ops))
      rw [hb] at hold
      rw [Function.update_self]
      refine hold.append ht hfresh ?_ ?_
      · intro a hs hfields
        have hfind : a.fields.transactions.find? (·.reference = o) = some original := by
          rw [hfields, ← hreference]
          exact find?_reference b.nodup_references horiginal
        have hreverse : a.reverse o r = a.appendTransaction t := by
          rw [Book.reverse, hfind]
          dsimp only
          rw [hreversal, ok_bind]
        rw [hs, ← hreverse]
        rfl
      · intro e hs
        rw [hs]
        rfl
    | result => exact hold
  · rw [inMemoryStep_of_ne hcode]
    have hother : σ' code = σ code := by
      cases hstep with
      | create => exact Function.update_of_ne (Ne.symm hcode) ..
      | append => exact Function.update_of_ne (Ne.symm hcode) ..
      | reverse => exact Function.update_of_ne (Ne.symm hcode) ..
      | result => rfl
    rw [hother]
    exact h code

/-! ### What is loaded -/

/-- Loading shows the book in memory, in the order of the queries and in canonical form. -/
structure Implements (t : Tables) (code : String) (s : InMemory) : Prop where
  unknown : s = none → loadBook t code = .error (.keyError s!"Unknown book: {code}")
  loaded : ∀ book, loadBook t code = .ok book ↔ ∃ a : Book, s = some (.ok a) ∧
    (∀ p ∈ a.fields.periods, p.IsPlain) ∧ book.fields = a.fields.loaded

/-- After any calls, the ledger and the books in memory are the same. -/
theorem exists_matches_of_returned (calls : List Call) :
    ∃ σ, Refines (Call.afterAll calls {}).tables σ ∧
      ∀ code, Matches (σ code) (inMemory code (returned calls {})) :=
  exists_refines_of_returned (P := fun ops σ => ∀ code, Matches (σ code) (inMemory code ops))
    calls (fun _ => rfl) fun _ _ _ _ h hstep => matches_step h hstep

/-- A book that is the one in memory is loaded as such. -/
theorem Matches.implements {t : Tables} {σ : Ledger} (hσ : Refines t σ) {code : String}
    {s : InMemory} (h : Matches (σ code) s) : Implements t code s := by
  cases hcode : σ code with
  | none =>
    rw [hcode] at h
    have hs : s = none := h
    have hload : loadBook t code = .error (.keyError s!"Unknown book: {code}") := by
      refine loadBook_of_unknown fun hbook => ?_
      obtain ⟨b, hb⟩ := hσ.exists_of_hasBook hbook
      rw [hcode] at hb
      cases hb
    refine ⟨fun _ => hload, fun book => ?_⟩
    rw [hload, hs]
    constructor
    · intro h
      cases h
    · rintro ⟨a, ha, -⟩
      cases ha
  | some b =>
    rw [hcode] at h
    obtain ⟨rfl, hholds⟩ := hσ.holds hcode
    refine ⟨fun hs => ?_, fun book => ?_⟩
    · exfalso
      by_cases hknown : b.PeriodsKnown
      · obtain ⟨a, ha, -⟩ := h.1 hknown
        rw [ha] at hs
        cases hs
      · obtain ⟨e, he⟩ := h.2 hknown
        rw [he] at hs
        cases hs
    · constructor
      · intro hload
        obtain ⟨hplain, hknown⟩ := hholds.loadBook_succeeds_iff.mp ⟨book, hload⟩
        obtain ⟨a, ha, hfields⟩ := h.1 hknown
        rw [hholds.loadBook_ok hplain hknown] at hload
        cases hload
        refine ⟨a, ha, by rw [hfields]; exact hplain, ?_⟩
        rw [hfields]
        rfl
      · rintro ⟨a, ha, hplain, hloaded⟩
        have hknown : b.PeriodsKnown := by
          by_contra hunknown
          obtain ⟨e, he⟩ := h.2 hunknown
          rw [he] at ha
          cases ha
        obtain ⟨a', ha', hfields⟩ := h.1 hknown
        rw [ha'] at ha
        cases ha
        rw [hfields] at hplain
        rw [hholds.loadBook_ok hplain hknown]
        refine congrArg _ (Built.ext ?_)
        rw [hloaded, hfields]
        rfl

/-- **The store implements the aggregate**: after any calls, a book is loaded exactly when the
operations that returned can be carried out in memory, and its periods have plain dates; it is
then the book in memory. -/
theorem implements_of_returned (calls : List Call) (code : String) :
    Implements (Call.afterAll calls {}).tables code (inMemory code (returned calls {})) := by
  obtain ⟨σ, hσ, hmatches⟩ := exists_matches_of_returned calls
  exact (hmatches code).implements hσ

end

end FinestVX
