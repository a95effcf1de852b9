import FinestVX.Core.Balances
import FinestVX.Lib.Cancellation
import FinestVX.Persistence.Reversal

/-!
# What the balances consist of

Reversals are never taken out of a book: they are posted beside what they reverse, and can be
reversed again.  Over a whole run they still leave no trace in the balances, which are those of
the originals that are in force.

## Main definitions

* `InForce`, `IsJournal` — a transaction is in force unless the one that reverses it is; the
  transactions among which this is so.
* `ReversesExactly` — the condition on transactions that are supplied with the reference of
  the one they reverse.
* `Settled` — the balances of a book are those of its originals in force.
* `Unrounded` — the transactions that are supplied are summed without rounding.

## Main results

* `settled_of_run` — **reversals leave no trace in the balances.**
* `trialBalance_of_run` — **the balances of all accounts add up to zero.**
-/

namespace FinestVX

open Except Relation Cancellation

section

variable [Platform]

/-! ### Effects -/

theorem LedgerEntry.delta_inverted (account currency : String) (e : LedgerEntry) :
    e.inverted.delta account currency = -e.delta account currency := by
  have hsigned : e.inverted.signed = -e.signed := by
    have hside : e.inverted.side = e.side.flip := rfl
    have hvalue : e.inverted.decimalValue = e.decimalValue := rfl
    rw [signed, signed, hside, hvalue]
    cases e.side <;> simp [PostingSide.flip]
  have hsame : e.inverted.accountCode = e.accountCode ∧ e.inverted.currency = e.currency :=
    ⟨rfl, rfl⟩
  rw [delta, delta, hsame.1, hsame.2, hsigned]
  split <;> simp

/-- A reversal has the opposite effect of its original. -/
theorem effect_of_reversal {original t : JournalTransaction} {o r : String}
    (h : reversalOfTransaction original.readBack o r = .ok t) : t.effect = -original.effect := by
  obtain ⟨-, -, -, -, -, hentries⟩ := reversalOfTransaction_eq_ok h
  rw [← original.effect_readBack]
  funext account currency
  rw [JournalTransaction.effect, hentries, List.map_map]
  change _ = -(original.readBack.entries.map _).sum
  induction original.readBack.entries with
  | nil => simp
  | cons e entries ih =>
    rw [List.map_cons, List.map_cons, List.sum_cons, List.sum_cons, ih, Function.comp_apply,
      e.delta_inverted, neg_add]

theorem signed_entryRow (code reference : String) (e : LedgerEntry) (lineNo : ℕ) :
    (entryRow code reference e lineNo).signed = e.signed := by
  have hamount : Decimal.ofText? (entryRow code reference e lineNo).amount =
      some (.finite e.decimalValue.canon e.held.canon) := Decimal.ofText?_formatF e.held
  have hside : (entryRow code reference e lineNo).side = e.side.value := rfl
  rw [EntryRow.signed, hamount, hside, LedgerEntry.signed]
  dsimp only
  rw [Dec.value_canon]
  cases e.side with
  | debit => exact if_pos rfl
  | credit => exact if_neg (by decide)

omit [Platform] in
theorem signedSum_cons (account currency : String) (e : EntryRow) (rows : List EntryRow) :
    signedSum account currency (e :: rows) = (if e.accountCode = account ∧ e.currency = currency
      then e.signed else 0) + signedSum account currency rows := by
  rw [signedSum, signedSum, List.filter_cons]
  split <;> simp_all

/-- The effect of a transaction, read off the rows of its entries. -/
theorem signedSum_entryRows (account currency code : String) (t : JournalTransaction) :
    signedSum account currency (entryRows code t) = t.effect account currency := by
  have hrows : ∀ (entries : List LedgerEntry) (n : ℕ), signedSum account currency
      ((entries.zipIdx n).map fun p => entryRow code t.fields.reference p.1 p.2) =
        (entries.map (LedgerEntry.delta account currency)).sum := by
    intro entries
    induction entries with
    | nil => intro n; rfl
    | cons e entries ih =>
      intro n
      rw [List.zipIdx_cons, List.map_cons, signedSum_cons, ih, signed_entryRow, List.map_cons,
        List.sum_cons]
      rfl
  exact hrows t.fields.entries 0

/-! ### Originals and reversals -/

/-- Transactions that are reversed at most once each, by one with the opposite effect. -/
def IsJournal (l : List JournalTransaction) : Prop :=
  Journal JournalTransaction.reference JournalTransaction.reversalOf JournalTransaction.effect l

/-- A transaction is in force unless the one that reverses it is. -/
def InForce (l : List JournalTransaction) (t : JournalTransaction) : Prop :=
  Status (Reverses JournalTransaction.reference JournalTransaction.reversalOf l) true t

/-- What is supplied as the reversal of a transaction is its exact opposite, and the only
one. -/
def ReversesExactly (db : Database) : Op → Prop
  | .createBook book => (book.fields.transactions.map JournalTransaction.reference).Nodup →
    IsJournal book.fields.transactions
  | .appendTransaction code t => ∀ o ∈ t.reversalOf,
    (∃ x ∈ db.tables.transactions, x.bookCode = code ∧ x.reference = o) ∧
    (∀ x ∈ db.tables.transactions, ¬ (x.bookCode = code ∧ x.reversalOf = some o)) ∧
    ∀ account currency,
      t.effect account currency + signedSum account currency (selectEntries code o db.tables) = 0
  | .appendReversal .. => True
  | .appendLegislativeResult .. => True

/-- What a step of the ledger preserves, where the call meets the condition. -/
theorem LedgerStep.isJournal {db : Database} {σ σ' : Ledger} {op : Op}
    (hrefines : Refines db.tables σ) (h : ∀ code b, σ code = some b → IsJournal b.transactions)
    (hexact : ReversesExactly db op) (hstep : LedgerStep σ op σ') :
    ∀ code b, σ' code = some b → IsJournal b.transactions := by
  refine hstep.forall_stored (P := fun b => IsJournal b.transactions) h ?_ ?_ ?_
  · intro book hnodup hop
    subst hop
    rw [StoredBook.transactions_ofBook]
    exact hexact hnodup
  · intro code b t ht hfresh hb hop hold
    subst hop
    obtain ⟨rfl, hholds⟩ := hrefines.holds hb
    rw [StoredBook.transactions_append]
    cases hreversal : t.reversalOf with
    | none => exact Journal.original hold hfresh hreversal
    | some o =>
      -- the condition speaks of the rows, which are those of the stored book
      obtain ⟨hstored, hnone, hopposite⟩ := hexact o hreversal
      obtain ⟨y, hy, hreference⟩ := (hholds.exists_transaction_iff
        fun row => row.reference = o).mp hstored
      have hkey : y.reference = o := hreference
      refine Journal.reversal hold hfresh hy (hreversal.trans (congrArg some hkey.symm)) ?_ ?_
      · intro z hz hof
        obtain ⟨row, hrow, hcode, hrowof⟩ := (hholds.exists_transaction_iff
          fun row => row.reversalOf = some o).mpr ⟨z, hz, hof.trans (congrArg some hkey)⟩
        exact hnone row hrow ⟨hcode, hrowof⟩
      · funext account currency
        have hsum := hopposite account currency
        rw [← hkey, hholds.selectEntries_eq hy, signedSum_entryRows] at hsum
        exact eq_neg_of_add_eq_zero_left hsum
  · intro code o r b original t ht hfresh hop hmem href hnone hreversal hold
    -- `append_reversal` mirrors the original itself
    rw [StoredBook.transactions_append]
    have hof : t.reversalOf = some original.reference :=
      (reversalOf_of_reversal (href ▸ original.valid.reference _) hreversal).trans
        (congrArg some href.symm)
    refine Journal.reversal hold hfresh hmem hof ?_ (effect_of_reversal hreversal)
    intro z hz
    rw [href]
    exact hnone z hz

/-! ### Reading back -/

/-- Reading back keeps references, reversals and effects. -/
theorem IsJournal.readBack {l : List JournalTransaction} (h : IsJournal l) :
    IsJournal (l.map JournalTransaction.readBack) where
  keys := by
    rw [List.map_map]
    exact h.keys
  targets := by
    rw [List.filterMap_map]
    exact h.targets
  opposite y hy k hk := by
    obtain ⟨z, hz, rfl⟩ := List.mem_map.mp hy
    obtain ⟨x, hx, hkey, heffect⟩ := h.opposite z hz k hk
    exact ⟨x.readBack, List.mem_map_of_mem hx, hkey, by simpa using heffect⟩
  acyclic x hx := by
    obtain ⟨y, hy, rfl⟩ := List.mem_map.mp hx
    have hacc := h.acyclic y hy
    clear hx hy
    induction hacc with
    | intro x _ ih =>
      refine ⟨_, fun y hy => ?_⟩
      obtain ⟨z, hz, rfl⟩ := List.mem_map.mp hy.1
      exact ih z ⟨hz, hy.2⟩

open Classical in
/-- The balances of a book are those of its originals in force. -/
structure Settled (book : Book) : Prop where
  /-- The book may be created again. -/
  journal : IsJournal book.fields.transactions
  inForce_iff : ∀ t ∈ book.fields.transactions, InForce book.fields.transactions t ↔
    ∀ u ∈ book.fields.transactions, u.reversalOf = some t.reference →
      ¬ InForce book.fields.transactions u
  balance : ∀ account currency, book.balance account currency =
    ((book.fields.transactions.filter fun t =>
      t.reversalOf = none ∧ InForce book.fields.transactions t).map
        fun t => t.effect account currency).sum

theorem sum_effect_apply (l : List JournalTransaction) (account currency : String) :
    (l.map JournalTransaction.effect).sum account currency =
      (l.map fun t => t.effect account currency).sum := by
  induction l with
  | nil => rfl
  | cons t l ih => rw [List.map_cons, List.sum_cons, Pi.add_apply, Pi.add_apply, ih]; rfl

theorem settled_of_isJournal {book : Book} (h : IsJournal book.fields.transactions) :
    Settled book where
  journal := h
  inForce_iff _ _ := h.inForce_iff
  balance account currency := by
    rw [Book.balance, ← sum_effect_apply, h.sum_effect, sum_effect_apply]
    rfl

/-- **Reversals leave no trace in the balances**: in runs where supplied reversals are exact,
every book that is loaded has the balances of its originals in force. -/
theorem settled_of_run {db : Database} (h : ReflTransGen (GuardedStep ReversesExactly) {} db)
    {code : String} {book : Book} (hload : loadBook db.tables code = .ok book) : Settled book := by
  obtain ⟨-, σ, hrefines, hbooks⟩ := exists_refines_of_run
    (P := fun σ => ∀ code b, σ code = some b → IsJournal b.transactions) h
    (fun _ _ h => by cases h)
    fun _ _ _ _ hrefines hold hexact hstep => hstep.isJournal hrefines hold hexact
  obtain ⟨b, hb, hfields⟩ := exists_stored_of_loadBook hrefines hload
  refine settled_of_isJournal ?_
  rw [hfields]
  -- the order of the queries does not matter
  have hsorted : IsJournal b.sorted.transactions :=
    Journal.perm (hbooks code b hb) (orderBy_perm JournalTransaction.orderKey _).symm
  exact hsorted.readBack

/-! ### The trial balance -/

/-- The sums of the inverted entries are those of the entries, on the other sides. -/
theorem NoRounding.map_inverted {entries : List LedgerEntry} (h : NoRounding entries) :
    NoRounding (entries.map LedgerEntry.inverted) := by
  intro s c l hl
  rw [amounts_map_inverted] at hl
  exact h s.flip c l hl

/-- The amounts that are read back are the same numbers in canonical form. -/
theorem amounts_map_readBack (s : PostingSide) (c : String) (entries : List LedgerEntry) :
    amounts s c (entries.map LedgerEntry.readBack) = (amounts s c entries).map Dec.canon := by
  induction entries with
  | nil => rfl
  | cons e entries ih =>
    have hsame : e.readBack.side = e.side ∧ e.readBack.currency = e.currency := ⟨rfl, rfl⟩
    rw [List.map_cons, amounts_cons, amounts_cons, hsame.1, hsame.2]
    split <;> simp [ih]

omit [Platform] in
theorem valueSum_map_canon (l : List Dec) : Dec.valueSum (l.map Dec.canon) = Dec.valueSum l := by
  induction l with
  | nil => rfl
  | cons d l ih => rw [List.map_cons, Dec.valueSum_cons, Dec.valueSum_cons, Dec.value_canon, ih]

theorem NoRounding.map_readBack {entries : List LedgerEntry} (h : NoRounding entries) :
    NoRounding (entries.map LedgerEntry.readBack) := by
  intro s c l hl
  rw [amounts_map_readBack] at hl
  obtain ⟨m, hml, hm⟩ := hl
  obtain ⟨p, hp, rfl⟩ := List.sublist_map_iff.mp hm
  rw [← Dec.valueSum_perm hml, valueSum_map_canon]
  exact h s c p hp.subperm

/-- A posted transaction that is summed without rounding has zero sums, also when it is read
back. -/
theorem zeroSum_readBack {t : JournalTransaction} (hposted : t.fields.state = .posted)
    (h : NoRounding t.entries) : ZeroSum t.readBack.entries := by
  have hbalanced := t.valid.balanced hposted
  obtain ⟨hlen, -⟩ := validateTransactionEntries_eq_ok_iff.mp hbalanced
  have hzero : ZeroSum t.entries := (validateTransactionEntries_iff_zeroSum hlen h).mp hbalanced
  intro c
  change Dec.valueSum (amounts .debit c (t.entries.map LedgerEntry.readBack)) =
    Dec.valueSum (amounts .credit c (t.entries.map LedgerEntry.readBack))
  rw [amounts_map_readBack, amounts_map_readBack, valueSum_map_canon, valueSum_map_canon]
  exact hzero c

/-- The totals of the transactions that are supplied need no rounding. -/
def Unrounded : Op → Prop
  | .createBook book => ∀ t ∈ book.fields.transactions, NoRounding t.entries
  | .appendTransaction _ t => NoRounding t.entries
  | .appendReversal .. => True
  | .appendLegislativeResult .. => True

/-- What a step of the ledger preserves, where the call meets the condition. -/
theorem LedgerStep.noRounding {σ σ' : Ledger} {op : Op}
    (h : ∀ code b, σ code = some b → ∀ t ∈ b.transactions, NoRounding t.entries)
    (hop : Unrounded op) (hstep : LedgerStep σ op σ') :
    ∀ code b, σ' code = some b → ∀ t ∈ b.transactions, NoRounding t.entries := by
  have happend : ∀ {b : StoredBook} {t : JournalTransaction} (ht) (hfresh),
      (∀ x ∈ b.transactions, NoRounding x.entries) → NoRounding t.entries →
      ∀ x ∈ (b.append t ht hfresh).transactions, NoRounding x.entries := by
    intro b t ht hfresh hold hnew x hx
    rw [StoredBook.transactions_append] at hx
    rcases List.mem_append.mp hx with hx | hx
    · exact hold x hx
    · rwa [List.mem_singleton.mp hx]
  refine hstep.forall_stored (P := fun b => ∀ t ∈ b.transactions, NoRounding t.entries) h ?_ ?_ ?_
  · intro book hnodup heq
    subst heq
    rw [StoredBook.transactions_ofBook]
    exact hop
  · intro code b t ht hfresh _ heq hold
    subst heq
    exact happend ht hfresh hold hop
  · intro code o r b original t ht hfresh _ hmem _ _ hreversal hold
    refine happend ht hfresh hold ?_
    -- the amounts of a reversal are those of its original, on the other sides
    obtain ⟨-, -, -, -, -, hentries⟩ := reversalOfTransaction_eq_ok hreversal
    rw [hentries]
    exact (hold original hmem).map_readBack.map_inverted

/-- **The balances of all accounts add up to zero**, in runs whose supplied transactions are
summed without rounding. -/
theorem trialBalance_of_run {db : Database}
    (h : ReflTransGen (GuardedStep fun _ op => Unrounded op) {} db) {code : String} {book : Book}
    (hload : loadBook db.tables code = .ok book) : book.TrialBalance := by
  obtain ⟨-, σ, hrefines, hbooks⟩ := exists_refines_of_run
    (P := fun σ => ∀ code b, σ code = some b → ∀ t ∈ b.transactions, NoRounding t.entries) h
    (fun _ _ h => by cases h) fun _ _ _ _ _ hold hop hstep => hstep.noRounding hold hop
  obtain ⟨b, hb, hfields⟩ := exists_stored_of_loadBook hrefines hload
  refine Book.trialBalance_of_zeroSum ?_
  rw [hfields]
  intro t ht
  obtain ⟨x, hx, rfl⟩ := List.mem_map.mp ht
  have hmem := mem_orderBy.mp hx
  exact zeroSum_readBack (b.postable_of_mem hmem).posted (hbooks code b hb x hmem)

end

/-! ### Evaluated -/

namespace Reference

/-- The database after the sale was reversed. -/
def reversedStored : Database := (call (.appendReversal "BK" "T1" "R1")).after saleStored

theorem loads_reversedStored : ∃ book, loadBook reversedStored.tables "BK" = .ok book := by
  have hloads : (loadBook reversedStored.tables "BK").toBool = true := by decide +kernel
  cases hload : loadBook reversedStored.tables "BK" with
  | ok book => exact ⟨book, rfl⟩
  | error e =>
    rw [hload] at hloads
    cases hloads

theorem settled_reversedStored :
    ∃ book, loadBook reversedStored.tables "BK" = .ok book ∧ Settled book := by
  obtain ⟨book, hload⟩ := loads_reversedStored
  have hcreate : ReversesExactly {} (.createBook plainBook) := fun _ =>
    Journal.nil.original (x := sale) (by simp) rfl
  exact ⟨book, hload, settled_of_run (.tail (.tail .refl ⟨call (.createBook plainBook), hcreate, rfl⟩)
    ⟨call (.appendReversal "BK" "T1" "R1"), trivial, rfl⟩) hload⟩

theorem trialBalance_reversedStored :
    ∃ book, loadBook reversedStored.tables "BK" = .ok book ∧ book.TrialBalance := by
  obtain ⟨book, hload⟩ := loads_reversedStored
  have hsale : NoRounding sale.entries := by
    refine noRounding_of_total_lt (e := -2) (by decide) (by decide) (by decide) ?_
    have hmap : sale.entries.map LedgerEntry.decimalValue =
        [⟨false, 10000, -2⟩, ⟨false, 10000, -2⟩] := by decide
    rw [hmap]
    norm_num [Dec.valueSum, Dec.value, Dec.signed, Dec.defaultContext]
  have hcreate : Unrounded (.createBook plainBook) := fun t ht => by
    obtain rfl := List.mem_singleton.mp ht
    exact hsale
  exact ⟨book, hload, trialBalance_of_run
    (.tail (.tail .refl ⟨call (.createBook plainBook), hcreate, rfl⟩)
      ⟨call (.appendReversal "BK" "T1" "R1"), trivial, rfl⟩) hload⟩

end Reference

end FinestVX
