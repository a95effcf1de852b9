import FinestVX.Persistence.Ledger

/-!
# The ledger only grows

Along a run the tables are extended at their ends, and each stored book keeps
what it was created with and gains transactions.

## Main definitions

* `Tables.Grows` — each table is a prefix of the later one.
* `StoredBook.Extends`, `Ledger.Extends` — the same of books and ledgers.

## Main results

* `grows_of_run` — the tables grow along a run.
* `Refines.of_run` — a run of the store is matched by an extension of the ledger.
* `selectEntries_of_extends` — the entries of a stored transaction never change.
-/

namespace FinestVX

open Except Relation

variable [Platform]

/-! ### Tables -/

/-- The later tables have the rows of the earlier ones, unchanged, at their front. -/
structure Tables.Grows (t t' : Tables) : Prop where
  books : t.books <+: t'.books
  accounts : t.accounts <+: t'.accounts
  periods : t.periods <+: t'.periods
  transactions : t.transactions <+: t'.transactions
  entries : t.entries <+: t'.entries

namespace Tables

omit [Platform] in
theorem Grows.refl (t : Tables) : t.Grows t :=
  ⟨List.prefix_refl _, List.prefix_refl _, List.prefix_refl _, List.prefix_refl _,
    List.prefix_refl _⟩

omit [Platform] in
theorem Grows.trans {t t' t'' : Tables} (h : t.Grows t') (h' : t'.Grows t'') : t.Grows t'' where
  books := h.books.trans h'.books
  accounts := h.accounts.trans h'.accounts
  periods := h.periods.trans h'.periods
  transactions := h.transactions.trans h'.transactions
  entries := h.entries.trans h'.entries

omit [Platform] in
theorem grows_pushAll (t : Tables) (rows : List CoreRow) : t.Grows (t.pushAll rows) := by
  rw [pushAll_eq]
  exact ⟨List.prefix_append _ _, List.prefix_append _ _, List.prefix_append _ _,
    List.prefix_append _ _, List.prefix_append _ _⟩

end Tables

theorem Call.grows_after (c : Call) (db : Database) : db.tables.Grows (c.after db).tables := by
  rcases c.after_cases db with hsame | ⟨rows, -, -, -, heffect⟩
  · rw [hsame]
    exact Tables.Grows.refl _
  · rw [heffect.tables]
    exact Tables.grows_pushAll _ rows

/-- The tables grow along a run. -/
theorem grows_of_run {db db' : Database} (h : ReflTransGen StoreStep db db') :
    db.tables.Grows db'.tables := by
  refine rel_of_step (r := fun db db' => db.tables.Grows db'.tables) h ?_ ?_ ?_
  · exact fun db => Tables.Grows.refl _
  · exact fun _ _ _ => Tables.Grows.trans
  · rintro db _ ⟨c, rfl⟩
    exact c.grows_after db

/-! ### Books -/

/-- The later book is the earlier one with more transactions appended. -/
structure StoredBook.Extends (b b' : StoredBook) : Prop where
  base : b'.base = b.base
  appended : b.appended <+: b'.appended

/-- Every book of the earlier ledger is there in the later one, extended. -/
def Ledger.Extends (σ σ' : Ledger) : Prop :=
  ∀ code b, σ code = some b → ∃ b', σ' code = some b' ∧ b.Extends b'

namespace StoredBook

theorem Extends.refl (b : StoredBook) : b.Extends b := ⟨rfl, List.prefix_refl _⟩

theorem Extends.trans {b b' b'' : StoredBook} (h : b.Extends b') (h' : b'.Extends b'') :
    b.Extends b'' :=
  ⟨h'.base.trans h.base, h.appended.trans h'.appended⟩

theorem extends_append (b : StoredBook) (t : JournalTransaction) (ht) (hfresh) :
    b.Extends (b.append t ht hfresh) :=
  ⟨rfl, List.prefix_append _ _⟩

theorem Extends.code {b b' : StoredBook} (h : b.Extends b') : b'.code = b.code := by
  rw [StoredBook.code, StoredBook.code, h.base]

/-- The row of a book is that of every extension. -/
theorem Extends.bookRow {b b' : StoredBook} (h : b.Extends b') :
    bookRow b'.fields = bookRow b.fields := by
  simp only [FinestVX.bookRow, StoredBook.fields, h.base]

theorem Extends.transactions {b b' : StoredBook} (h : b.Extends b') :
    b.transactions <+: b'.transactions := by
  rw [StoredBook.transactions, StoredBook.transactions, h.base]
  exact (List.prefix_append_right_inj _).mpr h.appended

end StoredBook

namespace Ledger

theorem Extends.refl (σ : Ledger) : σ.Extends σ := fun _ b hb =>
  ⟨b, hb, StoredBook.Extends.refl b⟩

theorem Extends.trans {σ σ' σ'' : Ledger} (h : σ.Extends σ') (h' : σ'.Extends σ'') :
    σ.Extends σ'' := by
  intro code b hb
  obtain ⟨b', hb', hext⟩ := h code b hb
  obtain ⟨b'', hb'', hext'⟩ := h' code b' hb'
  exact ⟨b'', hb'', hext.trans hext'⟩

/-- Replacing a book by an extension of it. -/
theorem extends_update {σ : Ledger} {code : String} {b' : StoredBook}
    (h : ∀ b, σ code = some b → b.Extends b') :
    σ.Extends (Function.update σ code (some b')) := by
  intro code' b hb
  by_cases hc : code' = code
  · subst hc
    exact ⟨b', Function.update_self .., h b hb⟩
  · exact ⟨b, by rw [Function.update_of_ne hc, hb], StoredBook.Extends.refl b⟩

/-- A transaction is appended to a stored book. -/
theorem extends_append {σ : Ledger} {code : String} {b : StoredBook} {t : JournalTransaction}
    (hb : σ code = some b) (ht : Postable b.accountCodes t)
    (hfresh : ∀ x ∈ b.transactions, x.reference ≠ t.reference) :
    σ.Extends (Function.update σ code (some (b.append t ht hfresh))) := by
  apply extends_update
  intro b' hb'
  rw [hb] at hb'
  cases hb'
  exact StoredBook.extends_append _ _ ht hfresh

end Ledger

/-- Every step of the ledger extends it. -/
theorem LedgerStep.extends {σ σ' : Ledger} {op : Op} (h : LedgerStep σ op σ') : σ.Extends σ' := by
  cases h with
  | create hnew hnodup =>
    apply Ledger.extends_update
    intro b hb
    rw [hnew] at hb
    cases hb
  | append hb ht hfresh => exact Ledger.extends_append hb ht hfresh
  | reverse hb _ _ _ _ ht hfresh => exact Ledger.extends_append hb ht hfresh
  | result => exact Ledger.Extends.refl σ

/-- **A run of the store** is matched by an extension of the ledger. -/
theorem Refines.of_run {db db' : Database} {σ : Ledger} (hrefines : Refines db.tables σ)
    (hkeyed : db.tables.Keyed) (hrun : ReflTransGen StoreStep db db') :
    ∃ σ', Refines db'.tables σ' ∧ db'.tables.Keyed ∧ σ.Extends σ' := by
  refine invariant_of_step
    (p := fun db' => ∃ σ', Refines db'.tables σ' ∧ db'.tables.Keyed ∧ σ.Extends σ') hrun ?_ ?_
  · exact ⟨σ, hrefines, hkeyed, Ledger.Extends.refl σ⟩
  · rintro db₁ _ ⟨σ₁, hσ₁, hkeyed₁, hext⟩ ⟨c, rfl⟩
    obtain ⟨σ₂, hcases, hσ₂⟩ := hσ₁.after hkeyed₁ c
    refine ⟨σ₂, hσ₂, Call.keyed_after hkeyed₁, ?_⟩
    rcases hcases with rfl | hstep
    · exact hext
    · exact hext.trans hstep.extends

/-- The entries of a stored transaction never change. -/
theorem selectEntries_of_extends {t t' : Tables} {b b' : StoredBook} (h : Holds t b)
    (h' : Holds t' b') (hext : b.Extends b') {x : JournalTransaction} (hx : x ∈ b.transactions) :
    selectEntries b.code x.reference t' = selectEntries b.code x.reference t := by
  have hx' : x ∈ b'.transactions := hext.transactions.subset hx
  have hlater := h'.selectEntries_eq hx'
  rw [hext.code] at hlater
  rw [hlater, h.selectEntries_eq hx]

/-- The entries of a transaction that is stored in a reachable database are the same
in every later one. -/
theorem selectEntries_of_run {db db' : Database} (h : Reachable db)
    (hrun : ReflTransGen StoreStep db db') {x : TransactionRow} (hx : x ∈ db.tables.transactions) :
    selectEntries x.bookCode x.reference db'.tables =
      selectEntries x.bookCode x.reference db.tables := by
  obtain ⟨σ, hσ⟩ := h.refines
  obtain ⟨σ', hσ', -, hext⟩ := hσ.of_run h.keyed hrun
  -- the transaction is in a stored book, and still in its extension
  obtain ⟨b, y, hb, hy, href⟩ := hσ.exists_of_mem hx
  obtain ⟨b', hb', hbext⟩ := hext _ b hb
  obtain ⟨hcode, hholds⟩ := hσ.holds hb
  rw [← hcode, ← href]
  exact selectEntries_of_extends hholds (hσ'.holds hb').2 hbext hy

end FinestVX
