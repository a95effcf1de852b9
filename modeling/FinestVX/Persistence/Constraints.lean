import FinestVX.Persistence.RoundTrip

/-!
# The constraints of the stored rows

What the `CHECK` clauses, the keys and the deferred foreign key say about the rows that
are in the tables, however they got there.

## Main definitions

* `BookRow.Checks`, ..., `EntryRow.Checks` — the `CHECK` clauses of the tables.
* `Tables.Checked`, `Constrained` — the constraints of all rows.

## Main results

* `Constrained.of_admitsAll` — the constraints hold of rows that were all admitted.
* `Reachable.constrained` — the constraints hold in every reachable database.
-/

namespace FinestVX

/-! ### The clauses -/

/-- The `CHECK` clauses of `books`. -/
def BookRow.Checks (r : BookRow) : Prop := 1 ≤ r.fiscalStartMonth ∧ r.fiscalStartMonth ≤ 12

/-- The `CHECK` clauses of `accounts`. -/
def AccountRow.Checks (r : AccountRow) : Prop :=
  r.normalSide ∈ ["Dr", "Cr"] ∧ r.allowPosting ∈ [0, 1] ∧ r.active ∈ [0, 1]

/-- The `CHECK` clauses of `periods`, and the range of an integer. -/
def PeriodRow.Checks (r : PeriodRow) : Prop :=
  BindsInt r.fiscalYear ∧ (1 ≤ r.quarter ∧ r.quarter ≤ 4) ∧ (1 ≤ r.month ∧ r.month ≤ 12) ∧
    r.state ∈ ["open", "closed", "locked"]

/-- The `CHECK` clauses of `transactions`, and the range of the integers. -/
structure TransactionRow.Checks (r : TransactionRow) : Prop where
  fiscalYear : ∀ n ∈ r.periodFiscalYear, BindsInt n
  quarter : ∀ n ∈ r.periodQuarter, BindsInt n
  month : ∀ n ∈ r.periodMonth, BindsInt n
  state : r.state ∈ ["draft", "posted", "reversed"]
  /-- A period is stored as a whole. -/
  period : (r.periodFiscalYear = none ∧ r.periodQuarter = none ∧ r.periodMonth = none) ∨
    (r.periodFiscalYear ≠ none ∧ r.periodQuarter ≠ none ∧ r.periodMonth ≠ none)

/-- The `CHECK` clauses of `entries`. -/
structure EntryRow.Checks (r : EntryRow) : Prop where
  lineNo : 0 ≤ r.lineNo
  side : r.side ∈ ["Dr", "Cr"]
  amount : r.amount ≠ "" ∧ NotLikeMinus r.amount
  taxRate : ∀ v ∈ r.taxRate, NotLikeMinus v

/-- The `CHECK` clauses hold of every row. -/
structure Tables.Checked (t : Tables) : Prop where
  books : ∀ r ∈ t.books, r.Checks
  accounts : ∀ r ∈ t.accounts, r.Checks
  periods : ∀ r ∈ t.periods, r.Checks
  transactions : ∀ r ∈ t.transactions, r.Checks
  entries : ∀ r ∈ t.entries, r.Checks

namespace Tables

/-- A row that is admitted meets the clauses of its table. -/
theorem Checked.push {t : Tables} {r : CoreRow} (h : t.Checked) (hr : t.Admits r) :
    (t.push r).Checked := by
  cases r with
  | book r =>
    refine { h with books := ?_ }
    exact List.forall_mem_append.mpr ⟨h.books, List.forall_mem_singleton.mpr hr.1⟩
  | account r =>
    refine { h with accounts := ?_ }
    have hrow : r.Checks := ⟨hr.1, hr.2.1, hr.2.2.1⟩
    exact List.forall_mem_append.mpr ⟨h.accounts, List.forall_mem_singleton.mpr hrow⟩
  | period r =>
    refine { h with periods := ?_ }
    have hrow : r.Checks := ⟨hr.1, hr.2.1, hr.2.2.1, hr.2.2.2.1⟩
    exact List.forall_mem_append.mpr ⟨h.periods, List.forall_mem_singleton.mpr hrow⟩
  | transaction r =>
    refine { h with transactions := ?_ }
    have hrow : r.Checks := ⟨hr.1, hr.2.1, hr.2.2.1, hr.2.2.2.1, hr.2.2.2.2.1⟩
    exact List.forall_mem_append.mpr ⟨h.transactions, List.forall_mem_singleton.mpr hrow⟩
  | entry r =>
    refine { h with entries := ?_ }
    have hrow : r.Checks := ⟨hr.1, hr.2.1, hr.2.2.1, hr.2.2.2.1⟩
    exact List.forall_mem_append.mpr ⟨h.entries, List.forall_mem_singleton.mpr hrow⟩

theorem Checked.pushAll {t : Tables} {rows : List CoreRow} (h : t.Checked)
    (hrows : t.AdmitsAll rows) : (t.pushAll rows).Checked := by
  induction rows generalizing t with
  | nil => exact h
  | cons r rows ih => exact ih (h.push hrows.1) hrows.2

instance decidableAdmitsAll : (t : Tables) → (rows : List CoreRow) → Decidable (t.AdmitsAll rows)
  | _, [] => inferInstanceAs (Decidable True)
  | t, r :: rows => @instDecidableAnd _ _ _ (decidableAdmitsAll (t.push r) rows)

end Tables

variable [Platform]

/-- The constraints of the schema hold of the rows. -/
structure Constrained (t : Tables) : Prop extends SchemaValid t where
  checked : t.Checked
  parents : t.ParentsExist

omit [Platform] in
/-- The constraints hold of rows that were admitted one after the other, whoever wrote them. -/
theorem Constrained.of_admitsAll {rows : List CoreRow} (hrows : ({} : Tables).AdmitsAll rows)
    (hparents : (({} : Tables).pushAll rows).ParentsExist) :
    Constrained (({} : Tables).pushAll rows) where
  keyed := Tables.Keyed.pushAll ⟨List.nodup_nil, List.nodup_nil, List.nodup_nil⟩ hrows
  linked := Tables.Linked.pushAll ⟨by simp, by simp, by simp, by simp⟩ hrows
  checked := Tables.Checked.pushAll ⟨by simp, by simp, by simp, by simp, by simp⟩ hrows
  parents := hparents

/-- The constraints hold in every reachable database. -/
theorem Reachable.constrained {db : Database} (h : Reachable db) : Constrained db.tables := by
  have hrun : db.tables.Checked ∧ db.tables.ParentsExist := by
    refine invariant_of_step (p := fun db => db.tables.Checked ∧ db.tables.ParentsExist) h ?_ ?_
    · exact ⟨⟨by simp, by simp, by simp, by simp, by simp⟩, by simp [Tables.ParentsExist]⟩
    · rintro db _ ⟨hchecked, hparents⟩ ⟨c, rfl⟩
      rcases c.after_cases db with hsame | ⟨rows, -, hall, hparents', heffect⟩
      · rw [hsame]
        exact ⟨hchecked, hparents⟩
      · rw [heffect.tables]
        exact ⟨hchecked.pushAll hall, hparents'⟩
  exact { h.schemaValid with checked := hrun.1, parents := hrun.2 }

end FinestVX
