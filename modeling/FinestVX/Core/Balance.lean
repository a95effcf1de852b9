import FinestVX.Core.Models
import Mathlib.Data.List.Dedup

/-!
# Balancing a transaction

The totals of the entries of a transaction by currency, accumulated in entry
order with rounded decimal addition, and the check that the debit totals equal
the credit totals.

## Main definitions

* `totalsByCurrency` — the accumulating loop.
* `validateTransactionEntries` — at least two entries, and equal totals.
* `amounts`, `sideTotal` — the amounts of one side and currency, and their
  running sum.

## Main results

* `validateTransactionEntries_eq_ok_iff` — the check in terms of the running
  sums of each currency.
* `validateTransactionEntries_congr` — the check depends on the sides, the
  currencies and the values of the amounts.
-/

namespace FinestVX

open Except

variable [Platform]

/-- Addition in the default context. -/
def addDecimal (a b : Dec) : Except PyError Dec :=
  (Dec.add Dec.defaultContext a b).mapError .decimalSignal

/-- The loop of `_totals_by_currency`, continued from `totals`. -/
def totalsFrom (side : Option PostingSide) :
    Dict String Dec → List LedgerEntry → Except PyError (Dict String Dec)
  | totals, [] => .ok totals
  | totals, e :: entries =>
    if ∃ s ∈ side, e.side ≠ s then totalsFrom side totals entries
    else do
      -- `defaultdict(Decimal)`: a currency starts at zero
      let total ← addDecimal ((totals.get? e.currency).getD .zero) e.decimalValue
      totalsFrom side (totals.set e.currency total) entries

/-- `_totals_by_currency` -/
def totalsByCurrency (entries : List LedgerEntry) (side : Option PostingSide) :
    Except PyError (Dict String Dec) :=
  totalsFrom side [] entries

/-- The currencies on whose totals the two sides differ. -/
def mismatchedCurrencies (debit credit : Dict String Dec) : List String :=
  (orderBy id (debit.keys ++ credit.keys).dedup).filter fun c =>
    !((debit.get? c).getD .zero).numEq ((credit.get? c).getD .zero)

/-- `_validate_transaction_entries` -/
def validateTransactionEntries (entries : List LedgerEntry) : Except PyError Unit := do
  if entries.length < 2 then
    throw (.valueError "A transaction must contain at least two entries")
  let debit ← totalsByCurrency entries (some .debit)
  let credit ← totalsByCurrency entries (some .credit)
  let mismatched := mismatchedCurrencies debit credit
  if mismatched ≠ [] then
    throw (.valueError
      ("Transaction is not balanced for currencies: " ++ String.intercalate ", " mismatched))

/-! ### The totals of one currency -/

/-- The amounts posted to one side in one currency. -/
def amounts (s : PostingSide) (c : String) (entries : List LedgerEntry) : List Dec :=
  (entries.filter fun e => e.side = s ∧ e.currency = c).map LedgerEntry.decimalValue

/-- The running sum of the amounts posted to one side in one currency. -/
def sideTotal (s : PostingSide) (c : String) (entries : List LedgerEntry) :
    Except Dec.Signal Dec :=
  Dec.sumFrom Dec.defaultContext .zero (amounts s c entries)

@[simp] theorem amounts_nil (s : PostingSide) (c : String) : amounts s c [] = [] := rfl

theorem amounts_cons (s : PostingSide) (c : String) (e : LedgerEntry) (l : List LedgerEntry) :
    amounts s c (e :: l) =
      if e.side = s ∧ e.currency = c then e.decimalValue :: amounts s c l else amounts s c l := by
  unfold amounts
  by_cases h : e.side = s ∧ e.currency = c <;> simp [h]

omit [Platform] in
theorem addDecimal_eq_ok {a b r : Dec} :
    addDecimal a b = .ok r ↔ Dec.add Dec.defaultContext a b = .ok r := by
  rw [addDecimal, mapError_eq_ok]

/-- The loop computes, for each currency, the running sum of its amounts. -/
theorem sumFrom_of_totalsFrom {s : PostingSide} {totals t : Dict String Dec}
    {entries : List LedgerEntry} (h : totalsFrom (some s) totals entries = .ok t) (c : String) :
    Dec.sumFrom Dec.defaultContext ((totals.get? c).getD .zero) (amounts s c entries) =
      .ok ((t.get? c).getD .zero) := by
  induction entries generalizing totals with
  | nil =>
    cases h
    rfl
  | cons e entries ih =>
    rw [amounts_cons]
    by_cases hside : e.side = s
    · -- the total of the currency of the entry changes, and no other
      rw [totalsFrom, if_neg (by simp [hside])] at h
      obtain ⟨total, htotal, h⟩ := bind_eq_ok.mp h
      have hrest := ih h
      rw [Dict.get?_set] at hrest
      by_cases hc : e.currency = c
      · subst hc
        rw [if_pos ⟨hside, rfl⟩, Dec.sumFrom, addDecimal_eq_ok.mp htotal, ok_bind]
        simpa using hrest
      · rw [if_neg (by simp [hc])]
        simpa [hc] using hrest
    · rw [totalsFrom, if_pos (by simp [hside])] at h
      rw [if_neg (by simp [hside])]
      exact ih h

/-- The loop fails only when the running sum of some currency does. -/
theorem exists_totalsFrom {s : PostingSide} {totals : Dict String Dec}
    {entries : List LedgerEntry} (h : ∀ c, (Dec.sumFrom Dec.defaultContext
      ((totals.get? c).getD .zero) (amounts s c entries)).Succeeds) :
    ∃ t, totalsFrom (some s) totals entries = .ok t := by
  induction entries generalizing totals with
  | nil => exact ⟨totals, rfl⟩
  | cons e entries ih =>
    by_cases hside : e.side = s
    · have he := h e.currency
      rw [amounts_cons, if_pos ⟨hside, rfl⟩, Dec.sumFrom] at he
      obtain ⟨total, htotal, hrest⟩ := succeeds_bind.mp he
      rw [totalsFrom, if_neg (by simp [hside]), addDecimal_eq_ok.mpr htotal, ok_bind]
      apply ih
      intro c
      rw [Dict.get?_set]
      by_cases hc : e.currency = c
      · simpa [hc] using hrest
      · have := h c
        rw [amounts_cons, if_neg (by simp [hc])] at this
        simpa [hc] using this
    · rw [totalsFrom, if_pos (by simp [hside])]
      apply ih
      intro c
      have := h c
      rwa [amounts_cons, if_neg (by simp [hside])] at this

theorem sideTotal_of_totalsByCurrency {s : PostingSide} {t : Dict String Dec}
    {entries : List LedgerEntry} (h : totalsByCurrency entries (some s) = .ok t) (c : String) :
    sideTotal s c entries = .ok ((t.get? c).getD .zero) := by
  have := sumFrom_of_totalsFrom h c
  simpa [sideTotal] using this

theorem exists_totalsByCurrency {s : PostingSide} {entries : List LedgerEntry}
    (h : ∀ c, (sideTotal s c entries).Succeeds) :
    ∃ t, totalsByCurrency entries (some s) = .ok t :=
  exists_totalsFrom fun c => by simpa [sideTotal] using h c

omit [Platform] in
/-- No currency is reported exactly when the totals of all currencies agree. -/
theorem mismatchedCurrencies_eq_nil_iff {debit credit : Dict String Dec} :
    mismatchedCurrencies debit credit = [] ↔
      ∀ c, ((debit.get? c).getD .zero).value = ((credit.get? c).getD .zero).value := by
  unfold mismatchedCurrencies
  rw [List.filter_eq_nil_iff]
  simp only [mem_orderBy, List.mem_dedup, List.mem_append, Bool.not_eq_true', Bool.not_eq_false,
    Dec.numEq_iff]
  constructor
  · intro h c
    by_cases hc : c ∈ debit.keys ∨ c ∈ credit.keys
    · exact h c hc
    · -- a currency of neither side has two zero totals
      rw [not_or] at hc
      rw [Dict.get?_eq_none_iff.mpr hc.1, Dict.get?_eq_none_iff.mpr hc.2]
  · exact fun h c _ => h c

/-- The balance check in terms of the running sums of each currency. -/
theorem validateTransactionEntries_eq_ok_iff {entries : List LedgerEntry} :
    validateTransactionEntries entries = .ok () ↔ 2 ≤ entries.length ∧ ∀ c, ∃ d k,
      sideTotal .debit c entries = .ok d ∧ sideTotal .credit c entries = .ok k ∧
        d.value = k.value := by
  unfold validateTransactionEntries
  constructor
  · intro h
    obtain ⟨hlen, h⟩ := guard_eq_ok.mp h
    obtain ⟨debit, hdebit, h⟩ := bind_eq_ok.mp h
    obtain ⟨credit, hcredit, h⟩ := bind_eq_ok.mp h
    obtain ⟨hmis, -⟩ := guard_eq_ok.mp h
    refine ⟨not_lt.mp hlen, fun c => ⟨_, _, sideTotal_of_totalsByCurrency hdebit c,
      sideTotal_of_totalsByCurrency hcredit c, ?_⟩⟩
    exact mismatchedCurrencies_eq_nil_iff.mp (not_not.mp hmis) c
  · rintro ⟨hlen, h⟩
    have hdebit : ∀ c, (sideTotal .debit c entries).Succeeds := fun c =>
      let ⟨d, _, hd, _⟩ := h c
      ⟨d, hd⟩
    have hcredit : ∀ c, (sideTotal .credit c entries).Succeeds := fun c =>
      let ⟨_, k, _, hk, _⟩ := h c
      ⟨k, hk⟩
    obtain ⟨debit, hdebit⟩ := exists_totalsByCurrency hdebit
    obtain ⟨credit, hcredit⟩ := exists_totalsByCurrency hcredit
    have hmis : mismatchedCurrencies debit credit = [] := by
      apply mismatchedCurrencies_eq_nil_iff.mpr
      intro c
      obtain ⟨d, k, hd, hk, heq⟩ := h c
      rw [sideTotal_of_totalsByCurrency hdebit c] at hd
      rw [sideTotal_of_totalsByCurrency hcredit c] at hk
      cases hd
      cases hk
      exact heq
    refine guard_eq_ok.mpr ⟨not_lt.mpr hlen, ?_⟩
    rw [hdebit, ok_bind, hcredit, ok_bind]
    exact guard_eq_ok.mpr ⟨not_not.mpr hmis, rfl⟩

/-! ### What the check depends on -/

/-- Two entries the balance check does not tell apart. -/
def SamePosting (e e' : LedgerEntry) : Prop :=
  e.side = e'.side ∧ e.currency = e'.currency ∧ e.decimalValue.value = e'.decimalValue.value

theorem map_value_amounts_congr {entries entries' : List LedgerEntry}
    (h : List.Forall₂ SamePosting entries entries') (s : PostingSide) (c : String) :
    (amounts s c entries).map Dec.value = (amounts s c entries').map Dec.value := by
  induction h with
  | nil => rfl
  | cons hee' _ ih =>
    obtain ⟨hside, hcurrency, hvalue⟩ := hee'
    rw [amounts_cons, amounts_cons, hside, hcurrency]
    split
    · rw [List.map_cons, List.map_cons, hvalue, ih]
    · exact ih

theorem sideTotal_congr {entries entries' : List LedgerEntry}
    (h : List.Forall₂ SamePosting entries entries') (s : PostingSide) (c : String) :
    (sideTotal s c entries).map Dec.value = (sideTotal s c entries').map Dec.value :=
  Dec.sumFrom_congr _ (map_value_amounts_congr h s c) rfl

/-- The check depends on the sides, the currencies and the values of the amounts. -/
theorem validateTransactionEntries_congr {entries entries' : List LedgerEntry}
    (h : List.Forall₂ SamePosting entries entries')
    (hok : validateTransactionEntries entries = .ok ()) :
    validateTransactionEntries entries' = .ok () := by
  obtain ⟨hlen, hsum⟩ := validateTransactionEntries_eq_ok_iff.mp hok
  refine validateTransactionEntries_eq_ok_iff.mpr ⟨h.length_eq ▸ hlen, fun c => ?_⟩
  obtain ⟨d, k, hd, hk, heq⟩ := hsum c
  have hdebit := sideTotal_congr h .debit c
  have hcredit := sideTotal_congr h .credit c
  rw [hd] at hdebit
  rw [hk] at hcredit
  cases hd' : sideTotal .debit c entries' with
  | error e => simp [hd', Except.map] at hdebit
  | ok d' =>
    cases hk' : sideTotal .credit c entries' with
    | error e => simp [hk', Except.map] at hcredit
    | ok k' =>
      rw [hd'] at hdebit
      rw [hk'] at hcredit
      refine ⟨d', k', rfl, rfl, ?_⟩
      rw [← Except.ok.inj hdebit, ← Except.ok.inj hcredit, heq]

end FinestVX
