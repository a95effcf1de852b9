import FinestVX.Core.Serialization
import FinestVX.Core.ZeroSum
import Mathlib.Algebra.BigOperators.Group.List.Basic

/-!
# Balances of accounts

What the entries of a transaction do to the balance of an account, as exact numbers: debits
count as positive, credits as negative.

## Main definitions

* `LedgerEntry.delta`, `JournalTransaction.effect` — what an entry and a transaction add to
  the balance of an account in a currency.
* `Book.balance` — the balance of an account.
* `Book.TrialBalance` — the balances of all accounts add up to zero, currency by currency.

## Main results

* `effect_readBack` — reading back changes no balance.
* `trialBalance_of_zeroSum` — transactions with zero sums leave a trial balance.
-/

namespace FinestVX

variable [Platform]

/-! ### Entries -/

namespace LedgerEntry

/-- The amount of an entry, a credit as a negative number. -/
def signed (e : LedgerEntry) : ℚ :=
  match e.side with
  | .debit => e.decimalValue.value
  | .credit => -e.decimalValue.value

/-- What an entry adds to the balance of an account in a currency. -/
def delta (account currency : String) (e : LedgerEntry) : ℚ :=
  if e.accountCode = account ∧ e.currency = currency then e.signed else 0

theorem delta_readBack (account currency : String) (e : LedgerEntry) :
    e.readBack.delta account currency = e.delta account currency := by
  have hsigned : e.readBack.signed = e.signed := by
    have hside : e.readBack.side = e.side := rfl
    rw [signed, signed, hside, decimalValue_readBack, Dec.value_canon]
  rw [delta, delta, hsigned]
  rfl

end LedgerEntry

/-! ### Transactions -/

namespace JournalTransaction

/-- What a transaction adds to the balances, by account and currency. -/
def effect (t : JournalTransaction) (account currency : String) : ℚ :=
  (t.entries.map (LedgerEntry.delta account currency)).sum

@[simp] theorem effect_readBack (t : JournalTransaction) : t.readBack.effect = t.effect := by
  funext account currency
  change ((t.fields.entries.map LedgerEntry.readBack).map _).sum = _
  rw [List.map_map, effect]
  congr 1
  exact List.map_congr_left fun e _ => e.delta_readBack account currency

end JournalTransaction

/-- The amounts of a currency, debits less credits. -/
theorem sum_signed_currency (currency : String) (entries : List LedgerEntry) :
    (entries.map fun e => if e.currency = currency then e.signed else 0).sum =
      Dec.valueSum (amounts .debit currency entries) -
        Dec.valueSum (amounts .credit currency entries) := by
  induction entries with
  | nil => simp
  | cons e entries ih =>
    rw [List.map_cons, List.sum_cons, ih, amounts_cons, amounts_cons]
    by_cases hcurrency : e.currency = currency
    · cases hside : e.side <;> simp [hcurrency, hside, LedgerEntry.signed] <;> ring
    · simp [hcurrency]

/-- Over all accounts an entry counts once. -/
theorem sum_delta {codes : List String} (hcodes : codes.Nodup) (currency : String)
    {e : LedgerEntry} (he : e.accountCode ∈ codes) :
    (codes.map fun account => e.delta account currency).sum =
      if e.currency = currency then e.signed else 0 := by
  have hother : ∀ account, account ≠ e.accountCode → account ∈ codes →
      e.delta account currency = 0 := by
    intro account hne _
    exact if_neg fun h => hne h.1.symm
  rw [List.sum_map_eq_nsmul_single e.accountCode _ hother, List.count_eq_one_of_mem hcodes he,
    one_nsmul, LedgerEntry.delta]
  simp

/-- Over all accounts a transaction adds its debits less its credits. -/
theorem sum_effect {codes : List String} (hcodes : codes.Nodup) (currency : String)
    {entries : List LedgerEntry} (hknown : ∀ e ∈ entries, e.accountCode ∈ codes) :
    (codes.map fun account => (entries.map (LedgerEntry.delta account currency)).sum).sum =
      Dec.valueSum (amounts .debit currency entries) -
        Dec.valueSum (amounts .credit currency entries) := by
  rw [← sum_signed_currency]
  induction entries with
  | nil => simp
  | cons e entries ih =>
    simp only [List.map_cons, List.sum_cons]
    rw [List.sum_map_add, sum_delta hcodes currency (hknown e List.mem_cons_self),
      ih fun x hx => hknown x (List.mem_cons_of_mem _ hx)]

/-- Over all accounts, transactions with zero sums add nothing. -/
theorem sum_transactions {codes : List String} (hcodes : codes.Nodup) (currency : String)
    {ts : List JournalTransaction} (hknown : ∀ t ∈ ts, ∀ e ∈ t.entries, e.accountCode ∈ codes)
    (hzero : ∀ t ∈ ts, ZeroSum t.entries) :
    (codes.map fun account => (ts.map fun t => t.effect account currency).sum).sum = 0 := by
  induction ts with
  | nil => simp
  | cons t ts ih =>
    simp only [List.map_cons, List.sum_cons]
    have ht := sum_effect hcodes currency (hknown t List.mem_cons_self)
    rw [hzero t List.mem_cons_self currency, sub_self] at ht
    rw [List.sum_map_add, ih (fun x hx => hknown x (List.mem_cons_of_mem _ hx))
      (fun x hx => hzero x (List.mem_cons_of_mem _ hx)), add_zero]
    exact ht

/-! ### Books -/

namespace Book

/-- The balance of an account in a currency. -/
def balance (b : Book) (account currency : String) : ℚ :=
  (b.fields.transactions.map fun t => t.effect account currency).sum

/-- The balances of all accounts add up to zero. -/
def TrialBalance (b : Book) : Prop :=
  ∀ currency, (b.fields.accounts.map fun a => b.balance a.code currency).sum = 0

/-- **Transactions with zero sums leave a trial balance.** -/
theorem trialBalance_of_zeroSum {b : Book}
    (h : ∀ t ∈ b.fields.transactions, ZeroSum t.entries) : b.TrialBalance := by
  intro currency
  have hsum := sum_transactions b.valid.accounts.nodup currency
    (fun t ht => (b.valid.postable t ht).accounts) h
  rwa [List.map_map] at hsum

end Book

end FinestVX
