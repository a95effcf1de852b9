import FinestVX.Core.Reference

/-!
# Zero-sum enforcement

The balance check compares totals that are accumulated with rounded decimal
addition.  Where no order of the entries rounds a running total, the check is
exact: a posted transaction is accepted just when its debits and credits have
equal sums in every currency.  Where a running total needs more than the 28
digits of the context, the check can accept an imbalance.

## Main definitions

* `ZeroSum` — equal exact sums in every currency.
* `VerdictExact` — the constructor accepts a posted transaction, in any order
  of its entries, just when they are zero-sum.
* `NoRounding` — every partial sum of one side and currency fits the context.

## Main results

* `noRounding_iff_totals_exact` — `NoRounding` says just that no running total
  is rounded, whatever the order.
* `verdictExact_of_noRounding` — where no total is rounded the verdict is exact.
* `noRounding_of_total_lt` — a bound on the amounts that rules out rounding.
* `imbalance_accepted` — an imbalance that is rounded away.
-/

namespace FinestVX

open Except

section

variable [Platform]

/-- The exact sums of debits and credits agree in every currency. -/
def ZeroSum (entries : List LedgerEntry) : Prop :=
  ∀ c, Dec.valueSum (amounts .debit c entries) = Dec.valueSum (amounts .credit c entries)

/-- Every partial sum of the amounts of one side and currency is a number of the
default context. -/
def NoRounding (entries : List LedgerEntry) : Prop :=
  ∀ s c l, l.Subperm (amounts s c entries) → Dec.Fits Dec.defaultContext (Dec.valueSum l)

/-- The constructor accepts the transaction, with its entries in any order, just
when they are zero-sum. -/
def VerdictExact (t : JournalTransactionFields) : Prop :=
  ∀ entries, entries.Perm t.entries →
    ((JournalTransactionFields.postInit { t with entries := entries }).Succeeds ↔
      ZeroSum t.entries)

theorem amounts_perm {entries entries' : List LedgerEntry} (h : entries.Perm entries')
    (s : PostingSide) (c : String) : (amounts s c entries).Perm (amounts s c entries') :=
  (h.filter _).map _

theorem NoRounding.perm {entries entries' : List LedgerEntry} (h : NoRounding entries)
    (hp : entries.Perm entries') : NoRounding entries' := fun s c l hl =>
  h s c l ((amounts_perm hp s c).subperm_left.mpr hl)

theorem ZeroSum.perm {entries entries' : List LedgerEntry} (hp : entries.Perm entries') :
    ZeroSum entries ↔ ZeroSum entries' := by
  apply forall_congr'
  intro c
  rw [Dec.valueSum_perm (amounts_perm hp .debit c), Dec.valueSum_perm (amounts_perm hp .credit c)]

/-- Without rounding the total of each side and currency is the exact sum. -/
theorem NoRounding.sideTotal {entries : List LedgerEntry} (h : NoRounding entries)
    (s : PostingSide) (c : String) :
    ∃ r, sideTotal s c entries = .ok r ∧ r.value = Dec.valueSum (amounts s c entries) := by
  have hfits : ∀ p, p <+: amounts s c entries →
      Dec.Fits Dec.defaultContext (Dec.zero.value + Dec.valueSum p) := by
    intro p hp
    rw [Dec.value_zero, zero_add]
    exact h s c p hp.sublist.subperm
  obtain ⟨r, hr, hrv⟩ := Dec.sumFrom_exact hfits
  exact ⟨r, hr, by rw [hrv, Dec.value_zero, zero_add]⟩

/-- No running total is rounded, in any order of the amounts, exactly when all
partial sums fit. -/
theorem noRounding_iff_totals_exact {entries : List LedgerEntry} :
    NoRounding entries ↔ ∀ s c l, l.Perm (amounts s c entries) → ∀ p, p <+: l →
      ∃ r, Dec.sumFrom Dec.defaultContext .zero p = .ok r ∧ r.value = Dec.valueSum p := by
  constructor
  · intro h s c l hl p hp
    have hfits : ∀ q, q <+: p → Dec.Fits Dec.defaultContext (Dec.zero.value + Dec.valueSum q) := by
      intro q hq
      rw [Dec.value_zero, zero_add]
      exact h s c q (hl.subperm_left.mp (hq.trans hp).sublist.subperm)
    simpa using Dec.sumFrom_exact hfits
  · intro h s c l hl
    -- bring the partial sum to the front
    obtain ⟨m, hml, hm⟩ := hl
    obtain ⟨r, hr⟩ := hm.exists_perm_append
    have hperm : (l ++ r).Perm (amounts s c entries) := (hml.symm.append_right r).trans hr.symm
    obtain ⟨t, ht, htv⟩ := h s c _ hperm l (List.prefix_append l r)
    rw [← htv]
    refine Dec.sumFrom_fits ?_ ht
    rw [Dec.value_zero]
    exact Dec.fits_zero _

theorem validateTransactionEntries_iff_zeroSum {entries : List LedgerEntry}
    (hlen : 2 ≤ entries.length) (h : NoRounding entries) :
    validateTransactionEntries entries = .ok () ↔ ZeroSum entries := by
  rw [validateTransactionEntries_eq_ok_iff]
  constructor
  · rintro ⟨-, hsum⟩ c
    obtain ⟨d, k, hd, hk, heq⟩ := hsum c
    obtain ⟨d', hd', hdv⟩ := h.sideTotal .debit c
    obtain ⟨k', hk', hkv⟩ := h.sideTotal .credit c
    rw [hd] at hd'
    rw [hk] at hk'
    cases hd'
    cases hk'
    rw [← hdv, ← hkv, heq]
  · intro hzero
    refine ⟨hlen, fun c => ?_⟩
    obtain ⟨d, hd, hdv⟩ := h.sideTotal .debit c
    obtain ⟨k, hk, hkv⟩ := h.sideTotal .credit c
    exact ⟨d, k, hd, hk, by rw [hdv, hkv, hzero c]⟩

/-- With its other fields valid, a posted transaction stands or falls with the
balance check. -/
theorem postInit_succeeds_iff {t : JournalTransactionFields} (hposted : t.state = .posted)
    (hdraft : (JournalTransactionFields.postInit { t with state := .draft }).Succeeds)
    (entries : List LedgerEntry) :
    (JournalTransactionFields.postInit { t with entries := entries }).Succeeds ↔
      validateTransactionEntries entries = .ok () := by
  obtain ⟨d, hd⟩ := hdraft
  obtain ⟨href, hdesc, hrev, hne, -⟩ := JournalTransactionFields.postInit_eq_ok.mp hd
  constructor
  · rintro ⟨r, hr⟩
    obtain ⟨-, -, -, -, hbalanced, -, hentries, -, hstate⟩ :=
      JournalTransactionFields.postInit_eq_ok.mp hr
    have hvalid := hbalanced (hstate.trans hposted)
    rwa [hentries] at hvalid
  · intro h
    exact ⟨{ d with state := t.state, entries := entries },
      JournalTransactionFields.postInit_eq_ok.mpr ⟨href, hdesc, hrev, hne, fun _ => h,
        (JournalTransactionFields.postInit_eq_ok.mp hd).2.2.2.2.2.1, rfl,
        (JournalTransactionFields.postInit_eq_ok.mp hd).2.2.2.2.2.2.2.1, rfl⟩⟩

/-- **Where no total is rounded, zero-sum enforcement is exact**, in every order
of the entries. -/
theorem verdictExact_of_noRounding {t : JournalTransactionFields} (hposted : t.state = .posted)
    (hlen : 2 ≤ t.entries.length)
    (hdraft : (JournalTransactionFields.postInit { t with state := .draft }).Succeeds)
    (h : NoRounding t.entries) : VerdictExact t := by
  intro entries hp
  have hlen' : 2 ≤ entries.length := hp.length_eq ▸ hlen
  rw [postInit_succeeds_iff hposted hdraft,
    validateTransactionEntries_iff_zeroSum hlen' (h.perm hp.symm), ZeroSum.perm hp]

/-- Entries whose amounts have a common scale and a total within the precision
are summed without rounding. -/
theorem noRounding_of_total_lt {entries : List LedgerEntry} {e : ℤ}
    (hlo : Dec.defaultContext.etiny ≤ e) (hhi : e ≤ Dec.defaultContext.etop)
    (hscale : ∀ x ∈ entries, e ≤ x.decimalValue.exp)
    (htotal : Dec.valueSum (entries.map LedgerEntry.decimalValue) <
      10 ^ Dec.defaultContext.prec * 10 ^ e) : NoRounding entries := by
  intro s c l hl
  have hsub : l.Subperm (entries.map LedgerEntry.decimalValue) :=
    hl.trans (List.filter_sublist.map _).subperm
  have hall : ∀ d ∈ entries.map LedgerEntry.decimalValue, 0 ≤ d.value ∧ e ≤ d.exp := by
    intro d hd
    obtain ⟨x, hx, rfl⟩ := List.mem_map.mp hd
    exact ⟨x.valid.nonneg, hscale x hx⟩
  obtain ⟨n, hn⟩ := Dec.exists_valueSum_eq_mul fun d hd => hall d (hsub.subset hd)
  have hle := Dec.valueSum_le_of_subperm hsub fun d hd => (hall d hd).1
  rw [hn]
  exact Dec.fits_of_lt hlo hhi (hn ▸ hle.trans_lt htotal)

end

/-! ### Evaluated -/

namespace Reference

/-- An entry in euros. -/
def euros (account : String) (side : PostingSide) (coeff : ℕ) (exp : ℤ) : LedgerEntryFields :=
  { accountCode := account, side := side, amount := ⟨.ofDec ⟨false, coeff, exp⟩⟩,
    currency := "EUR" }

/-- A day in January. -/
def inJanuary (day : ℕ) (h : 1 ≤ day ∧ day ≤ daysInMonth 2026 1) : Date :=
  ⟨2026, 1, day, by decide, by decide, h⟩

/-- Noon of a day in January. -/
def noon : DateTime := ⟨inJanuary 15 (by decide), 12, 0, 0, 0, some 0, by decide, by decide⟩

/-- Debits of `1E+28` and `1` against a credit of `1E+28`. -/
def roundedAway : JournalTransactionFields :=
  { reference := "T1", postedAt := noon, description := "Rounded away",
    entries := [⟨euros "1000" .debit 1 28, euros "1000" .debit 1 28, by rfl⟩,
      ⟨euros "1000" .debit 1 0, euros "1000" .debit 1 0, by rfl⟩,
      ⟨euros "2000" .credit 1 28, euros "2000" .credit 1 28, by rfl⟩] }

/-- The constructor accepts a transaction that is out of balance by one euro. -/
theorem imbalance_accepted : roundedAway.state = .posted ∧ 2 ≤ roundedAway.entries.length ∧
    (JournalTransactionFields.postInit { roundedAway with state := .draft }).Succeeds ∧
    roundedAway.postInit = .ok roundedAway ∧ ¬ VerdictExact roundedAway := by
  refine ⟨rfl, by decide, ⟨{ roundedAway with state := .draft }, rfl⟩, rfl, fun h => ?_⟩
  have hzero := (h roundedAway.entries (List.Perm.refl _)).mp ⟨roundedAway, rfl⟩ "EUR"
  have hdebit : amounts .debit "EUR" roundedAway.entries = [⟨false, 1, 28⟩, ⟨false, 1, 0⟩] := by
    decide
  have hcredit : amounts .credit "EUR" roundedAway.entries = [⟨false, 1, 28⟩] := by decide
  rw [hdebit, hcredit] at hzero
  norm_num [Dec.valueSum, Dec.value, Dec.signed] at hzero

/-- A hundred euros on both sides. -/
def hundred : JournalTransactionFields :=
  { reference := "T1", postedAt := noon, description := "A sale",
    entries := [⟨euros "1000" .debit 10000 (-2), euros "1000" .debit 10000 (-2), by rfl⟩,
      ⟨euros "2000" .credit 10000 (-2), euros "2000" .credit 10000 (-2), by rfl⟩] }

theorem verdictExact_hundred : VerdictExact hundred := by
  refine verdictExact_of_noRounding rfl (by decide) ⟨{ hundred with state := .draft }, rfl⟩ ?_
  refine noRounding_of_total_lt (e := -2) (by decide) (by decide) (by decide) ?_
  have hmap : hundred.entries.map LedgerEntry.decimalValue =
      [⟨false, 10000, -2⟩, ⟨false, 10000, -2⟩] := by decide
  rw [hmap]
  norm_num [Dec.valueSum, Dec.value, Dec.signed, Dec.defaultContext]

end Reference

end FinestVX
