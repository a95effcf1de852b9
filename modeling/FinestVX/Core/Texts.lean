import FinestVX.Core.Serialization
import FinestVX.Lib.Raising
import FinestVX.Lib.Rounding

/-!
# The texts of a book

What is read from a file or a database is texts and numbers.  This module says of the texts
themselves which of them are an account, a period, an entry or a transaction; the parsers and
the constructors together accept exactly these.

## Main definitions

* `AccountPayload.Valid`, `BookPeriodPayload.Valid`, `EntryPayload.Valid`,
  `TransactionPayload.Valid` — the texts of an account, a period, an entry, a transaction.
* `postedAmounts` — the amounts that the texts of entries post to a side in a currency.
* `SumsInRange`, `PassesBalance` — what the balance check asks of them.

## Main results

* `accountFromMapping_succeeds`, `bookPeriodFromMapping_succeeds`,
  `entryFromMapping_succeeds`, `transactionFromMapping_succeeds` — **the deserializers read
  exactly the valid texts.**
-/

namespace FinestVX

open Except

variable [Platform]

/-! ### Single texts -/

/-- The text is the code of a currency, once it is stripped and put in upper case. -/
def IsCurrencyText (text : String) : Prop :=
  isValidCurrencyCode (Platform.upper (Text.strip text)) = true

/-- The finite number that a text stands for. -/
def finiteOfText? (text : String) : Option Dec := (Decimal.ofText? text).bind Decimal.toDec?

theorem succeeds_requireNonEmptyStr {v f : String} :
    (requireNonEmptyStr v f).Succeeds ↔ Text.strip v ≠ "" := by
  constructor
  · rintro ⟨text, h⟩
    exact (requireNonEmptyStr_eq_ok.mp h).1
  · exact fun h => ⟨_, requireNonEmptyStr_eq_ok.mpr ⟨h, rfl⟩⟩

/-- An optional text is accepted unless it is blank. -/
theorem normalizeOptionalStr_succeeds {v : Option String} {f : String} :
    (normalizeOptionalStr v f).Succeeds ↔ ∀ text ∈ v, Text.strip text ≠ "" := by
  cases v with
  | none => simp
  | some text =>
    rw [Platform.normalizeOptionalStr_some, Platform.requireNonEmptyStr_eq]
    split <;> simp_all [Except.map]

theorem normalizeOptionalStr_eq_ok {v r : Option String} {f : String} :
    normalizeOptionalStr v f = .ok r ↔
      (∀ text ∈ v, Text.strip text ≠ "") ∧ r = v.map Text.strip := by
  constructor
  · exact fun h => ⟨normalizeOptionalStr_succeeds.mp ⟨r, h⟩, eq_of_normalizeOptionalStr h⟩
  · rintro ⟨h, rfl⟩
    obtain ⟨r, hr⟩ := (normalizeOptionalStr_succeeds (f := f)).mpr h
    rw [hr, eq_of_normalizeOptionalStr hr]

/-- No code of a currency is blank. -/
theorem IsCurrencyText.strip_ne {text : String} (h : IsCurrencyText text) :
    Text.strip text ≠ "" := by
  intro hblank
  have hupper : Platform.upper "" = "" := Platform.upper_of_isUpper "" (by simp)
  rw [IsCurrencyText, hblank, hupper] at h
  exact (strip_of_isValidCurrencyCode h).2 rfl

@[simp] theorem isCurrencyText_strip {text : String} :
    IsCurrencyText (Text.strip text) ↔ IsCurrencyText text := by
  rw [IsCurrencyText, Text.strip_strip, IsCurrencyText]

theorem normalizeCurrency_eq_ok {v f c : String} :
    normalizeCurrency v f = .ok c ↔ IsCurrencyText v ∧ c = Platform.upper (Text.strip v) := by
  constructor
  · intro h
    have hvalid := isValidCurrencyCode_of_eq_ok h
    rw [eq_of_normalizeCurrency h] at hvalid ⊢
    exact ⟨hvalid, rfl⟩
  · rintro ⟨h, rfl⟩
    rw [normalizeCurrency, requireNonEmptyStr_eq_ok.mpr ⟨h.strip_ne, rfl⟩, ok_bind]
    exact if_pos h

omit [Platform] in
theorem PostingSide.exists_ofValue {text : String} :
    (∃ s, ofValue text = .ok s) ↔ text ∈ ["Dr", "Cr"] := by
  unfold ofValue
  split_ifs <;> simp_all

omit [Platform] in
theorem FiscalPeriodState.exists_ofValue {text : String} :
    (∃ s, ofValue text = .ok s) ↔ text ∈ ["open", "closed", "locked"] := by
  unfold ofValue
  split_ifs <;> simp_all

omit [Platform] in
theorem TransactionState.exists_ofValue {text : String} :
    (∃ s, ofValue text = .ok s) ↔ text ∈ ["draft", "posted", "reversed"] := by
  unfold ofValue
  split_ifs <;> simp_all

omit [Platform] in
theorem requireDecimal_eq_ok {text : String} {v : Decimal} :
    requireDecimal text = .ok v ↔ Decimal.ofText? text = some v := by
  unfold requireDecimal
  cases Decimal.ofText? text <;> simp

omit [Platform] in
/-- Stripping an optional text once is enough. -/
@[simp] theorem map_strip_map_strip (v : Option String) :
    (v.map Text.strip).map Text.strip = v.map Text.strip := by
  cases v <;> simp [Text.strip_strip]

omit [Platform] in
@[simp] theorem forall_mem_map_strip {v : Option String} :
    (∀ text ∈ v.map Text.strip, Text.strip text ≠ "") ↔ ∀ text ∈ v, Text.strip text ≠ "" := by
  cases v <;> simp [Text.strip_strip]

omit [Platform] in
/-- An optional text that is not blank and not another text. -/
theorem forall_mem_strip_iff {v : Option String} {text : String} :
    (∀ w ∈ v, Text.strip w ≠ "" ∧ Text.strip w ≠ text) ↔
      (∀ w ∈ v, Text.strip w ≠ "") ∧ v.map Text.strip ≠ some text := by
  cases v <;> simp

/-! ### Accounts -/

/-- What the constructor of an account accepts. -/
theorem AccountFields.postInit_succeeds {a : AccountFields} : a.postInit.Succeeds ↔
    Text.strip a.code ≠ "" ∧ Text.strip a.name ≠ "" ∧ IsCurrencyText a.currency ∧
      (∀ v ∈ a.parentCode, Text.strip v ≠ "") ∧
      a.parentCode.map Text.strip ≠ some (Text.strip a.code) := by
  simp only [postInit, succeeds_bind, requireNonEmptyStr_eq_ok, normalizeCurrency_eq_ok,
    normalizeOptionalStr_eq_ok, and_assoc, exists_and_left, exists_eq_left, throw_eq_error,
    error_bind, succeeds_guard, pure_eq_ok, succeeds_ok, and_true]

/-- The texts of an account. -/
structure AccountPayload.Valid (data : AccountPayload) : Prop where
  code : Text.strip data.code ≠ ""
  name : Text.strip data.name ≠ ""
  normalSide : Text.strip data.normalSide ∈ ["Dr", "Cr"]
  currency : IsCurrencyText data.currency
  parentCode : ∀ v ∈ data.parentCode, Text.strip v ≠ "" ∧ Text.strip v ≠ Text.strip data.code

/-- **The deserializer reads exactly the texts of an account.** -/
theorem accountFromMapping_succeeds {data : AccountPayload} :
    (accountFromMapping data).Succeeds ↔ data.Valid := by
  simp only [accountFromMapping, succeeds_bind, requireNonEmptyStr_eq_ok,
    normalizeOptionalStr_eq_ok, and_assoc, exists_and_left, exists_and_right, exists_eq_left,
    Built.new_succeeds_iff, AccountFields.postInit_succeeds, PostingSide.exists_ofValue,
    Text.strip_strip, isCurrencyText_strip, forall_mem_map_strip, map_strip_map_strip]
  constructor
  · rintro ⟨hcode, hname, -, hside, -, hparent, -, -, hcurrency, -, hne⟩
    exact ⟨hcode, hname, hside, hcurrency, forall_mem_strip_iff.mpr ⟨hparent, hne⟩⟩
  · intro h
    obtain ⟨hparent, hne⟩ := forall_mem_strip_iff.mp h.parentCode
    have hside : Text.strip data.normalSide ≠ "" := by
      intro hblank
      simpa [hblank] using h.normalSide
    exact ⟨h.code, h.name, hside, h.normalSide, h.currency.strip_ne, hparent, h.code, h.name,
      h.currency, hparent, hne⟩

/-! ### Periods -/

/-- The numbers are those of a fiscal period. -/
def PeriodPayload.IsPeriod (data : PeriodPayload) : Prop :=
  Platform.checkFiscalPeriod data.fiscalYear data.quarter data.month = .ok ()

theorem FiscalPeriod.exists_new {y q m : ℤ} :
    (∃ p, FiscalPeriod.new y q m = .ok p) ↔ Platform.checkFiscalPeriod y q m = .ok () := by
  constructor
  · rintro ⟨p, h⟩
    obtain ⟨rfl, rfl, rfl⟩ := FiscalPeriod.fields_of_new h
    exact p.accepted
  · exact fun h => ⟨⟨y, q, m, h⟩, FiscalPeriod.new_fields ⟨y, q, m, h⟩⟩

/-- The texts and numbers of a period of a book. -/
structure BookPeriodPayload.Valid (data : BookPeriodPayload) : Prop where
  period : data.period.IsPeriod
  bounds : ∃ first last, dateFromIsoformat data.startDate = .ok first ∧
    dateFromIsoformat data.endDate = .ok last ∧ first.index ≤ last.index
  state : Text.strip data.state ∈ ["open", "closed", "locked"]

/-- What the constructor of a period accepts, of two plain dates. -/
theorem BookPeriodFields.postInit_succeeds {period : FiscalPeriod} {first last : Date}
    {state : FiscalPeriodState} :
    (postInit ⟨period, .date first, .date last, state⟩).Succeeds ↔ first.index ≤ last.index := by
  simp only [Except.Succeeds, postInit_eq_ok]
  constructor
  · rintro ⟨_, rfl, -, h⟩
    exact Int.ofNat_le.mp h
  · exact fun h => ⟨_, rfl, rfl, Int.ofNat_le.mpr h⟩

/-- **The deserializer reads exactly the texts of a period.** -/
theorem bookPeriodFromMapping_succeeds {data : BookPeriodPayload} :
    (bookPeriodFromMapping data).Succeeds ↔ data.Valid := by
  simp only [bookPeriodFromMapping, periodFromMapping, succeeds_bind, requireNonEmptyStr_eq_ok,
    and_assoc, exists_and_left, exists_and_right, exists_eq_left, Built.new_succeeds_iff,
    BookPeriodFields.postInit_succeeds, FiscalPeriod.exists_new, FiscalPeriodState.exists_ofValue]
  constructor
  · rintro ⟨hperiod, first, hfirst, last, hlast, -, hstate, hle⟩
    exact ⟨hperiod, ⟨first, last, hfirst, hlast, hle⟩, hstate⟩
  · rintro ⟨hperiod, ⟨first, last, hfirst, hlast, hle⟩, hstate⟩
    have hne : Text.strip data.state ≠ "" := by
      intro hblank
      simp [hblank] at hstate
    exact ⟨hperiod, first, hfirst, last, hlast, hne, hstate, hle⟩

/-! ### Entries -/

/-- What the constructor of an entry accepts. -/
theorem LedgerEntryFields.postInit_succeeds {e : LedgerEntryFields} : e.postInit.Succeeds ↔
    Text.strip e.accountCode ≠ "" ∧ IsCurrencyText e.currency ∧
      (∀ text ∈ e.description, Text.strip text ≠ "") ∧
      (∃ d ∈ e.amount.decimalValue.toDec?, 0 ≤ d.value ∧
        ∀ max ∈ getCurrencyDecimalDigits (Platform.upper (Text.strip e.currency)), d.places ≤ max) ∧
      IsTaxRate e.taxRate := by
  simp only [postInit, succeeds_bind, requireNonEmptyStr_eq_ok, requireAmount_eq_ok,
    normalizeCurrency_eq_ok, normalizeOptionalStr_eq_ok, normalizeOptionalDecimalRange_eq_ok,
    and_assoc, exists_and_left, exists_and_right, exists_eq, exists_eq_left, true_and, pure_eq_ok,
    succeeds_ok, and_true]
  constructor
  · rintro ⟨haccount, d, hd, hd0, hcurrency, ⟨_, hplaces⟩, hdescription, hrate⟩
    exact ⟨haccount, hcurrency, hdescription, ⟨d, hd, hd0, requirePlaces_eq_ok.mp hplaces⟩, hrate⟩
  · rintro ⟨haccount, hcurrency, hdescription, ⟨d, hd, hd0, hplaces⟩, hrate⟩
    exact ⟨haccount, d, hd, hd0, hcurrency, ⟨_, requirePlaces_eq_ok.mpr hplaces⟩, hdescription,
      hrate⟩

/-- The currency that an entry names. -/
def EntryPayload.currencyCode (data : EntryPayload) : String :=
  Platform.upper (Text.strip data.currency)

/-- The texts of an entry. -/
structure EntryPayload.Valid (data : EntryPayload) : Prop where
  accountCode : Text.strip data.accountCode ≠ ""
  side : Text.strip data.side ∈ ["Dr", "Cr"]
  amount : ∃ d ∈ finiteOfText? data.amount, 0 ≤ d.value ∧
    ∀ max ∈ getCurrencyDecimalDigits data.currencyCode, d.places ≤ max
  currency : IsCurrencyText data.currency
  description : ∀ text ∈ data.description, Text.strip text ≠ ""
  taxRate : ∀ text ∈ data.taxRate, ∃ d ∈ finiteOfText? text, 0 ≤ d.value ∧ d.value ≤ 1

omit [Platform] in
/-- The text of a tax rate is read as a number between zero and one. -/
theorem exists_optionalDecimal {text : Option String} :
    (∃ r, optionalDecimal text = .ok r ∧ IsTaxRate r) ↔
      ∀ v ∈ text, ∃ d ∈ finiteOfText? v, 0 ≤ d.value ∧ d.value ≤ 1 := by
  cases text with
  | none => simp [optionalDecimal, IsTaxRate]
  | some text =>
    cases hread : Decimal.ofText? text <;>
      simp [optionalDecimal, requireDecimal, finiteOfText?, hread, IsTaxRate, Except.map]

/-- What is read of the texts of an entry. -/
structure LedgerEntry.ReadFrom (e : LedgerEntry) (data : EntryPayload) : Prop where
  side : e.side.value = Text.strip data.side
  currency : e.currency = data.currencyCode
  amount : finiteOfText? data.amount = some e.decimalValue

/-- **The deserializer reads exactly the texts of an entry.** -/
theorem entryFromMapping_succeeds {data : EntryPayload} :
    (entryFromMapping data).Succeeds ↔ data.Valid := by
  simp only [entryFromMapping, succeeds_bind, requireNonEmptyStr_eq_ok, requireDecimal_eq_ok,
    normalizeOptionalStr_eq_ok, and_assoc, exists_and_left, exists_and_right, exists_eq_left,
    Built.new_succeeds_iff, LedgerEntryFields.postInit_succeeds, PostingSide.exists_ofValue,
    Text.strip_strip, isCurrencyText_strip, forall_mem_map_strip,
    Platform.decimalValue_makeFluentNumber]
  constructor
  · rintro ⟨amount, hamount, -, -, hside, -, -, rate, hrate, haccount, hcurrency, hdescription,
      ⟨d, hd, hd0, hplaces⟩, hrange⟩
    refine ⟨haccount, hside, ⟨d, ?_, hd0, hplaces⟩, hcurrency, hdescription,
      exists_optionalDecimal.mp ⟨rate, hrate, hrange⟩⟩
    rw [finiteOfText?, hamount]
    exact hd
  · intro h
    obtain ⟨d, hd, hd0, hplaces⟩ := h.amount
    obtain ⟨amount, hamount, hd⟩ := Option.bind_eq_some_iff.mp hd
    obtain ⟨rate, hrate, hrange⟩ := exists_optionalDecimal.mpr h.taxRate
    have hside : Text.strip data.side ≠ "" := by
      intro hblank
      simpa [hblank] using h.side
    exact ⟨amount, hamount, h.accountCode, hside, h.side, h.currency.strip_ne, h.description, rate,
      hrate, h.accountCode, h.currency, h.description, ⟨d, hd, hd0, hplaces⟩, hrange⟩

/-- An entry that was constructed has the side it was given, and the currency and the number of
its texts. -/
theorem LedgerEntry.readFrom_of_new {raw : LedgerEntryFields} {e : LedgerEntry}
    {data : EntryPayload} {amount : Decimal} (h : Built.new LedgerEntryFields.postInit raw = .ok e)
    (hside : raw.side.value = Text.strip data.side)
    (hcurrency : Text.strip raw.currency = Text.strip data.currency)
    (hamount : raw.amount = makeFluentNumber amount)
    (hread : Decimal.ofText? data.amount = some amount) :
    e.ReadFrom data := by
  have hfields := (LedgerEntryFields.of_eq_ok (Built.new_eq_ok_iff.mp h)).1
  refine ⟨?_, ?_, ?_⟩
  · rw [LedgerEntry.side, hfields, hside]
  · rw [LedgerEntry.currency, hfields, hcurrency, EntryPayload.currencyCode]
  · have hnumber := e.valid.amount
    rw [hfields, hamount, Platform.decimalValue_makeFluentNumber] at hnumber
    rw [finiteOfText?, hread, Option.bind_some, hnumber]

theorem readFrom_of_entryFromMapping {data : EntryPayload} {e : LedgerEntry}
    (h : entryFromMapping data = .ok e) : e.ReadFrom data := by
  obtain ⟨amount, hamount, h⟩ := bind_eq_ok.mp h
  obtain ⟨account, -, h⟩ := bind_eq_ok.mp h
  obtain ⟨text, htext, h⟩ := bind_eq_ok.mp h
  obtain ⟨side, hside, h⟩ := bind_eq_ok.mp h
  obtain ⟨currency, hcurrency, h⟩ := bind_eq_ok.mp h
  obtain ⟨description, -, h⟩ := bind_eq_ok.mp h
  obtain ⟨rate, -, h⟩ := bind_eq_ok.mp h
  obtain ⟨-, rfl⟩ := requireNonEmptyStr_eq_ok.mp htext
  obtain ⟨-, rfl⟩ := requireNonEmptyStr_eq_ok.mp hcurrency
  exact LedgerEntry.readFrom_of_new h (PostingSide.eq_value_of_ofValue hside).symm
    (Text.strip_strip _) rfl (requireDecimal_eq_ok.mp hamount)

/-! ### Sums -/

/-- The amounts that entries post to a side in a currency. -/
def postedAmounts (s : PostingSide) (c : String) (entries : List EntryPayload) : List Dec :=
  (entries.filter fun e => Text.strip e.side = s.value ∧ e.currencyCode = c).map fun e =>
    (finiteOfText? e.amount).getD .zero

@[simp] theorem postedAmounts_nil (s : PostingSide) (c : String) : postedAmounts s c [] = [] := rfl

theorem postedAmounts_cons (s : PostingSide) (c : String) (e : EntryPayload)
    (l : List EntryPayload) : postedAmounts s c (e :: l) =
      if Text.strip e.side = s.value ∧ e.currencyCode = c then
        (finiteOfText? e.amount).getD .zero :: postedAmounts s c l
      else postedAmounts s c l := by
  unfold postedAmounts
  by_cases h : Text.strip e.side = s.value ∧ e.currencyCode = c <;> simp [h]

/-- No running sum of amounts, each step rounded, reaches the limit of the decimals. -/
def SumsInRange (entries : List EntryPayload) : Prop :=
  ∀ s c before d, before ++ [d] <+: postedAmounts s c entries →
    Dec.defaultContext.runningSum 0 before + d.value < Dec.defaultContext.limit

/-- What the balance check asks of entries: the two sums of a currency, each step rounded, are
the same. -/
structure PassesBalance (entries : List EntryPayload) : Prop where
  two : 2 ≤ entries.length
  inRange : SumsInRange entries
  equal : ∀ c, Dec.defaultContext.runningSum 0 (postedAmounts .debit c entries) =
    Dec.defaultContext.runningSum 0 (postedAmounts .credit c entries)

/-- What was read of texts posts the amounts of the texts. -/
theorem amounts_of_readFrom {es : List LedgerEntry} {data : List EntryPayload}
    (h : List.Forall₂ LedgerEntry.ReadFrom es data) (s : PostingSide) (c : String) :
    amounts s c es = postedAmounts s c data := by
  have hside : ∀ s s' : PostingSide, s'.value = s.value ↔ s' = s := by
    intro s s'
    cases s <;> cases s' <;> decide
  induction h with
  | nil => rfl
  | cons hread _ ih =>
    rw [amounts_cons, postedAmounts_cons, ih, ← hread.side, ← hread.currency, hread.amount,
      Option.getD_some]
    simp only [hside]

theorem amounts_nonneg {s : PostingSide} {c : String} {entries : List LedgerEntry} {d : Dec}
    (hd : d ∈ amounts s c entries) : 0 ≤ d.value := by
  obtain ⟨e, -, rfl⟩ := List.mem_map.mp hd
  exact e.valid.nonneg

/-- A total is the running sum of its amounts, and is computed when they stay in range. -/
theorem sideTotal_succeeds_iff {s : PostingSide} {c : String} {entries : List LedgerEntry} :
    (sideTotal s c entries).Succeeds ↔ ∀ p d, p ++ [d] <+: amounts s c entries →
      Dec.defaultContext.runningSum 0 p + d.value < Dec.defaultContext.limit := by
  rw [sideTotal, Dec.sumFrom_succeeds_iff (by simp) fun _ => amounts_nonneg, Dec.value_zero]

/-- The totals of what was read are computed when the sums of the texts stay in range. -/
theorem sideTotals_succeed_iff {es : List LedgerEntry} {data : List EntryPayload}
    (h : List.Forall₂ LedgerEntry.ReadFrom es data) :
    (∀ s c, (sideTotal s c es).Succeeds) ↔ SumsInRange data := by
  simp only [sideTotal_succeeds_iff, amounts_of_readFrom h]
  rfl

/-- The balance check of what was read, said of the texts. -/
theorem validateTransactionEntries_iff_passesBalance {es : List LedgerEntry}
    {data : List EntryPayload} (h : List.Forall₂ LedgerEntry.ReadFrom es data) :
    validateTransactionEntries es = .ok () ↔ PassesBalance data := by
  have hvalue : ∀ {s c d}, sideTotal s c es = .ok d →
      d.value = Dec.defaultContext.runningSum 0 (postedAmounts s c data) := by
    intro s c d hd
    rw [← amounts_of_readFrom h, Dec.value_of_sumFrom (by simp) (fun _ => amounts_nonneg) hd,
      Dec.value_zero]
  rw [validateTransactionEntries_eq_ok_iff, h.length_eq]
  constructor
  · rintro ⟨htwo, htotals⟩
    refine ⟨htwo, (sideTotals_succeed_iff h).mp ?_, fun c => ?_⟩
    · intro s c
      obtain ⟨d, k, hd, hk, -⟩ := htotals c
      cases s with
      | debit => exact ⟨d, hd⟩
      | credit => exact ⟨k, hk⟩
    · obtain ⟨d, k, hd, hk, heq⟩ := htotals c
      rw [← hvalue hd, ← hvalue hk, heq]
  · rintro ⟨htwo, hrange, hequal⟩
    refine ⟨htwo, fun c => ?_⟩
    obtain ⟨d, hd⟩ := (sideTotals_succeed_iff h).mpr hrange .debit c
    obtain ⟨k, hk⟩ := (sideTotals_succeed_iff h).mpr hrange .credit c
    exact ⟨d, k, hd, hk, by rw [hvalue hd, hvalue hk, hequal c]⟩

/-! ### Transactions -/

/-- What the constructor of a transaction accepts. -/
theorem JournalTransactionFields.postInit_succeeds {t : JournalTransactionFields} :
    t.postInit.Succeeds ↔
      Text.strip t.reference ≠ "" ∧ Text.strip t.description ≠ "" ∧
      (∀ v ∈ t.reversalOf, Text.strip v ≠ "") ∧
      t.reversalOf.map Text.strip ≠ some (Text.strip t.reference) ∧
      (t.state = .posted → validateTransactionEntries t.entries = .ok ()) := by
  simp only [postInit, succeeds_bind, requireNonEmptyStr_eq_ok, normalizeOptionalStr_eq_ok,
    and_assoc, exists_and_left, exists_eq_left, throw_eq_error, error_bind, succeeds_guard,
    pure_eq_ok]
  by_cases hposted : t.state = .posted
  · simp only [hposted, if_true, succeeds_bind, succeeds_ok, and_true, true_imp_iff]
    constructor
    · rintro ⟨href, hdesc, hrev, hne, ⟨_, hbalance⟩⟩
      exact ⟨href, hdesc, hrev, hne, hbalance⟩
    · rintro ⟨href, hdesc, hrev, hne, hbalance⟩
      exact ⟨href, hdesc, hrev, hne, ⟨_, hbalance⟩⟩
  · simp [hposted]

/-- The texts of the header of a transaction. -/
structure TransactionPayload.HeaderValid (data : TransactionPayload) : Prop where
  reference : Text.strip data.reference ≠ ""
  postedAt : ∃ t, datetimeFromIsoformat data.postedAt = .ok t
  description : Text.strip data.description ≠ ""
  period : ∀ p ∈ data.period, p.IsPeriod
  state : Text.strip data.state ∈ ["draft", "posted", "reversed"]
  reversalOf : ∀ v ∈ data.reversalOf,
    Text.strip v ≠ "" ∧ Text.strip v ≠ Text.strip data.reference

/-- The texts of a transaction. -/
structure TransactionPayload.Valid (data : TransactionPayload) : Prop extends data.HeaderValid where
  entries : ∀ e ∈ data.entries, e.Valid
  balance : Text.strip data.state = "posted" → PassesBalance data.entries

theorem exists_optionalPeriod {data : Option PeriodPayload} :
    (∃ p, optionalPeriod data = .ok p) ↔ ∀ p ∈ data, p.IsPeriod := by
  cases data with
  | none => simp [optionalPeriod]
  | some data =>
    have hmap := succeeds_map (x := periodFromMapping data) (f := some)
    rw [optionalPeriod]
    refine hmap.trans (FiscalPeriod.exists_new.trans ?_)
    simp [PeriodPayload.IsPeriod]

/-- Entries are read one by one. -/
theorem forall₂_readFrom {data : List EntryPayload} {es : List LedgerEntry}
    (h : data.mapM entryFromMapping = .ok es) : List.Forall₂ LedgerEntry.ReadFrom es data := by
  induction data generalizing es with
  | nil =>
    cases h
    exact .nil
  | cons e data ih =>
    obtain ⟨b, bs, hb, hbs, rfl⟩ := mapM_cons_eq_ok.mp h
    exact .cons (readFrom_of_entryFromMapping hb) (ih hbs)

/-- **The deserializer reads exactly the texts of a transaction.** -/
theorem transactionFromMapping_succeeds {data : TransactionPayload} :
    (transactionFromMapping data).Succeeds ↔ data.Valid := by
  simp only [transactionFromMapping, succeeds_bind, requireNonEmptyStr_eq_ok,
    normalizeOptionalStr_eq_ok, and_assoc, exists_and_left, exists_and_right, exists_eq_left,
    Built.new_succeeds_iff, JournalTransactionFields.postInit_succeeds, Text.strip_strip,
    exists_optionalPeriod, forall_mem_map_strip, map_strip_map_strip]
  constructor
  · rintro ⟨href, hpostedAt, hdesc, es, hread, hperiod, -, state, hstate, hrev, -, -, -, hne,
      hbalance⟩
    refine ⟨⟨href, hpostedAt, hdesc, hperiod, TransactionState.exists_ofValue.mp ⟨_, hstate⟩,
      forall_mem_strip_iff.mpr ⟨hrev, hne⟩⟩, ?_, ?_⟩
    · exact fun e he => entryFromMapping_succeeds.mp (succeeds_of_mapM_eq_ok hread e he)
    · intro hposted
      refine (validateTransactionEntries_iff_passesBalance (forall₂_readFrom hread)).mp
        (hbalance ?_)
      rw [hposted] at hstate
      exact (Except.ok.inj hstate).symm
  · intro h
    obtain ⟨hrev, hne⟩ := forall_mem_strip_iff.mp h.reversalOf
    obtain ⟨es, hread⟩ := mapM_succeeds.mpr fun e he =>
      entryFromMapping_succeeds.mpr (h.entries e he)
    obtain ⟨state, hstate⟩ := TransactionState.exists_ofValue.mpr h.state
    have hblank : Text.strip data.state ≠ "" := by
      intro hblank
      simpa [hblank] using h.state
    refine ⟨h.reference, h.postedAt, h.description, es, hread, h.period, hblank, state, hstate, hrev,
      h.reference, h.description, hrev, hne, ?_⟩
    rintro rfl
    exact (validateTransactionEntries_iff_passesBalance (forall₂_readFrom hread)).mpr
      (h.balance (TransactionState.eq_value_of_ofValue hstate))

end FinestVX
