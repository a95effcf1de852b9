import FinestVX.Core.Escapes
import FinestVX.Validation.Reports

/-!
# Diagnostics

A transaction that is not posted is constructed without a look at its entries, so that they
can be anything.  `is_balanced` and `validate_transaction` make the check then, and turn what
it raises into an answer: the one catches `ValueError`, the other `TypeError` as well.  The
check raises a `TypeError` for what is no entry, and the signal of a total that overflows,
which neither of them catches.

## Main definitions

* `EntryObject`, `TransactionObject` — an element of `entries`, and a transaction of them.
* `validateEntryObjects` — the check.
* `TransactionObject.isBalanced`, `TransactionObject.validate` — the two diagnostics.

## Main results

* `validateEntryObjects_map_entry`, `TransactionObject.validate_toObject` — on entries these are
  the functions of the core.
* `TransactionObject.isBalanced_succeeds_iff`, `TransactionObject.validate_succeeds_iff` —
  when each of them returns.
* `diagnostics_return_iff` — **both return exactly when** there are less than two entries, or
  all are entries and no total overflows.
* `Reference.overflowing_raises` — a draft on which both raise.
-/

namespace FinestVX

open Except PyError

section

variable [Platform]

/-! ### Transactions of objects -/

/-- An element of `entries`; of what is no entry the name of the type is looked at. -/
inductive EntryObject
  | entry (e : LedgerEntry)
  | other (typeName : String)

namespace EntryObject

/-- The `isinstance` check of the balance check. -/
def requireLedgerEntry : EntryObject → Except PyError LedgerEntry
  | entry e => .ok e
  | other typeName =>
    .error (.typeError s!"entries must contain LedgerEntry objects, got {typeName}")

/-- `entry.account_code` -/
def accountCode : EntryObject → Except PyError String
  | entry e => .ok e.accountCode
  | other typeName => .error (.fault s!"'{typeName}' object has no attribute 'account_code'")

end EntryObject

/-- `_validate_transaction_entries` -/
def validateEntryObjects (entries : List EntryObject) : Except PyError Unit := do
  if entries.length < 2 then
    throw (.valueError "A transaction must contain at least two entries")
  let validated ← entries.mapM EntryObject.requireLedgerEntry
  let debit ← totalsByCurrency validated (some .debit)
  let credit ← totalsByCurrency validated (some .credit)
  let mismatched := mismatchedCurrencies debit credit
  if mismatched ≠ [] then
    throw (.valueError
      ("Transaction is not balanced for currencies: " ++ String.intercalate ", " mismatched))

/-- The fields of a `JournalTransaction`, with whatever its `entries` are. -/
structure TransactionObjectFields where
  reference : String
  postedAt : DateTime
  description : String
  entries : List EntryObject
  period : Option FiscalPeriod := none
  state : TransactionState := .posted
  reversalOf : Option String := none

/-- `JournalTransaction.__post_init__` -/
def TransactionObjectFields.postInit (t : TransactionObjectFields) :
    Except PyError TransactionObjectFields := do
  let reference ← requireNonEmptyStr t.reference "reference"
  let description ← requireNonEmptyStr t.description "description"
  let reversalOf ← normalizeOptionalStr t.reversalOf "reversal_of"
  if reversalOf = some reference then
    throw (.valueError "reversal_of must reference a different transaction")
  if t.state = .posted then
    validateEntryObjects t.entries
  return { t with reference, description, reversalOf }

/-- A `JournalTransaction` that was constructed, from whatever `entries`. -/
abbrev TransactionObject := Built TransactionObjectFields.postInit

/-- The fields of a transaction, as those of an object. -/
def JournalTransactionFields.toObject (t : JournalTransactionFields) : TransactionObjectFields :=
  { t with entries := t.entries.map .entry }

namespace TransactionObject

def entries (t : TransactionObject) : List EntryObject := t.fields.entries

/-- `JournalTransaction.is_balanced` -/
def isBalanced (t : TransactionObject) : Except PyError Bool :=
  match validateEntryObjects t.entries with
  | .ok () => .ok true
  | .error (.valueError _) => .ok false
  | .error e => .error e

/-- The finding of an account that is not an account of the book. -/
def unknownAccountFinding (code : String) : ValidationFinding :=
  ⟨"TRANSACTION_UNKNOWN_ACCOUNT", s!"Unknown account code: {code}", .error, "core.transaction"⟩

/-- The findings of an entry. -/
def unknownAccount (book : Book) (x : EntryObject) :
    Except PyError (List ValidationFinding) := do
  let code ← x.accountCode
  return if code ∉ book.fields.accounts.map Account.code then [unknownAccountFinding code] else []

/-- `validate_transaction` -/
def validate (book : Book) (t : TransactionObject) : Except PyError ValidationReport :=
  orReport (validateEntryObjects t.entries) "TRANSACTION_BALANCE_INVALID" "core.transaction" do
    let findings ← t.entries.mapM (unknownAccount book)
    return ⟨findings.flatten⟩

end TransactionObject

/-! ### The check -/

theorem mapM_requireLedgerEntry_map (entries : List LedgerEntry) :
    (entries.map EntryObject.entry).mapM EntryObject.requireLedgerEntry = .ok entries := by
  induction entries with
  | nil => rfl
  | cons e entries ih =>
    rw [List.map_cons, List.mapM_cons, EntryObject.requireLedgerEntry, ok_bind, ih]
    rfl

theorem mapM_requireLedgerEntry_eq_ok {objects : List EntryObject} {entries : List LedgerEntry} :
    objects.mapM EntryObject.requireLedgerEntry = .ok entries ↔
      objects = entries.map EntryObject.entry := by
  constructor
  · intro h
    induction objects generalizing entries with
    | nil =>
      cases h
      rfl
    | cons x objects ih =>
      obtain ⟨e, rest, hx, hrest, rfl⟩ := mapM_cons_eq_ok.mp h
      cases x with
      | entry e' =>
        cases hx
        rw [List.map_cons, ← ih hrest]
      | other typeName => cases hx
  · rintro rfl
    exact mapM_requireLedgerEntry_map entries

/-- On entries this is the check of the core. -/
theorem validateEntryObjects_map_entry (entries : List LedgerEntry) :
    validateEntryObjects (entries.map .entry) = validateTransactionEntries entries := by
  unfold validateEntryObjects validateTransactionEntries
  rw [mapM_requireLedgerEntry_map, List.length_map]
  rfl

theorem validateEntryObjects_of_short {objects : List EntryObject} (h : objects.length < 2) :
    ∃ msg, validateEntryObjects objects = .error (.valueError msg) :=
  ⟨_, by rw [validateEntryObjects, if_pos h]; rfl⟩

/-- An element that is no entry is found before anything is added up. -/
theorem validateEntryObjects_of_other {objects : List EntryObject} (h : 2 ≤ objects.length)
    (hother : ¬ ∃ entries : List LedgerEntry, objects = entries.map .entry) :
    ∃ msg, validateEntryObjects objects = .error (.typeError msg) := by
  have htype : ¬ (objects.mapM EntryObject.requireLedgerEntry).Raises
      fun e => ¬ ∃ msg, e = .typeError msg := by
    refine not_raises_mapM fun x _ => ?_
    cases x <;> simp [EntryObject.requireLedgerEntry]
  rw [validateEntryObjects, if_neg (by omega)]
  cases hobjects : objects.mapM EntryObject.requireLedgerEntry with
  | ok entries => exact (hother ⟨entries, mapM_requireLedgerEntry_eq_ok.mp hobjects⟩).elim
  | error e =>
    rw [hobjects, raises_error, not_not] at htype
    obtain ⟨msg, rfl⟩ := htype
    exact ⟨msg, rfl⟩

/-- The check is passed by entries only. -/
theorem exists_of_validateEntryObjects {objects : List EntryObject}
    (h : validateEntryObjects objects = .ok ()) :
    ∃ entries : List LedgerEntry, objects = entries.map .entry := by
  obtain ⟨-, h⟩ := guard_eq_ok.mp h
  obtain ⟨entries, hentries, -⟩ := bind_eq_ok.mp h
  exact ⟨entries, mapM_requireLedgerEntry_eq_ok.mp hentries⟩

/-- All elements are entries, and their totals stay in the range of the decimals. -/
def SumsComplete (objects : List EntryObject) : Prop :=
  ∃ entries : List LedgerEntry, objects = entries.map .entry ∧ TotalsInRange entries

theorem sumsComplete_map_entry {entries : List LedgerEntry} :
    SumsComplete (entries.map .entry) ↔ TotalsInRange entries := by
  constructor
  · rintro ⟨entries', heq, h⟩
    rwa [List.map_injective_iff.mpr (fun _ _ h => EntryObject.entry.inj h) heq]
  · exact fun h => ⟨entries, rfl, h⟩

/-- On entries a handler of the `ValueError`s misses the signal of a total that overflows. -/
theorem raises_map_entry {p : PyError → Prop} (hsignal : ∀ signal, p (.decimalSignal signal))
    (hvalue : ∀ msg, ¬ p (.valueError msg)) {entries : List LedgerEntry}
    (hlen : 2 ≤ (entries.map EntryObject.entry).length) :
    (validateEntryObjects (entries.map .entry)).Raises p ↔ ¬ SumsComplete (entries.map .entry) := by
  rw [List.length_map] at hlen
  rw [validateEntryObjects_map_entry, raises_validateTransactionEntries hsignal hvalue,
    sumsComplete_map_entry, ← not_sumsOverflow_iff, not_not]
  exact and_iff_right hlen

/-! ### The diagnostics -/

namespace TransactionObject

variable {book : Book} {t : TransactionObject}

/-- `is_balanced` returns unless the check raises something that is no `ValueError`. -/
theorem isBalanced_succeeds :
    t.isBalanced.Succeeds ↔
      ¬ (validateEntryObjects t.entries).Raises fun e => ∀ msg, e ≠ .valueError msg := by
  unfold isBalanced
  split
  · next h => simp [h]
  · next h => simp [h]
  · next e hvalue h =>
    simp only [h, raises_error, not_succeeds_error, false_iff, not_not]
    exact hvalue

/-- `validate_transaction` returns unless the check raises something that escapes. -/
theorem validate_succeeds :
    (t.validate book).Succeeds ↔ ¬ (validateEntryObjects t.entries).Raises Escapes := by
  unfold validate orReport
  split
  · next h =>
    -- the accounts are looked at after the check, so all elements are entries
    obtain ⟨entries, hentries⟩ := exists_of_validateEntryObjects h
    have hfindings : (t.entries.mapM (unknownAccount book)).Succeeds := by
      refine mapM_succeeds.mpr ?_
      rw [hentries]
      intro x hx
      obtain ⟨e, -, rfl⟩ := List.mem_map.mp hx
      unfold unknownAccount
      exact ⟨_, rfl⟩
    obtain ⟨findings, hfindings⟩ := hfindings
    simp [h, hfindings]
  · next e h =>
    simp only [h, raises_error, Escapes]
    split
    · next hcaught => simp [hcaught]
    · next hescapes => simpa using hescapes

/-- **When `is_balanced` returns**: there are less than two entries, or all elements are
entries and no total overflows. -/
theorem isBalanced_succeeds_iff :
    t.isBalanced.Succeeds ↔ t.entries.length < 2 ∨ SumsComplete t.entries := by
  rw [isBalanced_succeeds]
  by_cases hlen : t.entries.length < 2
  · obtain ⟨msg, h⟩ := validateEntryObjects_of_short hlen
    simp [h, hlen]
  by_cases hall : ∃ entries : List LedgerEntry, t.entries = entries.map .entry
  · obtain ⟨entries, hentries⟩ := hall
    rw [hentries] at hlen ⊢
    rw [raises_map_entry (by simp) (by simp) (not_lt.mp hlen), not_not]
    exact (or_iff_right hlen).symm
  · obtain ⟨msg, h⟩ := validateEntryObjects_of_other (not_lt.mp hlen) hall
    have hnot : ¬ SumsComplete t.entries := fun ⟨entries, hentries, _⟩ => hall ⟨entries, hentries⟩
    simp [h, hlen, hnot]

/-- **When `validate_transaction` returns**: as `is_balanced`, or an element is no entry. -/
theorem validate_succeeds_iff :
    (t.validate book).Succeeds ↔ t.entries.length < 2 ∨ SumsComplete t.entries ∨
      ¬ ∃ entries : List LedgerEntry, t.entries = entries.map .entry := by
  rw [validate_succeeds]
  by_cases hlen : t.entries.length < 2
  · obtain ⟨msg, h⟩ := validateEntryObjects_of_short hlen
    simp [h, hlen]
  by_cases hall : ∃ entries : List LedgerEntry, t.entries = entries.map .entry
  · obtain ⟨entries, hentries⟩ := hall
    rw [or_iff_right hlen, or_iff_left (not_not.mpr ⟨entries, hentries⟩)]
    rw [hentries] at hlen ⊢
    rw [raises_map_entry escapes_decimalSignal not_escapes_valueError (not_lt.mp hlen), not_not]
  · obtain ⟨msg, h⟩ := validateEntryObjects_of_other (not_lt.mp hlen) hall
    simp [h, hall]

/-- A posted transaction has passed the check. -/
theorem validateEntryObjects_of_posted (hposted : t.fields.state = .posted) :
    validateEntryObjects t.entries = .ok () := by
  obtain ⟨raw, h⟩ := t.built
  obtain ⟨reference, -, h⟩ := bind_eq_ok.mp h
  obtain ⟨description, -, h⟩ := bind_eq_ok.mp h
  obtain ⟨reversal, -, h⟩ := bind_eq_ok.mp h
  obtain ⟨-, h⟩ := guard_eq_ok.mp h
  by_cases hraw : raw.state = .posted
  · rw [if_pos hraw] at h
    obtain ⟨_, hcheck, h⟩ := bind_eq_ok.mp h
    rw [entries, ← Except.ok.inj h]
    exact hcheck
  · rw [if_neg hraw] at h
    rw [← Except.ok.inj h] at hposted
    exact absurd hposted hraw

/-- On a posted transaction `is_balanced` is true. -/
theorem isBalanced_of_posted (hposted : t.fields.state = .posted) : t.isBalanced = .ok true := by
  rw [isBalanced, validateEntryObjects_of_posted hposted]

end TransactionObject

/-! ### Transactions of entries -/

/-- Fields that have passed all checks are left as they are. -/
theorem TransactionObjectFields.postInit_eq_self {t : TransactionObjectFields}
    (hreference : requireNonEmptyStr t.reference "reference" = .ok t.reference)
    (hdescription : requireNonEmptyStr t.description "description" = .ok t.description)
    (hreversal : normalizeOptionalStr t.reversalOf "reversal_of" = .ok t.reversalOf)
    (hne : t.reversalOf ≠ some t.reference)
    (hcheck : t.state = .posted → validateEntryObjects t.entries = .ok ()) :
    t.postInit = .ok t := by
  rw [postInit, hreference, ok_bind, hdescription, ok_bind, hreversal, ok_bind, if_neg hne]
  by_cases hposted : t.state = .posted
  · rw [if_pos hposted, hcheck hposted]
    rfl
  · rw [if_neg hposted]
    rfl

/-- A transaction of the core, as an object. -/
def JournalTransaction.toObject (t : JournalTransaction) : TransactionObject where
  fields := t.fields.toObject
  built := by
    refine ⟨t.fields.toObject, TransactionObjectFields.postInit_eq_self (t.valid.reference _)
      (t.valid.description _) (t.valid.reversalOf _) t.valid.reversal_ne ?_⟩
    intro hposted
    exact (validateEntryObjects_map_entry _).trans (t.valid.balanced hposted)

theorem mapM_unknownAccount_map (book : Book) (entries : List LedgerEntry) :
    ∃ findings, (entries.map EntryObject.entry).mapM (TransactionObject.unknownAccount book) =
        .ok findings ∧
      findings.flatten =
        (entries.filter fun e => e.accountCode ∉ book.fields.accounts.map Account.code).map
          fun e => TransactionObject.unknownAccountFinding e.accountCode := by
  induction entries with
  | nil => exact ⟨[], rfl, rfl⟩
  | cons e entries ih =>
    obtain ⟨findings, hrest, hflatten⟩ := ih
    refine ⟨_, mapM_cons_eq_ok.mpr ⟨_, findings, rfl, hrest, rfl⟩, ?_⟩
    rw [List.flatten_cons, hflatten, List.filter_cons]
    by_cases hknown : e.accountCode ∈ book.fields.accounts.map Account.code
    · simp [hknown]
    · simp [hknown]

/-- On entries this is `validate_transaction` of the core. -/
theorem TransactionObject.validate_toObject (book : Book) (t : JournalTransaction) :
    t.toObject.validate book = validateTransaction book t := by
  have hentries : t.toObject.entries = t.entries.map .entry := rfl
  obtain ⟨findings, hfindings, hflatten⟩ := mapM_unknownAccount_map book t.entries
  rw [validate, validateTransaction, hentries, validateEntryObjects_map_entry, hfindings, ok_bind,
    hflatten]
  rfl

/-- **Both diagnostics return exactly when** the transaction has less than two entries, or
all its elements are entries and no total of theirs overflows. -/
theorem diagnostics_return_iff (book : Book) (t : TransactionObject) :
    t.isBalanced.Succeeds ∧ (t.validate book).Succeeds ↔
      t.entries.length < 2 ∨ SumsComplete t.entries := by
  rw [TransactionObject.isBalanced_succeeds_iff, TransactionObject.validate_succeeds_iff]
  exact and_iff_left_of_imp fun h => h.imp_right .inl

end

/-! ### Evaluated -/

namespace Reference

/-- The fields of a debit of `9E+999999` euros. -/
def hugeFields : LedgerEntryFields := euros "1000" .debit 9 999999

theorem hugeFields_valid : hugeFields.Valid ⟨false, 9, 999999⟩ where
  accountCode _ := rfl
  amount := rfl
  nonneg := by
    rw [Dec.value_eq]
    simp
  currency _ := rfl
  currencyText _ := rfl
  places := by
    rintro max ⟨⟩
    decide
  description _ := rfl
  taxRate := by
    rintro v ⟨⟩

/-- A debit of `9E+999999` euros. -/
def hugeDebit : LedgerEntry := ⟨hugeFields, hugeFields, hugeFields_valid.postInit⟩

/-- Twice nine times the largest power of ten is past the numbers of a context. -/
theorem limit_le_round_add (ctx : Dec.Context) :
    ctx.limit ≤ ctx.round (9 * 10 ^ ctx.emax) + 9 * 10 ^ ctx.emax := by
  have hpos := Dec.Context.zpow_ten_pos ctx.emax
  have hten : (10 : ℚ) ^ (ctx.emax + 1) = 10 ^ ctx.emax * 10 := zpow_add_one₀ (by norm_num) _
  have hlimit := ctx.limit_lt
  have hunit : ctx.unit (9 * 10 ^ ctx.emax) ≤ ctx.emax := by
    have hlog : Int.log 10 (9 * (10 : ℚ) ^ ctx.emax) < ctx.emax + 1 := by
      rw [← Int.lt_zpow_iff_log_lt (by norm_num) (by linarith)]
      push_cast
      linarith
    have hprec := ctx.prec_pos
    have hmin := ctx.emin_le_emax
    rw [Dec.Context.unit, Dec.Context.etiny]
    omega
  have hround := ctx.pow_le_round (by linarith) hunit
  linarith

/-- Twice this amount is past the decimals. -/
theorem not_totalsInRange_hugeDebit : ¬ TotalsInRange [hugeDebit, hugeDebit] := by
  intro h
  have hamounts : amounts .debit "EUR" [hugeDebit, hugeDebit] =
      [⟨false, 9, 999999⟩, ⟨false, 9, 999999⟩] := by decide
  have hvalue : Dec.value ⟨false, 9, 999999⟩ = 9 * 10 ^ Dec.defaultContext.emax := by
    rw [Dec.value_eq, if_neg Bool.false_ne_true, one_mul]
    rfl
  have hrange := h .debit "EUR" [⟨false, 9, 999999⟩] ⟨false, 9, 999999⟩ (by rw [hamounts]; rfl)
  rw [Dec.runningSum_cons, zero_add, hvalue] at hrange
  exact not_le.mpr hrange (limit_le_round_add _)

/-- The fields of a draft with the given entries. -/
def draftFields (entries : List EntryObject) : TransactionObjectFields :=
  { reference := "T2", postedAt := noon, description := "A draft", entries := entries,
    state := .draft }

/-- A draft with two debits. -/
def overflowing : TransactionObject :=
  ⟨draftFields [.entry hugeDebit, .entry hugeDebit],
    draftFields [.entry hugeDebit, .entry hugeDebit], by rfl⟩

/-- A draft whose entries are two texts. -/
def texts : TransactionObject :=
  ⟨draftFields [.other "str", .other "str"], draftFields [.other "str", .other "str"], by rfl⟩

example : texts.isBalanced =
    .error (.typeError "entries must contain LedgerEntry objects, got str") := by rfl

/-- On a draft whose debits overflow neither diagnostic returns. -/
theorem overflowing_raises :
    ¬ overflowing.isBalanced.Succeeds ∧ ¬ (overflowing.validate plainBook).Succeeds := by
  have hsums : ¬ SumsComplete ([hugeDebit, hugeDebit].map .entry) :=
    mt sumsComplete_map_entry.mp not_totalsInRange_hugeDebit
  rw [TransactionObject.isBalanced_succeeds_iff, TransactionObject.validate_succeeds_iff]
  refine ⟨?_, ?_⟩
  · rintro (h | h)
    · exact absurd h (by decide)
    · exact hsums h
  · rintro (h | h | h)
    · exact absurd h (by decide)
    · exact hsums h
    · exact h ⟨[hugeDebit, hugeDebit], rfl⟩

end Reference

end FinestVX
