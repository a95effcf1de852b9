import FinestVX.Validation.Reports

/-!
# Legislative packs

A pack validates a transaction by the rules of a jurisdiction.  Packs are registered under
their codes; validation in a subinterpreter looks the pack up in the default registry,
hands the issues over as primitive tuples and rebuilds them by their constructors.

## Main definitions

* `LegislativeIssue.postInit`, `LegislativeValidationResult.postInit` — the constructors.
* `LegislativePack`, `LegislativePackRegistry` — packs and where they are registered.
* `latviaStandard2026Pack`, `createDefaultPackRegistry` — the built-in pack.
* `validateInSubinterpreter`, `runnerValidate` — validation in a subinterpreter.
* `validateLegislativeTransaction` — validation in process.

## Main results

* `rebuild_eq` — a result that is taken apart is rebuilt as it was.
* `runnerValidate_eq` — validation in a subinterpreter is validation by the pack of the
  default registry.
* `latviaStandard2026Pack_succeeds` — the built-in pack never raises.
* `runnerValidate_succeeds_iff` — when validation in a subinterpreter returns.
-/

namespace FinestVX

open Except

section

variable [Platform]

/-! ### Issues and results -/

/-- The check of an optional index. -/
def requireEntryIndex : Option ℤ → Except PyError (Option ℤ)
  | none => .ok none
  | some n => (requireNonNegativeInt n "entry_index").map some

/-- `LegislativeIssue.__post_init__` -/
def LegislativeIssue.postInit (i : LegislativeIssue) : Except PyError LegislativeIssue := do
  let code ← requireNonEmptyStr i.code "code"
  let message ← requireNonEmptyStr i.message "message"
  let entryIndex ← requireEntryIndex i.entryIndex
  return { code, message, entryIndex }

/-- `LegislativeValidationResult.__post_init__` -/
def LegislativeValidationResult.postInit (r : LegislativeValidationResult) :
    Except PyError LegislativeValidationResult := do
  let packCode ← requireNonEmptyStr r.packCode "pack_code"
  return { r with packCode }

theorem requireEntryIndex_of_eq_ok {n r : Option ℤ} (h : requireEntryIndex n = .ok r) :
    requireEntryIndex r = .ok r := by
  cases n with
  | none =>
    cases h
    rfl
  | some n =>
    rw [requireEntryIndex] at h
    cases hn : requireNonNegativeInt n "entry_index" with
    | error e =>
      rw [hn] at h
      cases h
    | ok m =>
      rw [hn] at h
      cases h
      obtain ⟨rfl, -⟩ := (Platform.requireNonNegativeInt_eq_ok _ _ _).mp hn
      rw [requireEntryIndex, hn]
      rfl

/-- The position of an entry is an index. -/
theorem requireEntryIndex_natCast (n : ℕ) : requireEntryIndex (some (n : ℤ)) = .ok (some n) := by
  have hindex : requireNonNegativeInt (n : ℤ) "entry_index" = .ok (n : ℤ) :=
    (Platform.requireNonNegativeInt_eq_ok _ _ _).mpr ⟨rfl, Int.natCast_nonneg n⟩
  rw [requireEntryIndex, hindex]
  rfl

theorem LegislativeIssue.postInit_of_eq_ok {raw i : LegislativeIssue} (h : raw.postInit = .ok i) :
    i.postInit = .ok i := by
  obtain ⟨code, hcode, h⟩ := bind_eq_ok.mp h
  obtain ⟨message, hmessage, h⟩ := bind_eq_ok.mp h
  obtain ⟨index, hindex, h⟩ := bind_eq_ok.mp h
  cases h
  rw [postInit, requireNonEmptyStr_of_eq_ok hcode, ok_bind, requireNonEmptyStr_of_eq_ok hmessage,
    ok_bind, requireEntryIndex_of_eq_ok hindex]
  rfl

/-- A result made by the constructors. -/
structure LegislativeValidationResult.Constructed (r : LegislativeValidationResult) : Prop where
  packCode : requireNonEmptyStr r.packCode "pack_code" = .ok r.packCode
  issues : ∀ i ∈ r.issues, i.postInit = .ok i

/-- A result of issues made by their constructor. -/
theorem LegislativeValidationResult.constructed_of_eq_ok {raw r : LegislativeValidationResult}
    (h : raw.postInit = .ok r) (hissues : ∀ i ∈ raw.issues, i.postInit = .ok i) :
    r.Constructed := by
  obtain ⟨packCode, hcode, h⟩ := bind_eq_ok.mp h
  cases h
  exact ⟨requireNonEmptyStr_of_eq_ok hcode _, hissues⟩

/-! ### Packs and registries -/

/-- A legislative pack: its code, and its rules.  What it returns was made by the
constructors. -/
structure LegislativePack where
  /-- `metadata.pack_code` -/
  packCode : String
  validateTransaction : Book → JournalTransaction → Except PyError LegislativeValidationResult
  constructed : ∀ book t r, validateTransaction book t = .ok r → r.Constructed

/-- `LegislativePackRegistry`: the packs by their codes. -/
abbrev LegislativePackRegistry := Dict String LegislativePack

namespace LegislativePackRegistry

/-- `LegislativePackRegistry.register` -/
def register (registry : LegislativePackRegistry) (pack : LegislativePack) :
    Except PyError LegislativePackRegistry := do
  let packCode ← requireNonEmptyStr pack.packCode "pack_code"
  if packCode ∈ registry.keys then
    throw (.valueError s!"Legislative pack already registered: {packCode}")
  return registry.set packCode pack

/-- `LegislativePackRegistry(packs)` -/
def new (packs : List LegislativePack) : Except PyError LegislativePackRegistry :=
  packs.foldlM register []

/-- `LegislativePackRegistry.resolve` -/
def resolve (registry : LegislativePackRegistry) (packCode : String) :
    Except PyError LegislativePack := do
  let normalized ← requireNonEmptyStr packCode "pack_code"
  match registry.get? normalized with
  | some pack => return pack
  | none => throw (.keyError s!"Unknown legislative pack: {normalized}")

end LegislativePackRegistry

/-! ### The Latvian pack -/

/-- The code of the built-in pack. -/
def latviaPackCode : String := "lv.standard.2026"

/-- `_STANDARD_VAT_RATE` -/
def standardVatRate : Dec := ⟨false, 21, -2⟩

/-- `rate != _STANDARD_VAT_RATE` -/
def differsFromStandardRate : Decimal → Bool
  | .finite d _ => !d.numEq standardVatRate
  | _ => true

/-- The issue of an entry that is taxed at another rate. -/
def vatRateMismatch (index : ℕ) : LegislativeIssue where
  code := "LV_STANDARD_VAT_RATE_MISMATCH"
  message := "Latvia standard 2026 stub currently accepts only a " ++
    "21 percent VAT rate on explicitly taxed entries."
  entryIndex := some index

/-- The issue of a book that declares another pack. -/
def packCodeMismatch : LegislativeIssue where
  code := "LV_PACK_CODE_MISMATCH"
  message := "Book legislative_pack must match the Latvia standard 2026 " ++
    "pack code when this pack validates the transaction."

/-- The issues of a transaction, before their constructor has run. -/
def latviaIssues (book : Book) (t : JournalTransaction) : List LegislativeIssue :=
  (t.entries.zipIdx.filter fun e => e.1.fields.taxRate.any differsFromStandardRate).map
      (fun e => vatRateMismatch e.2) ++
    if book.fields.legislativePack ≠ latviaPackCode then [packCodeMismatch] else []

/-- `LatviaStandard2026Pack.validate_transaction` -/
def latviaValidateTransaction (book : Book) (t : JournalTransaction) :
    Except PyError LegislativeValidationResult := do
  let issues ← (latviaIssues book t).mapM LegislativeIssue.postInit
  LegislativeValidationResult.postInit ⟨latviaPackCode, issues⟩

theorem latviaValidateTransaction_constructed (book : Book) (t : JournalTransaction)
    (r : LegislativeValidationResult) (h : latviaValidateTransaction book t = .ok r) :
    r.Constructed := by
  obtain ⟨issues, hissues, h⟩ := bind_eq_ok.mp h
  refine LegislativeValidationResult.constructed_of_eq_ok h ?_
  intro i hi
  obtain ⟨raw, -, hraw⟩ := exists_of_mapM_eq_ok hissues i hi
  exact LegislativeIssue.postInit_of_eq_ok hraw

/-- `LatviaStandard2026Pack` -/
def latviaStandard2026Pack : LegislativePack where
  packCode := latviaPackCode
  validateTransaction := latviaValidateTransaction
  constructed := latviaValidateTransaction_constructed

/-- `create_default_pack_registry` -/
def createDefaultPackRegistry : Except PyError LegislativePackRegistry :=
  LegislativePackRegistry.new [latviaStandard2026Pack]

/-- The texts of the pack are normalised. -/
theorem requireNonEmptyStr_latvia {v : String} (h : v ∈ [latviaPackCode,
    (vatRateMismatch 0).code, (vatRateMismatch 0).message, packCodeMismatch.code,
    packCodeMismatch.message]) (f : String) : requireNonEmptyStr v f = .ok v := by
  have hall : ∀ v ∈ [latviaPackCode, (vatRateMismatch 0).code, (vatRateMismatch 0).message,
      packCodeMismatch.code, packCodeMismatch.message],
        Text.strip v ≠ "" ∧ v = Text.strip v := by decide +kernel
  exact requireNonEmptyStr_eq_ok.mpr (hall v h)

/-- What the built-in pack returns. -/
theorem latviaValidateTransaction_eq (book : Book) (t : JournalTransaction) :
    latviaValidateTransaction book t = .ok ⟨latviaPackCode, latviaIssues book t⟩ := by
  have hissues : (latviaIssues book t).mapM LegislativeIssue.postInit =
      .ok ((latviaIssues book t).map id) := by
    apply mapM_eq_ok_map
    intro i hi
    rcases List.mem_append.mp hi with hi | hi
    · obtain ⟨e, -, rfl⟩ := List.mem_map.mp hi
      have hindex : requireEntryIndex (vatRateMismatch e.2).entryIndex =
          .ok (vatRateMismatch e.2).entryIndex := requireEntryIndex_natCast e.2
      rw [LegislativeIssue.postInit, requireNonEmptyStr_latvia (by simp [vatRateMismatch]),
        ok_bind, requireNonEmptyStr_latvia (by simp [vatRateMismatch]), ok_bind, hindex]
      rfl
    · split at hi
      · rw [List.mem_singleton.mp hi, LegislativeIssue.postInit,
          requireNonEmptyStr_latvia (by simp), ok_bind, requireNonEmptyStr_latvia (by simp),
          ok_bind]
        rfl
      · cases hi
  rw [latviaValidateTransaction, hissues, List.map_id, ok_bind,
    LegislativeValidationResult.postInit, requireNonEmptyStr_latvia (by simp)]
  rfl

/-- **The built-in pack never raises.** -/
theorem latviaStandard2026Pack_succeeds (book : Book) (t : JournalTransaction) :
    (latviaStandard2026Pack.validateTransaction book t).Succeeds :=
  ⟨_, latviaValidateTransaction_eq book t⟩

theorem createDefaultPackRegistry_eq :
    createDefaultPackRegistry = .ok [(latviaPackCode, latviaStandard2026Pack)] := by
  have hcode : requireNonEmptyStr latviaStandard2026Pack.packCode "pack_code" =
      .ok latviaPackCode :=
    requireNonEmptyStr_latvia (by simp [latviaStandard2026Pack]) _
  rw [createDefaultPackRegistry, LegislativePackRegistry.new, List.foldlM_cons,
    LegislativePackRegistry.register, hcode]
  rfl

/-- The default registry has one pack. -/
theorem resolve_default {packCode : String} (h : requireNonEmptyStr packCode "pack_code" =
    .ok packCode) :
    LegislativePackRegistry.resolve [(latviaPackCode, latviaStandard2026Pack)] packCode =
      if packCode = latviaPackCode then .ok latviaStandard2026Pack
      else .error (.keyError s!"Unknown legislative pack: {packCode}") := by
  rw [LegislativePackRegistry.resolve, h, ok_bind]
  by_cases hcode : packCode = latviaPackCode
  · subst hcode
    rfl
  · rw [if_neg hcode, Dict.get?, if_neg fun heq => hcode heq.symm]
    rfl

/-! ### Validation in process and in a subinterpreter -/

/-- The primitive data that leaves a subinterpreter. -/
abbrev RawResult := String × List (String × String × Option ℤ)

/-- A result taken apart. -/
def LegislativeValidationResult.flatten (r : LegislativeValidationResult) : RawResult :=
  (r.packCode, r.issues.map fun i => (i.code, i.message, i.entryIndex))

/-- A result rebuilt from primitive data. -/
def rebuild (raw : RawResult) : Except PyError LegislativeValidationResult := do
  let issues ← raw.2.mapM fun (code, message, entryIndex) =>
    LegislativeIssue.postInit { code, message, entryIndex }
  LegislativeValidationResult.postInit ⟨raw.1, issues⟩

/-- `_validate_in_subinterpreter` -/
def validateInSubinterpreter (packCode : String) (book : Book) (t : JournalTransaction) :
    Except PyError RawResult := do
  let registry ← createDefaultPackRegistry
  let pack ← registry.resolve packCode
  let result ← pack.validateTransaction book t
  return result.flatten

/-- What `interp.call` raises for an exception of the function: another one, that says what it
was. -/
def executionFailed (e : PyError) : PyError := .fault ("ExecutionFailed: " ++ e.message)

/-- `LegislativeInterpreterRunner.validate`; the interpreter runs the function on what it is
given and hands over what it returns. -/
def runnerValidate (packCode : String) (book : Book) (t : JournalTransaction) :
    Except PyError LegislativeValidationResult := do
  rebuild (← (validateInSubinterpreter packCode book t).mapError executionFailed)

/-- **A result that is taken apart is rebuilt as it was.** -/
theorem rebuild_eq {r : LegislativeValidationResult} (h : r.Constructed) :
    rebuild r.flatten = .ok r := by
  have hissues := mapM_map_eq_ok_self (f := fun raw : String × String × Option ℤ =>
    LegislativeIssue.postInit ⟨raw.1, raw.2.1, raw.2.2⟩)
    (g := fun i : LegislativeIssue => (i.code, i.message, i.entryIndex)) h.issues
  change (List.mapM _ _ >>= _) = _
  rw [show (r.flatten.2.mapM fun raw : String × String × Option ℤ =>
    LegislativeIssue.postInit ⟨raw.1, raw.2.1, raw.2.2⟩) = .ok r.issues from hissues, ok_bind,
    LegislativeValidationResult.postInit]
  change (requireNonEmptyStr r.packCode "pack_code" >>= _) = _
  rw [h.packCode]
  rfl

/-- **Validation in a subinterpreter** is validation by the pack of the default registry. -/
theorem runnerValidate_eq_ok {packCode : String} {book : Book} {t : JournalTransaction}
    {r : LegislativeValidationResult} : runnerValidate packCode book t = .ok r ↔
      ∃ pack, LegislativePackRegistry.resolve [(latviaPackCode, latviaStandard2026Pack)] packCode =
        .ok pack ∧ pack.validateTransaction book t = .ok r := by
  rw [runnerValidate, validateInSubinterpreter, createDefaultPackRegistry_eq, ok_bind, bind_eq_ok]
  simp only [mapError_eq_ok, bind_eq_ok]
  constructor
  · rintro ⟨raw, ⟨pack, hpack, result, hresult, hraw⟩, h⟩
    cases hraw
    rw [rebuild_eq (pack.constructed book t result hresult)] at h
    exact ⟨pack, hpack, hresult.trans h⟩
  · rintro ⟨pack, hpack, hr⟩
    exact ⟨r.flatten, ⟨pack, hpack, r, hr, rfl⟩, rebuild_eq (pack.constructed book t r hr)⟩

/-- The subinterpreter validates the transactions of a book exactly when its pack is the
built-in one. -/
theorem runnerValidate_succeeds_iff {book : Book} {t : JournalTransaction} :
    (runnerValidate book.fields.legislativePack book t).Succeeds ↔
      book.fields.legislativePack = latviaPackCode := by
  rw [Except.Succeeds]
  simp only [runnerValidate_eq_ok, resolve_default (book.valid.legislativePack _)]
  by_cases hcode : book.fields.legislativePack = latviaPackCode
  · rw [if_pos hcode]
    refine iff_of_true ?_ hcode
    exact ⟨_, _, rfl, latviaValidateTransaction_eq book t⟩
  · rw [if_neg hcode]
    simp [hcode]

/-- `report_from_legislative_result` -/
def reportFromLegislativeResult (r : LegislativeValidationResult) : ValidationReport :=
  ⟨r.issues.map fun i => ⟨i.code, i.message, .error, "legislation." ++ r.packCode⟩⟩

/-- `validate_legislative_transaction` -/
def validateLegislativeTransaction (registry : LegislativePackRegistry) (book : Book)
    (t : JournalTransaction) : Except PyError ValidationReport := do
  let pack ← registry.resolve book.fields.legislativePack
  let result ← pack.validateTransaction book t
  return reportFromLegislativeResult result

theorem validateLegislativeTransaction_eq_ok {registry : LegislativePackRegistry} {book : Book}
    {t : JournalTransaction} {report : ValidationReport} :
    validateLegislativeTransaction registry book t = .ok report ↔
      ∃ pack, registry.resolve book.fields.legislativePack = .ok pack ∧
        ∃ r, pack.validateTransaction book t = .ok r ∧ report = reportFromLegislativeResult r := by
  rw [validateLegislativeTransaction, bind_eq_ok]
  simp only [bind_eq_ok, pure_eq_ok, Except.ok.injEq]
  simp only [eq_comm (b := report)]

end

end FinestVX
