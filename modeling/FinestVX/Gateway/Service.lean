import FinestVX.Legislation.Packs
import FinestVX.Persistence.Reversal

/-!
# Validation by the service

The service validates a transaction against a stored book in process, with the registry it
was given, and in a subinterpreter, which knows the default registry only.

## Main definitions

* `FinestVXService` — the service, with its registry of packs.
* `getBook` — loading the book a request is about.
* `FinestVXService.validateTransaction`, `FinestVXService.validateTransactionIsolated` — the
  two ways to validate.

## Main results

* `validateTransactionIsolated_eq` — **the two return the same report** when the packs that the
  two registries have for the book do.
* `Reference.ownPack_isolated` — a registered pack the subinterpreter does not know.
-/

namespace FinestVX

open Except

section

variable [Platform]

/-- `FinestVXService`: the registry of its packs. -/
structure FinestVXService where
  registry : LegislativePackRegistry

/-- `FinestVXService.get_book`; the store raises a fault of its own, or loads the book. -/
def getBook (readFault : Option PyError) (tables : Tables) (code : String) :
    Except PyError Book := do
  raising readFault
  loadBook tables code

/-- The findings of the core and of the pack. -/
def combined (coreReport legislativeReport : ValidationReport) : ValidationReport :=
  ⟨coreReport.findings ++ legislativeReport.findings⟩

namespace FinestVXService

/-- `FinestVXService.validate_transaction` -/
def validateTransaction (s : FinestVXService) (readFault : Option PyError) (tables : Tables)
    (code : String) (t : JournalTransaction) : Except PyError ValidationReport := do
  let book ← getBook readFault tables code
  let coreReport ← FinestVX.validateTransaction book t
  let legislativeReport ← validateLegislativeTransaction s.registry book t
  return combined coreReport legislativeReport

/-- `FinestVXService.validate_transaction_isolated` -/
def validateTransactionIsolated (_ : FinestVXService) (readFault : Option PyError)
    (tables : Tables) (code : String) (t : JournalTransaction) :
    Except PyError ValidationReport := do
  let book ← getBook readFault tables code
  let coreReport ← FinestVX.validateTransaction book t
  let result ← runnerValidate book.fields.legislativePack book t
  return combined coreReport (reportFromLegislativeResult result)

variable {s : FinestVXService} {readFault : Option PyError} {tables : Tables} {code : String}
  {t : JournalTransaction} {book : Book} {p q : LegislativePack}

/-- **The two ways to validate agree** on a stored book whose pack both registries have, when
the two packs give the same results for the transaction: one of them returns a report just when
the other does, and it is the same. -/
theorem validateTransactionIsolated_eq (hload : getBook readFault tables code = .ok book)
    (hown : s.registry.resolve book.fields.legislativePack = .ok p)
    (hdefault : (createDefaultPackRegistry >>= fun registry =>
      registry.resolve book.fields.legislativePack) = .ok q)
    (hsame : ∀ r, p.validateTransaction book t = .ok r ↔ q.validateTransaction book t = .ok r)
    (report : ValidationReport) :
    s.validateTransactionIsolated readFault tables code t = .ok report ↔
      s.validateTransaction readFault tables code t = .ok report := by
  rw [createDefaultPackRegistry_eq, ok_bind] at hdefault
  have hrunner : ∀ r, runnerValidate book.fields.legislativePack book t = .ok r ↔
      p.validateTransaction book t = .ok r := by
    intro r
    rw [runnerValidate_eq_ok, hsame r]
    simp [hdefault]
  have hlegislative : ∀ x, validateLegislativeTransaction s.registry book t = .ok x ↔
      ∃ r, p.validateTransaction book t = .ok r ∧ x = reportFromLegislativeResult r := by
    intro x
    rw [validateLegislativeTransaction_eq_ok]
    simp [hown]
  rw [validateTransactionIsolated, validateTransaction, hload, ok_bind, ok_bind, bind_eq_ok,
    bind_eq_ok]
  refine exists_congr fun core => and_congr_right fun _ => ?_
  rw [bind_eq_ok, bind_eq_ok]
  constructor
  · rintro ⟨r, hr, h⟩
    exact ⟨_, (hlegislative _).mpr ⟨r, (hrunner r).mp hr, rfl⟩, h⟩
  · rintro ⟨x, hx, h⟩
    obtain ⟨r, hr, rfl⟩ := (hlegislative x).mp hx
    exact ⟨r, (hrunner r).mpr hr, h⟩

end FinestVXService

end

/-! ### Evaluated -/

namespace Reference

/-- The fields of a book under the built-in pack, with the given transactions. -/
def latvianFields (transactions : List JournalTransaction) : BookFields :=
  { bookFields [plainJanuary] transactions with legislativePack := latviaPackCode }

/-- A book under the built-in pack. -/
def latvianBook : Book := ⟨latvianFields [sale], latvianFields [sale], by rfl⟩

/-- The database with the book. -/
def latvianStored : Database := (call (.createBook latvianBook)).after {}

/-- A pack without rules, for the books of the examples. -/
def ownPack : LegislativePack where
  packCode := "lv"
  validateTransaction _ _ := .ok ⟨"lv", []⟩
  constructed _ _ r h := by
    cases h
    exact ⟨by rfl, by simp⟩

/-- The service with the default registry. -/
def defaultService : FinestVXService := ⟨[(latviaPackCode, latviaStandard2026Pack)]⟩

/-- The service with a registry of its own. -/
def ownService : FinestVXService := ⟨[("lv", ownPack)]⟩

theorem createBook_latvianBook : createBook {} auditor latvianBook {} =
    (.ok (buildWriteReceipt (bookRows latvianBook.fields)), latvianStored) :=
  Prod.ext (by rfl) rfl

/-- The same sale, on an account that the book does not have and under two reduced rates. -/
def taxedFields : JournalTransactionFields :=
  { hundred with
    reference := "T2"
    entries := [
      ⟨{ euros "1000" .debit 10000 (-2) with taxRate := some (.ofDec ⟨false, 12, -2⟩) },
        { euros "1000" .debit 10000 (-2) with taxRate := some (.ofDec ⟨false, 12, -2⟩) }, by rfl⟩,
      ⟨{ euros "3000" .credit 10000 (-2) with taxRate := some (.ofDec ⟨false, 5, -2⟩) },
        { euros "3000" .credit 10000 (-2) with taxRate := some (.ofDec ⟨false, 5, -2⟩) }, by rfl⟩] }

def taxed : JournalTransaction := ⟨taxedFields, taxedFields, by rfl⟩

/-- The finding of the core. -/
def unknownAccount : ValidationFinding :=
  ⟨"TRANSACTION_UNKNOWN_ACCOUNT", "Unknown account code: 3000", .error, "core.transaction"⟩

/-- The finding of the core and those of the pack are reported in both ways. -/
theorem isolated_taxed : ∃ report,
    report.findings.map (fun f => (f.code, f.source)) =
      [("TRANSACTION_UNKNOWN_ACCOUNT", "core.transaction"),
        ("LV_STANDARD_VAT_RATE_MISMATCH", "legislation.lv.standard.2026"),
        ("LV_STANDARD_VAT_RATE_MISMATCH", "legislation.lv.standard.2026")] ∧
      defaultService.validateTransaction none latvianStored.tables "BK" taxed = .ok report ∧
      defaultService.validateTransactionIsolated none latvianStored.tables "BK" taxed =
        .ok report := by
  obtain ⟨book, hloaded, hbook⟩ :=
    roundTrip_of_createBook schemaValid_empty createBook_latvianBook (by decide)
  have hload : getBook none latvianStored.tables "BK" = .ok book := hloaded
  have hpack : book.fields.legislativePack = latviaPackCode := hbook.legislativePack
  have hresolve : defaultService.registry.resolve book.fields.legislativePack =
      .ok latviaStandard2026Pack := by
    rw [hpack]
    rfl
  -- the findings of the core, and the issues of the pack
  have hcore : FinestVX.validateTransaction book taxed = .ok ⟨[unknownAccount]⟩ := by
    have hvalidated : (getBook none latvianStored.tables "BK" >>= fun book =>
        FinestVX.validateTransaction book taxed) = .ok ⟨[unknownAccount]⟩ := by rfl
    rwa [hload] at hvalidated
  have hissues : latviaIssues book taxed = [vatRateMismatch 0, vatRateMismatch 1] := by
    rw [latviaIssues, if_neg (not_not.mpr hpack)]
    rfl
  have hreport : defaultService.validateTransaction none latvianStored.tables "BK" taxed =
      .ok (combined ⟨[unknownAccount]⟩
        (reportFromLegislativeResult ⟨latviaPackCode, latviaIssues book taxed⟩)) := by
    refine bind_eq_ok.mpr ⟨book, hload, bind_eq_ok.mpr ⟨_, hcore, bind_eq_ok.mpr ⟨_, ?_, rfl⟩⟩⟩
    exact validateLegislativeTransaction_eq_ok.mpr
      ⟨_, hresolve, _, latviaValidateTransaction_eq book taxed, rfl⟩
  refine ⟨_, ?_, hreport, ?_⟩
  · rw [hissues]
    rfl
  · refine (FinestVXService.validateTransactionIsolated_eq hload hresolve ?_ (fun _ => .rfl)
      _).mpr hreport
    rw [createDefaultPackRegistry_eq]
    exact hresolve

/-- A pack is registered, and the subinterpreter does not know it. -/
theorem ownPack_isolated : ownService.registry = [("lv", ownPack)] ∧
    (∃ book, getBook none saleStored.tables "BK" = .ok book ∧
      ownService.registry.resolve book.fields.legislativePack = .ok ownPack) ∧
    ownService.validateTransaction none saleStored.tables "BK" known = .ok ⟨[]⟩ ∧
    ownService.validateTransactionIsolated none saleStored.tables "BK" known =
      .error (executionFailed (.keyError "Unknown legislative pack: lv")) := by
  refine ⟨rfl, ?_, by rfl, by rfl⟩
  exact ⟨_, by rfl, by rfl⟩

end Reference

end FinestVX
