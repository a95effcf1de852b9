import FinestVX.Lib.Checked
import FinestVX.Lib.DecimalText
import FinestVX.Core.Calendar

/-!
# What the bookkeeping core relies on

The core calls functions of `ftllexengine` and of the Python library whose
source is not part of this repository.  `Platform` is the parameter they enter
the development by: the functions, and the part of their documented behaviour
that the core depends on.

## Main definitions

* `PyError` — the exceptions that are raised.
* `Platform` — the external functions and their laws.
* `Json` — JSON values, as they stand in the audit log.
* `FiscalPeriod`, `FiscalCalendar` — values the external constructors accept.
* `normalizeCurrency` — validation of currency codes.

## Main results

* `requireNonEmptyStr_of_eq_ok`, `normalizeOptionalStr_of_eq_ok`,
  `normalizeCurrency_of_eq_ok` — a normalised value passes its check again,
  unchanged.
-/

namespace FinestVX

open Text

/-- The exceptions raised by the code and by what it calls. -/
inductive PyError
  | typeError (msg : String)
  | valueError (msg : String)
  | keyError (msg : String)
  | overflowError (msg : String)
  | decimalSignal (signal : Dec.Signal)
  | constraintError (msg : String)
  | persistenceIntegrityError (msg : String)
  | ledgerInvariantError (msg invariantCode entityRef : String)
  | stopIteration
  | documentInvalid (msg : String)
  /-- A fault of the database, of the operating system or of a subinterpreter. -/
  | fault (msg : String)
  deriving DecidableEq, Repr

namespace PyError

/-- `except (TypeError, ValueError)`. -/
def isTypeOrValueError : PyError → Bool
  | typeError _ | valueError _ => true
  | _ => false

/-- `str(exc)`. -/
def message : PyError → String
  | typeError m | valueError m | keyError m | overflowError m | constraintError m
  | persistenceIntegrityError m | ledgerInvariantError m _ _ | documentInvalid m | fault m => m
  | stopIteration => ""
  | decimalSignal .overflow => "[<class 'decimal.Overflow'>]"
  | decimalSignal .invalidOperation => "[<class 'decimal.InvalidOperation'>]"

end PyError

/-- The amount type of `ftllexengine`: a wrapper of a decimal. -/
structure FluentNumber where
  decimalValue : Decimal
  deriving DecidableEq, Repr

/-- A JSON value, as SQLite and the `json` module write it. -/
inductive Json
  | null
  | int (n : ℤ)
  | text (s : String)
  | array (l : List Json)
  | object (fields : List (String × Json))

namespace Json

def ofText? : Option String → Json
  | none => null
  | some s => text s

def ofInt? : Option ℤ → Json
  | none => null
  | some n => int n

end Json

/-- The functions the core calls outside this repository. -/
class Platform where
  /-- `ftllexengine.require_non_empty_str` -/
  requireNonEmptyStr (value fieldName : String) : Except PyError String
  /-- `ftllexengine.normalize_optional_str` -/
  normalizeOptionalStr (value : Option String) (fieldName : String) :
    Except PyError (Option String)
  /-- `ftllexengine.normalize_optional_decimal_range` -/
  normalizeOptionalDecimalRange (value : Option Decimal) (lo hi : Dec) (fieldName : String) :
    Except PyError (Option Decimal)
  /-- `ftllexengine.require_positive_int` -/
  requirePositiveInt (value : ℤ) (fieldName : String) : Except PyError ℤ
  /-- `ftllexengine.require_non_negative_int` -/
  requireNonNegativeInt (value : ℤ) (fieldName : String) : Except PyError ℤ
  /-- `ftllexengine.make_fluent_number` -/
  makeFluentNumber : Decimal → FluentNumber
  /-- `ftllexengine.introspection.is_valid_currency_code` -/
  isValidCurrencyCode : String → Bool
  /-- `ftllexengine.introspection.get_currency_decimal_digits` -/
  getCurrencyDecimalDigits : String → Option ℕ
  /-- The checks of the `ftllexengine.FiscalPeriod` constructor. -/
  checkFiscalPeriod (fiscalYear quarter month : ℤ) : Except PyError Unit
  /-- The checks of the `ftllexengine.FiscalCalendar` constructor. -/
  checkFiscalCalendar (startMonth : ℤ) : Except PyError Unit
  /-- `str.upper` -/
  upper : String → String
  /-- `date.fromisoformat` -/
  dateFromIsoformat : String → Except PyError Date
  /-- `datetime.fromisoformat` -/
  datetimeFromIsoformat : String → Except PyError DateTime
  /-- `repr` of a text -/
  strRepr : String → String
  /-- `repr` of a fiscal period -/
  fiscalPeriodRepr (fiscalYear quarter month : ℤ) : String
  /-- The text of a JSON value. -/
  jsonText : Json → String
  /-- `blake2b(text.encode("utf-8"), digest_size=16).hexdigest()` -/
  blake2Hex : String → String
  /-- White space is stripped, and a blank text is refused. -/
  requireNonEmptyStr_eq : ∀ v f, requireNonEmptyStr v f =
    if strip v = "" then .error (.valueError (f ++ " cannot be blank")) else .ok (strip v)
  /-- `None` is passed through. -/
  normalizeOptionalStr_none : ∀ f, normalizeOptionalStr none f = .ok none
  /-- Anything else is a text that must not be blank. -/
  normalizeOptionalStr_some : ∀ v f,
    normalizeOptionalStr (some v) f = (requireNonEmptyStr v f).map some
  /-- `None` is passed through. -/
  normalizeOptionalDecimalRange_none : ∀ lo hi f,
    normalizeOptionalDecimalRange none lo hi f = .ok none
  /-- Exactly the finite numbers in range are accepted, and returned unchanged. -/
  normalizeOptionalDecimalRange_some : ∀ v lo hi f r,
    normalizeOptionalDecimalRange (some v) lo hi f = .ok r ↔
      r = some v ∧ ∃ d, v.toDec? = some d ∧ lo.value ≤ d.value ∧ d.value ≤ hi.value
  /-- Exactly the positive integers are accepted, and returned unchanged. -/
  requirePositiveInt_eq_ok : ∀ v f r, requirePositiveInt v f = .ok r ↔ r = v ∧ 0 < v
  /-- Exactly the integers that are not negative are accepted, and returned unchanged. -/
  requireNonNegativeInt_eq_ok : ∀ v f r, requireNonNegativeInt v f = .ok r ↔ r = v ∧ 0 ≤ v
  /-- The wrapped number is the number that was given. -/
  decimalValue_makeFluentNumber : ∀ d, (makeFluentNumber d).decimalValue = d
  /-- ISO 4217 codes are three capital letters. -/
  isUpper_of_isValidCurrencyCode : ∀ c, isValidCurrencyCode c = true →
    c.toList.length = 3 ∧ ∀ ch ∈ c.toList, ch.isUpper = true
  /-- Capital letters are in upper case. -/
  upper_of_isUpper : ∀ s, (∀ ch ∈ s.toList, ch.isUpper = true) → upper s = s
  /-- `fromisoformat` inverts `isoformat`. -/
  dateFromIsoformat_isoformat : ∀ d : Date, dateFromIsoformat d.isoformat = .ok d
  /-- A text with a time of day is not the text of a date. -/
  dateFromIsoformat_datetime : ∀ t : DateTime,
    ∃ msg, dateFromIsoformat t.isoformat = .error (.valueError msg)
  /-- `fromisoformat` inverts `isoformat`. -/
  datetimeFromIsoformat_isoformat : ∀ t : DateTime, datetimeFromIsoformat t.isoformat = .ok t

export Platform (requireNonEmptyStr normalizeOptionalStr normalizeOptionalDecimalRange
  requirePositiveInt requireNonNegativeInt makeFluentNumber isValidCurrencyCode
  getCurrencyDecimalDigits dateFromIsoformat
  datetimeFromIsoformat strRepr)

attribute [simp] Platform.normalizeOptionalStr_none Platform.normalizeOptionalDecimalRange_none
  Platform.decimalValue_makeFluentNumber Platform.dateFromIsoformat_isoformat
  Platform.datetimeFromIsoformat_isoformat

variable [Platform]

/-! ### Texts -/

theorem requireNonEmptyStr_eq_ok {v f r : String} :
    requireNonEmptyStr v f = .ok r ↔ strip v ≠ "" ∧ r = strip v := by
  rw [Platform.requireNonEmptyStr_eq]
  by_cases h : strip v = ""
  · simp [h]
  · rw [if_neg h, Except.ok.injEq]
    exact ⟨fun hr => ⟨h, hr.symm⟩, fun hr => hr.2.symm⟩

/-- A text that was normalised passes every later check unchanged. -/
theorem requireNonEmptyStr_of_eq_ok {v f r : String} (h : requireNonEmptyStr v f = .ok r)
    (f' : String) : requireNonEmptyStr r f' = .ok r := by
  obtain ⟨hv, rfl⟩ := requireNonEmptyStr_eq_ok.mp h
  exact requireNonEmptyStr_eq_ok.mpr ⟨by rwa [strip_strip], (strip_strip v).symm⟩

theorem normalizeOptionalStr_of_eq_ok {v r : Option String} {f : String}
    (h : normalizeOptionalStr v f = .ok r) (f' : String) : normalizeOptionalStr r f' = .ok r := by
  cases v with
  | none =>
    obtain rfl : none = r := by simpa using h
    simp
  | some v =>
    rw [Platform.normalizeOptionalStr_some] at h
    cases hv : requireNonEmptyStr v f with
    | error e =>
      rw [hv] at h
      cases h
    | ok s =>
      rw [hv] at h
      cases h
      rw [Platform.normalizeOptionalStr_some, requireNonEmptyStr_of_eq_ok hv]
      rfl

/-- A text that is not `None` is stripped. -/
theorem eq_of_normalizeOptionalStr {v r : Option String} {f : String}
    (h : normalizeOptionalStr v f = .ok r) : r = v.map strip := by
  cases v with
  | none => simpa [eq_comm] using h
  | some v =>
    rw [Platform.normalizeOptionalStr_some] at h
    cases hv : requireNonEmptyStr v f with
    | error e =>
      rw [hv] at h
      cases h
    | ok s =>
      rw [hv] at h
      cases h
      rw [(requireNonEmptyStr_eq_ok.mp hv).2]
      rfl

/-! ### Currencies -/

/-- `_normalize_currency` -/
def normalizeCurrency (value fieldName : String) : Except PyError String := do
  let normalized := Platform.upper (← requireNonEmptyStr value fieldName)
  if isValidCurrencyCode normalized then return normalized
  else throw (.valueError
    s!"{fieldName} must be a valid ISO 4217 currency code, got {strRepr value}")

theorem strip_of_isValidCurrencyCode {c : String} (h : isValidCurrencyCode c = true) :
    strip c = c ∧ c ≠ "" := by
  obtain ⟨hlen, hup⟩ := Platform.isUpper_of_isValidCurrencyCode c h
  refine ⟨strip_eq_self fun ch hch => isSpace_of_isUpper (hup ch hch), ?_⟩
  rintro rfl
  simp at hlen

/-- A valid currency code is normalised. -/
theorem normalizeCurrency_of_isValidCurrencyCode {c : String} (h : isValidCurrencyCode c = true)
    (f : String) : normalizeCurrency c f = .ok c := by
  obtain ⟨hstrip, hne⟩ := strip_of_isValidCurrencyCode h
  have hreq : requireNonEmptyStr c f = .ok c :=
    requireNonEmptyStr_eq_ok.mpr ⟨by rwa [hstrip], hstrip.symm⟩
  have hup := Platform.upper_of_isUpper c (Platform.isUpper_of_isValidCurrencyCode c h).2
  rw [normalizeCurrency, hreq, Except.ok_bind]
  dsimp only
  rw [hup, if_pos h]
  rfl

theorem isValidCurrencyCode_of_eq_ok {v f c : String} (h : normalizeCurrency v f = .ok c) :
    isValidCurrencyCode c = true := by
  obtain ⟨s, -, h⟩ := Except.bind_eq_ok.mp h
  dsimp only at h
  split at h
  · next hvalid =>
    cases h
    exact hvalid
  · cases h

/-- A currency code is stripped and put in upper case. -/
theorem eq_of_normalizeCurrency {v f c : String} (h : normalizeCurrency v f = .ok c) :
    c = Platform.upper (strip v) := by
  obtain ⟨s, hs, h⟩ := Except.bind_eq_ok.mp h
  dsimp only at h
  split at h
  · cases h
    rw [(requireNonEmptyStr_eq_ok.mp hs).2]
  · cases h

theorem normalizeCurrency_of_eq_ok {v f c : String} (h : normalizeCurrency v f = .ok c)
    (f' : String) : normalizeCurrency c f' = .ok c :=
  normalizeCurrency_of_isValidCurrencyCode (isValidCurrencyCode_of_eq_ok h) f'

theorem requireNonEmptyStr_currency {v f c : String} (h : normalizeCurrency v f = .ok c)
    (f' : String) : requireNonEmptyStr c f' = .ok c := by
  obtain ⟨hstrip, hne⟩ := strip_of_isValidCurrencyCode (isValidCurrencyCode_of_eq_ok h)
  exact requireNonEmptyStr_eq_ok.mpr ⟨by rwa [hstrip], hstrip.symm⟩

/-! ### Fiscal periods and calendars -/

/-- `ftllexengine.FiscalPeriod` -/
structure FiscalPeriod where
  fiscalYear : ℤ
  quarter : ℤ
  month : ℤ
  accepted : Platform.checkFiscalPeriod fiscalYear quarter month = .ok ()
  deriving DecidableEq

namespace FiscalPeriod

/-- `FiscalPeriod(fiscal_year, quarter, month)` -/
def new (fiscalYear quarter month : ℤ) : Except PyError FiscalPeriod :=
  match h : Platform.checkFiscalPeriod fiscalYear quarter month with
  | .ok () => .ok ⟨fiscalYear, quarter, month, h⟩
  | .error e => .error e

@[simp] theorem new_fields (p : FiscalPeriod) :
    new p.fiscalYear p.quarter p.month = .ok p := by
  obtain ⟨y, q, m, h⟩ := p
  unfold new
  split
  · rfl
  · next e he => simp [h] at he

theorem fields_of_new {y q m : ℤ} {p : FiscalPeriod} (h : new y q m = .ok p) :
    p.fiscalYear = y ∧ p.quarter = q ∧ p.month = m := by
  unfold new at h
  split at h
  · cases h
    exact ⟨rfl, rfl, rfl⟩
  · cases h

/-- `repr(period)` -/
def repr (p : FiscalPeriod) : String := Platform.fiscalPeriodRepr p.fiscalYear p.quarter p.month

end FiscalPeriod

/-- `ftllexengine.FiscalCalendar` -/
structure FiscalCalendar where
  startMonth : ℤ
  accepted : Platform.checkFiscalCalendar startMonth = .ok ()
  deriving DecidableEq

namespace FiscalCalendar

/-- `FiscalCalendar(start_month)` -/
def new (startMonth : ℤ) : Except PyError FiscalCalendar :=
  match h : Platform.checkFiscalCalendar startMonth with
  | .ok () => .ok ⟨startMonth, h⟩
  | .error e => .error e

@[simp] theorem new_fields (c : FiscalCalendar) : new c.startMonth = .ok c := by
  obtain ⟨m, h⟩ := c
  unfold new
  split
  · rfl
  · next e he => simp [h] at he

theorem startMonth_of_new {m : ℤ} {c : FiscalCalendar} (h : new m = .ok c) :
    c.startMonth = m := by
  unfold new at h
  split at h
  · cases h
    rfl
  · cases h

end FiscalCalendar

/-! ### Comparison of dates -/

/-- `a <= b` on values accepted as dates. -/
def DateValue.le? (a b : DateValue) : Except PyError Bool :=
  if a.kind = b.kind then .ok (a.key ≤ b.key)
  else if a.kind = .date ∨ b.kind = .date then
    .error (.typeError "can't compare datetime.datetime to datetime.date")
  else .error (.typeError "can't compare offset-naive and offset-aware datetimes")

/-- `a < b` on values accepted as dates. -/
def DateValue.lt? (a b : DateValue) : Except PyError Bool := (b.le? a).map not

end FinestVX
