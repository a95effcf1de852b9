import Mathlib.Order.Basic
import Mathlib.Order.Defs.LinearOrder
import FinestVX.Lib.Text

/-!
# Dates, datetimes and their ISO texts

The `date` and `datetime` values of the bookkeeping core.  A `datetime` is a
`date` in the class hierarchy, so whatever is checked with
`isinstance(value, date)` may hold either: `DateValue` is the sum of the two.

## Main definitions

* `Date`, `DateTime`, `DateValue`.
* `Date.isoformat`, `DateTime.isoformat` — the texts that are stored.
* `DateValue.le?` — comparison, which raises across kinds.

## Main results

* `Date.isoformat_le_iff` — the texts of dates are ordered as the dates.
-/

namespace FinestVX

open Text

/-! ### Dates -/

/-- The number of days of a month. -/
def daysInMonth (year month : ℕ) : ℕ :=
  if month = 2 then
    if year % 4 = 0 ∧ (year % 100 ≠ 0 ∨ year % 400 = 0) then 29 else 28
  else if month = 4 ∨ month = 6 ∨ month = 9 ∨ month = 11 then 30
  else 31

/-- `datetime.date`. -/
structure Date where
  year : ℕ
  month : ℕ
  day : ℕ
  year_range : 1 ≤ year ∧ year ≤ 9999
  month_range : 1 ≤ month ∧ month ≤ 12
  day_range : 1 ≤ day ∧ day ≤ daysInMonth year month
  deriving DecidableEq, Repr

namespace Date

theorem day_le (d : Date) : d.day ≤ 31 := by
  have h := d.day_range.2
  unfold daysInMonth at h
  split_ifs at h <;> omega

/-- The position of a date among all triples of year, month and day. -/
def index (d : Date) : ℕ := (d.year * 12 + (d.month - 1)) * 31 + (d.day - 1)

/-- Dates are ordered by year, then month, then day. -/
theorem index_lt_iff {a b : Date} : a.index < b.index ↔
    a.year < b.year ∨
      a.year = b.year ∧ (a.month < b.month ∨ a.month = b.month ∧ a.day < b.day) := by
  have := a.month_range
  have := b.month_range
  have := a.day_range
  have := b.day_range
  have := a.day_le
  have := b.day_le
  unfold index
  omega

theorem index_injective : Function.Injective index := by
  intro a b h
  have hab : ¬ a.index < b.index := by omega
  have hba : ¬ b.index < a.index := by omega
  rw [index_lt_iff] at hab hba
  obtain ⟨y, m, d, _, _, _⟩ := a
  obtain ⟨y', m', d', _, _, _⟩ := b
  obtain ⟨rfl, rfl, rfl⟩ : y = y' ∧ m = m' ∧ d = d' := by
    simp only at hab hba
    omega
  rfl

instance : LinearOrder Date := LinearOrder.lift' index index_injective

theorem lt_iff {a b : Date} : a < b ↔ a.index < b.index := Iff.rfl

/-- The characters of `date.isoformat()`: `YYYY-MM-DD`. -/
def isoformatChars (d : Date) : List Char :=
  fixed 4 d.year ++ '-' :: (fixed 2 d.month ++ '-' :: fixed 2 d.day)

theorem mem_isoformatChars {d : Date} {c : Char} (h : c ∈ d.isoformatChars) :
    c.isDigit = true ∨ c = '-' := by
  simp only [isoformatChars, List.mem_append, List.mem_cons] at h
  rcases h with h | rfl | h | rfl | h
  · exact .inl (isDigit_of_mem_fixed h)
  · exact .inr rfl
  · exact .inl (isDigit_of_mem_fixed h)
  · exact .inr rfl
  · exact .inl (isDigit_of_mem_fixed h)

/-- `date.isoformat()`. -/
def isoformat (d : Date) : String := String.ofList d.isoformatChars

/-- The texts of dates are ordered as the dates. -/
theorem isoformat_lt_iff {a b : Date} : a.isoformat < b.isoformat ↔ a < b := by
  have ha := a.year_range
  have hb := b.year_range
  have ha' := a.month_range
  have hb' := b.month_range
  have := a.day_le
  have := b.day_le
  have hday : fixed 2 a.day < fixed 2 b.day ↔ a.day < b.day := by
    have h := fixed_append_lt_iff (w := 2) (n := a.day) (m := b.day) (by omega) (by omega) [] []
    simpa using h
  rw [lt_iff, index_lt_iff, String.lt_iff_toList_lt, isoformat, isoformat, String.toList_ofList,
    String.toList_ofList, isoformatChars, isoformatChars,
    fixed_append_lt_iff (by omega) (by omega), List.cons_lt_cons_iff,
    fixed_append_lt_iff (by omega) (by omega), List.cons_lt_cons_iff, hday]
  simp

theorem isoformat_le_iff {a b : Date} : a.isoformat ≤ b.isoformat ↔ a ≤ b := by
  rw [← not_lt, ← not_lt, isoformat_lt_iff]

/-- `date.toordinal()`: the days since the first of January of year one. -/
def toordinal (d : Date) : ℕ :=
  let y := d.year - 1
  let months := (List.range (d.month - 1)).map fun m => daysInMonth d.year (m + 1)
  y * 365 + y / 4 - y / 100 + y / 400 + months.sum + d.day

end Date

/-! ### Datetimes -/

/-- The microseconds of a day. -/
def microsecondsPerDay : ℕ := 86400 * 1000000

/-- `datetime.datetime`; `utcoffset` is in microseconds, and `none` for a naive
datetime. -/
structure DateTime where
  date : Date
  hour : ℕ
  minute : ℕ
  second : ℕ
  microsecond : ℕ
  utcoffset : Option ℤ
  time_range : hour < 24 ∧ minute < 60 ∧ second < 60 ∧ microsecond < 1000000
  offset_range : ∀ o ∈ utcoffset, o.natAbs < microsecondsPerDay
  deriving DecidableEq, Repr

namespace DateTime

/-- `.ffffff`, or nothing for zero. -/
def fractionChars (us : ℕ) : List Char := if us = 0 then [] else '.' :: fixed 6 us

/-- The offset: `±HH:MM[:SS[.ffffff]]`. -/
def offsetChars : Option ℤ → List Char
  | none => []
  | some o =>
    let us := o.natAbs % 1000000
    let s := o.natAbs / 1000000
    (if o < 0 then '-' else '+') :: (fixed 2 (s / 3600) ++ ':' :: (fixed 2 (s / 60 % 60) ++
      if s % 60 = 0 ∧ us = 0 then [] else ':' :: (fixed 2 (s % 60) ++ fractionChars us)))

/-- `datetime.isoformat()`. -/
def isoformat (t : DateTime) : String :=
  String.ofList <| t.date.isoformatChars ++ 'T' :: (fixed 2 t.hour ++ ':' :: (fixed 2 t.minute ++
    ':' :: (fixed 2 t.second ++ (fractionChars t.microsecond ++ offsetChars t.utcoffset))))

theorem mem_fractionChars {us : ℕ} {c : Char} (h : c ∈ fractionChars us) :
    c.isDigit = true ∨ c = '.' := by
  unfold fractionChars at h
  split at h
  · cases h
  · rcases List.mem_cons.mp h with rfl | h
    · exact .inr rfl
    · exact .inl (isDigit_of_mem_fixed h)

theorem mem_offsetChars {o : Option ℤ} {c : Char} (h : c ∈ offsetChars o) :
    c.isDigit = true ∨ c ∈ ['-', '+', ':', '.'] := by
  cases o with
  | none => cases h
  | some o =>
    simp only [offsetChars, List.mem_cons, List.mem_append] at h
    rcases h with rfl | h | rfl | h | h
    · right
      split <;> simp
    · exact .inl (isDigit_of_mem_fixed h)
    · simp
    · exact .inl (isDigit_of_mem_fixed h)
    · split at h
      · cases h
      · rcases List.mem_cons.mp h with rfl | h
        · simp
        · rcases List.mem_append.mp h with h | h
          · exact .inl (isDigit_of_mem_fixed h)
          · exact (mem_fractionChars h).imp_right (by rintro rfl; simp)

/-- The text of a datetime consists of digits and separators. -/
theorem mem_isoformat {t : DateTime} {c : Char} (h : c ∈ t.isoformat.toList) :
    c.isDigit = true ∨ c ∈ ['-', '+', ':', '.', 'T'] := by
  rw [isoformat, String.toList_ofList] at h
  simp only [List.mem_append, List.mem_cons] at h
  rcases h with h | rfl | h | rfl | h | rfl | h | h | h
  · exact (Date.mem_isoformatChars h).imp_right (by rintro rfl; simp)
  · simp
  · exact .inl (isDigit_of_mem_fixed h)
  · simp
  · exact .inl (isDigit_of_mem_fixed h)
  · simp
  · exact .inl (isDigit_of_mem_fixed h)
  · exact (mem_fractionChars h).imp_right (by rintro rfl; simp)
  · exact (mem_offsetChars h).imp_right fun hsep => List.mem_append_left ['T'] hsep

/-- The microseconds since year one, in UTC for an aware datetime. -/
def instant (t : DateTime) : ℤ :=
  t.date.toordinal * microsecondsPerDay
    + ((t.hour * 60 + t.minute) * 60 + t.second) * 1000000 + t.microsecond
    - t.utcoffset.getD 0

end DateTime

/-! ### Values accepted as dates -/

/-- What `isinstance(value, date)` lets through. -/
inductive DateValue
  | date (d : Date)
  | datetime (t : DateTime)
  deriving DecidableEq, Repr

namespace DateValue

/-- `value.isoformat()`. -/
def isoformat : DateValue → String
  | date d => d.isoformat
  | datetime t => t.isoformat

/-- A date that is not a datetime. -/
def IsPlain (v : DateValue) : Prop := ∃ d, v = date d

instance : DecidablePred IsPlain
  | date d => isTrue ⟨d, rfl⟩
  | datetime _ => isFalse fun ⟨_, h⟩ => by cases h

/-- The three kinds among which comparison raises: dates, naive datetimes and
aware datetimes. -/
inductive Kind
  | date
  | naive
  | aware
  deriving DecidableEq, Repr

/-- The kind of a value. -/
def kind : DateValue → Kind
  | date _ => .date
  | datetime t => if t.utcoffset.isSome then .aware else .naive

/-- The number values of one kind are compared by. -/
def key : DateValue → ℤ
  | date d => d.index
  | datetime t => t.instant

end DateValue

end FinestVX
