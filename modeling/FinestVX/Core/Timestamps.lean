import Mathlib.Data.Prod.Lex
import FinestVX.Core.Calendar

/-!
# The order of timestamps as texts

The text of a datetime has the fields of fixed width first, and then two parts that may be
left out: the fraction of the second, and the seconds of the offset.  Among datetimes with an
offset the order of the texts is that of the clock readings, and for the same reading that of
the offsets.  It does not look at the instants.

## Main definitions

* `DateTime.wallClock` — what the clock reads, without the offset.
* `OffsetBefore` — the order of the texts of offsets.

## Main results

* `Date.toordinal_lt_toordinal` — the number of a day grows with the date.
* `DateTime.isoformat_lt_iff` — the order of the texts.
-/

namespace FinestVX

open Text

/-! ### Days -/

/-- The days of the months of a year before the one at position `k`. -/
def daysBeforeMonth (year k : ℕ) : ℕ := ((List.range k).map fun m => daysInMonth year (m + 1)).sum

theorem daysBeforeMonth_succ (year k : ℕ) :
    daysBeforeMonth year (k + 1) = daysBeforeMonth year k + daysInMonth year (k + 1) := by
  rw [daysBeforeMonth, List.range_succ, List.map_append, List.sum_append]
  rfl

theorem daysBeforeMonth_mono {year k k' : ℕ} (h : k ≤ k') :
    daysBeforeMonth year k ≤ daysBeforeMonth year k' := by
  induction h with
  | refl => exact le_rfl
  | step _ ih =>
    rw [daysBeforeMonth_succ]
    omega

/-- The days of a year. -/
theorem daysBeforeMonth_twelve (year : ℕ) : daysBeforeMonth year 12 =
    if year % 4 = 0 ∧ (year % 100 ≠ 0 ∨ year % 400 = 0) then 366 else 365 := by
  by_cases hleap : year % 4 = 0 ∧ (year % 100 ≠ 0 ∨ year % 400 = 0)
  · simp [daysBeforeMonth, List.range_succ, daysInMonth, hleap]
  · simp [daysBeforeMonth, List.range_succ, daysInMonth, hleap]

/-- The days before a year. -/
def daysBeforeYear (year : ℕ) : ℕ :=
  let y := year - 1
  y * 365 + y / 4 - y / 100 + y / 400

theorem daysBeforeYear_succ {year : ℕ} (h : 1 ≤ year) :
    daysBeforeYear (year + 1) = daysBeforeYear year + daysBeforeMonth year 12 := by
  rw [daysBeforeMonth_twelve]
  obtain ⟨y, rfl⟩ := Nat.exists_eq_add_of_le' h
  have h4 := Nat.succ_div (a := y) (b := 4)
  have h100 := Nat.succ_div (a := y) (b := 100)
  have h400 := Nat.succ_div (a := y) (b := 400)
  have hle : y / 100 ≤ y / 4 := Nat.div_le_div_left (by norm_num) (by norm_num)
  have hdvd : (y + 1) % 400 = 0 → (y + 1) % 100 = 0 := by omega
  have hdvd' : (y + 1) % 100 = 0 → (y + 1) % 4 = 0 := by omega
  simp only [Nat.dvd_iff_mod_eq_zero] at h4 h100 h400
  simp only [daysBeforeYear, Nat.add_sub_cancel, h4, h100, h400]
  generalize y / 4 = a at *
  generalize y / 100 = b at *
  generalize y / 400 = c at *
  generalize (y + 1) % 4 = r at *
  generalize (y + 1) % 100 = r' at *
  generalize (y + 1) % 400 = r'' at *
  clear h4 h100 h400
  split_ifs <;> omega

theorem daysBeforeYear_mono {y y' : ℕ} (h1 : 1 ≤ y) (h : y ≤ y') :
    daysBeforeYear y ≤ daysBeforeYear y' := by
  induction h with
  | refl => exact le_rfl
  | step hle ih =>
    rw [Nat.succ_eq_add_one, daysBeforeYear_succ (h1.trans hle)]
    omega

namespace Date

theorem toordinal_eq (d : Date) : d.toordinal =
    daysBeforeYear d.year + daysBeforeMonth d.year (d.month - 1) + d.day := rfl

theorem daysBeforeMonth_add_day_le (d : Date) {k : ℕ} (hk : d.month ≤ k) :
    daysBeforeMonth d.year (d.month - 1) + d.day ≤ daysBeforeMonth d.year k := by
  have hmonth := d.month_range.1
  have hday := d.day_range.2
  have hsucc := daysBeforeMonth_succ d.year (d.month - 1)
  rw [Nat.sub_add_cancel hmonth] at hsucc
  have hmono : daysBeforeMonth d.year d.month ≤ daysBeforeMonth d.year k := daysBeforeMonth_mono hk
  omega

theorem toordinal_lt_toordinal {a b : Date} (h : a < b) : a.toordinal < b.toordinal := by
  rw [lt_iff, index_lt_iff] at h
  rw [toordinal_eq, toordinal_eq]
  have ha := a.month_range
  have hb := b.month_range
  have hyear := a.year_range.1
  have hday := b.day_range.1
  rcases h with hlt | ⟨heq, hlt | ⟨hmonth, hlt⟩⟩
  · have hle := a.daysBeforeMonth_add_day_le ha.2
    have hstep := daysBeforeYear_succ a.year_range.1
    have hmono := daysBeforeYear_mono (y := a.year + 1) (by omega) hlt
    omega
  · have hle := a.daysBeforeMonth_add_day_le (k := b.month - 1) (by omega)
    rw [heq] at hle ⊢
    omega
  · rw [heq, hmonth]
    omega

/-- The text of a date is compared before what follows it. -/
theorem isoformatChars_append_lt_iff {a b : Date} (s t : List Char) :
    a.isoformatChars ++ s < b.isoformatChars ++ t ↔ a < b ∨ a = b ∧ s < t := by
  have := a.year_range
  have := b.year_range
  have := a.month_range
  have := b.month_range
  have := a.day_le
  have := b.day_le
  have heq : a = b ↔ a.year = b.year ∧ a.month = b.month ∧ a.day = b.day := by
    cases a
    cases b
    simp
  rw [lt_iff, index_lt_iff, heq]
  simp only [isoformatChars, List.append_assoc, List.cons_append]
  rw [fixed_append_lt_iff (by omega) (by omega), List.cons_lt_cons_iff,
    fixed_append_lt_iff (by omega) (by omega), List.cons_lt_cons_iff,
    fixed_append_lt_iff (by omega) (by omega)]
  simp only [lt_irrefl, true_and, false_or]
  tauto

end Date

/-! ### Offsets -/

/-- The order of the texts of offsets: those that are not negative come first, from the
smallest on, and then the negative ones, from the greatest on. -/
def OffsetBefore (o o' : ℤ) : Prop := 0 ≤ o ∧ o < o' ∨ o' < 0 ∧ o' < o

namespace DateTime

/-- The text of a fraction of a second is compared before what follows it, if this sorts
before a point. -/
theorem fractionChars_append_lt_iff {us us' : ℕ} (h : us < 1000000) (h' : us' < 1000000)
    {s t : List Char} (hs : ∀ c ∈ s.head?, c < '.') (ht : ∀ c ∈ t.head?, c < '.') :
    fractionChars us ++ s < fractionChars us' ++ t ↔ us < us' ∨ us = us' ∧ s < t := by
  have hpoint : ∀ {s r : List Char}, (∀ c ∈ s.head?, c < '.') → s < '.' :: r := by
    intro s r hs
    cases s with
    | nil => exact List.nil_lt_cons _ _
    | cons c s => exact List.cons_lt_cons_iff.mpr (.inl (hs c rfl))
  unfold fractionChars
  by_cases h0 : us = 0
  · by_cases h0' : us' = 0
    · simp [h0, h0']
    · rw [if_pos h0, if_neg h0', List.nil_append, List.cons_append]
      have := hpoint (r := fixed 6 us' ++ t) hs
      simp only [this, true_iff]
      omega
  · by_cases h0' : us' = 0
    · rw [if_neg h0, if_pos h0', List.nil_append, List.cons_append]
      have := (hpoint (r := fixed 6 us ++ s) ht).not_gt
      simp only [this, false_iff]
      omega
    · rw [if_neg h0, if_neg h0', List.cons_append, List.cons_append, List.cons_lt_cons_iff,
        fixed_append_lt_iff (by omega) (by omega)]
      simp

/-- The seconds of an offset, with their fraction. -/
def offsetSecondsChars (sec us : ℕ) : List Char :=
  if sec = 0 ∧ us = 0 then [] else ':' :: (fixed 2 sec ++ fractionChars us)

theorem offsetSecondsChars_lt_iff {sec us sec' us' : ℕ} (hsec : sec < 60) (hus : us < 1000000)
    (hsec' : sec' < 60) (hus' : us' < 1000000) :
    offsetSecondsChars sec us < offsetSecondsChars sec' us' ↔
      sec < sec' ∨ sec = sec' ∧ us < us' := by
  unfold offsetSecondsChars
  have hfraction := fractionChars_append_lt_iff hus hus' (s := []) (t := []) (by simp) (by simp)
  rw [List.append_nil, List.append_nil] at hfraction
  split_ifs with h0 h0' h0'
  · simp [h0, h0']
  · simp only [List.nil_lt_cons, true_iff]
    omega
  · simp only [List.not_lt_nil, false_iff]
    omega
  · rw [List.cons_lt_cons_iff, fixed_append_lt_iff (by omega) (by omega), hfraction]
    simp

/-- The size of an offset. -/
def offsetSizeChars (n : ℕ) : List Char :=
  fixed 2 (n / 1000000 / 3600) ++ ':' :: (fixed 2 (n / 1000000 / 60 % 60) ++
    offsetSecondsChars (n / 1000000 % 60) (n % 1000000))

theorem offsetChars_some (o : ℤ) :
    offsetChars (some o) = (if o < 0 then '-' else '+') :: offsetSizeChars o.natAbs := rfl

theorem offsetSizeChars_lt_iff {n n' : ℕ} (h : n < microsecondsPerDay)
    (h' : n' < microsecondsPerDay) : offsetSizeChars n < offsetSizeChars n' ↔ n < n' := by
  unfold microsecondsPerDay at h h'
  unfold offsetSizeChars
  rw [fixed_append_lt_iff (by omega) (by omega), List.cons_lt_cons_iff,
    fixed_append_lt_iff (by omega) (by omega),
    offsetSecondsChars_lt_iff (by omega) (by omega) (by omega) (by omega)]
  simp only [lt_irrefl, true_and, false_or]
  omega

theorem offsetChars_lt_iff {o o' : ℤ} (h : o.natAbs < microsecondsPerDay)
    (h' : o'.natAbs < microsecondsPerDay) :
    offsetChars (some o) < offsetChars (some o') ↔ OffsetBefore o o' := by
  rw [offsetChars_some, offsetChars_some, List.cons_lt_cons_iff, offsetSizeChars_lt_iff h h']
  unfold OffsetBefore
  split_ifs
  · simp only [lt_irrefl, true_and, false_or]
    omega
  · simp only [show ¬ '-' < '+' by decide, show '-' ≠ '+' by decide, false_and, or_false,
      false_iff]
    omega
  · simp only [show '+' < '-' by decide, true_or, true_iff]
    omega
  · simp only [lt_irrefl, true_and, false_or]
    omega

/-! ### Clock readings -/

/-- The clock reading of a datetime, without its offset, in microseconds. -/
def wallClock (t : DateTime) : ℤ :=
  t.date.toordinal * microsecondsPerDay
    + ((t.hour * 60 + t.minute) * 60 + t.second) * 1000000 + t.microsecond

theorem instant_eq (t : DateTime) : t.instant = t.wallClock - t.utcoffset.getD 0 := rfl

/-- Datetimes with an offset are ordered as texts by what their clocks read, and then by
their offsets. -/
theorem isoformat_lt_iff {a b : DateTime} {o o' : ℤ} (ha : a.utcoffset = some o)
    (hb : b.utcoffset = some o') : a.isoformat < b.isoformat ↔
      a.wallClock < b.wallClock ∨ a.wallClock = b.wallClock ∧ OffsetBefore o o' := by
  obtain ⟨hh, hm, hs, hus⟩ := a.time_range
  obtain ⟨hh', hm', hs', hus'⟩ := b.time_range
  have hoff := a.offset_range o ha
  have hoff' := b.offset_range o' hb
  have hhead : ∀ x : ℤ, ∀ c ∈ (offsetChars (some x)).head?, c < '.' := by
    intro x c hc
    rw [offsetChars_some, List.head?_cons, Option.mem_some_iff] at hc
    subst hc
    split <;> decide
  rw [String.lt_iff_toList_lt, isoformat, isoformat, String.toList_ofList, String.toList_ofList,
    Date.isoformatChars_append_lt_iff, List.cons_lt_cons_iff,
    fixed_append_lt_iff (by omega) (by omega), List.cons_lt_cons_iff,
    fixed_append_lt_iff (by omega) (by omega), List.cons_lt_cons_iff,
    fixed_append_lt_iff (by omega) (by omega), ha, hb,
    fractionChars_append_lt_iff hus hus' (hhead o) (hhead o'), offsetChars_lt_iff hoff hoff']
  simp only [lt_irrefl, true_and, false_or]
  unfold wallClock microsecondsPerDay
  rcases lt_trichotomy a.date b.date with hlt | heq | hgt
  · have := Date.toordinal_lt_toordinal hlt
    simp only [hlt, true_or, true_iff]
    omega
  · by_cases hoffset : OffsetBefore o o'
    · simp only [heq, hoffset, lt_irrefl, true_and, false_or, and_true]
      omega
    · simp only [heq, hoffset, lt_irrefl, true_and, false_or, and_false, or_false]
      omega
  · have := Date.toordinal_lt_toordinal hgt
    simp only [hgt.not_gt, hgt.ne', false_and, or_false, false_iff]
    omega

end DateTime
end FinestVX
