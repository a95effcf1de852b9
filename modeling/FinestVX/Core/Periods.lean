import Mathlib.Data.Set.Lattice
import Mathlib.Order.CompletePartialOrder
import Mathlib.Order.Interval.Set.Basic
import FinestVX.Core.Serialization
import FinestVX.Core.ZeroSum

/-!
# Calendars of periods

The check of the periods of a book sorts them by their bounds, and compares each with the
next one only.  As no period ends before it starts, this is enough: the periods it accepts
have no day in common, whichever two of them one takes.

## Main definitions

* `BookPeriod.days` — the days of a period, its bounds included.

## Main results

* `pairwise_disjoint_iff` — in sorted order, no two periods share a day just when each ends
  before the next one starts.
* `validatePeriodCollection_eq_ok_iff_disjoint` — what the check accepts.
-/

namespace FinestVX

section

variable [Platform]

/-! ### The days of a period -/

namespace BookPeriod

/-- The days of a period, from its start to its end. -/
def days (p : BookPeriod) : Set Date :=
  {d | ∃ s e, p.fields.startDate = .date s ∧ p.fields.endDate = .date e ∧ d ∈ Set.Icc s e}

/-- A period between two dates. -/
theorem days_eq_Icc {p : BookPeriod} {s e : Date} (hs : p.fields.startDate = .date s)
    (he : p.fields.endDate = .date e) : p.days = Set.Icc s e := by
  ext d
  constructor
  · rintro ⟨s', e', hs', he', hd⟩
    rw [hs, DateValue.date.injEq] at hs'
    rw [he, DateValue.date.injEq] at he'
    rwa [hs', he']
  · intro hd
    exact ⟨s, e, hs, he, hd⟩

/-- Two periods, of which the second does not start first, have no day in common just when
the first one ends before the second one starts. -/
theorem disjoint_days_iff {p q : BookPeriod} (hp : p.IsPlain) (hq : q.IsPlain)
    (hle : p.fields.startDate.key ≤ q.fields.startDate.key) :
    Disjoint p.days q.days ↔ p.fields.endDate.key < q.fields.startDate.key := by
  obtain ⟨s, hs⟩ := hp
  obtain ⟨e, he⟩ := IsPlain.endDate ⟨s, hs⟩
  obtain ⟨s', hs'⟩ := hq
  obtain ⟨e', he'⟩ := IsPlain.endDate ⟨s', hs'⟩
  have hvalid := q.valid.2
  rw [days_eq_Icc hs he, days_eq_Icc hs' he', Set.disjoint_left]
  rw [hs, hs'] at hle
  rw [hs', he'] at hvalid
  rw [he, hs']
  simp only [DateValue.key, Int.ofNat_le] at hle hvalid
  simp only [DateValue.key, Int.ofNat_lt]
  constructor
  · -- otherwise the start of the second period is a day of both
    intro h
    by_contra hlt
    exact h ⟨hle, Nat.le_of_not_lt hlt⟩ ⟨le_refl s', hvalid⟩
  · rintro hlt d ⟨-, hde⟩ ⟨hsd, -⟩
    exact absurd (hsd.trans hde) (not_le.mpr hlt)

end BookPeriod

/-! ### The check -/

variable {periods : List BookPeriod}

/-- In sorted order, no two periods share a day just when each ends before the later ones
start. -/
theorem pairwise_disjoint_iff (hplain : ∀ p ∈ periods, p.IsPlain) :
    periods.Pairwise (fun p q => Disjoint p.days q.days) ↔
      (orderBy periodKey periods).Pairwise
        fun p q => p.fields.endDate.key < q.fields.startDate.key := by
  rw [← (orderBy_perm periodKey periods).pairwise_iff fun h => h.symm]
  have hmem : ∀ p ∈ orderBy periodKey periods, p.IsPlain :=
    fun p hp => hplain p (mem_orderBy.mp hp)
  have hstart : (orderBy periodKey periods).Pairwise
      fun p q => p.fields.startDate.key ≤ q.fields.startDate.key :=
    (pairwise_orderBy periodKey periods).imp fun h => Prod.Lex.monotone_fst _ _ h
  constructor
  · intro h
    refine (h.and hstart).imp_of_mem ?_
    rintro p q hp hq ⟨hdisjoint, hle⟩
    exact (BookPeriod.disjoint_days_iff (hmem p hp) (hmem q hq) hle).mp hdisjoint
  · intro h
    refine (h.and hstart).imp_of_mem ?_
    rintro p q hp hq ⟨hlt, hle⟩
    exact (BookPeriod.disjoint_days_iff (hmem p hp) (hmem q hq) hle).mpr hlt

/-- What the periods of a book have passed, without the order the check sorts them in. -/
theorem periodsValid_iff_disjoint (hplain : ∀ p ∈ periods, p.IsPlain) :
    PeriodsValid periods ↔ (periods.map BookPeriod.period).Nodup ∧
      periods.Pairwise fun p q => Disjoint p.days q.days := by
  rw [pairwise_disjoint_iff hplain]
  constructor
  · intro h
    exact ⟨h.nodup, h.pairwise⟩
  · rintro ⟨hnodup, hpairwise⟩
    have hkind : ∀ p ∈ periods, p.fields.startDate.kind = .date := by
      intro p hp
      obtain ⟨s, hs⟩ := hplain p hp
      rw [hs, DateValue.kind]
    exact
      { nodup := hnodup
        kinds := fun p hp q hq => (hkind p hp).trans (hkind q hq).symm
        disjoint := forall_zip_tail_of_pairwise hpairwise }

/-- The check of the periods raises nothing just when they are of distinct fiscal periods,
and no two of them, wherever they stand, have a day in common. -/
theorem validatePeriodCollection_eq_ok_iff_disjoint (periods : List BookPeriod)
    (hplain : ∀ p ∈ periods, p.IsPlain) :
    validatePeriodCollection periods = .ok () ↔
      (periods.map BookPeriod.period).Nodup ∧
      ∀ i j : Fin periods.length, i ≠ j →
        Disjoint (periods.get i).days (periods.get j).days := by
  rw [validatePeriodCollection_eq_ok, periodsValid_iff_disjoint hplain,
    pairwise_iff_of_ne fun _ _ h => h.symm]

end

/-! ### Evaluated -/

namespace Reference

theorem checkFiscalPeriod_second : Platform.checkFiscalPeriod 2026 1 2 = .ok () := rfl

theorem checkFiscalPeriod_third : Platform.checkFiscalPeriod 2026 1 3 = .ok () := rfl

/-- The days from the fifth to the twelfth. -/
def earlyFields : BookPeriodFields :=
  { period := ⟨2026, 1, 2, checkFiscalPeriod_second⟩, startDate := .date (inJanuary 5 (by decide)),
    endDate := .date (inJanuary 12 (by decide)) }

/-- The days from the thirteenth to the twentieth. -/
def lateFields : BookPeriodFields :=
  { period := ⟨2026, 1, 3, checkFiscalPeriod_third⟩, startDate := .date (inJanuary 13 (by decide)),
    endDate := .date (inJanuary 20 (by decide)) }

/-- Two periods that follow each other, the later one first. -/
def lateAndEarly : List BookPeriod :=
  [⟨lateFields, lateFields, by rfl⟩, ⟨earlyFields, earlyFields, by rfl⟩]

/-- Periods that follow each other are accepted in any order. -/
theorem lateAndEarly_accepted : validatePeriodCollection lateAndEarly = .ok () ∧
    ∀ i j : Fin lateAndEarly.length, i ≠ j →
      Disjoint (lateAndEarly.get i).days (lateAndEarly.get j).days := by
  have hok : validatePeriodCollection lateAndEarly = .ok () := by rfl
  exact ⟨hok, ((validatePeriodCollection_eq_ok_iff_disjoint lateAndEarly (by decide)).mp hok).2⟩

end Reference

end FinestVX
