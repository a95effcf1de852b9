import FinestVX.Core.Timestamps
import FinestVX.Persistence.Readable

/-!
# The order of loaded transactions

A book is loaded with its transactions in the order of the texts of their timestamps.  This
is the order of the clock readings, so that the loaded ledger is chronological just when the
clocks of its timestamps, wherever they were read, agree about what came first.

## Main definitions

* `Chronological` — in the order of the instants, and of the references at the same instant.
* `ClocksAgree` — a clock reading that is ahead is ahead by more than its offset is.

## Main results

* `chronological_orderBy_iff` — when sorting by texts is sorting by instants.
* `loadBook_chronological_iff` — when a loaded book is chronological.
* `clocksAgree_of_utcoffset_eq` — it is when all the timestamps have one offset.
-/

namespace FinestVX

section

variable [Platform]

/-- The text of a datetime determines it: it can be read. -/
theorem isoformat_inj {a b : DateTime} : a.isoformat = b.isoformat ↔ a = b := by
  constructor
  · intro h
    have hread := Platform.datetimeFromIsoformat_isoformat a
    rw [h, Platform.datetimeFromIsoformat_isoformat] at hread
    exact (Except.ok.inj hread).symm
  · exact congrArg _

namespace JournalTransaction

/-- What the clock read. -/
def wallClock (t : JournalTransaction) : ℤ := t.fields.postedAt.wallClock

/-- The offset of the clock from UTC. -/
def offset (t : JournalTransaction) : ℤ := t.fields.postedAt.utcoffset.getD 0

/-- The time of the transaction has a timezone. -/
def IsAware (t : JournalTransaction) : Prop := t.fields.postedAt.utcoffset.isSome

/-- The key of the chronological order. -/
def instantKey (t : JournalTransaction) : ℤ ×ₗ String :=
  toLex (t.fields.postedAt.instant, t.reference)

theorem instantKey_le_iff {x y : JournalTransaction} : x.instantKey ≤ y.instantKey ↔
    y.offset - x.offset < y.wallClock - x.wallClock ∨
      y.offset - x.offset = y.wallClock - x.wallClock ∧ x.reference ≤ y.reference := by
  have hx := x.fields.postedAt.instant_eq
  have hy := y.fields.postedAt.instant_eq
  unfold instantKey
  rw [Prod.Lex.toLex_le_toLex, hx, hy]
  unfold wallClock offset
  constructor
  · rintro (hlt | ⟨heq, hle⟩)
    · exact .inl (by omega)
    · exact .inr ⟨by omega, hle⟩
  · rintro (hlt | ⟨heq, hle⟩)
    · exact .inl (by omega)
    · exact .inr ⟨by omega, hle⟩

/-- The order of the query, on timestamps with an offset. -/
theorem orderKey_lt_iff {x y : JournalTransaction} (hx : x.IsAware) (hy : y.IsAware) :
    x.orderKey < y.orderKey ↔ (x.wallClock < y.wallClock ∨
      x.wallClock = y.wallClock ∧ OffsetBefore x.offset y.offset) ∨
      x.fields.postedAt = y.fields.postedAt ∧ x.reference < y.reference := by
  obtain ⟨o, ho⟩ := Option.isSome_iff_exists.mp hx
  obtain ⟨o', ho'⟩ := Option.isSome_iff_exists.mp hy
  change toLex (x.fields.postedAt.isoformat, x.reference) <
    toLex (y.fields.postedAt.isoformat, y.reference) ↔ _
  rw [Prod.Lex.toLex_lt_toLex, DateTime.isoformat_lt_iff ho ho', isoformat_inj]
  unfold wallClock offset
  rw [ho, ho']
  rfl

end JournalTransaction

/-- The transactions are in the order of the instants they were posted at, those of one
instant in the order of their references. -/
def Chronological (l : List JournalTransaction) : Prop :=
  l.Pairwise fun x y => x.instantKey ≤ y.instantKey

/-- Where the clock of `y` is ahead of that of `x`, it is ahead by more than its offset is, or
by as much and then the references are in this order; and clocks that read the same have the
same offset, unless one of them is to the west. -/
@[mk_iff]
structure ClocksAgree (x y : JournalTransaction) : Prop where
  ahead : x.wallClock < y.wallClock →
    y.offset - x.offset < y.wallClock - x.wallClock ∨
      y.offset - x.offset = y.wallClock - x.wallClock ∧ x.reference ≤ y.reference
  level : x.wallClock = y.wallClock → 0 ≤ x.offset → 0 ≤ y.offset → x.offset = y.offset

instance (x y : JournalTransaction) : Decidable (ClocksAgree x y) :=
  decidable_of_iff' _ (clocksAgree_iff x y)

instance (x : JournalTransaction) : Decidable x.IsAware :=
  inferInstanceAs (Decidable (_ = true))

/-- Clocks with one offset agree. -/
theorem clocksAgree_of_utcoffset_eq {x y : JournalTransaction}
    (h : x.fields.postedAt.utcoffset = y.fields.postedAt.utcoffset) : ClocksAgree x y := by
  have hoffset : x.offset = y.offset := congrArg (Option.getD · 0) h
  constructor
  · intro hlt
    rw [hoffset]
    exact .inl (by omega)
  · intro _ _ _
    exact hoffset

/-- Where the texts of clocks that agree are in order, so are the instants. -/
theorem ClocksAgree.instantKey_le {x y : JournalTransaction} (h : ClocksAgree x y)
    (hx : x.IsAware) (hy : y.IsAware) (hlt : x.orderKey < y.orderKey) :
    x.instantKey ≤ y.instantKey := by
  rw [JournalTransaction.instantKey_le_iff]
  rcases (JournalTransaction.orderKey_lt_iff hx hy).mp hlt with
    (hclock | ⟨hclock, hoffset⟩) | ⟨hposted, href⟩
  · exact h.ahead hclock
  · -- the readings are the same, and the offset of `y` is the greater one or to the west
    left
    rcases hoffset with ⟨h0, hgt⟩ | ⟨-, hgt⟩
    · have := h.level hclock h0 (by omega)
      omega
    · omega
  · right
    unfold JournalTransaction.offset JournalTransaction.wallClock
    rw [hposted]
    exact ⟨by omega, href.le⟩

/-- If the order of the texts is the order of the instants, the clocks agree. -/
theorem clocksAgree_of_instantKey_le {x y : JournalTransaction} (hx : x.IsAware) (hy : y.IsAware)
    (hxy : x.orderKey < y.orderKey → x.instantKey ≤ y.instantKey)
    (hyx : y.orderKey < x.orderKey → y.instantKey ≤ x.instantKey) : ClocksAgree x y := by
  rw [JournalTransaction.orderKey_lt_iff hx hy, JournalTransaction.instantKey_le_iff] at hxy
  rw [JournalTransaction.orderKey_lt_iff hy hx, JournalTransaction.instantKey_le_iff] at hyx
  constructor
  · intro hlt
    exact hxy (.inl (.inl hlt))
  · intro heq h0 h0'
    -- of two readings that are the same, the one with the smaller offset is listed first
    rcases lt_trichotomy x.offset y.offset with hlt | heq' | hgt
    · have := hxy (.inl (.inr ⟨heq, .inl ⟨h0, hlt⟩⟩))
      omega
    · exact heq'
    · have := hyx (.inl (.inr ⟨heq.symm, .inl ⟨h0', hgt⟩⟩))
      omega

/-- A list in the order of the texts is chronological just when the clocks agree. -/
theorem chronological_orderBy_iff {l : List JournalTransaction} (haware : ∀ x ∈ l, x.IsAware) :
    Chronological (orderBy JournalTransaction.orderKey l) ↔
      ∀ x ∈ l, ∀ y ∈ l, ClocksAgree x y := by
  have hkey : ∀ x ∈ l, ∀ y ∈ l, x.orderKey = y.orderKey → x.instantKey ≤ y.instantKey := by
    intro x _ y _ heq
    obtain ⟨hposted, href⟩ := Prod.mk.inj (toLex.injective heq)
    rw [JournalTransaction.instantKey, isoformat_inj.mp hposted]
    exact le_of_eq (congrArg (fun r => toLex (_, r)) href)
  unfold Chronological
  rw [pairwise_orderBy_iff hkey]
  constructor
  · intro h x hx y hy
    exact clocksAgree_of_instantKey_le (haware x hx) (haware y hy) (h x hx y hy) (h y hy x hx)
  · intro h x hx y hy
    exact (h x hx y hy).instantKey_le (haware x hx) (haware y hy)

/-- Every book that is loaded from a database is stored there, and the loaded one is
chronological just when the clocks of the timestamps that are stored agree. -/
theorem loadBook_chronological_iff {db : Database} (hreach : Reachable db) {code : String}
    {book : Book} (hload : loadBook db.tables code = .ok book) :
    (∃ b : StoredBook, Holds db.tables b ∧ b.code = code) ∧
    ∀ b : StoredBook, Holds db.tables b → b.code = code →
      (∀ x ∈ b.transactions, x.IsAware) →
      (Chronological book.fields.transactions ↔
        ∀ x ∈ b.transactions, ∀ y ∈ b.transactions, ClocksAgree x y) := by
  constructor
  · obtain ⟨σ, hrefines⟩ := hreach.refines
    have hstored : db.tables.HasBook code := by
      by_contra hnot
      rw [loadBook_of_unknown hnot] at hload
      cases hload
    obtain ⟨b, hb⟩ := hrefines.exists_of_hasBook hstored
    obtain ⟨hcode, hholds⟩ := hrefines.holds hb
    exact ⟨b, hholds, hcode⟩
  · rintro b hb rfl haware
    obtain ⟨hplain, hknown⟩ := hb.loadBook_succeeds_iff.mp ⟨book, hload⟩
    rw [hb.loadBook_ok hplain hknown, Except.ok.injEq] at hload
    rw [← chronological_orderBy_iff haware, ← hload]
    -- reading back changes neither the timestamps nor the references
    exact List.pairwise_map

end

/-! ### Evaluated -/

namespace Reference

theorem year_range_2026 : 1 ≤ 2026 ∧ 2026 ≤ 9999 := by
  decide

theorem month_range_october : 1 ≤ 10 ∧ 10 ≤ 12 := by
  decide

theorem day_range_october25 : 1 ≤ 25 ∧ 25 ≤ daysInMonth 2026 10 := by
  decide

/-- The night in which the clocks are set back. -/
def october25 : Date :=
  ⟨2026, 10, 25, year_range_2026, month_range_october, day_range_october25⟩

/-- Half past three in summer time. -/
def beforeChange : DateTime :=
  ⟨october25, 3, 30, 0, 0, some (3 * 3600 * 1000000), by decide, by decide⟩

/-- Forty minutes later, at ten past three in winter time. -/
def afterChange : DateTime :=
  ⟨october25, 3, 10, 0, 0, some (2 * 3600 * 1000000), by decide, by decide⟩

/-- The sale, at some time. -/
def saleAt (reference : String) (postedAt : DateTime) : JournalTransactionFields :=
  { hundred with reference := reference, postedAt := postedAt }

/-- A sale before the clocks were set back, and one after. -/
def nightSales : List JournalTransaction :=
  [⟨saleAt "T1" beforeChange, saleAt "T1" beforeChange, by rfl⟩,
    ⟨saleAt "T2" afterChange, saleAt "T2" afterChange, by rfl⟩]

/-- The book of that night. -/
def nightBook : Book :=
  ⟨bookFields [plainJanuary] nightSales, bookFields [plainJanuary] nightSales, by rfl⟩

/-- The database with the book of that night. -/
def nightStored : Database := (call (.createBook nightBook)).after {}

/-- The book is loaded with the later sale first. -/
theorem nightBook_not_chronological : Reachable nightStored ∧
    ∃ book, loadBook nightStored.tables "BK" = .ok book ∧
      (∀ x ∈ book.fields.transactions, x.IsAware) ∧ ¬ Chronological book.fields.transactions := by
  have hposted : (loadBook nightStored.tables "BK").toOption.map
      (fun book => book.fields.transactions.map fun x => x.fields.postedAt) =
        some [afterChange, beforeChange] := by rfl
  refine ⟨Reachable.empty.after _, ?_⟩
  cases hload : loadBook nightStored.tables "BK" with
  | error e =>
    rw [hload] at hposted
    cases hposted
  | ok book =>
    rw [hload] at hposted
    have htimes : book.fields.transactions.map (fun x => x.fields.postedAt) =
        [afterChange, beforeChange] := Option.some.inj hposted
    refine ⟨book, rfl, ?_, ?_⟩
    · intro x hx
      have hmem := List.mem_map_of_mem (f := fun x : JournalTransaction => x.fields.postedAt) hx
      rw [htimes] at hmem
      have hall : ∀ t ∈ [afterChange, beforeChange], t.utcoffset.isSome = true := by decide
      exact hall _ hmem
    · intro hchronological
      have hinstants : (book.fields.transactions.map fun x => x.fields.postedAt).Pairwise
          fun a b => a.instant ≤ b.instant :=
        List.pairwise_map.mpr (hchronological.imp fun h => Prod.Lex.monotone_fst _ _ h)
      rw [htimes] at hinstants
      exact absurd hinstants (by decide)

/-- An hour after the change, in winter time. -/
def winterTime : DateTime :=
  ⟨october25, 4, 10, 0, 0, some (2 * 3600 * 1000000), by decide, by decide⟩

/-- The same moment, by a clock that was not set back. -/
def summerTime : DateTime :=
  ⟨october25, 5, 10, 0, 0, some (3 * 3600 * 1000000), by decide, by decide⟩

/-- Three sales, at two moments and by two clocks, the first one listed last. -/
def morningSales : List JournalTransaction :=
  [⟨saleAt "T3" summerTime, saleAt "T3" summerTime, by rfl⟩,
    ⟨saleAt "T2" winterTime, saleAt "T2" winterTime, by rfl⟩,
    ⟨saleAt "T1" beforeChange, saleAt "T1" beforeChange, by rfl⟩]

/-- The book of that morning. -/
def morningBook : Book :=
  ⟨bookFields [plainJanuary] morningSales, bookFields [plainJanuary] morningSales, by rfl⟩

theorem createBook_morningBook : createBook {} auditor morningBook {} =
    (.ok (buildWriteReceipt (bookRows morningBook.fields)),
      (createBook {} auditor morningBook {}).2) :=
  Prod.ext (by rfl) rfl

/-- The sales are loaded by their instants, those of one instant by their references. -/
theorem morningBook_chronological : ∃ book,
    loadBook ((call (.createBook morningBook)).after {}).tables "BK" = .ok book ∧
      book.fields.transactions.map JournalTransaction.reference = ["T1", "T2", "T3"] ∧
      Chronological book.fields.transactions := by
  obtain ⟨hnodup, hholds⟩ := Holds.of_createBook schemaValid_empty createBook_morningBook
  have hreach : Reachable ((call (.createBook morningBook)).after {}) := Reachable.empty.after _
  have hreferences : (loadBook ((call (.createBook morningBook)).after {}).tables "BK").toOption.map
      (fun book => book.fields.transactions.map JournalTransaction.reference) =
        some ["T1", "T2", "T3"] := by rfl
  cases hload : loadBook ((call (.createBook morningBook)).after {}).tables "BK" with
  | error e =>
    rw [hload] at hreferences
    cases hreferences
  | ok book =>
    rw [hload] at hreferences
    refine ⟨book, rfl, Option.some.inj hreferences, ?_⟩
    apply ((loadBook_chronological_iff hreach hload).2 _ hholds rfl ?_).mpr
    · rw [StoredBook.transactions_ofBook]
      change ∀ x ∈ morningSales, ∀ y ∈ morningSales, ClocksAgree x y
      decide
    · rw [StoredBook.transactions_ofBook]
      change ∀ x ∈ morningSales, x.IsAware
      decide

end Reference

end FinestVX
