import FinestVX.Persistence.Loading
import FinestVX.Core.ZeroSum

/-!
# The store round trip

A book that `create_book` has stored is loaded again, with its parts in the
order of the queries, when its periods are bounded by dates.  The constructor
of a period takes datetimes for dates, though; the text of a datetime is written
to the `date` columns, and no such text is read back as a date.

## Main definitions

* `SchemaValid` — the primary and foreign keys a database satisfies.
* `SameEntry`, `SameTransaction`, `SameBook` — equality up to the order of the
  queries and the notation of decimals.
* `RoundTrip` — loading returned the same book.

## Main results

* `Holds.of_createBook` — what a created book leaves in the tables.
* `createBook_roundTrip_iff` — **a created book is loaded again exactly when the
  bounds of its periods are dates.**
-/

namespace FinestVX

open Except

section

variable [Platform]

/-! ### Foreign keys -/

/-- The rows the others refer to are there. -/
structure Tables.Linked (t : Tables) : Prop where
  accounts : ∀ a ∈ t.accounts, t.HasBook a.bookCode
  periods : ∀ p ∈ t.periods, t.HasBook p.bookCode
  transactions : ∀ x ∈ t.transactions, t.HasBook x.bookCode
  entries : ∀ e ∈ t.entries, ∃ x ∈ t.transactions,
    x.bookCode = e.bookCode ∧ x.reference = e.transactionReference

/-- The keys hold, as SQLite sees to. -/
structure SchemaValid (t : Tables) : Prop where
  keyed : t.Keyed
  linked : t.Linked

namespace Tables

omit [Platform] in
theorem HasBook.push {t : Tables} {code : String} (h : t.HasBook code) (r : CoreRow) :
    (t.push r).HasBook code := by
  obtain ⟨b, hb, hcode⟩ := h
  refine ⟨b, ?_, hcode⟩
  cases r with
  | book r => exact List.mem_append_left _ hb
  | account r => exact hb
  | period r => exact hb
  | transaction r => exact hb
  | entry r => exact hb

omit [Platform] in
theorem Linked.push {t : Tables} {r : CoreRow} (h : t.Linked) (hr : t.Admits r) :
    (t.push r).Linked := by
  have hbook := fun code (hcode : t.HasBook code) => hcode.push r
  cases r with
  | book r =>
    exact
      { accounts := fun a ha => hbook _ (h.accounts a ha)
        periods := fun p hp => hbook _ (h.periods p hp)
        transactions := fun x hx => hbook _ (h.transactions x hx)
        entries := h.entries }
  | account r =>
    -- the new row is admitted, so its book is there
    refine { h with accounts := ?_ }
    intro a ha
    rcases List.mem_append.mp ha with ha | ha
    · exact h.accounts a ha
    · rw [List.mem_singleton.mp ha]
      exact hr.2.2.2.2
  | period r =>
    refine { h with periods := ?_ }
    intro p hp
    rcases List.mem_append.mp hp with hp | hp
    · exact h.periods p hp
    · rw [List.mem_singleton.mp hp]
      exact hr.2.2.2.2.2
  | transaction r =>
    refine { h with transactions := ?_, entries := ?_ }
    · intro x hx
      rcases List.mem_append.mp hx with hx | hx
      · exact h.transactions x hx
      · rw [List.mem_singleton.mp hx]
        exact hr.2.2.2.2.2.2
    · intro e he
      obtain ⟨x, hx, hkeys⟩ := h.entries e he
      exact ⟨x, List.mem_append_left _ hx, hkeys⟩
  | entry r =>
    refine { h with entries := ?_ }
    intro e he
    rcases List.mem_append.mp he with he | he
    · exact h.entries e he
    · rw [List.mem_singleton.mp he]
      exact hr.2.2.2.2.2.1

omit [Platform] in
theorem Linked.pushAll {t : Tables} {rows : List CoreRow} (h : t.Linked)
    (hrows : t.AdmitsAll rows) : (t.pushAll rows).Linked := by
  induction rows generalizing t with
  | nil => exact h
  | cons r rows ih => exact ih (h.push hrows.1) hrows.2

omit [Platform] in
/-- A book that does not exist has no rows. -/
theorem Linked.restrict_eq_empty {t : Tables} (h : t.Linked) {code : String}
    (hnew : ∀ b ∈ t.books, b.bookCode ≠ code) : t.restrict code = {} := by
  have hnone : ∀ c, t.HasBook c → c ≠ code := by
    rintro c ⟨b, hb, rfl⟩
    exact hnew b hb
  simp only [restrict, Tables.mk.injEq, List.filter_eq_nil_iff, decide_eq_true_eq]
  refine ⟨hnew, fun a ha => hnone _ (h.accounts a ha), fun p hp => hnone _ (h.periods p hp),
    fun x hx => hnone _ (h.transactions x hx), ?_⟩
  -- an entry has its transaction, and that one its book
  intro e he heq
  obtain ⟨x, hx, hcode, -⟩ := h.entries e he
  exact hnone _ (h.transactions x hx) (hcode.trans heq)

end Tables

/-- The keys hold in every reachable database. -/
theorem Reachable.schemaValid {db : Database} (h : Reachable db) : SchemaValid db.tables := by
  refine ⟨h.keyed, ?_⟩
  refine invariant_of_step (p := fun db => db.tables.Linked) h ?_ ?_
  · exact ⟨by simp, by simp, by simp, by simp⟩
  · rintro db _ hlinked ⟨c, rfl⟩
    rcases c.after_cases db with hsame | ⟨rows, -, hall, -, heffect⟩
    · rwa [hsame]
    · rw [heffect.tables]
      exact hlinked.pushAll hall

/-! ### The same book -/

/-- Two decimals of the same value. -/
def SameDecimal (v v' : Decimal) : Prop :=
  ∃ d d' : Dec, v.toDec? = some d ∧ v'.toDec? = some d' ∧ d.value = d'.value

/-- Two entries that differ at most in the notation of their decimals. -/
structure SameEntry (e e' : LedgerEntry) : Prop where
  accountCode : e.fields.accountCode = e'.fields.accountCode
  side : e.fields.side = e'.fields.side
  amount : e.decimalValue.value = e'.decimalValue.value
  currency : e.fields.currency = e'.fields.currency
  description : e.fields.description = e'.fields.description
  taxRate : Option.Rel SameDecimal e.fields.taxRate e'.fields.taxRate

/-- Two transactions with the same entries, in the same order. -/
structure SameTransaction (t t' : JournalTransaction) : Prop where
  reference : t.fields.reference = t'.fields.reference
  postedAt : t.fields.postedAt = t'.fields.postedAt
  description : t.fields.description = t'.fields.description
  entries : List.Forall₂ SameEntry t.fields.entries t'.fields.entries
  period : t.fields.period = t'.fields.period
  state : t.fields.state = t'.fields.state
  reversalOf : t.fields.reversalOf = t'.fields.reversalOf

/-- `loaded` is `book` with the accounts by code, the periods by start date and
the transactions by time and reference. -/
structure SameBook (book loaded : Book) : Prop where
  code : loaded.fields.code = book.fields.code
  name : loaded.fields.name = book.fields.name
  baseCurrency : loaded.fields.baseCurrency = book.fields.baseCurrency
  fiscalCalendar : loaded.fields.fiscalCalendar = book.fields.fiscalCalendar
  legislativePack : loaded.fields.legislativePack = book.fields.legislativePack
  accounts : loaded.fields.accounts = orderBy Account.code book.fields.accounts
  periods : loaded.fields.periods =
    orderBy (fun p : BookPeriod => p.fields.startDate.key) book.fields.periods
  transactions : List.Forall₂ SameTransaction
    (orderBy JournalTransaction.orderKey book.fields.transactions) loaded.fields.transactions

/-- Loading returned the book that was stored. -/
def RoundTrip (book : Book) (result : Except PyError Book) : Prop :=
  ∃ loaded, result = .ok loaded ∧ SameBook book loaded

theorem sameEntry_readBack (e : LedgerEntry) : SameEntry e e.readBack where
  accountCode := rfl
  side := rfl
  amount := by rw [LedgerEntry.decimalValue_readBack, Dec.value_canon]
  currency := rfl
  description := rfl
  taxRate := by
    change Option.Rel _ _ (canonRate e.fields.taxRate)
    cases h : e.fields.taxRate with
    | none => exact .none
    | some v =>
      obtain ⟨d, hd, -⟩ := e.valid.taxRate v h
      have hcanon : v.canon.toDec? = some d.canon := by rw [Decimal.toDec?_canon, hd]; rfl
      exact .some ⟨d, d.canon, hd, hcanon, (Dec.value_canon d).symm⟩

theorem sameTransaction_readBack (t : JournalTransaction) : SameTransaction t t.readBack where
  reference := rfl
  postedAt := rfl
  description := rfl
  entries := List.forall₂_map_right_iff.mpr (List.forall₂_same.mpr fun e _ => sameEntry_readBack e)
  period := rfl
  state := rfl
  reversalOf := rfl

/-- A transaction in any state is read back from its mapping with the same values, and is
written as it was. -/
theorem transactionFromMapping_sameTransaction (t : JournalTransaction) :
    ∃ t', transactionFromMapping (transactionToMapping t) = .ok t' ∧ SameTransaction t t' ∧
      transactionToMapping t' = transactionToMapping t :=
  ⟨t.readBack, transactionFromMapping_transactionToMapping t, sameTransaction_readBack t,
    transactionToMapping_readBack t⟩

/-! ### The order of periods -/

/-- Where the bounds are dates, the order of their texts is the order of the
dates; periods do not overlap, so that the start dates decide. -/
theorem orderBy_orderKey_eq {periods : List BookPeriod} (h : PeriodsValid periods)
    (hplain : ∀ p ∈ periods, p.IsPlain) : orderBy BookPeriod.orderKey periods =
      orderBy (fun p : BookPeriod => p.fields.startDate.key) periods := by
  refine orderBy_congr ?_
  intro p hp q hq
  obtain ⟨d, hd⟩ := hplain p hp
  obtain ⟨d', hd'⟩ := hplain q hq
  by_cases hpq : p.fields.startDate.key = q.fields.startDate.key
  · -- two periods with one start date are one period
    have hsame : p = q := h.eq_of_start hp hq hpq
    subst hsame
    simp
  · have hdates : d ≠ d' := by
      rintro rfl
      exact hpq (by rw [hd, hd'])
    have htexts : d.isoformat ≠ d'.isoformat := by
      intro heq
      exact hdates (le_antisymm (Date.isoformat_le_iff.mp heq.le) (Date.isoformat_le_iff.mp heq.ge))
    have hkey : p.orderKey ≤ q.orderKey ↔ d.isoformat < d'.isoformat := by
      simp only [BookPeriod.orderKey, PeriodRow.orderKey, periodRow, hd, hd', DateValue.isoformat,
        Prod.Lex.toLex_le_toLex]
      constructor
      · rintro (hlt | ⟨heq, -⟩)
        · exact hlt
        · exact absurd heq htexts
      · exact .inl
    rw [hkey, Date.isoformat_lt_iff, Date.lt_iff, hd, hd', DateValue.key, DateValue.key]
    rw [hd, hd', DateValue.key, DateValue.key] at hpq
    omega

/-! ### Creating and loading -/

/-- A book that was created is in the tables as a stored book. -/
theorem Holds.of_createBook {w : World} {ctx : AuditContext} {book : Book} {db db' : Database}
    {receipt : StoreWriteReceipt} (hvalid : SchemaValid db.tables)
    (h : createBook w ctx book db = (.ok receipt, db')) :
    ∃ hnodup, Holds db'.tables (StoredBook.ofBook book hnodup) := by
  obtain ⟨_, -, h⟩ := orRaise_ok h
  obtain ⟨hall, -, rfl⟩ := writeRows_ok h
  have hempty : db.tables.restrict book.code = {} := hvalid.linked.restrict_eq_empty hall.1.2
  have hnodup := nodup_references_of_admitsAll hvalid.keyed hempty hall
  refine ⟨hnodup, ?_⟩
  rw [Database.tables_insertAll]
  exact Holds.ofBook hempty hnodup

/-- The periods of the transactions of a book are periods of the book. -/
theorem StoredBook.periodsKnown_ofBook (book : Book) (hnodup) :
    (StoredBook.ofBook book hnodup).PeriodsKnown := by
  intro t ht p hp
  rw [StoredBook.transactions_ofBook] at ht
  exact book.valid.knownPeriods t ht p hp

/-- What is loaded of a book with plain dates is the same book. -/
theorem sameBook_readBack {book : Book} {hnodup}
    (hplain : (StoredBook.ofBook book hnodup).Plain) :
    SameBook book ((StoredBook.ofBook book hnodup).readBack
      (StoredBook.periodsKnown_ofBook book hnodup)) where
  code := rfl
  name := rfl
  baseCurrency := rfl
  fiscalCalendar := rfl
  legislativePack := rfl
  accounts := rfl
  periods := orderBy_orderKey_eq book.valid.periods hplain
  transactions := by
    change List.Forall₂ _ _ ((orderBy JournalTransaction.orderKey
      (StoredBook.ofBook book hnodup).transactions).map JournalTransaction.readBack)
    rw [StoredBook.transactions_ofBook]
    exact List.forall₂_map_right_iff.mpr
      (List.forall₂_same.mpr fun t _ => sameTransaction_readBack t)

/-- A created book is loaded again when its periods are bounded by dates. -/
theorem roundTrip_of_createBook {w : World} {ctx : AuditContext} {book : Book}
    {db db' : Database} {receipt : StoreWriteReceipt} (hvalid : SchemaValid db.tables)
    (h : createBook w ctx book db = (.ok receipt, db'))
    (hplain : ∀ p ∈ book.fields.periods, p.IsPlain) :
    RoundTrip book (loadBook db'.tables book.code) := by
  obtain ⟨hnodup, hholds⟩ := Holds.of_createBook hvalid h
  have hload := hholds.loadBook_ok hplain (StoredBook.periodsKnown_ofBook book hnodup)
  exact ⟨_, hload, sameBook_readBack hplain⟩

/-- **A created book is loaded again**, from both kinds of connection, **exactly
when** the bounds of its periods are dates and not datetimes. -/
theorem createBook_roundTrip_iff {w : World} {ctx : AuditContext} {book : Book}
    {db db' : Database} {receipt : StoreWriteReceipt} (hvalid : SchemaValid db.tables)
    (h : createBook w ctx book db = (.ok receipt, db')) :
    (RoundTrip book (loadBook db'.tables book.code) ∧
      RoundTrip book (asyncLoadBook db'.tables book.code)) ↔
        ∀ p ∈ book.fields.periods, p.IsPlain := by
  constructor
  · rintro ⟨⟨loaded, hload, -⟩, -⟩
    obtain ⟨hnodup, hholds⟩ := Holds.of_createBook hvalid h
    exact (hholds.loadBook_succeeds_iff.mp ⟨loaded, hload⟩).1
  · intro hplain
    -- both kinds of connection run the same queries
    exact ⟨roundTrip_of_createBook hvalid h hplain, roundTrip_of_createBook hvalid h hplain⟩

end

/-! ### Evaluated -/

namespace Reference

/-- An account in euros. -/
def account (code name : String) (side : PostingSide) : AccountFields :=
  { code := code, name := name, normalSide := side, currency := "EUR" }

/-- The first month of 2026. -/
def firstMonth : FiscalPeriod := ⟨2026, 1, 1, rfl⟩

/-- The period of the first month, with its bounds. -/
def january (startDate endDate : DateValue) : BookPeriodFields :=
  { period := firstMonth, startDate := startDate, endDate := endDate }

/-- The fields of a book with two accounts. -/
def bookFields (periods : List BookPeriod) (transactions : List JournalTransaction) : BookFields :=
  { code := "BK", name := "A book", baseCurrency := "EUR", fiscalCalendar := ⟨1, rfl⟩,
    legislativePack := "lv",
    accounts := [⟨account "2000" "Revenue" .credit, account "2000" "Revenue" .credit, by rfl⟩,
      ⟨account "1000" "Cash" .debit, account "1000" "Cash" .debit, by rfl⟩],
    periods := periods, transactions := transactions }

/-- The sale of a hundred euros. -/
def sale : JournalTransaction := ⟨hundred, hundred, by rfl⟩

/-- January by its dates. -/
def plainJanuary : BookPeriod :=
  ⟨january (.date (inJanuary 1 (by decide))) (.date (inJanuary 31 (by decide))),
    january (.date (inJanuary 1 (by decide))) (.date (inJanuary 31 (by decide))), by rfl⟩

/-- January by a datetime. -/
def clockedJanuary : BookPeriod :=
  ⟨january (.datetime noon) (.datetime noon), january (.datetime noon) (.datetime noon), by rfl⟩

/-- A book with one sale. -/
def plainBook : Book := ⟨bookFields [plainJanuary] [sale], bookFields [plainJanuary] [sale], by rfl⟩

/-- A book whose period is bounded by datetimes. -/
def clockedBook : Book := ⟨bookFields [clockedJanuary] [], bookFields [clockedJanuary] [], by rfl⟩

/-- Who writes the examples. -/
def auditor : AuditContext :=
  ⟨{ actor := "auditor", reason := "example" }, { actor := "auditor", reason := "example" }, by rfl⟩

theorem schemaValid_empty : SchemaValid {} := Reachable.empty.schemaValid

theorem createBook_plainBook : createBook {} auditor plainBook {} =
    (.ok (buildWriteReceipt (bookRows plainBook.fields)),
      (createBook {} auditor plainBook {}).2) :=
  Prod.ext (by rfl) rfl

theorem roundTrip_plainBook :
    RoundTrip plainBook (loadBook (createBook {} auditor plainBook {}).2.tables "BK") ∧
      RoundTrip plainBook (asyncLoadBook (createBook {} auditor plainBook {}).2.tables "BK") :=
  (createBook_roundTrip_iff schemaValid_empty createBook_plainBook).mpr (by decide)

/-- A book the constructor accepts is stored and cannot be loaded. -/
theorem clockedBook_not_loaded : SchemaValid {} ∧
    (∃ receipt, (createBook {} auditor clockedBook {}).1 = .ok receipt) ∧
    ¬ RoundTrip clockedBook (loadBook (createBook {} auditor clockedBook {}).2.tables "BK") := by
  refine ⟨schemaValid_empty, ⟨_, rfl⟩, ?_⟩
  rintro ⟨loaded, hload, -⟩
  have hfails :
      (loadBook (createBook {} auditor clockedBook {}).2.tables "BK").toOption = none := by rfl
  rw [hload] at hfails
  cases hfails

end Reference

end FinestVX
