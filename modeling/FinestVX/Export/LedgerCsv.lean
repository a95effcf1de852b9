import FinestVX.Export.LedgerJson
import FinestVX.Lib.Csv

/-!
# Ledger CSV

The export of the entries of a book as CSV.  Every field is a text, and `None` becomes the
empty text; still, the entries can be recovered from the rows.

## Main definitions

* `csvHeader`, `csvRow`, `toCsv` — `LedgerExporter.to_csv`.
* `CsvRecord`, `readCsv` — the records of a CSV ledger.

## Main results

* `readRow_csvRow` — a row shows its entry.
* `readCsv_toCsv` — **the rows show the entries of the book**, in the order of the ledger.
-/

namespace FinestVX

open Except

variable [Platform]

/-! ### Export -/

/-- The first row. -/
def csvHeader : List String :=
  ["book_code", "transaction_reference", "posted_at", "account_code", "side", "amount", "currency",
    "description", "tax_rate"]

/-- The row of an entry. -/
def csvRow (book : Book) (t : JournalTransaction) (e : LedgerEntry) : List String :=
  [book.code, t.fields.reference, t.fields.postedAt.isoformat, e.fields.accountCode,
    e.fields.side.value, e.decimalValue.formatF, e.fields.currency,
    e.fields.description.getD "", (e.fields.taxRate.map Decimal.formatF).getD ""]

/-- The rows of a book: one for each entry, in the order of the ledger. -/
def csvRows (book : Book) : List (List String) :=
  csvHeader :: book.fields.transactions.flatMap fun t => t.fields.entries.map (csvRow book t)

/-- `LedgerExporter.to_csv` -/
def toCsv (book : Book) : TextArtifact :=
  ⟨"csv", "text/csv", (Csv.writeRows (csvRows book)).toByteArray⟩

/-! ### What the rows show -/

/-- A record of a CSV ledger. -/
structure CsvRecord where
  bookCode : String
  reference : String
  postedAt : DateTime
  entry : LedgerEntry

/-- A text that stands for `None` when it is empty. -/
def emptyAsNone (s : String) : Option String := if s = "" then none else some s

/-- The record of a row. -/
def readRow : List String → Except PyError CsvRecord
  | [bookCode, reference, postedAt, accountCode, side, amount, currency, description, taxRate] => do
    let postedAt ← datetimeFromIsoformat postedAt
    let entry ← entryFromMapping
      { accountCode, side, amount, currency, description := emptyAsNone description
        taxRate := emptyAsNone taxRate }
    return { bookCode, reference, postedAt, entry }
  | _ => .error (.valueError "a row has nine fields")

/-- The records of a CSV ledger. -/
def readCsv (content : ByteArray) : Except PyError (List CsvRecord) :=
  match (String.fromUTF8? content).map Csv.read with
  | some (header :: rows) =>
    if header = csvHeader then rows.mapM readRow
    else .error (.valueError "the header of a ledger is missing")
  | _ => .error (.valueError "the content is no CSV text")

/-- The record of an entry that was exported. -/
def csvRecord (book : Book) (t : JournalTransaction) (e : LedgerEntry) : CsvRecord :=
  ⟨book.code, t.fields.reference, t.fields.postedAt, e.readBack⟩

/-- A text that was normalised is not empty. -/
theorem ne_empty_of_normalizeOptionalStr {s : String} {f : String}
    (h : normalizeOptionalStr (some s) f = .ok (some s)) : s ≠ "" := by
  rw [Platform.normalizeOptionalStr_some] at h
  rintro rfl
  rw [Platform.requireNonEmptyStr_eq, if_pos (by decide)] at h
  cases h

omit [Platform] in
theorem emptyAsNone_getD {s : Option String} (h : ∀ t ∈ s, t ≠ "") :
    emptyAsNone (s.getD "") = s := by
  cases s with
  | none => rfl
  | some t => exact if_neg (h t rfl)

/-- **A row shows its entry**, the amounts with their values. -/
theorem readRow_csvRow (book : Book) (t : JournalTransaction) (e : LedgerEntry) :
    readRow (csvRow book t e) = .ok (csvRecord book t e) := by
  have hdescription : emptyAsNone (e.fields.description.getD "") = e.fields.description := by
    refine emptyAsNone_getD fun s hs => ?_
    have hvalid := e.valid.description "entry.description"
    rw [Option.mem_def.mp hs] at hvalid
    exact ne_empty_of_normalizeOptionalStr hvalid
  have hrate : emptyAsNone ((e.fields.taxRate.map Decimal.formatF).getD "") =
      e.fields.taxRate.map Decimal.formatF := by
    refine emptyAsNone_getD fun s hs => ?_
    obtain ⟨v, hv, rfl⟩ := Option.mem_map.mp hs
    obtain ⟨d, hd, -⟩ := e.valid.taxRate v hv
    rw [formatF_of_toDec? hd]
    exact Dec.formatF_ne_empty d
  have hentry : entryFromMapping ⟨e.fields.accountCode, e.fields.side.value,
      e.decimalValue.formatF, e.fields.currency, emptyAsNone (e.fields.description.getD ""),
      emptyAsNone ((e.fields.taxRate.map Decimal.formatF).getD "")⟩ = .ok e.readBack := by
    rw [hdescription, hrate]
    exact entryFromMapping_entryToMapping e
  rw [csvRow, readRow, Platform.datetimeFromIsoformat_isoformat, ok_bind, hentry]
  rfl

/-- **The rows show the entries of the book**, in the order of the ledger. -/
theorem readCsv_toCsv (book : Book) : readCsv (toCsv book).content =
    .ok (book.fields.transactions.flatMap fun t => t.fields.entries.map (csvRecord book t)) := by
  have hrows : (book.fields.transactions.flatMap fun t => t.fields.entries.map (csvRow book t)) =
      (book.fields.transactions.flatMap fun t => t.fields.entries.map (Prod.mk t)).map
        fun te => csvRow book te.1 te.2 := by
    simp [List.map_flatMap, Function.comp_def]
  have hrecords : (book.fields.transactions.flatMap fun t =>
      t.fields.entries.map (csvRecord book t)) =
      (book.fields.transactions.flatMap fun t => t.fields.entries.map (Prod.mk t)).map
        fun te => csvRecord book te.1 te.2 := by
    simp [List.map_flatMap, Function.comp_def]
  rw [readCsv, toCsv, fromUTF8?_toByteArray, Option.map_some, Csv.read_writeRows, csvRows]
  dsimp only
  rw [if_pos rfl, hrows, hrecords]
  exact mapM_map_eq_ok fun te _ => readRow_csvRow book te.1 te.2

end FinestVX
