import FinestVX.Lib.Quoting

/-!
# Comma-separated values

Tables of texts in the default dialect of the `csv` module: fields are separated by commas,
a row ends with a line feed, and a field is quoted when it has to be.  The reader is a
machine that takes one character after the other, and knows all three ends of a line.

## Main definitions

* `writeField`, `writeRow`, `writeRows` — the writer.
* `Reader`, `Reader.feed`, `read` — the reader.

## Main results

* `foldl_feed_writeField` — what the reader does with a field.
* `foldl_feed_writeRow` — what it does with a row.
* `read_writeRows` — **every table is read back.**
-/

namespace Csv

/-! ### The writer -/

/-- The quote, as a character. -/
def quote : Char := '"'

/-- A character that a field can contain only in quotes. -/
def isSpecial (c : Char) : Bool := c = ',' || c = quote || c = '\n' || c = '\r'

/-- A field, in quotes if it contains a character that needs them. -/
def writeField (field : String) : List Char :=
  if field.toList.any isSpecial then Quoting.enclose quote field.toList else field.toList

/-- `writer.writerow(fields)`, with lines that end in a line feed; the field of a row that
is nothing but one empty field is quoted. -/
def writeRow (fields : List String) : List Char :=
  if fields = [""] then [quote, quote, '\n']
  else [','].intercalate (fields.map writeField) ++ ['\n']

/-- One row after the other. -/
def writeRows (rows : List (List String)) : String := String.ofList (rows.flatMap writeRow)

/-! ### The reader -/

/-- Where the reader is in a text. -/
inductive Mode
  | startRecord
  /-- After a carriage return that has ended a row. -/
  | afterReturn
  | startField
  | inField
  | inQuoted
  /-- After a quote inside of a quoted field. -/
  | quoteInQuoted
  deriving DecidableEq

/-- What was read so far. -/
structure Reader where
  rows : List (List String) := []
  row : List String := []
  field : List Char := []
  mode : Mode := .startRecord

def isNewline (c : Char) : Bool := c = '\n' || c = '\r'

namespace Reader

/-- A character of a field. -/
def addChar (r : Reader) (c : Char) (mode : Mode) : Reader :=
  { r with field := r.field ++ [c], mode := mode }

/-- The field is complete. -/
def saveField (r : Reader) (mode : Mode) : Reader :=
  { r with row := r.row ++ [String.ofList r.field], field := [], mode := mode }

/-- The row is complete. -/
def saveRow (r : Reader) (c : Char) : Reader :=
  { rows := r.rows ++ [r.row], row := [], field := [],
    mode := if c = '\r' then .afterReturn else .startRecord }

/-- What ends a field, or belongs to it. -/
def endField (r : Reader) (c : Char) : Reader :=
  if isNewline c then (r.saveField r.mode).saveRow c
  else if c = ',' then r.saveField .startField
  else r.addChar c .inField

/-- The first character of a field. -/
def startField (r : Reader) (c : Char) : Reader :=
  if c = quote then { r with mode := .inQuoted } else r.endField c

/-- The first character of a row. -/
def startRecord (r : Reader) (c : Char) : Reader :=
  if isNewline c then r.saveRow c else r.startField c

/-- The reader takes a character. -/
def feed (r : Reader) (c : Char) : Reader :=
  match r.mode with
  | .startRecord => r.startRecord c
  | .afterReturn => if c = '\n' then { r with mode := .startRecord } else r.startRecord c
  | .startField => r.startField c
  | .inField => r.endField c
  | .inQuoted => if c = quote then { r with mode := .quoteInQuoted } else r.addChar c .inQuoted
  | .quoteInQuoted => if c = quote then r.addChar c .inQuoted else r.endField c

/-- The end of the text ends the last row. -/
def finish (r : Reader) : List (List String) :=
  match r.mode with
  | .startRecord | .afterReturn => r.rows
  | _ => r.rows ++ [r.row ++ [String.ofList r.field]]

end Reader

/-- The rows of a text, `list(csv.reader(file))`. -/
def read (text : String) : List (List String) := (text.toList.foldl Reader.feed {}).finish

/-! ### What is written is read back -/

open Reader

/-- The reader is about to read a field. -/
structure Ready (r : Reader) : Prop where
  field : r.field = []
  mode : r.mode = .startField ∨ r.mode = .startRecord

variable {r : Reader}

/-- The characters of a field without quotes. -/
theorem foldl_feed_plain {cs : List Char} (hcs : ∀ c ∈ cs, isSpecial c = false)
    (hr : r.mode = .inField) :
    cs.foldl feed r = { r with field := r.field ++ cs } := by
  induction cs generalizing r with
  | nil => simp
  | cons c cs ih =>
    obtain ⟨hc, hcs⟩ := List.forall_mem_cons.mp hcs
    simp only [isSpecial, Bool.or_eq_false_iff, decide_eq_false_iff_not] at hc
    have hfeed : r.feed c = r.addChar c .inField := by
      simp [feed, hr, endField, isNewline, hc]
    rw [List.foldl_cons, hfeed, ih hcs rfl]
    simp [addChar, ← hr]

/-- The characters of a field between its quotes. -/
theorem foldl_feed_quoted (cs : List Char) (hr : r.mode = .inQuoted) :
    (Quoting.replace quote [quote, quote] cs).foldl feed r =
      { r with field := r.field ++ cs } := by
  induction cs generalizing r with
  | nil => simp
  | cons c cs ih =>
    have hfeed : (if c = quote then [quote, quote] else [c]).foldl feed r =
        r.addChar c .inQuoted := by
      by_cases hc : c = quote
      · simp [hc, feed, hr, addChar]
      · simp [hc, feed, hr, addChar]
    rw [Quoting.replace_cons, List.foldl_append, hfeed, ih rfl]
    simp [addChar, ← hr]

/-- The first character of a field that needs no quotes. -/
theorem feed_first {c : Char} (hr : Ready r) (hc : isSpecial c = false) :
    r.feed c = r.addChar c .inField := by
  simp only [isSpecial, Bool.or_eq_false_iff, decide_eq_false_iff_not] at hc
  rcases hr.mode with h | h <;>
    simp [feed, h, Reader.startRecord, Reader.startField, endField, isNewline, hc]

/-- **What the reader does with a field**: it is about to take what follows as the end of this
field.  A line feed at the start of a row is the end of no field. -/
theorem foldl_feed_writeField (hr : Ready r) (s : String) :
    ∃ r', (writeField s).foldl feed r = r' ∧ r'.rows = r.rows ∧ r'.row = r.row ∧
      r'.field = s.toList ∧
        ∀ c, c = ',' ∨ c = '\n' ∧ (r.mode = .startField ∨ s ≠ "") → r'.feed c = r'.endField c := by
  have hne : ∀ {c : Char}, c = ',' ∨ c = '\n' ∧ (r.mode = .startField ∨ s ≠ "") → c ≠ quote := by
    intro c hc
    rcases hc with rfl | ⟨rfl, -⟩ <;> decide
  unfold writeField
  split
  · -- in quotes
    have hopen : r.feed quote = { r with mode := .inQuoted } := by
      rcases hr.mode with h | h <;>
        simp [feed, h, Reader.startRecord, Reader.startField, isNewline, quote]
    refine ⟨{ r with field := s.toList, mode := .quoteInQuoted }, ?_, rfl, rfl, rfl, ?_⟩
    · rw [Quoting.enclose, List.foldl_cons, hopen, List.foldl_append, foldl_feed_quoted _ rfl]
      simp [feed, hr.field]
    · intro c hc
      simp [feed, hne hc]
  · next hplain =>
    have hall : ∀ c ∈ s.toList, isSpecial c = false := by
      simpa using hplain
    cases hs : s.toList with
    | nil =>
      obtain rfl : s = "" := String.toList_eq_nil_iff.mp hs
      refine ⟨r, rfl, rfl, rfl, hr.field, ?_⟩
      rintro c (rfl | ⟨rfl, h | h⟩)
      · rcases hr.mode with h | h <;>
          simp [feed, h, Reader.startRecord, Reader.startField, isNewline, quote]
      · simp [feed, h, Reader.startField, quote]
      · exact absurd rfl h
    | cons c cs =>
      rw [hs] at hall
      obtain ⟨hc, hcs⟩ := List.forall_mem_cons.mp hall
      refine ⟨{ r with field := c :: cs, mode := .inField }, ?_, rfl, rfl, rfl, fun _ _ => rfl⟩
      rw [List.foldl_cons, feed_first hr hc, foldl_feed_plain hcs rfl]
      simp [addChar, hr.field]

/-- A field and the comma after it. -/
theorem foldl_feed_comma (hr : Ready r) (s : String) :
    (writeField s ++ [',']).foldl feed r = ⟨r.rows, r.row ++ [s], [], .startField⟩ := by
  obtain ⟨r', hfold, hrows, hrow, hfield, hfeed⟩ := foldl_feed_writeField hr s
  rw [List.foldl_append, hfold, List.foldl_cons, List.foldl_nil, hfeed ',' (.inl rfl)]
  simp [endField, isNewline, saveField, hrows, hrow, hfield]

/-- The last field of a row and the line feed after it. -/
theorem foldl_feed_newline (hr : Ready r) {s : String} (hs : r.mode = .startField ∨ s ≠ "") :
    (writeField s ++ ['\n']).foldl feed r = ⟨r.rows ++ [r.row ++ [s]], [], [], .startRecord⟩ := by
  obtain ⟨r', hfold, hrows, hrow, hfield, hfeed⟩ := foldl_feed_writeField hr s
  rw [List.foldl_append, hfold, List.foldl_cons, List.foldl_nil, hfeed '\n' (.inr ⟨rfl, hs⟩)]
  simp [endField, isNewline, saveField, saveRow, hrows, hrow, hfield]

/-- The fields of a row, one after the other. -/
theorem foldl_feed_fields (hr : Ready r) {fields : List String} (hne : fields ≠ [])
    (h : r.mode = .startField ∨ fields ≠ [""]) :
    ([','].intercalate (fields.map writeField) ++ ['\n']).foldl feed r =
      ⟨r.rows ++ [r.row ++ fields], [], [], .startRecord⟩ := by
  induction fields generalizing r with
  | nil => exact absurd rfl hne
  | cons s fields ih =>
    cases fields with
    | nil =>
      have hs : r.mode = .startField ∨ s ≠ "" := h.imp_right fun h heq => h (by rw [heq])
      simpa [List.intercalate] using foldl_feed_newline hr hs
    | cons s' fields =>
      have hsplit : [','].intercalate ((s :: s' :: fields).map writeField) ++ ['\n'] =
          (writeField s ++ [',']) ++
            ([','].intercalate ((s' :: fields).map writeField) ++ ['\n']) := by
        simp [List.intercalate]
      rw [hsplit, List.foldl_append, foldl_feed_comma hr s,
        ih ⟨rfl, .inl rfl⟩ (List.cons_ne_nil _ _) (.inl rfl)]
      simp

/-- **What the reader does with a row.** -/
theorem foldl_feed_writeRow (rows : List (List String)) (fields : List String) :
    (writeRow fields).foldl feed ⟨rows, [], [], .startRecord⟩ =
      ⟨rows ++ [fields], [], [], .startRecord⟩ := by
  unfold writeRow
  split
  · next h =>
    subst h
    rfl
  · next h =>
    cases fields with
    | nil => rfl
    | cons s fields =>
      exact foldl_feed_fields ⟨rfl, .inr rfl⟩ (List.cons_ne_nil _ _) (.inr h)

/-- **Every table is read back.** -/
theorem read_writeRows (rows : List (List String)) : read (writeRows rows) = rows := by
  have hfold : ∀ (rows acc : List (List String)),
      (rows.flatMap writeRow).foldl feed ⟨acc, [], [], .startRecord⟩ =
        ⟨acc ++ rows, [], [], .startRecord⟩ := by
    intro rows
    induction rows with
    | nil => simp
    | cons fields rows ih =>
      intro acc
      rw [List.flatMap_cons, List.foldl_append, foldl_feed_writeRow, ih]
      simp
  have hread := hfold rows []
  rw [read, writeRows, String.toList_ofList]
  change ((rows.flatMap writeRow).foldl feed ⟨[], [], [], .startRecord⟩).finish = rows
  rw [hread]
  simp [finish]

end Csv
