import FinestVX.Persistence.RoundTrip

/-!
# The PDF summary

The summary of a book is drawn line by line, from the top of a page down, and a new page is
begun only after a transaction, when there is little room left.  So the lines of the ledger
are all drawn, in their order, but those of a transaction with many entries may run over the
foot of the page.

## Main definitions

* `CanvasOp`, `toPdf` — the commands given to the canvas, which stand for the content of the
  artifact.
* `drawn` — the texts that are drawn, with their heights on the page.
* `startOf` — the height at which a transaction begins, from the sizes of those before it.

## Main results

* `drawn_toPdf` — what is drawn, and where.
* `toPdf_shows_iff` — when every line is on its page.
* `shown_of_le_four`, `not_shown_of_fifty_le` — it is, if no transaction has more than four
  entries, and is not, if one has fifty or more.
-/

namespace FinestVX

/-! ### Drawing -/

/-- A command to the canvas. -/
inductive CanvasOp
  | setAuthor (author : String)
  | setCreator (creator : String)
  | setTitle (title : String)
  | setSubject (subject : String)
  | setFont (name : String) (size : ℕ)
  | drawString (x y : ℤ) (text : String)
  | showPage
  | save
  deriving DecidableEq, Repr

def xOrigin : ℤ := 48

def lineHeight : ℤ := 16

/-- Draw lines one below the other; the height at which the next one goes comes last. -/
def drawLines (x : ℤ) : ℤ → List String → List CanvasOp × ℤ
  | y, [] => ([], y)
  | y, line :: lines =>
    let rest := drawLines x (y - lineHeight) lines
    (.drawString x y line :: rest.1, rest.2)

section

variable [Platform]

/-- An artifact of the exporter, its content as what was drawn. -/
structure PdfArtifact where
  formatName : String
  mediaType : String
  content : List CanvasOp

/-- The lines about the book as a whole. -/
def summaryLines (b : BookFields) : List String :=
  ["Name: " ++ b.name, "Base currency: " ++ b.baseCurrency,
    "Legislative pack: " ++ b.legislativePack, s!"Accounts: {b.accounts.length}",
    s!"Periods: {b.periods.length}", s!"Transactions: {b.transactions.length}"]

/-- The line of an entry. -/
def entryLine (e : LedgerEntry) : String :=
  e.fields.side.value ++ " " ++ e.fields.accountCode ++ " " ++ e.decimalValue.formatF ++ " " ++
    e.fields.currency

/-- The line that begins a transaction. -/
def referenceLine (t : JournalTransaction) : String :=
  t.fields.reference ++ " " ++ t.fields.postedAt.isoformat

/-- The body of the loop over the transactions. -/
def drawTransaction (y : ℤ) (t : JournalTransaction) : List CanvasOp × ℤ :=
  let reference := [.setFont "Helvetica-Bold" 10, .drawString xOrigin y (referenceLine t)]
  let y := y - lineHeight
  let description := [.setFont "Helvetica" 9, .drawString (xOrigin + 12) y t.fields.description]
  let y := y - lineHeight
  let entries := drawLines (xOrigin + 24) y (t.fields.entries.map entryLine)
  let y := entries.2 - 4
  if y < 80 then
    (reference ++ description ++ entries.1 ++ [.showPage, .setFont "Helvetica" 10], 800)
  else (reference ++ description ++ entries.1, y)

/-- The loop over the transactions. -/
def drawTransactions : ℤ → List JournalTransaction → List CanvasOp
  | _, [] => []
  | y, t :: transactions =>
    (drawTransaction y t).1 ++ drawTransactions (drawTransaction y t).2 transactions

/-- `LedgerExporter.to_pdf` -/
def toPdf (book : Book) : PdfArtifact :=
  let y := 800
  let title : List CanvasOp :=
    [.setAuthor "FinestVX", .setCreator "FinestVX", .setTitle ("Ledger " ++ book.fields.code),
      .setSubject "Deterministic ledger export", .setFont "Helvetica-Bold" 14,
      .drawString xOrigin y ("FinestVX Book: " ++ book.fields.code), .setFont "Helvetica" 10]
  let y := y - lineHeight * 2
  let summary := drawLines xOrigin y (summaryLines book.fields)
  let y := summary.2 - lineHeight
  let transactions := drawTransactions y book.fields.transactions
  ⟨"pdf", "application/pdf", title ++ summary.1 ++ transactions ++ [.save]⟩

end

/-! ### What is drawn, and where -/

/-- The texts that are drawn, each with its height on the page. -/
def drawn (ops : List CanvasOp) : List (ℤ × String) :=
  ops.filterMap fun
    | .drawString _ y text => some (y, text)
    | _ => none

@[simp] theorem drawn_nil : drawn [] = [] := rfl

@[simp] theorem drawn_append (ops ops' : List CanvasOp) :
    drawn (ops ++ ops') = drawn ops ++ drawn ops' :=
  List.filterMap_append

/-- Lines one below the other, from the height `y` on. -/
def placed : ℤ → List String → List (ℤ × String)
  | _, [] => []
  | y, line :: lines => (y, line) :: placed (y - lineHeight) lines

theorem drawn_drawLines (x y : ℤ) (lines : List String) :
    drawn (drawLines x y lines).1 = placed y lines := by
  induction lines generalizing y with
  | nil => rfl
  | cons line lines ih =>
    rw [placed, ← ih]
    rfl

theorem drawLines_snd (x y : ℤ) (lines : List String) :
    (drawLines x y lines).2 = y - lineHeight * lines.length := by
  induction lines generalizing y with
  | nil => simp [drawLines]
  | cons line lines ih =>
    change (drawLines x (y - lineHeight) lines).2 = _
    rw [ih, List.length_cons]
    push_cast
    ring

@[simp] theorem map_snd_placed (y : ℤ) (lines : List String) :
    (placed y lines).map Prod.snd = lines := by
  induction lines generalizing y with
  | nil => rfl
  | cons line lines ih => rw [placed, List.map_cons, ih]

/-- Lines are on the page when the first and the last one are. -/
theorem forall_placed_iff {y : ℤ} (hy : y ≤ 841) (line : String) (lines : List String) :
    (∀ d ∈ placed y (line :: lines), 0 ≤ d.1 ∧ d.1 ≤ 841) ↔ lineHeight * lines.length ≤ y := by
  induction lines generalizing y line with
  | nil => simp [placed, hy]
  | cons next lines ih =>
    have hlower : y - lineHeight ≤ 841 := by
      unfold lineHeight
      omega
    rw [placed, List.forall_mem_cons, ih hlower, List.length_cons]
    unfold lineHeight
    push_cast
    omega

/-- The height at which the next transaction begins, after one with `n` entries. -/
def nextStart (y : ℤ) (n : ℕ) : ℤ := if y - 36 - 16 * n < 80 then 800 else y - 36 - 16 * n

/-- The height at which a transaction begins, when those before it have so many entries. -/
def startOf (sizes : List ℕ) : ℤ := sizes.foldl nextStart 656

theorem nextStart_mem {y : ℤ} (hy : y ≤ 800) (n : ℕ) :
    80 ≤ nextStart y n ∧ nextStart y n ≤ 800 := by
  unfold nextStart
  split <;> omega

theorem startOf_mem (sizes : List ℕ) : 80 ≤ startOf sizes ∧ startOf sizes ≤ 800 := by
  unfold startOf
  induction sizes using List.reverseRecOn with
  | nil => decide
  | append_singleton sizes n ih =>
    rw [List.foldl_append]
    exact nextStart_mem ih.2 n

section

variable [Platform]

/-- The lines of a transaction. -/
def transactionLines (t : JournalTransaction) : List String :=
  referenceLine t :: t.fields.description :: t.fields.entries.map entryLine

theorem drawn_drawTransaction (y : ℤ) (t : JournalTransaction) :
    drawn (drawTransaction y t).1 = placed y (transactionLines t) := by
  have hentries := drawn_drawLines (xOrigin + 24) (y - lineHeight - lineHeight)
    (t.fields.entries.map entryLine)
  rw [transactionLines, placed, placed, ← hentries]
  unfold drawTransaction
  dsimp only
  split
  · rw [drawn_append, drawn_append]
    exact List.append_nil _
  · rw [drawn_append]
    rfl

theorem drawTransaction_snd (y : ℤ) (t : JournalTransaction) :
    (drawTransaction y t).2 = nextStart y t.fields.entries.length := by
  unfold drawTransaction nextStart
  dsimp only
  rw [drawLines_snd, List.length_map]
  unfold lineHeight
  split_ifs <;> omega

/-- The lines of the transactions are drawn in their order. -/
theorem map_snd_drawn_drawTransactions (y : ℤ) (transactions : List JournalTransaction) :
    (drawn (drawTransactions y transactions)).map Prod.snd =
      transactions.flatMap transactionLines := by
  induction transactions generalizing y with
  | nil => rfl
  | cons t transactions ih =>
    rw [drawTransactions, drawn_append, List.map_append, ih, drawn_drawTransaction,
      map_snd_placed, List.flatMap_cons]

/-- The transactions are on their pages when each of them ends on the page it begins on. -/
theorem forall_drawn_drawTransactions_iff {y : ℤ} (hy : y ≤ 800)
    (transactions : List JournalTransaction) :
    (∀ d ∈ drawn (drawTransactions y transactions), 0 ≤ d.1 ∧ d.1 ≤ 841) ↔
      ∀ before t after, transactions = before ++ t :: after →
        16 * (t.fields.entries.length + 1 : ℤ) ≤
          (before.map fun x => x.fields.entries.length).foldl nextStart y := by
  induction transactions generalizing y with
  | nil => simp [drawTransactions]
  | cons t transactions ih =>
    rw [drawTransactions, drawn_append, List.forall_mem_append, drawn_drawTransaction,
      drawTransaction_snd, ih (nextStart_mem hy _).2, transactionLines,
      forall_placed_iff (by omega)]
    have hsize :
        lineHeight * ((t.fields.description :: t.fields.entries.map entryLine).length : ℤ) =
          16 * (t.fields.entries.length + 1) := by
      rw [List.length_cons, List.length_map]
      rfl
    rw [hsize]
    constructor
    · rintro ⟨hfirst, hrest⟩ before x after heq
      cases before with
      | nil =>
        cases heq
        exact hfirst
      | cons t' before =>
        cases heq
        exact hrest before x after rfl
    · intro h
      refine ⟨h [] t transactions rfl, ?_⟩
      rintro before x after rfl
      exact h (t :: before) x after rfl

/-- The lines that are drawn before the transactions. -/
def headLines (book : Book) : List String :=
  ("FinestVX Book: " ++ book.fields.code) :: summaryLines book.fields

/-- What is drawn, and where. -/
theorem drawn_toPdf (book : Book) : drawn (toPdf book).content =
    (800, "FinestVX Book: " ++ book.fields.code) :: placed 768 (summaryLines book.fields) ++
      drawn (drawTransactions 656 book.fields.transactions) := by
  have htop : (800 : ℤ) - lineHeight * 2 = 768 := by
    norm_num [lineHeight]
  have hstart : (768 : ℤ) - lineHeight * (summaryLines book.fields).length - lineHeight = 656 := by
    norm_num [lineHeight, summaryLines]
  have hsave : drawn [.save] = [] := rfl
  unfold toPdf
  dsimp only
  rw [drawn_append, drawn_append, drawn_append, drawn_drawLines, drawLines_snd, htop, hstart,
    hsave, List.append_nil]
  rfl

/-- All lines are inside of their page just when every transaction begins high enough. -/
theorem forall_drawn_toPdf_iff (book : Book) :
    (∀ d ∈ drawn (toPdf book).content, 0 ≤ d.1 ∧ d.1 ≤ 841) ↔
    ∀ before t after, book.fields.transactions = before ++ t :: after →
      16 * (t.fields.entries.length + 1 : ℤ) ≤
        startOf (before.map fun x => x.fields.entries.length) := by
  have hsummary : ∀ d ∈ placed 768 (summaryLines book.fields), 0 ≤ d.1 ∧ d.1 ≤ 841 := by
    rw [summaryLines, forall_placed_iff (by norm_num)]
    simp [lineHeight]
  unfold startOf
  rw [← forall_drawn_drawTransactions_iff (by norm_num), drawn_toPdf]
  constructor
  · intro hinside d hd
    exact hinside d (List.mem_append_right _ hd)
  · intro hinside d hd
    rcases List.mem_append.mp hd with hd | hd
    · rcases List.mem_cons.mp hd with rfl | hd
      · norm_num
      · exact hsummary d hd
    · exact hinside d hd

/-- **Every line is drawn once, in the order of the ledger; and all of them are inside of their
page just when** every transaction begins high enough on it: with `n` entries it needs
`16 * (n + 1)` points below the height at which those before it have left off. -/
theorem toPdf_shows_iff (book : Book) :
    ((∀ d ∈ drawn (toPdf book).content, 0 ≤ d.1 ∧ d.1 ≤ 841) ∧
      (drawn (toPdf book).content).map Prod.snd =
        headLines book ++ book.fields.transactions.flatMap transactionLines) ↔
    ∀ before t after, book.fields.transactions = before ++ t :: after →
      16 * (t.fields.entries.length + 1 : ℤ) ≤
        startOf (before.map fun x => x.fields.entries.length) := by
  have htexts : (drawn (toPdf book).content).map Prod.snd =
      headLines book ++ book.fields.transactions.flatMap transactionLines := by
    rw [drawn_toPdf, List.map_append, List.map_cons, map_snd_placed,
      map_snd_drawn_drawTransactions, headLines]
  rw [← forall_drawn_toPdf_iff]
  exact and_iff_left htexts

/-- Transactions of up to four entries are never cut off. -/
theorem shown_of_le_four (book : Book)
    (h : ∀ t ∈ book.fields.transactions, t.fields.entries.length ≤ 4) :
    ∀ d ∈ drawn (toPdf book).content, 0 ≤ d.1 ∧ d.1 ≤ 841 := by
  refine (forall_drawn_toPdf_iff book).mpr ?_
  intro before t after heq
  have hsize := h t (heq ▸ List.mem_append_right _ List.mem_cons_self)
  have hstart := (startOf_mem (before.map fun x => x.fields.entries.length)).1
  omega

/-- A transaction of fifty entries or more is always cut off. -/
theorem not_shown_of_fifty_le (book : Book)
    (h : ∃ t ∈ book.fields.transactions, 50 ≤ t.fields.entries.length) :
    ¬ ∀ d ∈ drawn (toPdf book).content, 0 ≤ d.1 ∧ d.1 ≤ 841 := by
  obtain ⟨t, ht, hsize⟩ := h
  obtain ⟨before, after, heq⟩ := List.append_of_mem ht
  rw [forall_drawn_toPdf_iff]
  intro hshown
  have hroom := hshown before t after heq
  have hstart := (startOf_mem (before.map fun x => x.fields.entries.length)).2
  omega

end

/-! ### Evaluated -/

namespace Reference

theorem wage_built : ∃ raw, LedgerEntryFields.postInit raw =
    .ok (euros "1000" .debit 10000 (-2)) :=
  ⟨euros "1000" .debit 10000 (-2), rfl⟩

theorem payment_built : ∃ raw, LedgerEntryFields.postInit raw =
    .ok (euros "2000" .credit 10000 (-2)) :=
  ⟨euros "2000" .credit 10000 (-2), rfl⟩

/-- Wages for many people, each paid from cash. -/
def payroll : JournalTransactionFields :=
  { hundred with
    entries := List.replicate 21 ⟨_, wage_built⟩ ++ List.replicate 21 ⟨_, payment_built⟩ }

/-- A book with one long transaction. -/
def payrollBook : Book :=
  ⟨bookFields [plainJanuary] [⟨payroll, payroll, by rfl⟩],
    bookFields [plainJanuary] [⟨payroll, payroll, by rfl⟩], by rfl⟩

/-- The last two entries are drawn below the page. -/
theorem payrollBook_cut_off : ¬ ∀ d ∈ drawn (toPdf payrollBook).content, 0 ≤ d.1 ∧ d.1 ≤ 841 := by
  have hbelow : ((drawn (toPdf payrollBook).content).any fun d => decide (d.1 < 0)) = true := by
    decide
  intro h
  obtain ⟨d, hd, hneg⟩ := List.any_eq_true.mp hbelow
  exact absurd (h d hd).1 (not_le.mpr (of_decide_eq_true hneg))

end Reference

end FinestVX
