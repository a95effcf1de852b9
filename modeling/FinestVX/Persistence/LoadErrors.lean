import FinestVX.Core.Charts
import FinestVX.Core.Escapes
import FinestVX.Persistence.AppendErrors
import FinestVX.Persistence.Constraints

/-!
# The errors of loading a book

Loading means to tell three situations apart: a book that is not stored, rows that break an
invariant of the ledger, and rows that are no book at all.  The constructors check the
invariants before the code that reports them does, so the second situation is reported as
the third; and a signal of the decimals, or a text that the driver cannot decode, is none of
the three.

## Main definitions

* `StoredContent` — the rows of a database, some of which have texts that are not UTF-8.
* `RowsValid` — every row of the book is valid by itself.
* `Unbalanced`, `ChartBroken` — the invariants that a set of valid rows can break.
* `SignalReached` — a text that is no number, or a sum out of range, comes after valid rows.
* `LoadContract` — what each exception says about the rows.

## Main results

* `loadBook_eq_reraise` — a book that is stored is loaded or is a `PersistenceIntegrityError`,
  but for the signals.
* `loadContract_iff` — **the exceptions mean what they say exactly when** no invariant is
  broken by valid rows, every text is UTF-8 and no signal is reached.
* `Reference.tampered_misreported` — an unbalanced transaction, an amount that is no number,
  and a byte that is not UTF-8.
-/

namespace FinestVX

open Except

section

variable [Platform]

/-! ### Texts that are not UTF-8 -/

/-- The content of a database file: its rows, and the error the driver raises for a row with a
text that is not UTF-8.  The strings of such a row stand for its texts, which nothing but the
database compares. -/
structure StoredContent where
  tables : Tables
  decodeError : CoreRow → Option String

/-- The rows that the queries of `load_book` hand over, in their order. -/
def Tables.fetchedRows (t : Tables) (code : String) : List CoreRow :=
  match t.books.find? (·.bookCode = code) with
  | none => []
  | some row =>
    .book row :: (selectAccounts code t).map .account ++ (selectPeriods code t).map .period ++
      (selectTransactions code t).map .transaction ++
      (selectTransactions code t).flatMap fun r => (selectEntries code r.reference t).map .entry

namespace StoredContent

/-- The driver decodes the texts of a row; a `UnicodeDecodeError` is a `ValueError`. -/
def decodeRow (c : StoredContent) (r : CoreRow) : Except PyError Unit :=
  match c.decodeError r with
  | none => .ok ()
  | some msg => .error (.valueError msg)

/-- `load_book` with the decoding of what is fetched, which no handler is around. -/
def loadBook (c : StoredContent) (code : String) : Except PyError Book := do
  checkAll c.decodeRow (c.tables.fetchedRows code)
  FinestVX.loadBook c.tables code

/-- A row that is fetched for the book has a text that is not UTF-8. -/
def Garbled (c : StoredContent) (code : String) : Prop :=
  ∃ r ∈ c.tables.fetchedRows code, c.decodeError r ≠ none

/-- Where every text is UTF-8, a book is loaded from the tables. -/
theorem loadBook_eq {c : StoredContent} {code : String} (h : ¬ c.Garbled code) :
    c.loadBook code = FinestVX.loadBook c.tables code := by
  have hdecoded : checkAll c.decodeRow (c.tables.fetchedRows code) = .ok () := by
    refine checkAll_eq_ok.mpr fun r hr => ?_
    have hnone : c.decodeError r = none := by
      by_contra herror
      exact h ⟨r, hr, herror⟩
    rw [decodeRow, hnone]
  rw [loadBook, hdecoded, ok_bind]

/-- A text that is not UTF-8 is a `ValueError`. -/
theorem loadBook_of_garbled {c : StoredContent} {code : String} (h : c.Garbled code) :
    ∃ msg, c.loadBook code = .error (.valueError msg) := by
  obtain ⟨r, hr, herror⟩ := h
  cases hcheck : checkAll c.decodeRow (c.tables.fetchedRows code) with
  | ok u =>
    have hdecoded := checkAll_eq_ok.mp hcheck r hr
    obtain ⟨msg, hmsg⟩ := Option.ne_none_iff_exists'.mp herror
    rw [decodeRow, hmsg] at hdecoded
    cases hdecoded
  | error e =>
    have hvalue : ¬ (checkAll c.decodeRow (c.tables.fetchedRows code)).Raises
        fun e => ∀ msg, e ≠ .valueError msg := by
      refine not_raises_checkAll fun r _ => ?_
      unfold decodeRow
      split <;> simp
    rw [loadBook, hcheck, error_bind]
    by_contra hnot
    refine hvalue ⟨e, hcheck, fun msg heq => hnot ⟨msg, ?_⟩⟩
    rw [heq]

end StoredContent

/-! ### Rows that are valid -/

/-- Every row of the book is an account, a period, an entry or the header of a transaction, and
all its texts can be read. -/
structure RowsValid (c : StoredContent) (code : String) : Prop where
  accounts : ∀ r ∈ c.tables.accounts, r.bookCode = code → r.toPayload.Valid
  periods : ∀ r ∈ c.tables.periods, r.bookCode = code → r.toPayload.Valid
  transactions : ∀ r ∈ c.tables.transactions, r.bookCode = code → (r.toPayload []).HeaderValid
  entries : ∀ r ∈ c.tables.entries, r.bookCode = code → r.toPayload.Valid
  decoded : ¬ c.Garbled code

/-- The exact sum of the amounts that the entries of a transaction post to a side in a
currency. -/
def postedSum (t : Tables) (r : TransactionRow) (s : PostingSide) (currency : String) : ℚ :=
  Dec.valueSum (postedAmounts s currency
    ((selectEntries r.bookCode r.reference t).map EntryRow.toPayload))

/-- The debits and the credits of a posted transaction differ in some currency. -/
def Unbalanced (t : Tables) (code : String) : Prop :=
  ∃ r ∈ t.transactions, r.bookCode = code ∧ Text.strip r.state = "posted" ∧
    ∃ currency, postedSum t r .debit currency ≠ postedSum t r .credit currency

/-- The account has the code of the row, and its parent. -/
def AccountRow.Names (r : AccountRow) (a : Account) : Prop :=
  a.code = Text.strip r.code ∧ a.parentCode = r.parentCode.map Text.strip

/-- The parent codes do not make a forest of the accounts. -/
def ChartBroken (t : Tables) (code : String) : Prop :=
  ∃ accounts, List.Forall₂ AccountRow.Names (selectAccounts code t) accounts ∧ ¬ IsForest accounts

/-! ### The contract -/

/-- A `LedgerInvariantError` is raised. -/
def RaisesLedgerInvariantError {α : Type} (outcome : Except PyError α) : Prop :=
  ∃ msg invariantCode entityRef,
    outcome = .error (.ledgerInvariantError msg invariantCode entityRef)

/-- Loading returns a book or raises one of three exceptions; a `KeyError` means that the book
is not stored, and a `LedgerInvariantError` that valid rows break an invariant. -/
structure LoadContract (c : StoredContent) (code : String) : Prop where
  keyError : RaisesKeyError (c.loadBook code) ↔ ¬ c.tables.HasBook code
  ledgerInvariantError : RaisesLedgerInvariantError (c.loadBook code) ↔
    RowsValid c code ∧ (Unbalanced c.tables code ∨ ChartBroken c.tables code)
  outcome : (c.loadBook code).Succeeds ∨ RaisesKeyError (c.loadBook code) ∨
    RaisesLedgerInvariantError (c.loadBook code) ∨
    RaisesPersistenceIntegrityError (c.loadBook code)

/-- The rows of a book as one mapping, in the order they are read in. -/
def storedPayload (t : Tables) (row : BookRow) : BookPayload where
  code := row.bookCode
  name := row.name
  baseCurrency := row.baseCurrency
  startMonth := row.fiscalStartMonth
  legislativePack := row.legislativePack
  accounts := (selectAccounts row.bookCode t).map AccountRow.toPayload
  periods := (selectPeriods row.bookCode t).map PeriodRow.toPayload
  transactions := (selectTransactions row.bookCode t).map fun r =>
    r.toPayload (selectEntries row.bookCode r.reference t)

/-- A text that is no number, or a sum that leaves the range of the decimals, comes after valid
rows. -/
def SignalReached (t : Tables) (code : String) : Prop :=
  ∃ row ∈ t.books, row.bookCode = code ∧ (storedPayload t row).Signals

/-! ### What loading raises -/

omit [Platform] in
theorem Tables.Keyed.nodup_selectTransactions {t : Tables} (h : t.Keyed) (code : String) :
    ((selectTransactions code t).map TransactionRow.reference).Nodup := by
  refine ((orderBy_perm _ _).map TransactionRow.reference).nodup_iff.mpr ?_
  refine List.Nodup.of_map (fun reference => (code, reference)) ?_
  have hcodes : ∀ r ∈ t.transactions.filter (·.bookCode = code),
      (code, r.reference) = (r.bookCode, r.reference) := by
    intro r hr
    rw [of_decide_eq_true (List.mem_filter.mp hr).2]
  rw [List.map_map]
  change ((t.transactions.filter _).map fun r => (code, r.reference)).Nodup
  rw [List.map_congr_left hcodes]
  exact h.transactions.sublist (List.filter_sublist.map _)

/-- Of a book that is stored, the errors of the constructors are wrapped. -/
theorem loadBook_eq_reraise {t : Tables} (h : t.Keyed) {row : BookRow} (hrow : row ∈ t.books) :
    loadBook t row.bookCode = reraise (bookFromMapping (storedPayload t row)) fun e =>
      .persistenceIntegrityError
        s!"Stored book {strRepr row.bookCode} could not be deserialized: {e.message}" := by
  have hfind : t.books.find? (·.bookCode = row.bookCode) = some row := by
    have hsome : (t.books.find? (·.bookCode = row.bookCode)).isSome :=
      List.find?_isSome.mpr ⟨row, hrow, by simp⟩
    obtain ⟨found, hfound⟩ := Option.isSome_iff_exists.mp hsome
    have hcode : found.bookCode = row.bookCode := by simpa using List.find?_some hfound
    rw [hfound, List.inj_on_of_nodup_map h.books (List.mem_of_find?_eq_some hfound) hrow hcode]
  rw [loadBook, loadBookFromConnection, loadBookFrom, hfind]
  dsimp only
  rw [deserializeBook_eq, buildBookPayload,
    map_toPayload_entryRowsByReference (h.nodup_selectTransactions _)]
  rfl

/-- A signal that is reached is raised. -/
theorem loadBook_of_signalReached (hplatform : RefusesByValueError) {t : Tables} (h : t.Keyed)
    {code : String} (hsignal : SignalReached t code) :
    ∃ signal, loadBook t code = .error (.decimalSignal signal) := by
  obtain ⟨row, hrow, rfl, hsignal⟩ := hsignal
  obtain ⟨e, he, hescapes⟩ := (escapes_bookFromMapping hplatform).mpr hsignal
  have hsig : ∃ signal, e = .decimalSignal signal := by
    by_contra hnone
    exact not_stray_bookFromMapping hplatform _ ⟨e, he, hescapes, not_exists.mp hnone⟩
  obtain ⟨signal, rfl⟩ := hsig
  refine ⟨signal, ?_⟩
  rw [loadBook_eq_reraise h hrow, he]
  rfl

/-- Unless a signal is reached, a stored book is loaded or cannot be deserialized. -/
theorem loadBook_of_hasBook (hplatform : RefusesByValueError) {t : Tables} (h : t.Keyed)
    {code : String} (hbook : t.HasBook code) (hsignal : ¬ SignalReached t code) :
    (loadBook t code).Succeeds ∨ RaisesPersistenceIntegrityError (loadBook t code) := by
  obtain ⟨row, hrow, rfl⟩ := hbook
  rw [loadBook_eq_reraise h hrow]
  cases hread : bookFromMapping (storedPayload t row) with
  | ok book => exact .inl ⟨book, rfl⟩
  | error e =>
    have hcaught : e.isTypeOrValueError = true := by
      by_contra hnot
      exact hsignal ⟨row, hrow, rfl, (escapes_bookFromMapping hplatform).mp
        ⟨e, hread, Bool.eq_false_of_not_eq_true hnot⟩⟩
    refine .inr ?_
    rw [reraise, Except.mapError, if_pos hcaught]
    exact ⟨_, rfl⟩

/-- No content of a database is reported as a broken invariant. -/
theorem not_raisesLedgerInvariantError (hplatform : RefusesByValueError) {c : StoredContent}
    (h : c.tables.Keyed) (code : String) : ¬ RaisesLedgerInvariantError (c.loadBook code) := by
  rintro ⟨msg, invariantCode, entityRef, hraised⟩
  by_cases hgarbled : c.Garbled code
  · obtain ⟨msg', he⟩ := StoredContent.loadBook_of_garbled hgarbled
    rw [he] at hraised
    cases hraised
  rw [StoredContent.loadBook_eq hgarbled] at hraised
  by_cases hsignal : SignalReached c.tables code
  · obtain ⟨signal, he⟩ := loadBook_of_signalReached hplatform h hsignal
    rw [he] at hraised
    cases hraised
  · by_cases hbook : c.tables.HasBook code
    · rcases loadBook_of_hasBook hplatform h hbook hsignal with ⟨book, he⟩ | ⟨msg', he⟩
      all_goals
        rw [he] at hraised
        cases hraised
    · rw [loadBook_of_unknown hbook] at hraised
      cases hraised

/-- An error that is none of the three breaks the contract. -/
theorem not_loadContract_of_error {c : StoredContent} {code : String} {e : PyError}
    (h : c.loadBook code = .error e) (hledger : ¬ RaisesLedgerInvariantError (c.loadBook code))
    (hkey : ∀ msg, e ≠ .keyError msg) (hintegrity : ∀ msg, e ≠ .persistenceIntegrityError msg) :
    ¬ LoadContract c code := by
  intro hcontract
  rcases hcontract.outcome with ⟨book, hr⟩ | ⟨msg, hr⟩ | hr | ⟨msg, hr⟩
  · rw [h] at hr
    cases hr
  · rw [h] at hr
    exact hkey msg (Except.error.inj hr)
  · exact hledger hr
  · rw [h] at hr
    exact hintegrity msg (Except.error.inj hr)

/-- **Loading keeps its contract exactly when** it is not the case that valid rows break an
invariant, every text that is fetched is UTF-8, and no signal is reached. -/
theorem loadContract_iff (hplatform : RefusesByValueError) {c : StoredContent}
    (hc : Constrained c.tables) (code : String) : LoadContract c code ↔
      ¬ (RowsValid c code ∧ (Unbalanced c.tables code ∨ ChartBroken c.tables code)) ∧
        ¬ c.Garbled code ∧ ¬ SignalReached c.tables code := by
  have hnever := not_raisesLedgerInvariantError hplatform hc.keyed code
  constructor
  · intro h
    have hdecoded : ¬ c.Garbled code := by
      intro hgarbled
      obtain ⟨msg, he⟩ := StoredContent.loadBook_of_garbled hgarbled
      exact not_loadContract_of_error he hnever (by simp) (by simp) h
    refine ⟨fun hbroken => hnever (h.ledgerInvariantError.mpr hbroken), hdecoded, ?_⟩
    intro hsignal
    obtain ⟨signal, he⟩ := loadBook_of_signalReached hplatform hc.keyed hsignal
    rw [← StoredContent.loadBook_eq hdecoded] at he
    exact not_loadContract_of_error he hnever (by simp) (by simp) h
  · rintro ⟨hbroken, hdecoded, hsignal⟩
    have hledger : RaisesLedgerInvariantError (c.loadBook code) ↔
        RowsValid c code ∧ (Unbalanced c.tables code ∨ ChartBroken c.tables code) :=
      iff_of_false hnever hbroken
    have heq := StoredContent.loadBook_eq hdecoded
    by_cases hbook : c.tables.HasBook code
    · rcases loadBook_of_hasBook hplatform hc.keyed hbook hsignal with hok | hraised
      · rw [← heq] at hok
        refine ⟨iff_of_false ?_ (not_not.mpr hbook), hledger, .inl hok⟩
        rintro ⟨msg, hr⟩
        obtain ⟨book, hok⟩ := hok
        rw [hok] at hr
        cases hr
      · rw [← heq] at hraised
        refine ⟨iff_of_false ?_ (not_not.mpr hbook), hledger, .inr (.inr (.inr hraised))⟩
        rintro ⟨msg, hr⟩
        obtain ⟨msg', hraised⟩ := hraised
        rw [hraised] at hr
        cases hr
    · have hunknown : RaisesKeyError (c.loadBook code) :=
        ⟨_, heq.trans (loadBook_of_unknown hbook)⟩
      exact ⟨iff_of_true hunknown hbook, hledger, .inr (.inl hunknown)⟩

end

/-! ### Evaluated -/

namespace Reference

/-- Another amount in the row of a debit. -/
def tamper (amount : String) : CoreRow → CoreRow
  | .entry r => .entry (if r.side = "Dr" then { r with amount := amount } else r)
  | r => r

/-- The rows of the book with one sale, after its debit was changed. -/
def tamperedRows (amount : String) : List CoreRow := (bookRows plainBook.fields).map (tamper amount)

def tampered (amount : String) : Tables := ({} : Tables).pushAll (tamperedRows amount)

/-- The database admits the rows whatever the amount is. -/
theorem constrained_tampered : Constrained (tampered "100.00") ∧ Constrained (tampered "90.00") ∧
    Constrained (tampered "abc") :=
  ⟨.of_admitsAll (by decide) (by decide), .of_admitsAll (by decide) (by decide),
    .of_admitsAll (by decide) (by decide)⟩

/-- The content of a database whose texts are all UTF-8. -/
def decoded (t : Tables) : StoredContent := ⟨t, fun _ => none⟩

/-- The book as it was stored, but for a byte in the row of the debit. -/
def garbled : StoredContent where
  tables := tampered "100.00"
  decodeError
    | .entry r => if r.side = "Dr" then
        some "'utf-8' codec can't decode byte 0xff in position 0: invalid start byte" else none
    | _ => none

theorem not_garbled_decoded (t : Tables) (code : String) : ¬ (decoded t).Garbled code := by
  rintro ⟨r, -, herror⟩
  exact herror rfl

theorem rowsValid_tampered : RowsValid (decoded (tampered "90.00")) "BK" where
  accounts r hr _ := by
    rcases hr with _ | ⟨_, _ | ⟨_, hr⟩⟩
    · exact accountFromMapping_succeeds.mp ⟨_, rfl⟩
    · exact accountFromMapping_succeeds.mp ⟨_, rfl⟩
    · cases hr
  periods r hr _ := by
    rcases hr with _ | ⟨_, hr⟩
    · exact bookPeriodFromMapping_succeeds.mp ⟨_, rfl⟩
    · cases hr
  transactions r hr _ := by
    rcases hr with _ | ⟨_, hr⟩
    · exact ⟨by decide, ⟨_, rfl⟩, by decide, exists_optionalPeriod.mp ⟨_, rfl⟩, by decide, by decide⟩
    · cases hr
  entries r hr _ := by
    rcases hr with _ | ⟨_, _ | ⟨_, hr⟩⟩
    · exact entryFromMapping_succeeds.mp ⟨_, rfl⟩
    · exact entryFromMapping_succeeds.mp ⟨_, rfl⟩
    · cases hr
  decoded := not_garbled_decoded _ _

/-- The entries of the sale, with another amount in the debit. -/
theorem payloads_tampered (amount : String) :
    (selectEntries "BK" "T1" (tampered amount)).map EntryRow.toPayload =
      [⟨"1000", "Dr", amount, "EUR", none, none⟩, ⟨"2000", "Cr", "100.00", "EUR", none, none⟩] := rfl

theorem valueOf_hundred : finiteOfText? "100.00" = some ⟨false, 10000, -2⟩ ∧
    (⟨false, 10000, -2⟩ : Dec).value = 100 :=
  ⟨rfl, by norm_num [Dec.value, Dec.signed]⟩

/-- The sums that the rows of the sale post. -/
theorem postedSum_tampered {amount : String} {r : TransactionRow}
    (hr : r ∈ (tampered amount).transactions) (c : String) :
    postedSum (tampered amount) r .debit c =
        (if "EUR" = c then ((finiteOfText? amount).getD .zero).value else 0) ∧
      postedSum (tampered amount) r .credit c = if "EUR" = c then 100 else 0 := by
  obtain rfl := List.mem_singleton.mp hr
  have hstrip : Text.strip "Dr" = "Dr" ∧ Text.strip "Cr" = "Cr" := by decide
  have hcode : Platform.upper (Text.strip "EUR") = "EUR" := rfl
  have hpayloads := payloads_tampered amount
  unfold postedSum
  constructor
  · erw [hpayloads]
    rw [postedAmounts_cons, postedAmounts_cons]
    simp only [hstrip, EntryPayload.currencyCode, hcode, PostingSide.value, true_and]
    split <;> simp
  · erw [hpayloads]
    rw [postedAmounts_cons, postedAmounts_cons]
    simp only [hstrip, EntryPayload.currencyCode, hcode, PostingSide.value, true_and]
    rw [if_neg (by simp), valueOf_hundred.1]
    split <;> simp [valueOf_hundred.2]

theorem unbalanced_tampered : Unbalanced (tampered "90.00") "BK" := by
  have hninety : finiteOfText? "90.00" = some ⟨false, 9000, -2⟩ := rfl
  refine ⟨_, List.mem_cons_self, rfl, rfl, "EUR", ?_⟩
  rw [(postedSum_tampered List.mem_cons_self _).1, (postedSum_tampered List.mem_cons_self _).2,
    hninety]
  norm_num [Dec.value, Dec.signed]

theorem balanced_tampered : ¬ Unbalanced (tampered "100.00") "BK" := by
  rintro ⟨r, hr, -, -, c, hne⟩
  rw [(postedSum_tampered hr _).1, (postedSum_tampered hr _).2, valueOf_hundred.1, Option.getD_some,
    valueOf_hundred.2] at hne
  exact hne rfl

theorem chart_tampered : ¬ ChartBroken (tampered "100.00") "BK" := by
  rintro ⟨accounts, hread, hnot⟩
  obtain ⟨cash, revenue, hrows, hcash, hrevenue, hnone⟩ :
      ∃ cash revenue, selectAccounts "BK" (tampered "100.00") = [cash, revenue] ∧
        Text.strip cash.code = "1000" ∧ Text.strip revenue.code = "2000" ∧
        cash.parentCode = none ∧ revenue.parentCode = none := ⟨_, _, rfl, rfl, rfl, rfl, rfl⟩
  rw [hrows] at hread
  obtain _ | ⟨hfirst, _ | ⟨hsecond, _ | _⟩⟩ := hread
  rename_i first second
  have hroot : ∀ a ∈ [first, second], a.parentCode = none := by
    simp [hfirst.2, hsecond.2, hnone]
  refine hnot ⟨?_, fun a ha p hp => ?_, fun a ha => ⟨a, .refl, hroot a ha⟩⟩
  · simp [hfirst.1, hsecond.1, hcash, hrevenue]
  · rw [hroot a ha] at hp
    cases hp

theorem silent_tampered : ¬ SignalReached (tampered "100.00") "BK" := by
  rintro ⟨row, hrow, -, hsignal⟩
  obtain rfl := List.mem_singleton.mp hrow
  obtain ⟨e, he, -⟩ := (escapes_bookFromMapping refusesByValueError).mpr hsignal
  cases he

/-- The book as it was stored is loaded. -/
theorem loadContract_tampered : LoadContract (decoded (tampered "100.00")) "BK" := by
  refine (loadContract_iff refusesByValueError constrained_tampered.1 "BK").mpr
    ⟨?_, not_garbled_decoded _ _, silent_tampered⟩
  intro h
  rcases h.2 with hunbalanced | hbroken
  · exact balanced_tampered hunbalanced
  · exact chart_tampered hbroken

/-- A debit that was changed to ninety euros is reported as a row that is no book; one that was
changed to a word, and a row with a byte that is not UTF-8, are not reported by an exception of
this program at all. -/
theorem tampered_misreported :
    (Constrained (tampered "90.00") ∧
      RaisesPersistenceIntegrityError ((decoded (tampered "90.00")).loadBook "BK") ∧
      ¬ LoadContract (decoded (tampered "90.00")) "BK") ∧
    (Constrained (tampered "abc") ∧
      (decoded (tampered "abc")).loadBook "BK" = .error (.decimalSignal .invalidOperation) ∧
      ¬ LoadContract (decoded (tampered "abc")) "BK") ∧
    Constrained garbled.tables ∧
      (∃ msg, garbled.loadBook "BK" = .error (.valueError msg)) ∧ ¬ LoadContract garbled "BK" := by
  have hnever {c : StoredContent} (hc : Constrained c.tables) :=
    not_raisesLedgerInvariantError refusesByValueError hc.keyed "BK"
  obtain ⟨hplain, hninety, hword⟩ := constrained_tampered
  have hsignal : (decoded (tampered "abc")).loadBook "BK" =
      .error (.decimalSignal .invalidOperation) := rfl
  have hbyte : garbled.loadBook "BK" = .error (.valueError
      "'utf-8' codec can't decode byte 0xff in position 0: invalid start byte") := rfl
  refine ⟨⟨hninety, ⟨_, rfl⟩, fun h => ?_⟩, ⟨hword, hsignal, ?_⟩, hplain, ⟨_, hbyte⟩, ?_⟩
  · exact hnever hninety (h.ledgerInvariantError.mpr ⟨rowsValid_tampered, .inl unbalanced_tampered⟩)
  · exact not_loadContract_of_error hsignal (hnever hword) (by simp) (by simp)
  · exact not_loadContract_of_error hbyte (hnever hplain) (by simp) (by simp)

end Reference

end FinestVX
