import FinestVX.Persistence.Growth

/-!
# The audit trail

Every row of a core table is written together with an audit row that carries all
of its columns.  The audit log numbers its rows without a gap, and reading its
payloads back in order rebuilds the tables.

## Main definitions

* `CoreRow.ofPayload?` — a row from the payload of its audit row.
* `replay` — the tables rebuilt from an audit log.
* `Records` — an audit row records a row of a core table.
* `AuditTrail` — what holds of the audit log of a reachable database.

## Main results

* `CoreRow.ofPayload?_payload` — a payload carries every column.
* `Reachable.auditTrail` — the audit log of every reachable database.
* `auditTrail_complete` — **the audit trail is complete, faithful and atomic.**
-/

namespace FinestVX

open Except Relation

/-! ### Reading payloads -/

namespace Json

/-- A text. -/
def text? : Json → Option String
  | text s => some s
  | _ => none

/-- A number. -/
def int? : Json → Option ℤ
  | int n => some n
  | _ => none

/-- A text or null. -/
def nullableText? : Json → Option (Option String)
  | null => some none
  | j => j.text?.map some

/-- A number or null. -/
def nullableInt? : Json → Option (Option ℤ)
  | null => some none
  | j => j.int?.map some

/-- A field of an object, read by `read`. -/
def field? {α : Type} (read : Json → Option α) (k : String) : Json → Option α
  | object fields => (Dict.get? fields k).bind read
  | _ => none

end Json

open Json in
/-- A row of `books` from its payload. -/
def BookRow.ofPayload? (j : Json) : Option BookRow := do
  let bookCode ← j.field? text? "book_code"
  let name ← j.field? text? "name"
  let baseCurrency ← j.field? text? "base_currency"
  let fiscalStartMonth ← j.field? int? "fiscal_start_month"
  let legislativePack ← j.field? text? "legislative_pack"
  return { bookCode, name, baseCurrency, fiscalStartMonth, legislativePack }

open Json in
/-- A row of `accounts` from its payload. -/
def AccountRow.ofPayload? (j : Json) : Option AccountRow := do
  let bookCode ← j.field? text? "book_code"
  let code ← j.field? text? "code"
  let name ← j.field? text? "name"
  let normalSide ← j.field? text? "normal_side"
  let currency ← j.field? text? "currency"
  let parentCode ← j.field? nullableText? "parent_code"
  let allowPosting ← j.field? int? "allow_posting"
  let active ← j.field? int? "active"
  return { bookCode, code, name, normalSide, currency, parentCode, allowPosting, active }

open Json in
/-- A row of `periods` from its payload. -/
def PeriodRow.ofPayload? (j : Json) : Option PeriodRow := do
  let bookCode ← j.field? text? "book_code"
  let fiscalYear ← j.field? int? "fiscal_year"
  let quarter ← j.field? int? "quarter"
  let month ← j.field? int? "month"
  let startDate ← j.field? text? "start_date"
  let endDate ← j.field? text? "end_date"
  let state ← j.field? text? "state"
  return { bookCode, fiscalYear, quarter, month, startDate, endDate, state }

open Json in
/-- A row of `transactions` from its payload. -/
def TransactionRow.ofPayload? (j : Json) : Option TransactionRow := do
  let bookCode ← j.field? text? "book_code"
  let reference ← j.field? text? "reference"
  let postedAt ← j.field? text? "posted_at"
  let description ← j.field? text? "description"
  let state ← j.field? text? "state"
  let periodFiscalYear ← j.field? nullableInt? "period_fiscal_year"
  let periodQuarter ← j.field? nullableInt? "period_quarter"
  let periodMonth ← j.field? nullableInt? "period_month"
  let reversalOf ← j.field? nullableText? "reversal_of"
  return { bookCode, reference, postedAt, description, state, periodFiscalYear, periodQuarter,
           periodMonth, reversalOf }

open Json in
/-- A row of `entries` from its payload. -/
def EntryRow.ofPayload? (j : Json) : Option EntryRow := do
  let bookCode ← j.field? text? "book_code"
  let transactionReference ← j.field? text? "transaction_reference"
  let lineNo ← j.field? int? "line_no"
  let accountCode ← j.field? text? "account_code"
  let side ← j.field? text? "side"
  let amount ← j.field? text? "amount"
  let currency ← j.field? text? "currency"
  let description ← j.field? nullableText? "description"
  let taxRate ← j.field? nullableText? "tax_rate"
  return { bookCode, transactionReference, lineNo, accountCode, side, amount, currency,
           description, taxRate }

namespace CoreRow

/-- The row of a core table whose columns are the fields of a payload. -/
def ofPayload? (tableName : String) (j : Json) : Option CoreRow :=
  if tableName = "books" then (BookRow.ofPayload? j).map book
  else if tableName = "accounts" then (AccountRow.ofPayload? j).map account
  else if tableName = "periods" then (PeriodRow.ofPayload? j).map period
  else if tableName = "transactions" then (TransactionRow.ofPayload? j).map transaction
  else if tableName = "entries" then (EntryRow.ofPayload? j).map entry
  else none

/-- **A payload carries every column of its row.** -/
theorem ofPayload?_payload (r : CoreRow) : ofPayload? r.tableName r.payload = some r := by
  cases r with
  | book r => rfl
  | account r =>
    obtain ⟨_, _, _, _, _, parent, _, _⟩ := r
    cases parent <;> rfl
  | period r => rfl
  | transaction r =>
    obtain ⟨_, _, _, _, _, year, quarter, month, reversal⟩ := r
    cases year <;> cases quarter <;> cases month <;> cases reversal <;> rfl
  | entry r =>
    obtain ⟨_, _, _, _, _, _, _, description, rate⟩ := r
    cases description <;> cases rate <;> rfl

end CoreRow

/-- An audit row records a row of a core table. -/
structure Records [Platform] (a : AuditRow) (r : CoreRow) : Prop where
  tableName : a.tableName = r.tableName
  rowPk : a.rowPk = r.rowPk
  rowSignature : a.rowSignature = Platform.blake2Hex (Platform.jsonText r.payload)
  rowPayload : a.rowPayload = r.payload

/-- The audit rows of inserts. -/
def inserts (log : List AuditRow) : List AuditRow := log.filter (·.operation = "INSERT")

/-- The tables rebuilt from the payloads of the inserts, in order. -/
def replay (log : List AuditRow) : Option Tables :=
  ((inserts log).mapM fun a => CoreRow.ofPayload? a.tableName a.rowPayload).map (Tables.pushAll {})

variable [Platform]

/-- What is recorded is read back. -/
theorem mapM_ofPayload?_of_records {log : List AuditRow} {rows : List CoreRow}
    (h : List.Forall₂ Records log rows) :
    log.mapM (fun a => CoreRow.ofPayload? a.tableName a.rowPayload) = some rows := by
  induction h with
  | nil => rfl
  | cons hr _ ih =>
    rw [List.mapM_cons, hr.tableName, hr.rowPayload, CoreRow.ofPayload?_payload, ih]
    rfl

/-! ### Sequence numbers -/

omit [Platform] in
/-- The numbers `1` to `n`. -/
def numbered (n : ℕ) : List ℤ := (List.range n).map fun i : ℕ => (i : ℤ) + 1

omit [Platform] in
theorem numbered_succ (n : ℕ) : numbered (n + 1) = numbered n ++ [(n : ℤ) + 1] := by
  simp [numbered, List.range_succ]

omit [Platform] in
/-- After the numbers `1` to `n` comes `n + 1`. -/
theorem nextSeq_of_numbered {log : List AuditRow}
    (h : log.map AuditRow.seq = numbered log.length) : nextSeq log = (log.length : ℤ) + 1 := by
  rw [nextSeq, h]
  cases log.length with
  | zero => rfl
  | succ n =>
    have hmax : (numbered (n + 1)).max? = some ((n : ℤ) + 1) := by
      rw [List.max?_eq_some_iff]
      constructor
      · rw [numbered_succ]
        simp
      · intro k hk
        obtain ⟨i, hi, rfl⟩ := List.mem_map.mp hk
        have := List.mem_range.mp hi
        omega
    rw [hmax]
    rfl

/-! ### The invariant -/

/-- The audit log of a database: numbered without a gap, its inserts the rows of the
tables in the order they were inserted. -/
structure AuditTrail (db : Database) : Prop where
  seq : db.auditLog.map AuditRow.seq = numbered db.auditLog.length
  inserts : ∃ rows, db.tables = Tables.pushAll {} rows ∧
    List.Forall₂ Records (inserts db.auditLog) rows

namespace AuditTrail

theorem empty : AuditTrail {} := ⟨rfl, [], rfl, .nil⟩

/-- A row appended to the log with the next number keeps the numbering. -/
theorem seq_append {db : Database} (h : AuditTrail db) {a : AuditRow}
    (ha : a.seq = nextSeq db.auditLog) :
    (db.auditLog ++ [a]).map AuditRow.seq = numbered (db.auditLog ++ [a]).length := by
  rw [List.map_append, h.seq, List.length_append, List.length_singleton, numbered_succ,
    List.map_singleton, ha, nextSeq_of_numbered h.seq]

/-- An `INSERT` and its trigger keep the trail. -/
theorem insert {db : Database} (h : AuditTrail db) (ctx : AuditContext) (ms : ℤ) (r : CoreRow) :
    AuditTrail (db.insert ctx ms r) where
  seq := h.seq_append rfl
  inserts := by
    obtain ⟨rows, htables, hrecords⟩ := h.inserts
    refine ⟨rows ++ [r], ?_, ?_⟩
    · rw [Tables.pushAll_append, ← htables]
      rfl
    · have hlog : FinestVX.inserts (db.insert ctx ms r).auditLog =
          FinestVX.inserts db.auditLog ++ [auditInsert ctx ms db.auditLog r] := by
        simp [FinestVX.inserts, Database.insert, auditInsert]
      rw [hlog]
      exact List.rel_append hrecords (.cons ⟨rfl, rfl, rfl, rfl⟩ .nil)

theorem insertAll {db : Database} (h : AuditTrail db) (ctx : AuditContext) (clock : ℕ → ℤ)
    (i : ℕ) (rows : List CoreRow) : AuditTrail (db.insertAll ctx clock i rows) := by
  induction rows generalizing i db with
  | nil => exact h
  | cons r rows ih => exact ih (h.insert ctx (clock i) r) (i + 1)

/-- A legislative result keeps the trail; it is no insert. -/
theorem result {db : Database} (h : AuditTrail db) (ctx : AuditContext) (ms : ℤ)
    (code reference : String) (result : LegislativeValidationResult) :
    AuditTrail { db with
      auditLog := db.auditLog ++ [auditResult ctx ms db.auditLog code reference result] } where
  seq := h.seq_append rfl
  inserts := by
    obtain ⟨rows, htables, hrecords⟩ := h.inserts
    refine ⟨rows, htables, ?_⟩
    simpa [FinestVX.inserts, auditResult] using hrecords

/-- **Replaying the payloads rebuilds the tables.** -/
theorem replay_eq {db : Database} (h : AuditTrail db) : replay db.auditLog = some db.tables := by
  obtain ⟨rows, htables, hrecords⟩ := h.inserts
  rw [replay, mapM_ofPayload?_of_records hrecords, htables]
  rfl

end AuditTrail

theorem Effect.auditTrail {c : Call} {db db' : Database} {rows : List CoreRow}
    (heffect : Effect c db rows db') (h : AuditTrail db) : AuditTrail db' := by
  cases heffect with
  | insert => exact h.insertAll c.ctx c.world.clock 0 rows
  | result hrows => exact h.result ..

/-- The audit log of every reachable database. -/
theorem Reachable.auditTrail {db : Database} (h : Reachable db) : AuditTrail db := by
  refine invariant_of_step h AuditTrail.empty ?_
  rintro db _ htrail ⟨c, rfl⟩
  rcases c.after_cases db with hsame | ⟨rows, -, -, -, heffect⟩
  · rwa [hsame]
  · exact heffect.auditTrail htrail

/-- **The audit trail is complete, faithful and atomic**, after every sequence of
calls: the numbers of the audit log have no gap and its inserts are the rows of the
tables in the order of insertion; replaying them rebuilds the tables; later calls leave
the rows as they are; and a call that does not return changes nothing. -/
theorem auditTrail_complete (calls later : List Call) :
    AuditTrail (Call.afterAll calls {}) ∧
    replay (Call.afterAll calls {}).auditLog = some (Call.afterAll calls {}).tables ∧
    (Call.afterAll calls {}).tables.Grows
      (Call.afterAll later (Call.afterAll calls {})).tables ∧
    ∀ c : Call, c.Returns (Call.afterAll calls {}) ∨
      c.after (Call.afterAll calls {}) = Call.afterAll calls {} := by
  have htrail := Reachable.auditTrail (Call.run_afterAll calls {})
  refine ⟨htrail, htrail.replay_eq, grows_of_run (Call.run_afterAll later _), ?_⟩
  intro c
  cases h : (c.run (Call.afterAll calls {})).1 with
  | ok receipt => exact .inl ⟨receipt, h⟩
  | error e => exact .inr (Call.run_error (Prod.ext h rfl))

end FinestVX
