import FinestVX.Lib.IntegerText
import FinestVX.Lib.Separators
import FinestVX.Persistence.Audit
import FinestVX.Persistence.Reversal

/-!
# The keys of audited rows

The trigger of each table prints the primary key of the new row as one text, its columns
joined with colons.  The numbers at the end can be told apart again; a book code and an
account code or a reference cannot, since any of them may have colons of its own.

## Main definitions

* `RowKey`, `CoreRow.key` — the primary keys as SQLite compares them.
* `RunTogether`, `RowKey.RunTogether` — keys that are printed alike.
* `RowPkIdentifies` — the printed keys tell the audited rows apart.

## Main results

* `RowKey.text_eq_iff` — when two keys of a table are printed alike.
* `Reachable.exists_auditedRows` — the rows behind an audit log, their keys distinct.
* `rowPkIdentifies_iff` — when the printed keys of a reachable database identify its rows.
* `rowPkIdentifies_of_plain` — they do as long as no code of a book has a colon.
-/

namespace FinestVX

open Separators CoreRow

/-! ### Keys -/

/-- The primary key of a row of a core table. -/
inductive RowKey
  | book (bookCode : String)
  | account (bookCode code : String)
  | period (bookCode : String) (fiscalYear quarter month : ℤ)
  | transaction (bookCode reference : String)
  | entry (bookCode transactionReference : String) (lineNo : ℤ)
  deriving DecidableEq

/-- The primary key of a row. -/
def CoreRow.key : CoreRow → RowKey
  | book r => .book r.bookCode
  | account r => .account r.bookCode r.code
  | period r => .period r.bookCode r.fiscalYear r.quarter r.month
  | transaction r => .transaction r.bookCode r.reference
  | entry r => .entry r.bookCode r.transactionReference r.lineNo

/-- The key as the trigger of its table prints it. -/
def RowKey.text : RowKey → String
  | book b => b
  | account b c => s!"{printed b}:{printed c}"
  | period b y q m => s!"{printed b}:{y}:{q}:{m}"
  | transaction b r => s!"{printed b}:{printed r}"
  | entry b r n => s!"{printed b}:{printed r}:{n}"

/-- The table a key belongs to. -/
def RowKey.tableName : RowKey → String
  | book _ => "books"
  | account .. => "accounts"
  | period .. => "periods"
  | transaction .. => "transactions"
  | entry .. => "entries"

theorem CoreRow.text_key (r : CoreRow) : r.key.text = r.rowPk := by
  cases r <;> rfl

theorem CoreRow.tableName_key (r : CoreRow) : r.key.tableName = r.tableName := by
  cases r <;> rfl

/-- Two pairs of a book code and another text that cannot be told apart when they are joined
with a colon: they are the same up to a NUL; or one book code extends the other by a colon and
a text with which the other part of the other pair begins. -/
def RunTogether (b c b' c' : String) : Prop :=
  (printed b = printed b' ∧ printed c = printed c') ∨
    (∃ x, printed b' = printed b ++ ":" ++ x ∧ printed c = x ++ ":" ++ printed c') ∨
      ∃ x, printed b = printed b' ++ ":" ++ x ∧ printed c' = x ++ ":" ++ printed c

/-- Two keys of a table that cannot be told apart when they are printed. -/
def RowKey.RunTogether : RowKey → RowKey → Prop
  | book b, book b' => b = b'
  | account b c, account b' c' => FinestVX.RunTogether b c b' c'
  | period b y q m, period b' y' q' m' => printed b = printed b' ∧ y = y' ∧ q = q' ∧ m = m'
  | transaction b r, transaction b' r' => FinestVX.RunTogether b r b' r'
  | entry b r n, entry b' r' n' => FinestVX.RunTogether b r b' r' ∧ n = n'
  | _, _ => False

theorem joined_eq_iff {s t s' t' : String} : s ++ ":" ++ t = s' ++ ":" ++ t' ↔
    (s = s' ∧ t = t') ∨ (∃ x, s' = s ++ ":" ++ x ∧ t = x ++ ":" ++ t') ∨
      ∃ x, s = s' ++ ":" ++ x ∧ t' = x ++ ":" ++ t := by
  have hlist : ∀ a b : String, (a ++ ":" ++ b).toList = a.toList ++ ':' :: b.toList := by
    intro a b
    rw [String.toList_append, String.toList_append, List.append_assoc]
    rfl
  rw [← String.toList_inj, hlist, hlist, append_cons_eq_append_cons_iff, String.toList_inj,
    String.toList_inj]
  have hexists : ∀ a b c d : String,
      (∃ x : List Char, a.toList = b.toList ++ ':' :: x ∧ c.toList = x ++ ':' :: d.toList) ↔
        ∃ x : String, a = b ++ ":" ++ x ∧ c = x ++ ":" ++ d := by
    intro a b c d
    constructor
    · rintro ⟨x, ha, hc⟩
      refine ⟨String.ofList x, ?_, ?_⟩
      · rw [← String.toList_inj, hlist, String.toList_ofList, ha]
      · rw [← String.toList_inj, hlist, String.toList_ofList, hc]
    · rintro ⟨x, rfl, rfl⟩
      exact ⟨x.toList, hlist b x, hlist x d⟩
  rw [hexists, hexists]

/-- A number at the end can be told apart from what stands before it. -/
theorem joined_int_eq_iff {s s' : String} {n n' : ℤ} :
    s ++ ":" ++ toString n = s' ++ ":" ++ toString n' ↔ s = s' ∧ n = n' := by
  have hcolon : ∀ m : ℤ, ':' ∉ (toString m).toList := by
    intro m hm
    rcases Integer.mem_toString hm with h | h <;> exact absurd h (by decide)
  have hlist : ∀ (a : String) (m : ℤ),
      (a ++ ":" ++ toString m).toList = a.toList ++ ':' :: (toString m).toList := by
    intro a m
    rw [String.toList_append, String.toList_append, List.append_assoc]
    rfl
  rw [← String.toList_inj, hlist, hlist, append_cons_inj (hcolon n) (hcolon n'),
    String.toList_inj, String.toList_inj, Integer.toString_injective.eq_iff]

/-- **Two keys of a table are printed alike** when they run together. -/
theorem RowKey.text_eq_iff {k k' : RowKey} (htable : k.tableName = k'.tableName) :
    k.text = k'.text ↔ k.RunTogether k' := by
  cases k with
  | book b =>
    cases k' with
    | book b' => exact Iff.rfl
    | _ => simp [RowKey.tableName] at htable
  | account b c =>
    cases k' with
    | account b' c' => exact joined_eq_iff
    | _ => simp [RowKey.tableName] at htable
  | period b y q m =>
    cases k' with
    | period b' y' q' m' =>
      change printed b ++ ":" ++ toString y ++ ":" ++ toString q ++ ":" ++ toString m =
        printed b' ++ ":" ++ toString y' ++ ":" ++ toString q' ++ ":" ++ toString m' ↔ _
      rw [joined_int_eq_iff, joined_int_eq_iff, joined_int_eq_iff, and_assoc, and_assoc]
      rfl
    | _ => simp [RowKey.tableName] at htable
  | transaction b r =>
    cases k' with
    | transaction b' r' => exact joined_eq_iff
    | _ => simp [RowKey.tableName] at htable
  | entry b r n =>
    cases k' with
    | entry b' r' n' =>
      change printed b ++ ":" ++ printed r ++ ":" ++ toString n =
        printed b' ++ ":" ++ printed r' ++ ":" ++ toString n' ↔ _
      rw [joined_int_eq_iff, joined_eq_iff]
      rfl
    | _ => simp [RowKey.tableName] at htable

theorem RowKey.RunTogether.tableName {k k' : RowKey} (h : k.RunTogether k') :
    k.tableName = k'.tableName := by
  cases k <;> cases k' <;> first | rfl | exact h.elim

/-! ### The rows of the tables -/

namespace Tables

/-- A row is in its table. -/
def Has (t : Tables) : CoreRow → Prop
  | .book r => r ∈ t.books
  | .account r => r ∈ t.accounts
  | .period r => r ∈ t.periods
  | .transaction r => r ∈ t.transactions
  | .entry r => r ∈ t.entries

theorem has_push {t : Tables} {r x : CoreRow} : (t.push r).Has x ↔ t.Has x ∨ x = r := by
  cases r <;> cases x <;> simp [push, Has]

theorem has_pushAll {rows : List CoreRow} {t : Tables} {x : CoreRow} :
    (t.pushAll rows).Has x ↔ t.Has x ∨ x ∈ rows := by
  induction rows generalizing t with
  | nil => simp
  | cons r rows ih => rw [pushAll_cons, ih, has_push, List.mem_cons, or_assoc]

theorem has_pushAll_empty {rows : List CoreRow} {x : CoreRow} :
    (({} : Tables).pushAll rows).Has x ↔ x ∈ rows := by
  rw [has_pushAll]
  cases x <;> simp [Has]

/-- A row that is admitted has a key that no row of its table has. -/
theorem Admits.key_ne {t : Tables} {r x : CoreRow} (hr : t.Admits r) (hx : t.Has x) :
    x.key ≠ r.key := by
  intro h
  cases r with
  | book r =>
    cases x with
    | book x => exact hr.2 x hx (by simpa [CoreRow.key] using h)
    | _ => cases h
  | account r =>
    cases x with
    | account x => exact hr.2.2.2.1 x hx (by simpa [CoreRow.key] using h)
    | _ => cases h
  | period r =>
    cases x with
    | period x => exact hr.2.2.2.2.1 x hx (by simpa [CoreRow.key] using h)
    | _ => cases h
  | transaction r =>
    cases x with
    | transaction x => exact hr.2.2.2.2.2.1 x hx (by simpa [CoreRow.key] using h)
    | _ => cases h
  | entry r =>
    cases x with
    | entry x => exact hr.2.2.2.2.1 x hx (by simpa [CoreRow.key] using h)
    | _ => cases h

/-- Rows that were admitted one after the other have distinct keys. -/
theorem AdmitsAll.nodup_key {rows : List CoreRow} (h : ({} : Tables).AdmitsAll rows) :
    (rows.map CoreRow.key).Nodup := by
  induction rows using List.reverseRecOn with
  | nil => exact List.nodup_nil
  | append_singleton rows r ih =>
    obtain ⟨hrows, hr, -⟩ := admitsAll_append.mp h
    rw [List.map_append, List.map_singleton]
    refine List.Nodup.append (ih hrows) (List.nodup_singleton _) ?_
    intro k hk hk'
    obtain ⟨x, hx, rfl⟩ := List.mem_map.mp hk
    exact hr.key_ne (has_pushAll_empty.mpr hx) (List.mem_singleton.mp hk')

end Tables

/-- The rows of the tables, table by table. -/
theorem Tables.forall_has_iff {t : Tables} {p : CoreRow → Prop} : (∀ r, t.Has r → p r) ↔
    (∀ r ∈ t.books, p (.book r)) ∧ (∀ r ∈ t.accounts, p (.account r)) ∧
      (∀ r ∈ t.periods, p (.period r)) ∧ (∀ r ∈ t.transactions, p (.transaction r)) ∧
        ∀ r ∈ t.entries, p (.entry r) := by
  constructor
  · intro h
    exact ⟨fun r hr => h _ hr, fun r hr => h _ hr, fun r hr => h _ hr, fun r hr => h _ hr,
      fun r hr => h _ hr⟩
  · rintro ⟨hbooks, haccounts, hperiods, htransactions, hentries⟩ r hr
    cases r with
    | book r => exact hbooks r hr
    | account r => exact haccounts r hr
    | period r => exact hperiods r hr
    | transaction r => exact htransactions r hr
    | entry r => exact hentries r hr

/-- No two rows of the tables have different keys that run together. -/
def KeysApart (t : Tables) : Prop :=
  ∀ r r' : CoreRow, t.Has r → t.Has r' → r.key ≠ r'.key → ¬ r.key.RunTogether r'.key

/-- The texts of a key after the code of the book. -/
def RowKey.texts : RowKey → List String
  | book _ | period .. => []
  | account _ c => [c]
  | transaction _ r => [r]
  | entry _ r _ => [r]

/-- The code of the book has no colon, and the texts of the key have no NUL. -/
def CoreRow.PlainKey (r : CoreRow) : Prop :=
  ':' ∉ r.bookCode.toList ∧ ∀ s ∈ r.bookCode :: r.key.texts, Char.ofNat 0 ∉ s.toList

instance (r : CoreRow) : Decidable r.PlainKey := inferInstanceAs (Decidable (_ ∧ _))

theorem printed_eq_self {s : String} (h : Char.ofNat 0 ∉ s.toList) : printed s = s := by
  have hall : s.toList.takeWhile (· ≠ Char.ofNat 0) = s.toList := by
    apply List.takeWhile_eq_self_iff.mpr
    intro c hc
    exact decide_eq_true fun heq => h (heq ▸ hc)
  rw [printed, hall, String.ofList_toList]

/-- A book code without a colon does not extend another one by a colon. -/
theorem eq_of_runTogether {b c b' c' : String} (hb : ':' ∉ b.toList) (hb' : ':' ∉ b'.toList)
    (h0 : ∀ s ∈ [b, c, b', c'], Char.ofNat 0 ∉ s.toList) (h : RunTogether b c b' c') :
    b = b' ∧ c = c' := by
  have hcolon : ∀ s x : String, ':' ∈ (s ++ ":" ++ x).toList := by
    intro s x
    rw [String.toList_append, String.toList_append]
    exact List.mem_append_left _ (List.mem_append_right _ (List.mem_singleton_self _))
  unfold RunTogether at h
  rw [printed_eq_self (h0 b (by simp)), printed_eq_self (h0 c (by simp)),
    printed_eq_self (h0 b' (by simp)), printed_eq_self (h0 c' (by simp))] at h
  rcases h with h | ⟨x, rfl, -⟩ | ⟨x, rfl, -⟩
  · exact h
  · exact absurd (hcolon b x) hb'
  · exact absurd (hcolon b' x) hb

/-- Plain keys do not run together. -/
theorem CoreRow.PlainKey.eq_of_runTogether {r r' : CoreRow} (hr : r.PlainKey) (hr' : r'.PlainKey)
    (h : r.key.RunTogether r'.key) : r.key = r'.key := by
  obtain ⟨hb, h0⟩ := hr
  obtain ⟨hb', h0'⟩ := hr'
  have hboth := List.forall_mem_append.mpr ⟨h0, h0'⟩
  cases r with
  | book r =>
    cases r' with
    | book r' => exact congrArg RowKey.book h
    | _ => exact h.elim
  | account r =>
    cases r' with
    | account r' =>
      obtain ⟨hbook, hcode⟩ := FinestVX.eq_of_runTogether hb hb' hboth h
      exact congrArg₂ RowKey.account hbook hcode
    | _ => exact h.elim
  | period r =>
    cases r' with
    | period r' =>
      obtain ⟨hbook, hyear, hquarter, hmonth⟩ := h
      have hr0 : printed r.bookCode = r.bookCode := printed_eq_self (h0 _ List.mem_cons_self)
      have hr0' : printed r'.bookCode = r'.bookCode := printed_eq_self (h0' _ List.mem_cons_self)
      rw [hr0, hr0'] at hbook
      rw [CoreRow.key, CoreRow.key, hbook, hyear, hquarter, hmonth]
    | _ => exact h.elim
  | transaction r =>
    cases r' with
    | transaction r' =>
      obtain ⟨hbook, hreference⟩ := FinestVX.eq_of_runTogether hb hb' hboth h
      exact congrArg₂ RowKey.transaction hbook hreference
    | _ => exact h.elim
  | entry r =>
    cases r' with
    | entry r' =>
      obtain ⟨htogether, hline⟩ := h
      obtain ⟨hbook, hreference⟩ := FinestVX.eq_of_runTogether hb hb' hboth htogether
      rw [CoreRow.key, CoreRow.key, hline]
      exact congrArg₂ (RowKey.entry · · r'.lineNo) hbook hreference
    | _ => exact h.elim

theorem keysApart_of_plainKey {t : Tables} (h : ∀ r, t.Has r → r.PlainKey) : KeysApart t :=
  fun r r' hr hr' hne htogether => hne ((h r hr).eq_of_runTogether (h r' hr') htogether)

/-! ### Audited rows -/

section

variable [Platform]

/-- The rows behind an audit log: they are the rows of the tables, with distinct keys, and an
audit row records one of them unless it is about a legislative result. -/
structure AuditedRows (db : Database) (rows : List CoreRow) : Prop where
  tables : db.tables = ({} : Tables).pushAll rows
  admitted : ({} : Tables).AdmitsAll rows
  recorded : ∀ r ∈ rows, ∃ a ∈ db.auditLog, Records a r
  audited : ∀ a ∈ db.auditLog, (∃ r ∈ rows, Records a r) ∨ a.tableName = "legislative_validation"

namespace AuditedRows

/-- An `INSERT` and its trigger add a row. -/
theorem insert {db : Database} {rows : List CoreRow} (h : AuditedRows db rows) (ctx : AuditContext)
    (ms : ℤ) {r : CoreRow} (hr : db.tables.Admits r) :
    AuditedRows (db.insert ctx ms r) (rows ++ [r]) where
  tables := by
    rw [Tables.pushAll_append, ← h.tables]
    rfl
  admitted := Tables.admitsAll_append.mpr ⟨h.admitted, h.tables ▸ hr, trivial⟩
  recorded := by
    have hnew : Records (auditInsert ctx ms db.auditLog r) r := ⟨rfl, rfl, rfl, rfl⟩
    intro x hx
    rcases List.mem_append.mp hx with hx | hx
    · obtain ⟨a, ha, hrecords⟩ := h.recorded x hx
      exact ⟨a, List.mem_append_left _ ha, hrecords⟩
    · rw [List.mem_singleton.mp hx]
      exact ⟨_, List.mem_append_right _ (List.mem_singleton_self _), hnew⟩
  audited := by
    intro a ha
    rcases List.mem_append.mp ha with ha | ha
    · refine (h.audited a ha).imp_left ?_
      rintro ⟨x, hx, hrecords⟩
      exact ⟨x, List.mem_append_left _ hx, hrecords⟩
    · rw [List.mem_singleton.mp ha]
      exact .inl ⟨r, List.mem_append_right _ (List.mem_singleton_self _), rfl, rfl, rfl, rfl⟩

theorem insertAll {db : Database} {rows new : List CoreRow} (h : AuditedRows db rows)
    (ctx : AuditContext) (clock : ℕ → ℤ) (i : ℕ) (hnew : db.tables.AdmitsAll new) :
    AuditedRows (db.insertAll ctx clock i new) (rows ++ new) := by
  induction new generalizing i db rows with
  | nil => rwa [List.append_nil]
  | cons r new ih =>
    have hstep := ih (h.insert ctx (clock i) hnew.1) (i + 1) hnew.2
    rwa [List.append_assoc, List.singleton_append] at hstep

/-- A legislative result adds an audit row about no row of a core table. -/
theorem result {db : Database} {rows : List CoreRow} (h : AuditedRows db rows)
    (ctx : AuditContext) (ms : ℤ) (code reference : String)
    (result : LegislativeValidationResult) :
    AuditedRows { db with
      auditLog := db.auditLog ++ [auditResult ctx ms db.auditLog code reference result] } rows where
  tables := h.tables
  admitted := h.admitted
  recorded := by
    intro x hx
    obtain ⟨a, ha, hrecords⟩ := h.recorded x hx
    exact ⟨a, List.mem_append_left _ ha, hrecords⟩
  audited := by
    intro a ha
    rcases List.mem_append.mp ha with ha | ha
    · exact h.audited a ha
    · rw [List.mem_singleton.mp ha]
      exact .inr rfl

end AuditedRows

/-- The rows behind the audit log of a reachable database. -/
theorem Reachable.exists_auditedRows {db : Database} (h : Reachable db) :
    ∃ rows, AuditedRows db rows := by
  refine invariant_of_step (p := fun db => ∃ rows, AuditedRows db rows) h ?_ ?_
  · exact ⟨[], rfl, trivial, by simp, by simp⟩
  · rintro db _ ⟨rows, hrows⟩ ⟨c, rfl⟩
    rcases c.after_cases db with hsame | ⟨new, -, hnew, -, heffect⟩
    · rw [hsame]
      exact ⟨rows, hrows⟩
    · generalize c.after db = db' at heffect
      cases heffect with
      | insert => exact ⟨_, hrows.insertAll c.ctx c.world.clock 0 hnew⟩
      | result hempty => exact ⟨rows, hrows.result ..⟩

/-- An audit row records one row only: its payload has all the columns. -/
theorem Records.unique {a : AuditRow} {r r' : CoreRow} (h : Records a r) (h' : Records a r') :
    r = r' := by
  have hread := CoreRow.ofPayload?_payload r
  rw [← h.tableName, ← h.rowPayload, h'.tableName, h'.rowPayload, CoreRow.ofPayload?_payload,
    Option.some_inj] at hread
  exact hread.symm

/-- Audit rows that record different rows of a table have different keys. -/
def RowPkIdentifies (db : Database) : Prop :=
  ∀ a ∈ db.auditLog, ∀ a' ∈ db.auditLog, ∀ r r' : CoreRow, Records a r → Records a' r' →
    a.tableName = a'.tableName → r ≠ r' → a.rowPk ≠ a'.rowPk

/-- The keys tell the rows behind an audit log apart when they do not run together. -/
theorem AuditedRows.identifies_iff {db : Database} {rows : List CoreRow}
    (hrows : AuditedRows db rows) : RowPkIdentifies db ↔ KeysApart db.tables := by
  have hhas : ∀ x, db.tables.Has x ↔ x ∈ rows := fun x => hrows.tables ▸ Tables.has_pushAll_empty
  constructor
  · intro hidentifies r r' hr hr' hne htogether
    obtain ⟨a, ha, harec⟩ := hrows.recorded r ((hhas r).mp hr)
    obtain ⟨a', ha', harec'⟩ := hrows.recorded r' ((hhas r').mp hr')
    have htable := htogether.tableName
    refine hidentifies a ha a' ha' r r' harec harec' ?_ (fun heq => hne (congrArg _ heq)) ?_
    · rw [harec.tableName, harec'.tableName, ← tableName_key, ← tableName_key, htable]
    · rw [harec.rowPk, harec'.rowPk, ← text_key, ← text_key]
      exact (RowKey.text_eq_iff htable).mpr htogether
  · intro hapart a ha a' ha' r r' harec harec' htable hne hpk
    have hmem : ∀ {a : AuditRow} {r : CoreRow}, a ∈ db.auditLog → Records a r → r ∈ rows := by
      intro a r ha harec
      rcases hrows.audited a ha with ⟨x, hx, hxrec⟩ | hresult
      · rwa [harec.unique hxrec]
      · -- a legislative result is not a row of a core table
        rw [harec.tableName] at hresult
        cases r <;> simp [CoreRow.tableName] at hresult
    have hr := hmem ha harec
    have hr' := hmem ha' harec'
    have hkeys : r.key ≠ r'.key :=
      fun heq => hne (List.inj_on_of_nodup_map hrows.admitted.nodup_key hr hr' heq)
    rw [harec.tableName, harec'.tableName, ← tableName_key, ← tableName_key] at htable
    rw [harec.rowPk, harec'.rowPk, ← text_key, ← text_key, RowKey.text_eq_iff htable] at hpk
    exact hapart r r' ((hhas r).mpr hr) ((hhas r').mpr hr') hkeys hpk

/-- **The audit log of a reachable database tells the rows of a table apart by their printed
keys just when** there are no two rows in the tables whose keys run together. -/
theorem rowPkIdentifies_iff {db : Database} (h : Reachable db) :
    RowPkIdentifies db ↔ KeysApart db.tables := by
  obtain ⟨rows, hrows⟩ := h.exists_auditedRows
  exact hrows.identifies_iff

/-- The keys identify the rows as long as no code of a book has a colon, and no text a NUL. -/
theorem rowPkIdentifies_of_plain {db : Database} (h : Reachable db)
    (hplain : ∀ r, db.tables.Has r → r.PlainKey) : RowPkIdentifies db := by
  obtain ⟨rows, hrows⟩ := h.exists_auditedRows
  exact hrows.identifies_iff.mpr (keysApart_of_plainKey hplain)

end

/-! ### Evaluated -/

namespace Reference

/-- The account `code` of a book with no other account. -/
def onlyAccount (code : String) : AccountFields := account code "Cash" .debit

/-- A branch of the company, whose book is numbered below the main one. -/
def branchFields : BookFields :=
  { bookFields [] [] with
    code := "BK:10", accounts := [⟨onlyAccount "20", onlyAccount "20", by rfl⟩] }

/-- The main book, with an account numbered below another one. -/
def mainFields : BookFields :=
  { bookFields [] [] with
    accounts := [⟨onlyAccount "10:20", onlyAccount "10:20", by rfl⟩] }

/-- The database with both books. -/
def bothStored : Database :=
  Call.afterAll [call (.createBook ⟨mainFields, mainFields, by rfl⟩),
    call (.createBook ⟨branchFields, branchFields, by rfl⟩)] {}

/-- Two accounts of different books have the same key in the audit log, `BK:10:20`. -/
theorem bothStored_not_identified : Reachable bothStored ∧ ¬ RowPkIdentifies bothStored := by
  have hreach : Reachable bothStored := Call.run_afterAll _ _
  obtain ⟨rows, hrows⟩ := hreach.exists_auditedRows
  have haccounts : bothStored.tables.accounts =
      [⟨"BK", "10:20", "Cash", "Dr", "EUR", none, 1, 1⟩,
        ⟨"BK:10", "20", "Cash", "Dr", "EUR", none, 1, 1⟩] := by
    rfl
  have hhas : ∀ r ∈ bothStored.tables.accounts, bothStored.tables.Has (.account r) :=
    fun _ hr => hr
  rw [haccounts] at hhas
  refine ⟨hreach, ?_⟩
  rw [hrows.identifies_iff]
  intro hapart
  apply hapart _ _ (hhas _ List.mem_cons_self)
    (hhas _ (List.mem_cons_of_mem _ List.mem_cons_self)) (by decide)
  -- the code `BK:10` extends `BK`, and the account `10:20` begins with the rest
  exact .inr (.inl ⟨"10", rfl, rfl⟩)

theorem rowPkIdentifies_saleStored : KeysApart saleStored.tables ∧ RowPkIdentifies saleStored := by
  have hplain : ∀ r, saleStored.tables.Has r → r.PlainKey := by
    rw [Tables.forall_has_iff]
    decide
  have hapart := keysApart_of_plainKey hplain
  exact ⟨hapart, (rowPkIdentifies_iff (Reachable.empty.after _)).mpr hapart⟩

end Reference

end FinestVX
