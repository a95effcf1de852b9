import FinestVX.Persistence.Audit
import FinestVX.Persistence.Reversal
import FinestVX.Lib.Paging

/-!
# The audit log page by page

`iter_audit_log_pages` keeps the number of the last row it has yielded and asks for
the rows past it, a page at a time, while other calls append to the log.

## Main definitions

* `iterAuditLog` — the whole audit log.
* `PageIteration`, `PageIteration.next` — the loop of `iter_audit_log_pages`.
* `PagingStep` — a round of the loop, or a call of somebody else.
* `PrimaryKey` — what SQLite keeps of the column `seq`.

## Main results

* `Call.growsPast_after` — a call appends rows past all that are there.
* `PagingState.sound_of_run` — the pages of an iteration among any writes.
* `auditPages_complete` — **nothing is lost and nothing repeated**, and an
  iteration that nobody disturbs ends with the whole log.
-/

namespace FinestVX

open Except Relation

/-! ### The queries -/

/-- Bind an integer to a parameter of a statement. -/
def bindInt (n : ℤ) : Except PyError ℤ :=
  if BindsInt n then .ok n else .error (.overflowError "int too big to convert")

/-- `LIMIT n`; a negative limit is none. -/
def limitRows (n : ℤ) (rows : List AuditRow) : List AuditRow :=
  if n < 0 then rows else rows.take n.toNat

/-- `iter_audit_log`, of the store and of an async reader. -/
def iterAuditLog (limit : Option ℤ) (log : List AuditRow) : Except PyError (List AuditRow) :=
  match limit with
  | none => .ok (orderBy AuditRow.seq log)
  | some n => do
    let n ← bindInt n
    return limitRows n (orderBy AuditRow.seq log)

/-- The query of a page: `WHERE seq > ? ORDER BY seq LIMIT ?`. -/
def selectAuditPage (lastSeq pageSize : ℤ) (log : List AuditRow) :
    Except PyError (List AuditRow) := do
  let lastSeq ← bindInt lastSeq
  let pageSize ← bindInt pageSize
  return limitRows pageSize (rowsPast AuditRow.seq lastSeq log)

/-- Where an iteration reads: the store, or an async reader. -/
inductive AuditReader
  | store
  | async

/-- What may go wrong at a fetch. -/
structure FetchFaults where
  checkoutFault : Option PyError := none
  selectFault : Option PyError := none

/-- The store borrows a reader for each page; an async reader has its own connection. -/
def AuditReader.borrow (f : FetchFaults) : AuditReader → Except PyError Unit
  | store => raising f.checkoutFault
  | async => .ok ()

/-- Fetch the page past `lastSeq`. -/
def AuditReader.fetch (reader : AuditReader) (f : FetchFaults) (lastSeq pageSize : ℤ)
    (log : List AuditRow) : Except PyError (List AuditRow) := do
  reader.borrow f
  raising f.selectFault
  selectAuditPage lastSeq pageSize log

/-! ### The loop -/

/-- A generator is to go on, has returned, or has raised. -/
inductive IterationStatus
  | running
  | ended
  | raised (e : PyError)

/-- The local variables of `iter_audit_log_pages`, and the pages it has yielded. -/
structure PageIteration where
  pageSize : ℤ
  startSeq : ℤ
  lastSeq : ℤ
  pages : List (List AuditRow) := []
  status : IterationStatus := .running

/-- `iter_audit_log_pages` before its first fetch. -/
def iterAuditLogPages (pageSize startSeq : ℤ) : PageIteration :=
  { pageSize, startSeq, lastSeq := startSeq }

/-- One round of the loop of `iter_audit_log_pages`, up to its `yield`. -/
def PageIteration.next (reader : AuditReader) (f : FetchFaults) (log : List AuditRow)
    (it : PageIteration) : PageIteration :=
  match reader.fetch f it.lastSeq it.pageSize log with
  | .error e => { it with status := .raised e }
  | .ok [] => { it with status := .ended }
  | .ok (row :: rows) =>
    { it with
      lastSeq := ((row :: rows).getLast (List.cons_ne_nil row rows)).seq
      pages := it.pages ++ [row :: rows] }

/-- An iteration over the audit log of a database that others write to; `seen` is the
log as its last fetch saw it. -/
structure PagingState where
  db : Database
  iteration : PageIteration
  seen : List AuditRow := []

/-- The rounds of the loop on a log that nobody writes to, `n` at most. -/
def PageIteration.drain (reader : AuditReader) (log : List AuditRow) :
    ℕ → PageIteration → PageIteration
  | 0, it => it
  | n + 1, it =>
    match it.status with
    | .running => drain reader log n (it.next reader {} log)
    | _ => it

/-- A page that is fetched is the first rows past `lastSeq`. -/
theorem AuditReader.fetch_eq_ok {reader : AuditReader} {f : FetchFaults} {lastSeq pageSize : ℤ}
    {log rows : List AuditRow} (hpos : 1 ≤ pageSize)
    (h : reader.fetch f lastSeq pageSize log = .ok rows) :
    (rowsPast AuditRow.seq lastSeq log).take pageSize.toNat = rows := by
  obtain ⟨_, -, h⟩ := bind_eq_ok.mp h
  obtain ⟨_, -, h⟩ := bind_eq_ok.mp h
  obtain ⟨last, hlast, h⟩ := bind_eq_ok.mp h
  obtain ⟨size, hsize, h⟩ := bind_eq_ok.mp h
  rw [bindInt] at hlast hsize
  split at hlast
  · split at hsize
    · cases hlast
      cases hsize
      cases h
      rw [limitRows, if_neg (by omega)]
    · cases hsize
  · cases hlast

/-- Without faults, and with numbers SQLite can bind, a fetch returns. -/
theorem AuditReader.fetch_of_binds (reader : AuditReader) {lastSeq pageSize : ℤ}
    (log : List AuditRow) (hlast : BindsInt lastSeq) (hsize : BindsInt pageSize)
    (hpos : 1 ≤ pageSize) :
    reader.fetch {} lastSeq pageSize log =
      .ok ((rowsPast AuditRow.seq lastSeq log).take pageSize.toNat) := by
  have hborrow : reader.borrow {} = .ok () := by
    cases reader <;> rfl
  rw [fetch, hborrow, ok_bind, raising_none, ok_bind, selectAuditPage, bindInt, if_pos hlast,
    ok_bind, bindInt, if_pos hsize, ok_bind, limitRows, if_neg (by omega)]
  rfl

/-- **One round of the loop** raises, ends with nothing left, or yields the next page. -/
theorem PageIteration.next_cases (reader : AuditReader) (f : FetchFaults) (log : List AuditRow)
    {it : PageIteration} (hpos : 1 ≤ it.pageSize) :
    (∃ e, it.next reader f log = { it with status := .raised e }) ∨
    (it.next reader f log = { it with status := .ended } ∧
      rowsPast AuditRow.seq it.lastSeq log = []) ∨
    ∃ page, ∃ hne : page ≠ [],
      (rowsPast AuditRow.seq it.lastSeq log).take it.pageSize.toNat = page ∧
      it.next reader f log =
        { it with lastSeq := (page.getLast hne).seq, pages := it.pages ++ [page] } := by
  unfold next
  split
  · next e hfetch => exact .inl ⟨e, rfl⟩
  · next hfetch =>
    have hnone := AuditReader.fetch_eq_ok hpos hfetch
    rcases List.take_eq_nil_iff.mp hnone with hzero | hnil
    · omega
    · exact .inr (.inl ⟨rfl, hnil⟩)
  · next row rows hfetch =>
    exact .inr (.inr ⟨row :: rows, List.cons_ne_nil row rows,
      AuditReader.fetch_eq_ok hpos hfetch, rfl⟩)

/-! ### Sequence numbers -/

/-- The numbers of an audit log are distinct. -/
def DistinctSeqs (log : List AuditRow) : Prop := (log.map AuditRow.seq).Nodup

/-- What SQLite keeps of `seq INTEGER PRIMARY KEY`: distinct 64-bit integers. -/
structure PrimaryKey (log : List AuditRow) : Prop where
  distinct : DistinctSeqs log
  binds : ∀ a ∈ log, BindsInt a.seq

/-- The next number is past all that are there. -/
theorem lt_nextSeq {log : List AuditRow} {a : AuditRow} (ha : a ∈ log) : a.seq < nextSeq log := by
  have hmem : a.seq ∈ log.map AuditRow.seq := List.mem_map_of_mem ha
  cases hmax : (log.map AuditRow.seq).max? with
  | none =>
    rw [List.max?_eq_none_iff.mp hmax] at hmem
    cases hmem
  | some m =>
    have hle : a.seq ≤ m := (List.max?_eq_some_iff.mp hmax).2 _ hmem
    rw [nextSeq, hmax]
    exact Int.lt_add_one_of_le hle

theorem growsPast_append {log : List AuditRow} {a : AuditRow} (ha : a.seq = nextSeq log) :
    GrowsPast AuditRow.seq log (log ++ [a]) := by
  refine ⟨[a], rfl, by simp, ?_⟩
  intro b hb c hc
  obtain rfl := List.mem_singleton.mp hc
  rw [ha]
  exact lt_nextSeq hb

/-! ### Among writes -/

/-- What holds of an iteration among any writes. -/
structure PagingState.Sound (pageSize startSeq : ℤ) (s : PagingState) : Prop where
  distinct : DistinctSeqs s.db.auditLog
  size : s.iteration.pageSize = pageSize
  pages : PagesSound AuditRow.seq pageSize.toNat startSeq s.iteration.lastSeq s.iteration.pages
    s.db.auditLog
  seen : s.iteration.pages.flatten =
    rowsBetween AuditRow.seq startSeq s.iteration.lastSeq s.seen
  ended : s.iteration.status = .ended → rowsPast AuditRow.seq s.iteration.lastSeq s.seen = []

/-- An iteration over an audit log, before its first fetch. -/
def PagingState.start (db : Database) (pageSize startSeq : ℤ) : PagingState :=
  { db, iteration := iterAuditLogPages pageSize startSeq }

namespace PagingState.Sound

variable {reader : AuditReader} {pageSize startSeq : ℤ} {s s' : PagingState}

theorem start {db : Database} (h : DistinctSeqs db.auditLog) (pageSize startSeq : ℤ) :
    (PagingState.start db pageSize startSeq).Sound pageSize startSeq where
  distinct := h
  size := rfl
  pages := .empty ..
  seen := by simp [PagingState.start, iterAuditLogPages]
  ended := by simp [PagingState.start, iterAuditLogPages]

/-- A round of the loop reads on. -/
theorem next (h : s.Sound pageSize startSeq) (hpos : 1 ≤ pageSize) (f : FetchFaults)
    (hrunning : s.iteration.status = .running) :
    ({ s with iteration := s.iteration.next reader f s.db.auditLog, seen := s.db.auditLog } :
      PagingState).Sound pageSize startSeq := by
  have hsize : 1 ≤ s.iteration.pageSize := by
    rw [h.size]
    exact hpos
  rcases PageIteration.next_cases reader f s.db.auditLog hsize with
    ⟨e, hnext⟩ | ⟨hnext, hnil⟩ | ⟨page, hne, hpage, hnext⟩
  · rw [hnext]
    exact ⟨h.distinct, h.size, h.pages, h.pages.rows, fun hended => by cases hended⟩
  · rw [hnext]
    exact ⟨h.distinct, h.size, h.pages, h.pages.rows, fun _ => hnil⟩
  · rw [h.size] at hpage
    have hpages := h.pages.fetch h.distinct hne hpage
    rw [hnext]
    refine ⟨h.distinct, h.size, hpages, hpages.rows, ?_⟩
    intro hended
    change s.iteration.status = .ended at hended
    rw [hrunning] at hended
    cases hended

end PagingState.Sound

/-! ### Without writes -/

theorem PageIteration.drain_of_ended {reader : AuditReader} {log : List AuditRow} {n : ℕ}
    {it : PageIteration} (h : it.status = .ended) : it.drain reader log n = it := by
  cases n with
  | zero => rfl
  | succ n => rw [drain, h]

/-- On a log that nobody writes to, the loop ends after one round for each row that is
left, at most, and one more. -/
theorem PagingState.Sound.drain_ended {reader : AuditReader} {pageSize startSeq : ℤ}
    {s : PagingState} (h : s.Sound pageSize startSeq) (hkey : PrimaryKey s.db.auditLog)
    (hpos : 1 ≤ pageSize) (hsize : BindsInt pageSize) (hlast : BindsInt s.iteration.lastSeq)
    (hrunning : s.iteration.status = .running) {n : ℕ}
    (hn : (rowsPast AuditRow.seq s.iteration.lastSeq s.db.auditLog).length < n) :
    (s.iteration.drain reader s.db.auditLog n).status = .ended ∧
    (s.iteration.drain reader s.db.auditLog n).pages.flatten =
      rowsPast AuditRow.seq startSeq s.db.auditLog := by
  induction n generalizing s with
  | zero => omega
  | succ n ih =>
    have hitsize := h.size
    have hfetch : reader.fetch {} s.iteration.lastSeq s.iteration.pageSize s.db.auditLog =
        .ok ((rowsPast AuditRow.seq s.iteration.lastSeq s.db.auditLog).take pageSize.toNat) := by
      rw [hitsize]
      exact AuditReader.fetch_of_binds reader _ hlast hsize hpos
    have hsound : PagingState.Sound pageSize startSeq
        { s with iteration := s.iteration.next reader {} s.db.auditLog, seen := s.db.auditLog } :=
      h.next hpos {} hrunning
    rw [PageIteration.drain, hrunning]
    cases hpage : (rowsPast AuditRow.seq s.iteration.lastSeq s.db.auditLog).take
        pageSize.toNat with
    | nil =>
      -- nothing is left
      have hnext : s.iteration.next reader {} s.db.auditLog =
          { s.iteration with status := .ended } := by
        rw [PageIteration.next, hfetch, hpage]
      have hnil : rowsPast AuditRow.seq s.iteration.lastSeq s.db.auditLog = [] := by
        rcases List.take_eq_nil_iff.mp hpage with hzero | hnil
        · omega
        · exact hnil
      rw [hnext]
      change (PageIteration.drain _ _ n _).status = _ ∧ _
      rw [PageIteration.drain_of_ended rfl]
      exact ⟨rfl, h.pages.complete hnil⟩
    | cons row rows =>
      have hne := List.cons_ne_nil row rows
      have hnext : s.iteration.next reader {} s.db.auditLog =
          { s.iteration with
            lastSeq := ((row :: rows).getLast hne).seq
            pages := s.iteration.pages ++ [row :: rows] } := by
        rw [PageIteration.next, hfetch, hpage]
      have hmem : (row :: rows).getLast hne ∈ s.db.auditLog := (getLast_mem_log hne hpage).1
      have hless := length_rowsPast_lt hne hpage
      rw [hnext] at hsound ⊢
      refine ih hsound hkey (hkey.binds _ hmem) hrunning ?_
      change (rowsPast AuditRow.seq ((row :: rows).getLast hne).seq s.db.auditLog).length < n
      omega

section

variable [Platform]

/-! ### What a call appends -/

theorem growsPast_insertAll (ctx : AuditContext) (clock : ℕ → ℤ) (i : ℕ) (rows : List CoreRow)
    (db : Database) :
    GrowsPast AuditRow.seq db.auditLog (db.insertAll ctx clock i rows).auditLog := by
  induction rows generalizing i db with
  | nil => exact .refl _ _
  | cons r rows ih => exact GrowsPast.trans (growsPast_append rfl) (ih (i + 1) _)

/-- **A call appends rows past all that are there.** -/
theorem Call.growsPast_after (c : Call) (db : Database) :
    GrowsPast AuditRow.seq db.auditLog (c.after db).auditLog := by
  rcases c.after_cases db with hsame | ⟨rows, -, -, -, heffect⟩
  · rw [hsame]
    exact .refl _ _
  · generalize c.after db = db' at heffect
    cases heffect with
    | insert => exact growsPast_insertAll ..
    | result hrows => exact growsPast_append rfl

/-- A call of somebody else, for whose rows there are numbers left, or a round of the loop. -/
inductive PagingStep (reader : AuditReader) (s : PagingState) : PagingState → Prop
  | write {db : Database} (hcall : StoreStep s.db db) (hbinds : ∀ a ∈ db.auditLog, BindsInt a.seq) :
      PagingStep reader s { s with db := db }
  | next (f : FetchFaults) (hrunning : s.iteration.status = .running) :
      PagingStep reader s
        { s with iteration := s.iteration.next reader f s.db.auditLog, seen := s.db.auditLog }

namespace PagingState.Sound

variable {reader : AuditReader} {pageSize startSeq : ℤ} {s s' : PagingState}

/-- Writes leave what was read as it is. -/
theorem write (h : s.Sound pageSize startSeq) (c : Call) :
    ({ s with db := c.after s.db } : PagingState).Sound pageSize startSeq :=
  have hgrows := c.growsPast_after s.db
  { h with
    distinct := hgrows.nodup h.distinct
    pages := h.pages.grow hgrows }

theorem step (hpos : 1 ≤ pageSize) (h : s.Sound pageSize startSeq) (hstep : PagingStep reader s s') :
    s'.Sound pageSize startSeq := by
  cases hstep with
  | write hcall hbinds =>
    obtain ⟨c, rfl⟩ := hcall
    exact h.write c
  | next f hrunning => exact h.next hpos f hrunning

end PagingState.Sound

/-- Every iteration, among any writes. -/
theorem PagingState.sound_of_run {reader : AuditReader} {db : Database} {pageSize startSeq : ℤ}
    {s : PagingState} (hdistinct : DistinctSeqs db.auditLog) (hpos : 1 ≤ pageSize)
    (hrun : ReflTransGen (PagingStep reader) (.start db pageSize startSeq) s) :
    s.Sound pageSize startSeq :=
  invariant_of_step hrun (.start hdistinct pageSize startSeq) fun _ _ => .step hpos

/-- **Reading the audit log page by page loses nothing and repeats nothing**, from the
store and from an async reader.  Among any writes the pages have rows, at most
`pageSize`, and together they are the rows past the start and up to the last one
yielded, once each and in order, as the last fetch saw the log; when the iteration
has ended they are all the rows past the start.  And on a log that nobody writes to
the iteration ends. -/
theorem auditPages_complete (reader : AuditReader) {db : Database} (hkey : PrimaryKey db.auditLog)
    {pageSize startSeq : ℤ} (hpos : 1 ≤ pageSize) (hsize : BindsInt pageSize)
    (hstart : BindsInt startSeq) :
    (∀ s, ReflTransGen (PagingStep reader) (.start db pageSize startSeq) s →
      (∀ page ∈ s.iteration.pages, page ≠ [] ∧ (page.length : ℤ) ≤ pageSize) ∧
      (s.iteration.pages.flatten.map AuditRow.seq).Pairwise (· < ·) ∧
      s.iteration.pages.flatten =
        rowsBetween AuditRow.seq startSeq s.iteration.lastSeq s.seen ∧
      (s.iteration.status = .ended →
        s.iteration.pages.flatten = rowsPast AuditRow.seq startSeq s.seen)) ∧
    ∃ rows, iterAuditLog none db.auditLog = .ok rows ∧
      ∀ n, db.auditLog.length < n →
        ((iterAuditLogPages pageSize startSeq).drain reader db.auditLog n).status = .ended ∧
        ((iterAuditLogPages pageSize startSeq).drain reader db.auditLog n).pages.flatten =
          rows.filter fun a => startSeq < a.seq := by
  refine ⟨?_, _, rfl, ?_⟩
  · intro s hrun
    have hsound := PagingState.sound_of_run hkey.distinct hpos hrun
    refine ⟨?_, ?_, hsound.seen, ?_⟩
    · intro page hpage
      obtain ⟨hne, hlength⟩ := hsound.pages.size page hpage
      exact ⟨hne, by omega⟩
    · rw [hsound.pages.rows]
      exact strict_orderBy (nodup_keys_filter hsound.distinct _)
    · intro hended
      rw [hsound.seen, rowsBetween_of_rowsPast_eq_nil (hsound.ended hended)]
  · intro n hn
    have hsound := PagingState.Sound.start hkey.distinct pageSize startSeq
    have hleft : (rowsPast AuditRow.seq startSeq db.auditLog).length ≤ db.auditLog.length := by
      rw [rowsPast, (orderBy_perm AuditRow.seq _).length_eq]
      exact List.length_filter_le ..
    rw [filter_orderBy hkey.distinct]
    exact hsound.drain_ended hkey hpos hsize hstart rfl (hleft.trans_lt hn)

end

namespace Reference

/-- The numbers from one on are kept. -/
theorem primaryKey_of_numbered {log : List AuditRow} {n : ℕ} (h : log.map AuditRow.seq = numbered n)
    (hnodup : (numbered n).Nodup) (hbinds : ∀ k ∈ numbered n, BindsInt k) : PrimaryKey log where
  distinct := by rwa [DistinctSeqs, h]
  binds a ha := hbinds _ (h ▸ List.mem_map_of_mem ha)

theorem primaryKey_saleStored : PrimaryKey saleStored.auditLog :=
  primaryKey_of_numbered (n := 7) rfl (by decide) (by decide)

/-- The database after another sale. -/
def knownStored : Database := (call (.appendTransaction "BK" known)).after saleStored

theorem primaryKey_knownStored : PrimaryKey knownStored.auditLog :=
  primaryKey_of_numbered (n := 10) rfl (by decide) (by decide)

/-- The iteration from the start of the log, after this number of rounds. -/
def salePages : ℕ → PageIteration
  | 0 => iterAuditLogPages 4 0
  | 1 => (salePages 0).next .store {} saleStored.auditLog
  | n + 2 => (salePages (n + 1)).next .store {} knownStored.auditLog

/-- Four rows are read, then another sale is written, and then the iteration goes on to its
end. -/
theorem pagingRun_salePages : ReflTransGen (PagingStep .store) (.start saleStored 4 0)
    ⟨knownStored, salePages 4, knownStored.auditLog⟩ := by
  have h : ReflTransGen (PagingStep .store) (.start saleStored 4 0)
      ⟨saleStored, salePages 1, saleStored.auditLog⟩ := .single (.next {} rfl)
  have h : ReflTransGen (PagingStep .store) (.start saleStored 4 0)
      ⟨knownStored, salePages 1, saleStored.auditLog⟩ :=
    h.tail (.write ⟨_, rfl⟩ primaryKey_knownStored.binds)
  have h : ReflTransGen (PagingStep .store) (.start saleStored 4 0)
      ⟨knownStored, salePages 2, knownStored.auditLog⟩ := h.tail (.next {} rfl)
  have h : ReflTransGen (PagingStep .store) (.start saleStored 4 0)
      ⟨knownStored, salePages 3, knownStored.auditLog⟩ := h.tail (.next {} rfl)
  exact h.tail (.next {} rfl)

/-- The rows of both sales are read, in three pages; and a log that nobody writes to is read to
its end. -/
theorem auditPages_knownStored :
    ((salePages 4).pages.map List.length = [4, 4, 2] ∧
      (salePages 4).pages.flatten = rowsPast AuditRow.seq 0 knownStored.auditLog) ∧
    ∃ rows, iterAuditLog none saleStored.auditLog = .ok rows ∧
      ((iterAuditLogPages 4 0).drain .store saleStored.auditLog 9).status = .ended ∧
      ((iterAuditLogPages 4 0).drain .store saleStored.auditLog 9).pages.flatten =
        rows.filter fun a => 0 < a.seq := by
  obtain ⟨hruns, rows, hrows, hends⟩ :=
    auditPages_complete .store primaryKey_saleStored (show (1 : ℤ) ≤ 4 by decide)
      (show BindsInt 4 by decide) (show BindsInt 0 by decide)
  obtain ⟨-, -, -, hcomplete⟩ := hruns _ pagingRun_salePages
  exact ⟨⟨rfl, hcomplete rfl⟩, rows, hrows, hends 9 (by decide)⟩

/-- A page of `2^63` rows cannot be asked for: the first fetch raises, and no number of
rounds ends the iteration. -/
theorem oversizePage_raises :
    ((iterAuditLogPages (2 ^ 63) 0).next .store {} saleStored.auditLog).status =
      .raised (.overflowError "int too big to convert") ∧
    ¬ ∀ (reader : AuditReader) (db : Database) (pageSize startSeq : ℤ),
      PrimaryKey db.auditLog → 1 ≤ pageSize →
      ∃ n, ((iterAuditLogPages pageSize startSeq).drain reader db.auditLog n).status =
        .ended := by
  refine ⟨rfl, fun hends => ?_⟩
  obtain ⟨n, hn⟩ := hends .store {} (2 ^ 63) 0 ⟨List.nodup_nil, by simp⟩ (by norm_num)
  rcases n with _ | _ | n
  · cases hn
  · cases hn
  · cases hn

end Reference

end FinestVX
