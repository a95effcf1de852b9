import FinestVX.Lib.Queries
import FinestVX.Persistence.AuditPages
import FinestVX.Persistence.Reversal
import FinestVX.Persistence.TornReads
import FinestVX.Runtime.WriterQueue

/-!
# Sessions

Clients of a `LedgerRuntime` write through the queue of the writer and read from the pool
of readers, at the same time.  A write takes effect in one step, when the writer executes
it; a read issues several statements, between which the ledger goes on to grow.  What
the clients see is nevertheless explained by one sequence of operations, each of which
takes place at one moment between its call and its return.

## Main definitions

* `RuntimeRead`, `RuntimeRead.queries`, `RuntimeRead.alone` — the reads, their statements,
  and what they return on a ledger that does not change.
* `SessionState`, `SessionStep`, `SessionRun` — the reads beside the threads of the runtime.
* `Linearizable` — every operation has a moment at which it takes place.
* `SessionGuarantees` — what a client may rely on.

## Main results

* `RuntimeRead.exists_alone_eq` — a read takes place at one of its statements.
* `linearizable_of_run` — **every interleaving is linearizable.**
* `sessionGuarantees_of_run` — **a client reads what it has written**, and later reads see
  no less than earlier ones.
-/

namespace FinestVX

open Except Relation

section

variable [Platform]

/-! ### Reads and their statements -/

/-- A read method of the runtime. -/
inductive RuntimeRead
  | getBookSnapshot (code : String)
  | listBookCodes
  | iterAuditLog (limit : Option ℤ)

/-- What a read returns. -/
inductive ReadResult
  | book (b : Book)
  | codes (codes : List String)
  | rows (rows : List AuditRow)

/-- The queries for the entries of some transactions, and what follows them. -/
def entriesQueries {α : Type} (code : String)
    (k : Dict String (List EntryRow) → Query Database PyError α) :
    List TransactionRow → Dict String (List EntryRow) → Query Database PyError α
  | [], d => k d
  | r :: rows, d => .select fun db =>
      entriesQueries code k rows (d.set r.reference (selectEntries code r.reference db.tables))

/-- The statements of `_load_book_from_connection`. -/
def loadBookQueries (code : String) : Query Database PyError ReadResult :=
  .select fun db => match db.tables.books.find? (·.bookCode = code) with
    | none => .done (.error (.keyError s!"Unknown book: {code}"))
    | some row => .select fun db₁ => .select fun db₂ => .select fun db₃ =>
        let transactions := selectTransactions code db₃.tables
        entriesQueries code
          (fun entries => .done ((deserializeBook code (buildBookPayload row
            (selectAccounts code db₁.tables) (selectPeriods code db₂.tables) transactions
            entries)).map .book))
          transactions []

namespace RuntimeRead

/-- The statements of a read. -/
def queries : RuntimeRead → Query Database PyError ReadResult
  | getBookSnapshot code => loadBookQueries code
  | listBookCodes => .select fun db => .done (.ok (.codes (FinestVX.listBookCodes db.tables)))
  | iterAuditLog limit =>
    .select fun db => .done ((FinestVX.iterAuditLog limit db.auditLog).map .rows)

/-- What a read returns on a ledger that does not change meanwhile. -/
def alone (r : RuntimeRead) (db : Database) : Except PyError ReadResult :=
  match r with
  | getBookSnapshot code => (loadBook db.tables code).map .book
  | listBookCodes => .ok (.codes (FinestVX.listBookCodes db.tables))
  | iterAuditLog limit => (FinestVX.iterAuditLog limit db.auditLog).map .rows

end RuntimeRead

omit [Platform] in
theorem runFrom_entriesQueries {α : Type} {code : String} (view : ℕ → Tables)
    (f : Dict String (List EntryRow) → Except PyError α) (rows : List TransactionRow)
    (d : Dict String (List EntryRow)) (n : ℕ) (seen : ℕ → Database)
    (hseen : ∀ i, (seen i).tables = view (n + i)) :
    (entriesQueries code (fun entries => .done (f entries)) rows d).runFrom seen =
      f ((rows.zipIdx n).foldl
        (fun d (r, j) => d.set r.reference (selectEntries code r.reference (view j))) d) := by
  induction rows generalizing d n seen with
  | nil => rfl
  | cons r rows ih =>
    have h₀ : (seen 0).tables = view n := hseen 0
    rw [entriesQueries, Query.runFrom, List.zipIdx_cons, List.foldl_cons, h₀]
    refine ih _ (n + 1) _ fun i => ?_
    rw [hseen (i + 1)]
    congr 1
    omega

/-- The statements of a load are those of `loadBookFrom`. -/
theorem runFrom_loadBookQueries (code : String) (view : ℕ → Database) :
    (loadBookQueries code).runFrom view =
      (loadBookFrom (fun i => (view i).tables) code).map .book := by
  rw [loadBookQueries, Query.runFrom, loadBookFrom]
  cases (view 0).tables.books.find? (·.bookCode = code) with
  | none => rfl
  | some row =>
    simp only [Query.runFrom]
    refine runFrom_entriesQueries (fun j => (view (4 + j)).tables) _ _ [] 0 _ fun i => ?_
    congr 2
    omega

/-- A load whose statements see a growing ledger gives what it gives on the ledger that the
query for the transactions saw, if the book was there at the first query. -/
theorem loadBookFrom_of_growing {view : ℕ → Database} {code : String} (hreach : Reachable (view 0))
    (hrun : ∀ i j, i ≤ j → ReflTransGen StoreStep (view i) (view j))
    (hbook : (view 0).tables.HasBook code) :
    loadBookFrom (fun i => (view i).tables) code = loadBook (view 3).tables code := by
  obtain ⟨σ, hσ⟩ := hreach.refines
  obtain ⟨b, hb⟩ := hσ.exists_of_hasBook hbook
  obtain ⟨rfl, hholds⟩ := hσ.holds hb
  -- what is held of the book only grows
  have hlater : ∀ i, ∃ b', b.Extends b' ∧ Holds (view i).tables b' := by
    intro i
    obtain ⟨σ', hσ', -, hext⟩ := hσ.of_run hreach.keyed (hrun 0 i (Nat.zero_le i))
    obtain ⟨b', hb', hbext⟩ := hext _ b hb
    exact ⟨b', hbext, (hσ'.holds hb').2⟩
  obtain ⟨b₁, hext₁, h₁⟩ := hlater 1
  obtain ⟨b₂, hext₂, h₂⟩ := hlater 2
  obtain ⟨b₃, hext₃, h₃⟩ := hlater 3
  have hrow := h₃.find?_book
  have haccounts := h₃.selectAccounts_eq
  have hperiods := h₃.selectPeriods_eq
  have haccounts₁ := h₁.selectAccounts_eq
  have hperiods₂ := h₂.selectPeriods_eq
  rw [hext₃.code] at hrow haccounts hperiods
  rw [hext₁.code] at haccounts₁
  rw [hext₂.code] at hperiods₂
  change _ = loadBookFrom (fun _ => (view 3).tables) b.code
  refine loadBookFrom_congr ?_ ?_ ?_ rfl ?_
  · rw [hholds.find?_book, hrow, hext₃.bookRow]
  · rw [haccounts₁, haccounts, hext₁.accounts, hext₃.accounts]
  · rw [hperiods₂, hperiods, hext₂.periods, hext₃.periods]
  · -- the entries of a transaction that was seen do not change
    intro r hr j
    obtain ⟨hmem, hcode⟩ := List.mem_filter.mp (mem_orderBy.mp hr)
    have hkept := selectEntries_of_run (hreach.trans (hrun 0 3 (Nat.zero_le 3)))
      (hrun 3 (4 + j) (by omega)) hmem
    rwa [of_decide_eq_true hcode] at hkept

/-- The states some statements saw, each of them later than the one before. -/
def Growing (seen : List Database) : Prop :=
  (∀ d ∈ seen, Reachable d) ∧ seen.Pairwise (ReflTransGen StoreStep)

/-- The states of a growing list, and the last one from its end on. -/
theorem Growing.view {d : Database} {seen : List Database} (h : Growing (d :: seen)) :
    ∃ view : ℕ → Database, (∀ i s, (d :: seen)[i]? = some s → view i = s) ∧
      ∀ i j, i ≤ j → ReflTransGen StoreStep (view i) (view j) := by
  have hlast : ∀ i, min i seen.length < (d :: seen).length := by
    intro i
    rw [List.length_cons]
    omega
  refine ⟨fun i => (d :: seen).get ⟨min i seen.length, hlast i⟩, ?_, ?_⟩
  · intro i s hs
    obtain ⟨hi, rfl⟩ := List.getElem?_eq_some_iff.mp hs
    have hmin : min i seen.length = i := by
      rw [List.length_cons] at hi
      omega
    simp only [List.get_eq_getElem, hmin]
  · intro i j hij
    rcases Nat.lt_or_ge (min i seen.length) (min j seen.length) with hlt | hge
    · exact List.pairwise_iff_getElem.mp h.2 _ _ (hlast i) (hlast j) hlt
    · have heq : min i seen.length = min j seen.length := by omega
      simp only [heq]
      exact .refl

/-- A load that has found its book issues at least four statements. -/
theorem exists_third {code : String} {d : Database} {seen : List Database}
    {outcome : Except PyError ReadResult} (hbook : d.tables.HasBook code)
    (hfeed : (loadBookQueries code).feed (d :: seen) = .done outcome) :
    ∃ d₃, (d :: seen)[3]? = some d₃ ∧ d₃ ∈ d :: seen := by
  obtain ⟨b, hb, hcode⟩ := hbook
  have hfound : (d.tables.books.find? (·.bookCode = code)).isSome :=
    List.find?_isSome.mpr ⟨b, hb, decide_eq_true hcode⟩
  obtain ⟨row, hrow⟩ := Option.isSome_iff_exists.mp hfound
  rw [loadBookQueries, Query.feed, hrow] at hfeed
  -- the book, its accounts, its periods, and then the transactions
  rcases seen with _ | ⟨_, _ | ⟨_, _ | ⟨d₃, _⟩⟩⟩
  · cases hfeed
  · cases hfeed
  · cases hfeed
  · exact ⟨d₃, rfl, by simp⟩

/-- **A read takes place at one of its statements**: it returns what it returns on the
ledger that this statement saw. -/
theorem RuntimeRead.exists_alone_eq {r : RuntimeRead} {seen : List Database}
    {outcome : Except PyError ReadResult} (hfeed : r.queries.feed seen = .done outcome)
    (hgrowing : Growing seen) : ∃ d ∈ seen, outcome = r.alone d := by
  cases seen with
  | nil => cases r <;> cases hfeed
  | cons d seen =>
    cases r with
    | listBookCodes =>
      refine ⟨d, List.mem_cons_self, ?_⟩
      cases seen <;> exact (Query.done.inj hfeed).symm
    | iterAuditLog limit =>
      refine ⟨d, List.mem_cons_self, ?_⟩
      cases seen <;> exact (Query.done.inj hfeed).symm
    | getBookSnapshot code =>
      obtain ⟨view, hview, hrun⟩ := hgrowing.view
      have hload := (runFrom_loadBookQueries code view).symm.trans
        (Query.runFrom_of_feed hfeed hview)
      have hfirst : view 0 = d := hview 0 d rfl
      have hreach : Reachable (view 0) := hfirst ▸ hgrowing.1 d List.mem_cons_self
      by_cases hbook : d.tables.HasBook code
      · obtain ⟨d₃, hd₃, hmem⟩ := exists_third hbook hfeed
        refine ⟨d₃, hmem, ?_⟩
        rw [← hload, loadBookFrom_of_growing hreach hrun (by rwa [hfirst]), hview 3 d₃ hd₃, alone]
      · -- the book was not there at the first query
        refine ⟨d, List.mem_cons_self, ?_⟩
        rw [← hload, loadBookFrom_of_unknown (by rwa [hfirst]), alone, loadBook_of_unknown hbook]

/-! ### The reads beside the threads of the runtime -/

/-- Where a read is, with the states its statements saw and the statements left. -/
inductive ReadProgress
  | notCalled
  /-- Waiting for the read lock. -/
  | acquiring (r : RuntimeRead)
  /-- With the read lock and a connection. -/
  | reading (r : RuntimeRead) (seen : List Database) (rest : Query Database PyError ReadResult)
  | finished

/-- The read has the read lock. -/
def ReadProgress.HoldsRead : ReadProgress → Prop
  | reading _ _ _ => True
  | _ => False

/-- What happens in a run. -/
inductive SessionEvent (ι κ : Type)
  | runtime (e : Event ι)
  | called (j : κ) (r : RuntimeRead)
  /-- A statement of a read. -/
  | selected (j : κ)
  | returned (j : κ) (outcome : Except PyError ReadResult)
  /-- The read raises because it gets no lock, no connection or no answer in time. -/
  | failed (j : κ) (e : PyError)
  | admitted (j : κ)

/-- A runtime and the reads of its clients. -/
structure SessionState (ι κ : Type) where
  runtime : RuntimeState ι
  reads : κ → ReadProgress := fun _ => .notCalled

variable {ι κ : Type} [DecidableEq ι] [DecidableEq κ]

/-- A read goes on. -/
def SessionState.goto (s : SessionState ι κ) (j : κ) (phase : ReadProgress) : SessionState ι κ :=
  { s with reads := Function.update s.reads j phase }

/-- A step of a read. -/
inductive ReadMove (s : SessionState ι κ) (j : κ) : SessionEvent ι κ → SessionState ι κ → Prop
  | call (r : RuntimeRead) (h : s.reads j = .notCalled) :
      ReadMove s j (.called j r) (s.goto j (.acquiring r))
  | acquireRead {r : RuntimeRead} (h : s.reads j = .acquiring r)
      (hfree : ¬ s.runtime.closer.HoldsWrite) :
      ReadMove s j (.admitted j) (s.goto j (.reading r [] r.queries))
  | select {r : RuntimeRead} {seen : List Database}
      {k : Database → Query Database PyError ReadResult}
      (h : s.reads j = .reading r seen (.select k)) (hopen : s.runtime.storeOpen = true) :
      ReadMove s j (.selected j)
        (s.goto j (.reading r (seen ++ [s.runtime.db]) (k s.runtime.db)))
  | return {r : RuntimeRead} {seen : List Database} {outcome : Except PyError ReadResult}
      (h : s.reads j = .reading r seen (.done outcome)) :
      ReadMove s j (.returned j outcome) (s.goto j .finished)
  | fail (e : PyError) (h : s.reads j ≠ .notCalled ∧ s.reads j ≠ .finished) :
      ReadMove s j (.failed j e) (s.goto j .finished)

/-- A step of a read, or of a thread of the runtime; `close` takes the write lock when no
read holds the read lock. -/
inductive SessionStep (s : SessionState ι κ) : SessionEvent ι κ → SessionState ι κ → Prop
  | read {j : κ} {e : SessionEvent ι κ} {s' : SessionState ι κ} (h : ReadMove s j e s') :
      SessionStep s e s'
  | runtime {e : Event ι} {r : RuntimeState ι} (h : RuntimeStep s.runtime e r)
      (hlock : s.runtime.closer = .acquiring → r.closer = .locked →
        ∀ j, ¬ (s.reads j).HoldsRead) :
      SessionStep s (.runtime e) { s with runtime := r }

/-- The interleavings of reads and writes on a runtime that is opened on a database. -/
def SessionRun (live : Path) (db₀ : Database) :
    List (SessionEvent ι κ) → SessionState ι κ → Prop :=
  Traced SessionStep { runtime := { databasePath := live, db := db₀ } }

/-! ### What the runs are to show -/

section

omit [DecidableEq ι] [DecidableEq κ]

/-- The step of a thread of the runtime. -/
def SessionEvent.runtime? : SessionEvent ι κ → Option (Event ι)
  | runtime e => some e
  | _ => none

/-- The read that is called. -/
def SessionEvent.called? : SessionEvent ι κ → Option κ
  | called j _ => some j
  | _ => none

/-- What the threads of the runtime have done. -/
def runtimeEvents (tr : List (SessionEvent ι κ)) : List (Event ι) :=
  tr.filterMap SessionEvent.runtime?

/-- The ledger after the writes so far, one after another. -/
def ledgerAfter (db₀ : Database) (tr : List (SessionEvent ι κ)) : Database :=
  Call.afterAll (storeCalls (runtimeEvents tr)) db₀

end

/-- **Every operation has a moment at which it takes place**, between its call and its
return, and it returns what it returns when the operations take place one after another at
their moments: a write when the writer executes it, a read at one of its statements. -/
structure Linearizable (live : Path) (db₀ : Database) (tr : List (SessionEvent ι κ)) : Prop where
  writes : ∀ before i outcome after, tr = before ++ .runtime (.receive i outcome) :: after →
    ∃ q env b₁ b₂, before = b₁ ++ .runtime (.dispatch q env) :: b₂ ∧ q.future = i ∧
      .runtime (.put q) ∈ b₁ ∧
      outcome = (dispatchCommand env live (ledgerAfter db₀ b₁) q.command).1
  reads : ∀ before j outcome after, tr = before ++ .returned j outcome :: after →
    ∃ r b₁ b₂ b₃, before = b₁ ++ .called j r :: (b₂ ++ .selected j :: b₃) ∧
      outcome = r.alone (ledgerAfter db₀ (b₁ ++ .called j r :: b₂))
  /-- No write takes place twice. -/
  once : ((dispatched (runtimeEvents tr)).map QueuedCommand.future).Nodup

/-! ### The invariant -/

/-- What a read has seen are states of the ledger since it was called. -/
def SawSince (db₀ : Database) (tr : List (SessionEvent ι κ)) (j : κ) (r : RuntimeRead)
    (d : Database) : Prop :=
  ∃ b₁ b₂ b₃, tr = b₁ ++ .called j r :: (b₂ ++ .selected j :: b₃) ∧
    d = ledgerAfter db₀ (b₁ ++ .called j r :: b₂)

/-- What holds between the events of a run, the ledger and a read. -/
def ReadProgress.Tracked (db₀ : Database) (tr : List (SessionEvent ι κ)) (j : κ)
    (db : Database) : ReadProgress → Prop
  | notCalled => ∀ r, .called j r ∉ tr
  | acquiring r => .called j r ∈ tr
  | reading r seen rest => .called j r ∈ tr ∧ r.queries.feed seen = rest ∧ Growing seen ∧
      ∀ d ∈ seen, SawSince db₀ tr j r d ∧ ReflTransGen StoreStep d db
  | finished => True

/-- The invariant of the runs. -/
structure Tracked (live : Path) (db₀ : Database) (tr : List (SessionEvent ι κ))
    (s : SessionState ι κ) : Prop where
  runtime : RuntimeRun live db₀ (runtimeEvents tr) s.runtime
  reads : ∀ j, (s.reads j).Tracked db₀ tr j s.runtime.db

section

omit [DecidableEq ι] [DecidableEq κ]

theorem runtimeEvents_append (tr tr' : List (SessionEvent ι κ)) :
    runtimeEvents (tr ++ tr') = runtimeEvents tr ++ runtimeEvents tr' :=
  List.filterMap_append

theorem runtimeEvents_of_read {e : SessionEvent ι κ} (h : e.runtime? = none)
    (tr : List (SessionEvent ι κ)) : runtimeEvents (tr ++ [e]) = runtimeEvents tr := by
  simp [runtimeEvents, h]

variable {db₀ db db' : Database} {tr : List (SessionEvent ι κ)} {j : κ} {r : RuntimeRead}
  {e : SessionEvent ι κ}

theorem SawSince.append {d : Database} (h : SawSince db₀ tr j r d)
    (tr' : List (SessionEvent ι κ)) : SawSince db₀ (tr ++ tr') j r d := by
  obtain ⟨b₁, b₂, b₃, rfl, hd⟩ := h
  exact ⟨b₁, b₂, b₃ ++ tr', by simp, hd⟩

/-- A statement that is executed now. -/
theorem SawSince.now (h : .called j r ∈ tr) :
    SawSince db₀ (tr ++ [.selected j]) j r (ledgerAfter db₀ tr) := by
  obtain ⟨b₁, b₂, rfl⟩ := List.append_of_mem h
  exact ⟨b₁, b₂, [], by simp, rfl⟩

/-- What others do changes nothing for a read. -/
theorem ReadProgress.Tracked.mono {phase : ReadProgress} (h : phase.Tracked db₀ tr j db)
    (hrun : ReflTransGen StoreStep db db') (he : e.called? ≠ some j) :
    phase.Tracked db₀ (tr ++ [e]) j db' := by
  cases phase with
  | notCalled =>
    intro r hr
    rcases List.mem_append.mp hr with hr | hr
    · exact h r hr
    · rw [← List.mem_singleton.mp hr] at he
      exact he rfl
  | acquiring r => exact List.mem_append_left _ h
  | reading r seen rest =>
    obtain ⟨hcalled, hfeed, hgrowing, hseen⟩ := h
    refine ⟨List.mem_append_left _ hcalled, hfeed, hgrowing, fun d hd => ?_⟩
    exact ⟨(hseen d hd).1.append _, (hseen d hd).2.trans hrun⟩
  | finished => trivial

/-- One more statement. -/
theorem ReadProgress.Tracked.select {seen : List Database}
    {k : Database → Query Database PyError ReadResult}
    (h : (ReadProgress.reading r seen (.select k)).Tracked db₀ tr j db) (hreach : Reachable db)
    (hdb : db = ledgerAfter db₀ tr) :
    (ReadProgress.reading r (seen ++ [db]) (k db)).Tracked db₀ (tr ++ [.selected j]) j db := by
  obtain ⟨hcalled, hfeed, ⟨hreachable, hpairwise⟩, hseen⟩ := h
  refine ⟨List.mem_append_left _ hcalled, Query.feed_concat hfeed db, ⟨?_, ?_⟩, ?_⟩
  · intro d hd
    rcases List.mem_append.mp hd with hd | hd
    · exact hreachable d hd
    · rwa [List.mem_singleton.mp hd]
  · refine List.pairwise_append.mpr ⟨hpairwise, List.pairwise_singleton _ _, ?_⟩
    intro d hd d' hd'
    rw [List.mem_singleton.mp hd']
    exact (hseen d hd).2
  · intro d hd
    rcases List.mem_append.mp hd with hd | hd
    · exact ⟨(hseen d hd).1.append _, (hseen d hd).2⟩
    · rw [List.mem_singleton.mp hd]
      exact ⟨hdb ▸ SawSince.now hcalled, .refl⟩

end

namespace Tracked

variable {live : Path} {db₀ : Database} {tr : List (SessionEvent ι κ)} {s s' : SessionState ι κ}

omit [DecidableEq κ] in
/-- The ledger is that of the writes so far. -/
theorem db_eq (h : Tracked live db₀ tr s) : s.runtime.db = ledgerAfter db₀ tr :=
  (Consistent.of_run h.runtime).ledger

/-- A step of a read. -/
theorem goto (h : Tracked live db₀ tr s) {j : κ} {e : SessionEvent ι κ} {phase : ReadProgress}
    (hruntime : e.runtime? = none) (hcalled : ∀ j', j' ≠ j → e.called? ≠ some j')
    (hphase : phase.Tracked db₀ (tr ++ [e]) j s.runtime.db) :
    Tracked live db₀ (tr ++ [e]) (s.goto j phase) where
  runtime := by
    rw [runtimeEvents_of_read hruntime]
    exact h.runtime
  reads j' := by
    change (Function.update s.reads j phase j').Tracked _ _ _ s.runtime.db
    by_cases hj : j' = j
    · subst hj
      rwa [Function.update_self]
    · rw [Function.update_of_ne hj]
      exact (h.reads j').mono .refl (hcalled j' hj)

theorem read (h : Tracked live db₀ tr s) (hdb : Reachable db₀) {j : κ} {e : SessionEvent ι κ}
    (hmove : ReadMove s j e s') : Tracked live db₀ (tr ++ [e]) s' := by
  have hj := h.reads j
  cases hmove with
  | call r hphase =>
    refine h.goto rfl ?_ (List.mem_append_right _ List.mem_cons_self)
    intro j' hne heq
    exact hne (Option.some.inj heq).symm
  | acquireRead hphase hfree =>
    rw [hphase] at hj
    refine h.goto rfl (fun _ _ => nofun) ⟨List.mem_append_left _ hj, Query.feed_nil _, ?_, ?_⟩
    · exact ⟨fun d hd => (List.not_mem_nil hd).elim, List.Pairwise.nil⟩
    · exact fun d hd => (List.not_mem_nil hd).elim
  | select hphase hopen =>
    rw [hphase] at hj
    have hreach : Reachable s.runtime.db := by
      rw [h.db_eq]
      exact hdb.trans (Call.run_afterAll _ _)
    exact h.goto rfl (fun _ _ => nofun) (hj.select hreach h.db_eq)
  | «return» hphase => exact h.goto rfl (fun _ _ => nofun) trivial
  | fail error hphase => exact h.goto rfl (fun _ _ => nofun) trivial

omit [DecidableEq κ] in
/-- A step of a thread of the runtime. -/
theorem step (h : Tracked live db₀ tr s) {e : Event ι} {r : RuntimeState ι}
    (hstep : RuntimeStep s.runtime e r) :
    Tracked live db₀ (tr ++ [.runtime e]) { s with runtime := r } := by
  have hrun : RuntimeRun live db₀ (runtimeEvents (tr ++ [.runtime e])) r := by
    rw [runtimeEvents_append]
    exact h.runtime.snoc hstep
  refine ⟨hrun, fun j => (h.reads j).mono ?_ nofun⟩
  -- the ledger goes on from where it is
  have hafter : r.db = Call.afterAll e.storeCalls s.runtime.db := by
    rw [(Consistent.of_run hrun).ledger, h.db_eq, runtimeEvents_append, storeCalls_append,
      ledgerAfter, Call.afterAll, List.foldl_append]
    simp [Call.afterAll, storeCalls, runtimeEvents, SessionEvent.runtime?]
  change ReflTransGen StoreStep s.runtime.db r.db
  rw [hafter]
  exact Call.run_afterAll _ _

theorem of_run (hdb : Reachable db₀) (h : SessionRun live db₀ tr s) : Tracked live db₀ tr s := by
  refine Traced.invariant h ⟨.nil, fun _ => fun _ => List.not_mem_nil⟩ ?_
  intro tr x e y hx hstep
  cases hstep with
  | read hmove => exact hx.read hdb hmove
  | runtime hstep hlock => exact hx.step hstep

end Tracked

/-! ### Linearizability -/

omit [DecidableEq ι] [DecidableEq κ] in
/-- A step of a thread of the runtime is an event of the run. -/
theorem exists_of_runtimeEvents_eq {tr : List (SessionEvent ι κ)} {before after : List (Event ι)}
    {e : Event ι} (h : runtimeEvents tr = before ++ e :: after) :
    ∃ b₁ b₂, tr = b₁ ++ .runtime e :: b₂ ∧ runtimeEvents b₁ = before := by
  obtain ⟨l₁, l₂, rfl, h₁, h₂⟩ := List.filterMap_eq_append_iff.mp h
  obtain ⟨l₃, x, l₄, rfl, hnone, hx, -⟩ := List.filterMap_eq_cons_iff.mp h₂
  have hevent : x = .runtime e := by
    cases x <;> cases hx
    rfl
  refine ⟨l₁ ++ l₃, l₄, by simp [hevent], ?_⟩
  rw [runtimeEvents_append, ← h₁]
  have hnil : runtimeEvents l₃ = [] := List.filterMap_eq_nil_iff.mpr hnone
  rw [hnil, List.append_nil]
  rfl

/-- What the caller of a write receives was produced by the dispatch of its command. -/
theorem exists_dispatch_of_receive {live : Path} {db₀ : Database} (hdb : Reachable db₀)
    {s : SessionState ι κ} {i : ι} {outcome : Except PyError Receipt}
    {before after : List (SessionEvent ι κ)}
    (h : SessionRun live db₀ (before ++ .runtime (.receive i outcome) :: after) s) :
    ∃ q env b₁ b₂, before = b₁ ++ .runtime (.dispatch q env) :: b₂ ∧ q.future = i ∧
      .runtime (.put q) ∈ b₁ ∧
      outcome = (dispatchCommand env live (ledgerAfter db₀ b₁) q.command).1 := by
  have hruntime := (Tracked.of_run hdb h).runtime
  rw [runtimeEvents_append] at hruntime
  obtain ⟨q, env, b, a, hsplit, hfuture, hput, houtcome⟩ := produced_of_receive hruntime
  obtain ⟨b₁, b₂, rfl, rfl⟩ := exists_of_runtimeEvents_eq hsplit
  refine ⟨q, env, b₁, b₂, rfl, hfuture, ?_, houtcome.symm⟩
  obtain ⟨x, hx, hput⟩ := List.mem_filterMap.mp hput
  cases x <;> cases hput
  exact hx

/-- What a read returns was there to see at one of its statements. -/
theorem exists_selected_of_returned {live : Path} {db₀ : Database} (hdb : Reachable db₀)
    {s : SessionState ι κ} {j : κ} {outcome : Except PyError ReadResult}
    {before after : List (SessionEvent ι κ)}
    (h : SessionRun live db₀ (before ++ .returned j outcome :: after) s) :
    ∃ r b₁ b₂ b₃, before = b₁ ++ .called j r :: (b₂ ++ .selected j :: b₃) ∧
      outcome = r.alone (ledgerAfter db₀ (b₁ ++ .called j r :: b₂)) := by
  obtain ⟨x, y, hbefore, hstep⟩ := Traced.split h
  cases hstep with
  | read hmove =>
    cases hmove with
    | @«return» r seen _ hphase =>
      have hj := (Tracked.of_run hdb hbefore).reads j
      rw [hphase] at hj
      obtain ⟨-, hfeed, hgrowing, hseen⟩ := hj
      obtain ⟨d, hd, houtcome⟩ := RuntimeRead.exists_alone_eq hfeed hgrowing
      obtain ⟨b₁, b₂, b₃, hsplit, rfl⟩ := (hseen d hd).1
      exact ⟨r, b₁, b₂, b₃, hsplit, houtcome⟩

/-- **Every interleaving is linearizable.** -/
theorem linearizable_of_run {live : Path} {db₀ : Database} (hdb : Reachable db₀)
    {tr : List (SessionEvent ι κ)} {s : SessionState ι κ} (h : SessionRun live db₀ tr s) :
    Linearizable live db₀ tr := by
  refine ⟨?_, ?_, ?_⟩
  · intro before i outcome after htr
    exact exists_dispatch_of_receive hdb (htr ▸ h)
  · intro before j outcome after htr
    exact exists_selected_of_returned hdb (htr ▸ h)
  · have hconsistent := Consistent.of_run (Tracked.of_run hdb h).runtime
    have hinit : dispatched (runtimeEvents tr) <+: submitted (runtimeEvents tr) :=
      ⟨s.runtime.pending, hconsistent.fifo.symm⟩
    exact hconsistent.once.sublist (hinit.sublist.map _)

/-! ### What a client may rely on -/

/-- What holds of the reads and writes of one book, whoever makes them. -/
structure SessionGuarantees (tr : List (SessionEvent ι κ)) : Prop where
  /-- A read that is called after the receipt of an append has come back shows the
  transaction. -/
  readYourWrites : ∀ i j code t ctx receipt book t₁ t₂ t₃ t₄,
    tr = t₁ ++ .runtime (.receive i (.ok receipt)) :: (t₂ ++
      .called j (.getBookSnapshot code) :: (t₃ ++ .returned j (.ok (.book book)) :: t₄)) →
    .runtime (.put ⟨.appendTransaction code t ctx, i⟩) ∈ t₁ →
    ∃ x ∈ book.fields.transactions, SameTransaction t x
  /-- A read that is called after another one has returned shows at least the same
  transactions, of the same book. -/
  monotonicReads : ∀ j j' code book book' t₁ t₂ t₃ t₄,
    tr = t₁ ++ .returned j (.ok (.book book)) :: (t₂ ++
      .called j' (.getBookSnapshot code) :: (t₃ ++ .returned j' (.ok (.book book')) :: t₄)) →
    .called j (.getBookSnapshot code) ∈ t₁ →
    book.fields.transactions ⊆ book'.fields.transactions ∧
      { book'.fields with transactions := [] } = { book.fields with transactions := [] }

section

omit [DecidableEq ι] [DecidableEq κ]

theorem ledgerAfter_append (db : Database) (tr tr' : List (SessionEvent ι κ)) :
    ledgerAfter db (tr ++ tr') = ledgerAfter (ledgerAfter db tr) tr' := by
  rw [ledgerAfter, runtimeEvents_append, storeCalls_append, Call.afterAll, List.foldl_append]
  rfl

/-- The ledger grows along a run. -/
theorem run_ledgerAfter (db : Database) (tr : List (SessionEvent ι κ)) :
    ReflTransGen StoreStep db (ledgerAfter db tr) :=
  Call.run_afterAll _ _

end

omit [DecidableEq ι] [DecidableEq κ] in
theorem ledgerAfter_dispatch (live : Path) (db : Database) (tr : List (SessionEvent ι κ))
    (q : QueuedCommand ι) (env : Surroundings) :
    ledgerAfter db (tr ++ [.runtime (.dispatch q env)]) =
      (dispatchCommand env live (ledgerAfter db tr) q.command).2 := by
  rw [ledgerAfter_append, dispatchCommand_snd]
  simp [ledgerAfter, runtimeEvents, storeCalls, SessionEvent.runtime?, Event.storeCalls]

/-- A later load shows at least the same transactions, of the same book. -/
theorem loadBook_grows {db db' : Database} (hreach : Reachable db)
    (hrun : ReflTransGen StoreStep db db') {code : String} {book book' : Book}
    (hload : loadBook db.tables code = .ok book) (hload' : loadBook db'.tables code = .ok book') :
    book.fields.transactions ⊆ book'.fields.transactions ∧
      { book'.fields with transactions := [] } = { book.fields with transactions := [] } := by
  obtain ⟨σ, hσ⟩ := hreach.refines
  obtain ⟨σ', hσ', -, hext⟩ := hσ.of_run hreach.keyed hrun
  obtain ⟨b, hb, hfields⟩ := exists_stored_of_loadBook hσ hload
  obtain ⟨b', hb', hfields'⟩ := exists_stored_of_loadBook hσ' hload'
  obtain ⟨_, heq, hbext⟩ := hext code b hb
  obtain rfl := Option.some.inj (hb'.symm.trans heq)
  rw [hfields, hfields']
  refine ⟨?_, ?_⟩
  · intro x hx
    obtain ⟨y, hy, rfl⟩ := List.mem_map.mp hx
    exact List.mem_map_of_mem
      (mem_orderBy.mpr (hbext.transactions.subset (mem_orderBy.mp hy)))
  · simp only [BookFields.readBack, StoredBook.sorted, StoredBook.fields, hbext.base]

/-- A read is called once. -/
theorem eq_of_called {live : Path} {db₀ : Database} (hdb : Reachable db₀)
    {s : SessionState ι κ} {j : κ} {r r' : RuntimeRead} {b₁ b₂ c₁ c₂ : List (SessionEvent ι κ)}
    (h : SessionRun live db₀ (b₁ ++ .called j r :: b₂) s)
    (heq : b₁ ++ .called j r :: b₂ = c₁ ++ .called j r' :: c₂) : b₁ = c₁ ∧ r = r' ∧ b₂ = c₂ := by
  have hnone : ∀ {a₁ a₂ : List (SessionEvent ι κ)} {r : RuntimeRead},
      SessionRun live db₀ (a₁ ++ .called j r :: a₂) s → ∀ r, .called j r ∉ a₁ := by
    intro a₁ a₂ r ha
    obtain ⟨x, y, hbefore, hstep⟩ := Traced.split ha
    cases hstep with
    | read hmove =>
      cases hmove with
      | call r hphase =>
        have hj := (Tracked.of_run hdb hbefore).reads j
        rw [hphase] at hj
        exact hj
  have hb := hnone h
  have hc := hnone (heq ▸ h)
  rcases List.append_eq_append_iff.mp heq with ⟨a, rfl, htail⟩ | ⟨a, rfl, htail⟩
  · cases a with
    | nil =>
      rw [List.nil_append] at htail
      cases htail
      exact ⟨(List.append_nil _).symm, rfl, rfl⟩
    | cons x a =>
      cases htail
      exact (hc r (by simp)).elim
  · cases a with
    | nil =>
      rw [List.nil_append] at htail
      cases htail
      exact ⟨List.append_nil _, rfl, rfl⟩
    | cons x a =>
      cases htail
      exact (hb r' (by simp)).elim

/-- A read of a book that was called at a place in the run shows the book as it is stored at
some later place. -/
theorem exists_moment {live : Path} {db₀ : Database} (hdb : Reachable db₀)
    {s : SessionState ι κ} {j : κ} {code : String} {book : Book}
    {b₁ b₂ after : List (SessionEvent ι κ)}
    (h : SessionRun live db₀ ((b₁ ++ .called j (.getBookSnapshot code) :: b₂) ++
      .returned j (.ok (.book book)) :: after) s) :
    ∃ c₁ c₂, b₂ = c₁ ++ c₂ ∧
      loadBook (ledgerAfter db₀ (b₁ ++ .called j (.getBookSnapshot code) :: c₁)).tables code =
        .ok book := by
  obtain ⟨r, c₁, c₂, c₃, hsplit, houtcome⟩ := exists_selected_of_returned hdb h
  have hbefore : SessionRun live db₀ (b₁ ++ .called j (.getBookSnapshot code) :: b₂) _ :=
    (Traced.split h).choose_spec.choose_spec.1
  obtain ⟨rfl, rfl, rfl⟩ := eq_of_called hdb hbefore hsplit
  refine ⟨c₂, _, rfl, ?_⟩
  cases hload : loadBook (ledgerAfter db₀
      (b₁ ++ .called j (.getBookSnapshot code) :: c₂)).tables code with
  | error e =>
    rw [RuntimeRead.alone, hload] at houtcome
    cases houtcome
  | ok book' =>
    rw [RuntimeRead.alone, hload] at houtcome
    cases houtcome
    rfl

/-- The ledger after an append that has returned a receipt holds the transaction. -/
theorem exists_stored_of_receipt {live : Path} {db : Database} (hreach : Reachable db)
    {env : Surroundings} {code : String} {t : JournalTransaction} {ctx : AuditContext}
    {receipt : Receipt}
    (h : (dispatchCommand env live db (.appendTransaction code t ctx)).1 = .ok receipt) :
    ∃ σ b, Refines (dispatchCommand env live db (.appendTransaction code t ctx)).2.tables σ ∧
      σ code = some b ∧ t ∈ b.transactions := by
  obtain ⟨σ, hσ⟩ := hreach.refines
  cases hrun : appendTransaction env.world ctx code t db with
  | mk outcome db' =>
    change (resolvingWith (appendTransaction env.world ctx code t db)).1 = _ at h
    rw [hrun] at h
    cases outcome with
    | error e => cases h
    | ok r =>
      have hcall : (⟨.appendTransaction code t, ctx, env.world⟩ : Call).run db = (.ok r, db') := hrun
      obtain ⟨rows, hwrites, hadmits, -, heffect⟩ := Call.run_ok hcall
      obtain ⟨σ', hstep, hσ'⟩ := hσ.step hreach.keyed hwrites hadmits
      have hafter : (dispatchCommand env live db (.appendTransaction code t ctx)).2 = db' :=
        congrArg Prod.snd hrun
      rw [hafter, heffect.tables]
      cases hstep with
      | @append _ b _ hb ht hfresh =>
        refine ⟨_, _, hσ', Function.update_self .., ?_⟩
        rw [StoredBook.transactions_append]
        exact List.mem_append_right _ List.mem_cons_self

/-- The outcome of a write is that of its own command, executed before. -/
theorem exists_dispatch {live : Path} {db₀ : Database} (hdb : Reachable db₀)
    {s : SessionState ι κ} {i : ι} {command : RuntimeCommand} {outcome : Except PyError Receipt}
    {before after : List (SessionEvent ι κ)}
    (h : SessionRun live db₀ (before ++ .runtime (.receive i outcome) :: after) s)
    (hput : .runtime (.put ⟨command, i⟩) ∈ before) :
    ∃ env b₁ b₂, before = b₁ ++ .runtime (.dispatch ⟨command, i⟩ env) :: b₂ ∧
      outcome = (dispatchCommand env live (ledgerAfter db₀ b₁) command).1 := by
  obtain ⟨q, env, b₁, b₂, rfl, hfuture, hputq, houtcome⟩ :=
    exists_dispatch_of_receive hdb h
  -- a call puts one command on the queue
  have honce := (Consistent.of_run (Tracked.of_run hdb h).runtime).once
  have hmem : ∀ {c : QueuedCommand ι}, SessionEvent.runtime (.put c) ∈
      b₁ ++ SessionEvent.runtime (.dispatch q env) :: b₂ → c ∈ submitted (runtimeEvents
        ((b₁ ++ .runtime (.dispatch q env) :: b₂) ++ .runtime (.receive i outcome) :: after)) := by
    intro c hc
    refine mem_submitted.mpr (List.mem_filterMap.mpr ⟨_, List.mem_append_left _ hc, rfl⟩)
  have hq : q = ⟨command, i⟩ := List.inj_on_of_nodup_map honce
    (hmem (List.mem_append_left _ hputq)) (hmem hput) hfuture
  subst hq
  exact ⟨env, b₁, b₂, rfl, houtcome⟩

/-- **A client reads what it has written**, and what it reads does not go back. -/
theorem sessionGuarantees_of_run {live : Path} {db₀ : Database} (hdb : Reachable db₀)
    {tr : List (SessionEvent ι κ)} {s : SessionState ι κ} (h : SessionRun live db₀ tr s) :
    SessionGuarantees tr := by
  refine ⟨?_, ?_⟩
  · rintro i j code t ctx receipt book t₁ t₂ t₃ t₄ rfl hput
    obtain ⟨env, b₁, b₂, rfl, houtcome⟩ := exists_dispatch hdb h hput
    obtain ⟨σ, b, hσ, hb, ht⟩ :=
      exists_stored_of_receipt (hdb.trans (run_ledgerAfter db₀ b₁)) houtcome.symm
    -- the moment of the read comes after the write
    rw [show (b₁ ++ SessionEvent.runtime (.dispatch ⟨.appendTransaction code t ctx, i⟩ env) :: b₂) ++
        .runtime (.receive i (.ok receipt)) :: (t₂ ++ .called j (.getBookSnapshot code) ::
          (t₃ ++ .returned j (.ok (.book book)) :: t₄)) =
        (((b₁ ++ [.runtime (.dispatch ⟨.appendTransaction code t ctx, i⟩ env)]) ++
          (b₂ ++ .runtime (.receive i (.ok receipt)) :: t₂)) ++
          .called j (.getBookSnapshot code) :: t₃) ++
          .returned j (.ok (.book book)) :: t₄ by simp] at h
    obtain ⟨c₁, c₂, -, hload⟩ := exists_moment hdb h
    rw [List.append_assoc, ledgerAfter_append, ledgerAfter_dispatch live] at hload
    have hreach : Reachable (dispatchCommand env live (ledgerAfter db₀ b₁)
        (.appendTransaction code t ctx)).2 := by
      rw [dispatchCommand_snd]
      exact (hdb.trans (run_ledgerAfter db₀ b₁)).trans (Call.run_afterAll _ _)
    obtain ⟨σ', hσ', -, hext⟩ := hσ.of_run hreach.keyed (run_ledgerAfter _ _)
    obtain ⟨b', hb', hfields⟩ := exists_stored_of_loadBook hσ' hload
    obtain ⟨_, heq, hbext⟩ := hext code b hb
    obtain rfl := Option.some.inj (hb'.symm.trans heq)
    refine ⟨t.readBack, ?_, sameTransaction_readBack t⟩
    rw [hfields]
    exact List.mem_map_of_mem (mem_orderBy.mpr (hbext.transactions.subset ht))
  · rintro j j' code book book' t₁ t₂ t₃ t₄ rfl hcalled
    obtain ⟨a₁, a₂, rfl⟩ := List.append_of_mem hcalled
    obtain ⟨c₁, c₂, rfl, hload⟩ := exists_moment hdb h
    rw [show (a₁ ++ SessionEvent.called j (.getBookSnapshot code) :: (c₁ ++ c₂)) ++
        .returned j (.ok (.book book)) :: (t₂ ++ .called j' (.getBookSnapshot code) ::
          (t₃ ++ .returned j' (.ok (.book book')) :: t₄)) =
        (((a₁ ++ .called j (.getBookSnapshot code) :: c₁) ++
          (c₂ ++ .returned j (.ok (.book book)) :: t₂)) ++
          .called j' (.getBookSnapshot code) :: t₃) ++
          .returned j' (.ok (.book book')) :: t₄ by simp] at h
    obtain ⟨c₃, c₄, -, hload'⟩ := exists_moment hdb h
    rw [List.append_assoc, ledgerAfter_append] at hload'
    exact loadBook_grows (hdb.trans (run_ledgerAfter _ _)) (run_ledgerAfter _ _) hload hload'

/-! ### Progress -/

omit [DecidableEq ι] [DecidableEq κ] in
/-- The statements of a read are those of the read: alone they return the same. -/
theorem RuntimeRead.run_queries (r : RuntimeRead) (db : Database) : r.queries.run db = r.alone db := by
  cases r with
  | getBookSnapshot code =>
    rw [← Query.runFrom_const]
    exact runFrom_loadBookQueries code fun _ => db
  | listBookCodes => rfl
  | iterAuditLog limit => rfl

section

variable {live : Path} {db₀ : Database} {tr : List (SessionEvent ι κ)} {s : SessionState ι κ}
  {j : κ}

/-- The statements of a read that nobody disturbs. -/
theorem SessionRun.selects {r : RuntimeRead} {seen : List Database}
    (q : Query Database PyError ReadResult) (h : SessionRun live db₀ tr s)
    (hj : s.reads j = .reading r seen q) (hopen : s.runtime.storeOpen = true) :
    ∃ n seen', SessionRun live db₀ (tr ++ List.replicate n (.selected j))
      (s.goto j (.reading r seen' (.done (q.run s.runtime.db)))) := by
  induction q generalizing seen tr s with
  | done outcome =>
    refine ⟨0, seen, ?_⟩
    have hsame : s.goto j (.reading r seen (.done outcome)) = s := by
      rw [SessionState.goto, ← hj, Function.update_eq_self]
    rw [Query.run, hsame]
    simpa using h
  | select k ih =>
    obtain ⟨n, seen', hrun⟩ := ih s.runtime.db (h.snoc (.read (.select hj hopen)))
      (Function.update_self ..) hopen
    refine ⟨n + 1, seen', ?_⟩
    rw [List.replicate_succ, List.append_cons]
    simpa [SessionState.goto, Query.run] using hrun

/-- **A read that gets its lock and its answers returns** what it returns alone. -/
theorem SessionRun.read_alone (r : RuntimeRead) (h : SessionRun live db₀ tr s)
    (hnew : s.reads j = .notCalled) (hopen : s.runtime.storeOpen = true)
    (hfree : ¬ s.runtime.closer.HoldsWrite) :
    ∃ tr', SessionRun live db₀ (tr ++ .called j r :: (tr' ++
      [.returned j (r.alone s.runtime.db)])) (s.goto j .finished) := by
  have hcalled := h.snoc (.read (.call r hnew))
  have hadmitted := hcalled.snoc (.read (.acquireRead (Function.update_self ..) hfree))
  obtain ⟨n, seen, hread⟩ := SessionRun.selects r.queries hadmitted (Function.update_self ..) hopen
  have hreturned := hread.snoc (.read (.return (Function.update_self ..)))
  rw [r.run_queries] at hreturned
  refine ⟨.admitted j :: List.replicate n (.selected j), ?_⟩
  simpa [SessionState.goto, SessionRun] using hreturned

/-- The threads of the runtime go on while no read is under way. -/
theorem SessionRun.runtime {reads : κ → ReadProgress} {tr' : List (Event ι)}
    {runtime : RuntimeState ι} (hidle : ∀ j, ¬ (reads j).HoldsRead)
    (h : SessionRun live db₀ tr ⟨{ databasePath := live, db := db₀ }, reads⟩)
    (hrun : RuntimeRun live db₀ tr' runtime) :
    SessionRun live db₀ (tr ++ tr'.map .runtime) ⟨runtime, reads⟩ := by
  induction hrun with
  | nil => simpa using h
  | snoc _ hstep ih =>
    rw [List.map_append, ← List.append_assoc]
    exact ih.snoc (.runtime hstep fun _ _ => hidle)

end

end

/-! ### Evaluated -/

namespace Reference

/-- The command of a client that appends a refund. -/
def refund : QueuedCommand ℕ := ⟨.appendTransaction "BK" firstRefund auditor, 0⟩

/-- The receipt of the refund. -/
def refundReceipt : Receipt := .write (buildWriteReceipt (transactionRows "BK" firstRefund))

/-- The client has its receipt. -/
def refundEvents : List (Event ℕ) :=
  [] ++ submitEvents refund ++ serveEvents refund calm ++ [.receive 0 (.ok refundReceipt)]

theorem run_refundEvents : ∃ s : RuntimeState ℕ, RuntimeRun ledgerFile saleStored refundEvents s ∧
    s.storeOpen = true ∧ s.closer = .notCalled ∧ s.db = refundStored := by
  have hinit : RuntimeRun ledgerFile saleStored []
      ({ databasePath := ledgerFile, db := saleStored } : RuntimeState ℕ) := .nil
  have hserved := (hinit.submit refund rfl id).serve calm rfl rfl rfl rfl
  exact ⟨_, hserved.snoc (.call (.receive (i := 0) rfl rfl)), rfl, rfl, rfl⟩

/-- What a read of the book shows of a database. -/
def shown (db : Database) : Except PyError ReadResult := (loadBook db.tables "BK").map .book

/-- What has happened when two clients have read the book, a third one has its receipt, and a
fourth one has read the book after that. -/
def readsThenWrite (before reading : List (SessionEvent ℕ ℕ)) : List (SessionEvent ℕ ℕ) :=
  before ++ .runtime (.receive 0 (.ok refundReceipt)) :: ([] ++
    .called 2 (.getBookSnapshot "BK") :: (reading ++ .returned 2 (shown refundStored) :: []))

theorem exists_readsThenWrite : ∃ (before reading : List (SessionEvent ℕ ℕ))
    (s : SessionState ℕ ℕ), SessionRun ledgerFile saleStored (readsThenWrite before reading) s ∧
      .runtime (.put refund) ∈ before ∧ ∀ j ∈ [0, 1], .returned j (shown saleStored) ∈ before := by
  let start : SessionState ℕ ℕ := { runtime := { databasePath := ledgerFile, db := saleStored } }
  have hstart : SessionRun ledgerFile saleStored [] start := .nil
  obtain ⟨t₀, h₀⟩ := hstart.read_alone (j := 0) (.getBookSnapshot "BK") rfl rfl id
  obtain ⟨t₁, h₁⟩ := h₀.read_alone (j := 1) (.getBookSnapshot "BK") rfl rfl id
  have hidle : ∀ j, ¬ (((start.goto 0 .finished).goto 1 .finished).reads j).HoldsRead := by
    intro j
    simp only [SessionState.goto, Function.update_apply]
    split_ifs <;> exact id
  obtain ⟨runtime, hserved, hopen, hcloser, hdb⟩ := run_refundEvents
  have hwritten := SessionRun.runtime hidle h₁ hserved
  obtain ⟨t₂, h₂⟩ := hwritten.read_alone (j := 2) (.getBookSnapshot "BK") rfl hopen
    (by rw [hcloser]; exact id)
  rw [show ((⟨runtime, _⟩ : SessionState ℕ ℕ).runtime.db) = refundStored from hdb] at h₂
  -- the two reads, and the write up to its receipt
  let read (j : ℕ) (t : List (SessionEvent ℕ ℕ)) : List (SessionEvent ℕ ℕ) :=
    .called j (.getBookSnapshot "BK") :: (t ++ [.returned j (shown saleStored)])
  refine ⟨read 0 t₀ ++ read 1 t₁ ++
    (submitEvents refund ++ serveEvents refund calm).map .runtime, t₂,
    SessionState.goto ⟨runtime, ((start.goto 0 .finished).goto 1 .finished).reads⟩ 2 .finished,
    ?_, ?_, ?_⟩
  · have hsame : readsThenWrite (read 0 t₀ ++ read 1 t₁ ++
        (submitEvents refund ++ serveEvents refund calm).map .runtime) t₂ =
        [] ++ read 0 t₀ ++ read 1 t₁ ++ refundEvents.map .runtime ++
          .called 2 (.getBookSnapshot "BK") :: (t₂ ++ [.returned 2 (shown refundStored)]) := by
      simp [readsThenWrite, refundEvents]
    rw [hsame]
    exact h₂
  · simp [submitEvents]
  · intro j hj
    rcases List.mem_cons.mp hj with rfl | hj
    · simp [read]
    · obtain rfl := List.mem_singleton.mp hj
      simp [read]

theorem linearizable_readsThenWrite : ∃ before reading,
    (∀ j ∈ [0, 1], .returned j (shown saleStored) ∈ before) ∧
      Linearizable ledgerFile saleStored (readsThenWrite before reading) := by
  obtain ⟨before, reading, s, hrun, -, hreturned⟩ := exists_readsThenWrite
  have hreach : Reachable saleStored := Reachable.empty.after _
  exact ⟨before, reading, hreturned, linearizable_of_run hreach hrun⟩

/-- The book that is read after the receipt has the refund. -/
theorem sessionGuarantees_readsThenWrite : ∃ before reading,
    (∀ j ∈ [0, 1], .returned j (shown saleStored) ∈ before) ∧
      SessionGuarantees (readsThenWrite before reading) ∧
      ∃ book, loadBook refundStored.tables "BK" = .ok book ∧
        ∃ x ∈ book.fields.transactions, SameTransaction firstRefund x := by
  obtain ⟨before, reading, s, hrun, hput, hreturned⟩ := exists_readsThenWrite
  have hreach : Reachable saleStored := Reachable.empty.after _
  have hguarantees := sessionGuarantees_of_run hreach hrun
  have hload : (loadBook refundStored.tables "BK").toOption.isSome = true := by rfl
  refine ⟨before, reading, hreturned, hguarantees, ?_⟩
  cases hbook : loadBook refundStored.tables "BK" with
  | error e =>
    rw [hbook] at hload
    cases hload
  | ok book =>
    have hread : readsThenWrite before reading = before ++
        .runtime (.receive 0 (.ok refundReceipt)) :: ([] ++
          .called 2 (.getBookSnapshot "BK") :: (reading ++ .returned 2 (.ok (.book book)) :: [])) := by
      rw [readsThenWrite, shown, hbook]
      rfl
    exact ⟨book, rfl, hguarantees.readYourWrites 0 2 "BK" firstRefund auditor refundReceipt book
      before [] reading [] hread hput⟩

end Reference

end FinestVX
