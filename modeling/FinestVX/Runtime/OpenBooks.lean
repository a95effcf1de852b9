import FinestVX.Runtime.BookCreation
import FinestVX.Persistence.Aggregate

/-!
# The open books

The calls of a `MultiBookRuntime`, one after the other.  A call for a book finds the runtime
of the book in the table, and this one works on the database it was started on.  A book that
is closed and opened again has the same database; two books may have one database in common.

## Main definitions

* `requireRuntime`, `openBookRuntime`, `closeBookRuntime`, `closeRuntimes` — the table of the
  open books.
* `MultiBookCall` — the calls.
* `MultiBookCall.Commits`, `committed` — the operations that the calls of a run commit.
* `Served` — what is read of an open book.

## Main results

* `Filed.run` — what every call keeps of the table and of the databases.
* `served_of_run` — **an open book is the one in memory**, whatever has been opened and closed.
-/

namespace FinestVX

open Except

section

variable [Platform]

/-! ### The calls -/

/-- The database of a book. -/
def bookFile (cwd : List String) (config : MultiBookRuntimeConfig) (code : String) : Path :=
  fileAt cwd (databasePath config code)

/-- `Path.exists`: everything on the way is there; the root is. -/
def OnDisk (cwd : List String) (p : PurePath) (entries : List Path) : Prop :=
  ∀ q ∈ trail cwd p, q = ⟨[], ""⟩ ∨ q ∈ entries

instance (cwd : List String) (p : PurePath) (entries : List Path) :
    Decidable (OnDisk cwd p entries) :=
  inferInstanceAs (Decidable (∀ q ∈ trail cwd p, _))

/-- `MultiBookRuntime._require_runtime`: the database of the runtime. -/
def requireRuntime (lockFault : Option PyError) (code : String) : DiskProcedure Path := do
  let _ ← Procedure.lift (raising lockFault)
  let s ← Procedure.read
  match s.table.get? code with
  | some p => return p
  | none => Procedure.raise (.keyError s!"No open book: {strRepr code}")

/-- What the environment does while a book is opened. -/
structure OpeningWorld where
  lockFault : Option PyError := none
  opening : Making := .done

/-- `MultiBookRuntime.open_book` -/
def openBookRuntime (cwd : List String) (config : MultiBookRuntimeConfig) (w : OpeningWorld)
    (code : String) : DiskProcedure Unit := do
  let _ ← Procedure.lift (requireNonEmptyStr code "book_code")
  let _ ← Procedure.lift (raising w.lockFault)
  let s ← Procedure.read
  if code ∈ s.table.keys then
    return ()
  else if OnDisk cwd (databasePath config code) s.entries then
    let c ← Procedure.lift (runtimeConfigFor config code)
    startRuntime cwd c w.opening
    Procedure.modify fun s => { s with table := s.table.set code (fileAt cwd c.databasePath) }
  else
    Procedure.raise (.keyError s!"No database file for book {strRepr code}")

/-- What becomes of a runtime that is closed: what is raised, and whether its writer stops. -/
structure ShutdownWorld where
  fault : Option PyError := none
  stops : Bool := true

/-- `LedgerRuntime.close` -/
def closeRuntime (w : ShutdownWorld) (p : Path) : DiskProcedure Unit := do
  Procedure.modify fun s => if w.stops then { s with running := s.running.erase p } else s
  Procedure.lift (raising w.fault)

/-- What the environment does while a book is closed. -/
structure ClosingWorld where
  lockFault : Option PyError := none
  shutdown : ShutdownWorld := {}

/-- `MultiBookRuntime.close_book` -/
def closeBookRuntime (w : ClosingWorld) (code : String) : DiskProcedure Unit := do
  let _ ← Procedure.lift (requireNonEmptyStr code "book_code")
  let _ ← Procedure.lift (raising w.lockFault)
  let s ← Procedure.read
  match s.table.get? code with
  | none => return ()
  | some p =>
    Procedure.modify fun s => { s with table := s.table.erase code }
    closeRuntime w.shutdown p

/-- Close some runtimes, up to the first one that raises. -/
def closeEach (shutdown : String → ShutdownWorld) : Dict String Path → DiskProcedure Unit
  | [] => return ()
  | (code, p) :: runtimes => do
    closeRuntime (shutdown code) p
    closeEach shutdown runtimes

/-- `MultiBookRuntime.close` -/
def closeRuntimes (lockFault : Option PyError) (shutdown : String → ShutdownWorld) :
    DiskProcedure Unit := do
  let _ ← Procedure.lift (raising lockFault)
  let s ← Procedure.read
  Procedure.modify fun s => { s with table := [] }
  closeEach shutdown s.table

/-- What the environment does during a call for an open book. -/
structure WriteWorld where
  lockFault : Option PyError := none
  submission : Submission

/-- A write through the runtime of an open book. -/
def writeThrough (w : WriteWorld) (ctx : AuditContext) (op : Op) :
    DiskProcedure StoreWriteReceipt := do
  let p ← requireRuntime w.lockFault op.bookCode
  submitTo p w.submission op ctx

/-- `MultiBookRuntime.append_transaction` -/
def appendTransactionThrough (w : WriteWorld) (ctx : AuditContext) (code : String)
    (t : JournalTransaction) : DiskProcedure StoreWriteReceipt :=
  writeThrough w ctx (.appendTransaction code t)

/-- `MultiBookRuntime.create_reversal` -/
def createReversalThrough (w : WriteWorld) (ctx : AuditContext)
    (code originalRef reversalRef : String) : DiskProcedure StoreWriteReceipt :=
  writeThrough w ctx (.appendReversal code originalRef reversalRef)

/-- `MultiBookRuntime.append_legislative_result` -/
def appendLegislativeResultThrough (w : WriteWorld) (ctx : AuditContext) (code reference : String)
    (result : LegislativeValidationResult) : DiskProcedure StoreWriteReceipt :=
  writeThrough w ctx (.appendLegislativeResult code reference result)

/-- `MultiBookRuntime.get_book` -/
def getBookThrough (lockFault readFault : Option PyError) (code : String) :
    DiskProcedure Book := do
  let p ← requireRuntime lockFault code
  let s ← Procedure.read
  let _ ← Procedure.lift (raising readFault)
  Procedure.lift (loadBook (s.databases p).tables code)

/-- A call of the runtime that may change something. -/
inductive MultiBookCall
  | createBook (w : CreationWorld) (ctx : AuditContext) (book : Book)
  | openBook (w : OpeningWorld) (code : String)
  | closeBook (w : ClosingWorld) (code : String)
  | appendTransaction (w : WriteWorld) (ctx : AuditContext) (code : String)
      (t : JournalTransaction)
  | createReversal (w : WriteWorld) (ctx : AuditContext) (code originalRef reversalRef : String)
  | appendLegislativeResult (w : WriteWorld) (ctx : AuditContext) (code reference : String)
      (result : LegislativeValidationResult)
  | close (lockFault : Option PyError) (shutdown : String → ShutdownWorld)

namespace MultiBookCall

/-- Execute a call. -/
def run (cwd : List String) (config : MultiBookRuntimeConfig) :
    MultiBookCall → DiskProcedure Unit
  | createBook w ctx book => (createBookRuntime cwd config w book ctx).discard
  | openBook w code => openBookRuntime cwd config w code
  | closeBook w code => closeBookRuntime w code
  | appendTransaction w ctx code t => (appendTransactionThrough w ctx code t).discard
  | createReversal w ctx code o r => (createReversalThrough w ctx code o r).discard
  | appendLegislativeResult w ctx code reference result =>
    (appendLegislativeResultThrough w ctx code reference result).discard
  | close lockFault shutdown => closeRuntimes lockFault shutdown

/-- The runtime and the disk after a call. -/
def after (cwd : List String) (config : MultiBookRuntimeConfig) (c : MultiBookCall)
    (s : MultiBookDisk) : MultiBookDisk :=
  ((c.run cwd config).run s).2

/-- The runtime and the disk after some calls. -/
def afterAll (cwd : List String) (config : MultiBookRuntimeConfig) (calls : List MultiBookCall)
    (s : MultiBookDisk) : MultiBookDisk :=
  calls.foldl (fun s c => c.after cwd config s) s

end MultiBookCall

/-! ### What is committed -/

/-- The runtime of an open book commits an operation. -/
def WriteWorld.Commits (w : WriteWorld) (ctx : AuditContext) (op : Op) (s : MultiBookDisk) : Prop :=
  w.lockFault = none ∧ ∃ p, s.table.get? op.bookCode = some p ∧
    w.submission.Commits op ctx (s.databases p)

namespace MultiBookCall

/-- The operation that the call hands to a runtime. -/
def op : MultiBookCall → Option Op
  | createBook _ _ book => some (.createBook book)
  | appendTransaction _ _ code t => some (.appendTransaction code t)
  | createReversal _ _ code o r => some (.appendReversal code o r)
  | appendLegislativeResult _ _ code reference result =>
    some (.appendLegislativeResult code reference result)
  | _ => none

/-- The operation of the call is committed. -/
def Commits (cwd : List String) (config : MultiBookRuntimeConfig) (s : MultiBookDisk) :
    MultiBookCall → Prop
  | createBook w ctx book => Starts config w book s ∧
    w.submission.Commits (.createBook book) ctx (s.databases (bookFile cwd config book.code))
  | appendTransaction w ctx code t => w.Commits ctx (.appendTransaction code t) s
  | createReversal w ctx code o r => w.Commits ctx (.appendReversal code o r) s
  | appendLegislativeResult w ctx code reference result =>
    w.Commits ctx (.appendLegislativeResult code reference result) s
  | _ => False

end MultiBookCall

open Classical in
/-- The operations that the calls commit, in order. -/
noncomputable def committed (cwd : List String) (config : MultiBookRuntimeConfig) :
    List MultiBookCall → MultiBookDisk → List Op
  | [], _ => []
  | c :: calls, s =>
    (if c.Commits cwd config s then c.op.toList else []) ++
      committed cwd config calls (c.after cwd config s)

/-! ### What the calls keep -/

/-- Nothing is written to a database, nothing is removed, and a book that is opened has its
file. -/
structure Quiet (cwd : List String) (config : MultiBookRuntimeConfig) (s t : MultiBookDisk) :
    Prop where
  databases : t.databases = s.databases
  entries : s.entries ⊆ t.entries
  table : ∀ code p, t.table.get? code = some p →
    s.table.get? code = some p ∨ p = bookFile cwd config code ∧ p ∈ t.entries

/-- Every open book has its file, and every database is what the operations of its books have
made of it. -/
structure Filed (cwd : List String) (config : MultiBookRuntimeConfig) (ops : List Op)
    (s : MultiBookDisk) : Prop where
  table : ∀ code p, s.table.get? code = some p → p = bookFile cwd config code ∧ p ∈ s.entries
  stored : ∀ p, ∃ calls, s.databases p = Call.afterAll calls {} ∧
    returned calls {} = ops.filter fun op => bookFile cwd config op.bookCode = p

variable {cwd : List String} {config : MultiBookRuntimeConfig} {s t : MultiBookDisk}
  {ops : List Op}

omit [Platform] in
theorem Quiet.refl (s : MultiBookDisk) : Quiet cwd config s s :=
  ⟨rfl, fun _ h => h, fun _ _ h => .inl h⟩

omit [Platform] in
theorem Quiet.trans (s t u : MultiBookDisk) (h : Quiet cwd config s t)
    (h' : Quiet cwd config t u) : Quiet cwd config s u := by
  refine ⟨h'.databases.trans h.databases, fun _ hp => h'.entries (h.entries hp), ?_⟩
  intro code p hp
  rcases h'.table code p hp with hp | hp
  · rcases h.table code p hp with hp | ⟨hfile, hentry⟩
    · exact .inl hp
    · exact .inr ⟨hfile, h'.entries hentry⟩
  · exact .inr hp

theorem Filed.of_quiet (h : Filed cwd config ops s) (hquiet : Quiet cwd config s t) :
    Filed cwd config ops t := by
  constructor
  · intro code p hp
    rcases hquiet.table code p hp with hp | hp
    · obtain ⟨hfile, hentry⟩ := h.table code p hp
      exact ⟨hfile, hquiet.entries hentry⟩
    · exact hp
  · rw [hquiet.databases]
    exact h.stored

/-- One more operation is committed to the database of its book. -/
theorem Filed.commit (h : Filed cwd config ops s) {c : Call} {p : Path}
    (hp : p = bookFile cwd config c.op.bookCode) (hreturns : c.Returns (s.databases p)) :
    Filed cwd config (ops ++ [c.op])
      { s with databases := Function.update s.databases p (c.after (s.databases p)) } := by
  refine ⟨h.table, fun q => ?_⟩
  obtain ⟨calls, hdb, hreturned⟩ := h.stored q
  show ∃ calls, Function.update s.databases p (c.after (s.databases p)) q = _ ∧ _
  by_cases hq : q = p
  · subst hq
    refine ⟨calls ++ [c], ?_, ?_⟩
    · rw [Function.update_self, hdb, Call.afterAll, Call.afterAll, List.foldl_append]
      rfl
    · rw [returned_append, ← hdb, hreturns.returned, hreturned, List.filter_append]
      simp [hp]
  · refine ⟨calls, by rwa [Function.update_of_ne hq], ?_⟩
    rw [hreturned, List.filter_append]
    simp [← hp, Ne.symm hq]

/-! ### The table -/

omit [Platform] in
theorem mem_foldl_addEntry {made entries : List Path} {q : Path} :
    q ∈ made.foldl addEntry entries ↔ q ∈ entries ∨ q ∈ made := by
  induction made generalizing entries with
  | nil => simp
  | cons p made ih =>
    rw [List.foldl_cons, ih, mem_addEntry, List.mem_cons]
    tauto

omit [Platform] in
/-- The file of a book is the last one on the way to it. -/
theorem bookFile_mem_trail (cwd : List String) (config : MultiBookRuntimeConfig) (code : String) :
    bookFile cwd config code ∈ trail cwd (databasePath config code) := by
  have hparts : (databasePath config code).parts ≠ [] :=
    PurePath.parts_join_append_ne_nil _ code (by decide) ⟨'s', by decide, by decide⟩
  refine List.mem_map.mpr ⟨(databasePath config code).parts, ?_, rfl⟩
  cases hcase : (databasePath config code).parts with
  | nil => exact (hparts hcase).elim
  | cons part parts => simp

/-- Starting a runtime and entering it in the table. -/
theorem quiet_enter {c : RuntimeConfig} {code : String} (opening : Making)
    (hc : runtimeConfigFor config code = .ok c) :
    Procedure.Keeps (Quiet cwd config) (do
      startRuntime cwd c opening
      Procedure.modify fun s =>
        { s with table := s.table.set code (fileAt cwd c.databasePath) } : DiskProcedure Unit) := by
  have hpath : c.databasePath = databasePath config code :=
    congrArg RuntimeConfig.databasePath (RuntimeConfig.postInit_eq_ok.mp hc).1
  intro s
  rcases run_startRuntime cwd c opening s with ⟨-, hrun⟩ | ⟨-, e, hrun⟩
  · rw [Procedure.run_bind_of_ok hrun, hpath]
    refine ⟨rfl, fun q hq => mem_foldl_addEntry.mpr (.inl hq), ?_⟩
    intro code' p hp
    change (s.table.set code (bookFile cwd config code)).get? code' = some p at hp
    rw [Dict.get?_set] at hp
    split at hp
    · next heq =>
      cases hp
      subst heq
      exact .inr ⟨rfl, mem_foldl_addEntry.mpr (.inr (bookFile_mem_trail cwd config code))⟩
    · exact .inl hp
  · rw [Procedure.run_bind_of_error hrun]
    exact ⟨rfl, fun q hq => mem_foldl_addEntry.mpr (.inl hq), fun _ _ hp => .inl hp⟩

/-- Opening a book. -/
theorem quiet_openBookRuntime (w : OpeningWorld) (code : String) :
    Procedure.Keeps (Quiet cwd config) (openBookRuntime cwd config w code) := by
  have hlift : ∀ {α : Type} (x : Except PyError α),
      Procedure.Keeps (Quiet cwd config) (Procedure.lift x) :=
    fun x => Procedure.keeps_lift Quiet.refl x
  refine Procedure.keeps_bind Quiet.trans (hlift _) fun _ _ => ?_
  refine Procedure.keeps_bind Quiet.trans (hlift _) fun _ _ => ?_
  refine Procedure.keeps_bind Quiet.trans (Procedure.keeps_read Quiet.refl) fun s _ => ?_
  refine Procedure.keeps_ite (fun _ => Procedure.keeps_pure Quiet.refl _) fun _ => ?_
  refine Procedure.keeps_ite (fun _ => ?_) fun _ => Procedure.keeps_raise Quiet.refl _
  refine Procedure.keeps_bind Quiet.trans (hlift _) fun c hc => ?_
  obtain ⟨_, hc⟩ := hc
  exact quiet_enter w.opening hc

omit [Platform] in
theorem quiet_closeRuntime (w : ShutdownWorld) (p : Path) :
    Procedure.Keeps (Quiet cwd config) (closeRuntime w p) := by
  refine Procedure.keeps_bind Quiet.trans ?_ fun _ _ => Procedure.keeps_lift Quiet.refl _
  refine Procedure.keeps_modify fun s => ?_
  split
  · exact ⟨rfl, fun _ h => h, fun _ _ h => .inl h⟩
  · exact Quiet.refl s

omit [Platform] in
theorem quiet_closeEach (shutdown : String → ShutdownWorld) (runtimes : Dict String Path) :
    Procedure.Keeps (Quiet cwd config) (closeEach shutdown runtimes) := by
  induction runtimes with
  | nil => exact Procedure.keeps_pure Quiet.refl _
  | cons entry runtimes ih =>
    exact Procedure.keeps_bind Quiet.trans (quiet_closeRuntime _ _) fun _ _ => ih

/-- Closing a book. -/
theorem quiet_closeBookRuntime (w : ClosingWorld) (code : String) :
    Procedure.Keeps (Quiet cwd config) (closeBookRuntime w code) := by
  have hlift : ∀ {α : Type} (x : Except PyError α),
      Procedure.Keeps (Quiet cwd config) (Procedure.lift x) :=
    fun x => Procedure.keeps_lift Quiet.refl x
  refine Procedure.keeps_bind Quiet.trans (hlift _) fun _ _ => ?_
  refine Procedure.keeps_bind Quiet.trans (hlift _) fun _ _ => ?_
  refine Procedure.keeps_bind Quiet.trans (Procedure.keeps_read Quiet.refl) fun s _ => ?_
  cases s.table.get? code with
  | none => exact Procedure.keeps_pure Quiet.refl _
  | some p =>
    refine Procedure.keeps_bind Quiet.trans ?_ fun _ _ => quiet_closeRuntime _ p
    refine Procedure.keeps_modify fun s => ⟨rfl, fun _ h => h, fun code' q hq => ?_⟩
    change (s.table.erase code).get? code' = some q at hq
    rw [Dict.get?_erase] at hq
    split at hq
    · cases hq
    · exact .inl hq

omit [Platform] in
/-- Closing all books. -/
theorem quiet_closeRuntimes (lockFault : Option PyError) (shutdown : String → ShutdownWorld) :
    Procedure.Keeps (Quiet cwd config) (closeRuntimes lockFault shutdown) := by
  refine Procedure.keeps_bind Quiet.trans (Procedure.keeps_lift Quiet.refl _) fun _ _ => ?_
  refine Procedure.keeps_bind Quiet.trans (Procedure.keeps_read Quiet.refl) fun s _ => ?_
  refine Procedure.keeps_bind Quiet.trans ?_ fun _ _ => quiet_closeEach shutdown _
  refine Procedure.keeps_modify fun s => ⟨rfl, fun _ h => h, fun code p hp => ?_⟩
  cases hp

/-! ### The databases -/

/-- What a submission makes of the database of its book. -/
theorem Filed.submit (h : Filed cwd config ops s) (submission : Submission) (ctx : AuditContext)
    {op : Op} {p : Path} (hp : p = bookFile cwd config op.bookCode) :
    (submission.Commits op ctx (s.databases p) → Filed cwd config (ops ++ [op])
      ((submitTo p submission op ctx).run s).2) ∧
    (¬ submission.Commits op ctx (s.databases p) → Filed cwd config ops
      ((submitTo p submission op ctx).run s).2) := by
  constructor
  · intro hcommits
    obtain ⟨w, hreturns, hafter⟩ := Submission.after_of_commits hcommits
    have hfiled := h.commit (c := ⟨op, ctx, w⟩) hp hreturns
    rw [← hafter] at hfiled
    exact hfiled
  · intro hnot
    obtain ⟨e, hrun⟩ := Submission.run_submit_of_not_commits hnot
    have hsame : ((submitTo p submission op ctx).run s).2 = s := by
      have hdb := congrArg (Function.update s.databases p) (congrArg Prod.snd hrun)
      rw [Function.update_eq_self] at hdb
      exact congrArg (fun databases => { s with databases := databases }) hdb
    rwa [hsame]

/-- The runtime of a book is found when the lock is, and the book is in the table. -/
theorem run_requireRuntime (lockFault : Option PyError) (code : String) (s : MultiBookDisk) :
    (∃ p, lockFault = none ∧ s.table.get? code = some p ∧
      (requireRuntime lockFault code).run s = (.ok p, s)) ∨
    ((lockFault = none → s.table.get? code = none) ∧
      ∃ e, (requireRuntime lockFault code).run s = (.error e, s)) := by
  cases lockFault with
  | some e => exact .inr ⟨fun h => (Option.some_ne_none e h).elim, e, rfl⟩
  | none =>
    rw [requireRuntime, Procedure.run_bind_of_ok rfl, Procedure.run_bind_of_ok rfl]
    cases s.table.get? code with
    | none => exact .inr ⟨fun _ => rfl, _, rfl⟩
    | some p => exact .inl ⟨p, rfl, rfl, rfl⟩

/-- A write through the runtime of an open book. -/
theorem Filed.writeThrough (h : Filed cwd config ops s) {w : WriteWorld} {ctx : AuditContext}
    {op : Op} :
    (w.Commits ctx op s →
      Filed cwd config (ops ++ [op]) ((FinestVX.writeThrough w ctx op).discard.run s).2) ∧
    (¬ w.Commits ctx op s →
      Filed cwd config ops ((FinestVX.writeThrough w ctx op).discard.run s).2) := by
  rw [Procedure.snd_run_discard]
  rcases run_requireRuntime w.lockFault op.bookCode s with ⟨p, hlock, hget, hrun⟩ |
    ⟨hnone, e, hrun⟩
  · rw [FinestVX.writeThrough, Procedure.run_bind_of_ok hrun]
    obtain ⟨hmade, hnotMade⟩ := h.submit w.submission ctx (h.table _ p hget).1
    constructor
    · rintro ⟨-, q, hq, hcommits⟩
      cases hget.symm.trans hq
      exact hmade hcommits
    · intro hnot
      exact hnotMade fun hcommits => hnot ⟨hlock, p, hget, hcommits⟩
  · rw [FinestVX.writeThrough, Procedure.run_bind_of_error hrun]
    refine ⟨?_, fun _ => h⟩
    rintro ⟨hlock, p, hp, -⟩
    cases (hnone hlock).symm.trans hp

/-- A write that returns is committed. -/
theorem WriteWorld.commits_of_succeeds {w : WriteWorld} {ctx : AuditContext} {op : Op}
    (h : ((writeThrough w ctx op).discard.run s).1.Succeeds) : w.Commits ctx op s := by
  obtain ⟨receipt, t, hwrite, -⟩ := Procedure.succeeds_bind.mp h
  obtain ⟨p, u, hrequire, hsubmit⟩ := Procedure.run_bind_eq_ok.mp hwrite
  rcases run_requireRuntime w.lockFault op.bookCode s with ⟨q, hlock, hget, hrun⟩ | ⟨-, e, hrun⟩
  · refine ⟨hlock, q, hget, ?_⟩
    cases hrun.symm.trans hrequire
    exact (Submission.submit_succeeds_iff.mp ⟨receipt, congrArg Prod.fst hsubmit⟩).2
  · cases hrun.symm.trans hrequire

/-- A call that starts a runtime for a book hands it the book. -/
theorem Filed.start (h : Filed cwd config ops s) {w : CreationWorld} (ctx : AuditContext)
    {book : Book} (hstarts : Starts config w book s) : ∃ t, Filed cwd config ops t ∧
      t.databases = s.databases ∧ Quiet cwd config
        ((submitTo (bookFile cwd config book.code) w.submission (.createBook book) ctx).run t).2
        ((createBookRuntime cwd config w book ctx).run s).2 := by
  obtain ⟨c, hconfig⟩ := hstarts.config
  have hpath : c.databasePath = databasePath config book.code :=
    congrArg RuntimeConfig.databasePath (RuntimeConfig.postInit_eq_ok.mp hconfig).1
  rw [run_of_begins cwd config ctx hstarts.begins]
  rcases run_make (trail cwd config.fields.dataDirectory) w.mkdir s with
    ⟨-, hrun⟩ | ⟨hfailed, -⟩
  swap
  · exact (hfailed hstarts.mkdir).elim
  rw [Procedure.run_bind_of_ok hrun, hconfig, Procedure.run_bind_of_ok (Procedure.run_lift _ _)]
  rcases run_startRuntime cwd c w.opening
      { s with entries := (trail cwd config.fields.dataDirectory).foldl addEntry s.entries } with
    ⟨-, hopening⟩ | ⟨hfailed, -⟩
  swap
  · exact (hfailed hstarts.opening).elim
  rw [Procedure.run_bind_of_ok hopening, hpath]
  -- the runtime runs; its write is what is left
  generalize ht : MultiBookDisk.mk _ _ _ _ = t
  have hquiet : Quiet cwd config s t := by
    rw [← ht]
    refine ⟨rfl, fun q hq => ?_, fun _ _ hp => .inl hp⟩
    exact mem_foldl_addEntry.mpr (.inl (mem_foldl_addEntry.mpr (.inl hq)))
  have hentry : bookFile cwd config book.code ∈ t.entries := by
    rw [← ht]
    exact mem_foldl_addEntry.mpr (.inr (bookFile_mem_trail cwd config book.code))
  refine ⟨t, h.of_quiet hquiet, hquiet.databases, ?_⟩
  change Quiet cwd config _ ((submitTo (bookFile cwd config book.code) _ _ _ >>= _).run t).2
  cases hsubmit : (submitTo (bookFile cwd config book.code) w.submission (.createBook book)
      ctx).run t with
  | mk outcome u =>
    have hentries : u.entries = t.entries := by
      have := congrArg (fun r => r.2.entries) hsubmit
      exact this.symm
    cases outcome with
    | error e =>
      rw [Procedure.run_bind_of_error hsubmit]
      exact Quiet.refl u
    | ok receipt =>
      rw [Procedure.run_bind_of_ok hsubmit]
      refine ⟨rfl, fun _ hq => hq, fun code p hp => ?_⟩
      change (u.table.set book.code (bookFile cwd config book.code)).get? code = some p at hp
      rw [Dict.get?_set] at hp
      split at hp
      · next heq =>
        cases hp
        subst heq
        exact .inr ⟨rfl, hentries ▸ hentry⟩
      · exact .inl hp

/-- Creating a book. -/
theorem Filed.createBook (h : Filed cwd config ops s) (w : CreationWorld) (ctx : AuditContext)
    (book : Book) :
    ((MultiBookCall.createBook w ctx book).Commits cwd config s →
      Filed cwd config (ops ++ [.createBook book])
        ((createBookRuntime cwd config w book ctx).discard.run s).2) ∧
    (¬ (MultiBookCall.createBook w ctx book).Commits cwd config s →
      Filed cwd config ops ((createBookRuntime cwd config w book ctx).discard.run s).2) := by
  rw [Procedure.snd_run_discard]
  by_cases hstarts : Starts config w book s
  · obtain ⟨t, ht, hdatabases, hquiet⟩ := h.start ctx hstarts
    obtain ⟨hmade, hnotMade⟩ := ht.submit w.submission ctx
      (show bookFile cwd config book.code = bookFile cwd config (Op.createBook book).bookCode
        from rfl)
    rw [hdatabases] at hmade hnotMade
    exact ⟨fun hcommits => (hmade hcommits.2).of_quiet hquiet,
      fun hnot => (hnotMade fun hcommits => hnot ⟨hstarts, hcommits⟩).of_quiet hquiet⟩
  · refine ⟨fun hcommits => (hstarts hcommits.1).elim, fun _ => ?_⟩
    by_cases hbegins : Begins w book s
    · obtain ⟨e, hrun⟩ := run_of_not_starts cwd config ctx hbegins hstarts
      rw [hrun]
      exact h.of_quiet ⟨rfl, fun _ hq => mem_foldl_addEntry.mpr (.inl hq), fun _ _ hp => .inl hp⟩
    · obtain ⟨e, hrun⟩ := run_of_not_begins cwd config ctx hbegins
      rwa [hrun]

/-- **What every call keeps** of the table and of the databases. -/
theorem Filed.run (h : Filed cwd config ops s) (c : MultiBookCall) :
    (c.Commits cwd config s → Filed cwd config (ops ++ c.op.toList) (c.after cwd config s)) ∧
    (¬ c.Commits cwd config s → Filed cwd config ops (c.after cwd config s)) := by
  have hquiet : ∀ {m : DiskProcedure Unit}, Procedure.Keeps (Quiet cwd config) m →
      Filed cwd config ops (m.run s).2 := fun hm => h.of_quiet (hm s)
  cases c with
  | createBook w ctx book => exact h.createBook w ctx book
  | openBook w code => exact ⟨False.elim, fun _ => hquiet (quiet_openBookRuntime w code)⟩
  | closeBook w code => exact ⟨False.elim, fun _ => hquiet (quiet_closeBookRuntime w code)⟩
  | appendTransaction w ctx code t => exact h.writeThrough
  | createReversal w ctx code o r => exact h.writeThrough
  | appendLegislativeResult w ctx code reference result => exact h.writeThrough
  | close lockFault shutdown =>
    exact ⟨False.elim, fun _ => hquiet (quiet_closeRuntimes lockFault shutdown)⟩

/-- What a run keeps, by the calls of the run. -/
theorem Filed.runAll (h : Filed cwd config ops s) (calls : List MultiBookCall) :
    Filed cwd config (ops ++ committed cwd config calls s)
      (MultiBookCall.afterAll cwd config calls s) := by
  induction calls generalizing ops s with
  | nil => rwa [committed, List.append_nil]
  | cons c calls ih =>
    obtain ⟨hmade, hnotMade⟩ := h.run c
    rw [committed, ← List.append_assoc]
    apply ih
    split
    · next hcommits => exact hmade hcommits
    · next hnot => rw [List.append_nil]; exact hnotMade hnot

/-- A call that returns has committed its operation. -/
theorem MultiBookCall.commits_of_succeeds {c : MultiBookCall} (hop : c.op ≠ none)
    (h : ((c.run cwd config).run s).1.Succeeds) : c.Commits cwd config s := by
  cases c with
  | createBook w ctx book =>
    obtain ⟨receipt, t, hcreate, -⟩ := Procedure.succeeds_bind.mp h
    have hsucceeds : ((createBookRuntime cwd config w book ctx).run s).1.Succeeds :=
      ⟨receipt, congrArg Prod.fst hcreate⟩
    by_cases hstarts : Starts config w book s
    · exact ⟨hstarts, ((run_of_starts cwd config ctx hstarts).1.mp hsucceeds).2⟩
    · by_cases hbegins : Begins w book s
      · obtain ⟨e, hrun⟩ := run_of_not_starts cwd config ctx hbegins hstarts
        cases hrun.symm.trans hcreate
      · obtain ⟨e, hrun⟩ := run_of_not_begins cwd config ctx hbegins
        cases hrun.symm.trans hcreate
  | openBook w code => exact (hop rfl).elim
  | closeBook w code => exact (hop rfl).elim
  | appendTransaction w ctx code t => exact WriteWorld.commits_of_succeeds h
  | createReversal w ctx code o r => exact WriteWorld.commits_of_succeeds h
  | appendLegislativeResult w ctx code reference result => exact WriteWorld.commits_of_succeeds h
  | close lockFault shutdown => exact (hop rfl).elim

/-! ### What is read -/

/-- The operations on other books do not matter to a book in memory. -/
theorem inMemory_filter {code : String} (ops : List Op) {q : Op → Bool}
    (h : ∀ op, op.bookCode = code → q op = true) :
    inMemory code (ops.filter q) = inMemory code ops := by
  rw [inMemory, List.foldl_filter]
  refine List.foldl_ext _ _ _ fun s op _ => ?_
  by_cases hop : op.bookCode = code
  · rw [if_pos (h op hop)]
  · rw [inMemoryStep_of_ne hop, ite_self]

/-- A book is loaded through the runtime of many books as it is in memory, and can be found
again. -/
structure Served (cwd : List String) (config : MultiBookRuntimeConfig) (s : MultiBookDisk)
    (code : String) (b : InMemory) : Prop where
  closed : code ∉ s.table.keys → (getBookThrough none none code).run s =
    (.error (.keyError s!"No open book: {strRepr code}"), s)
  unknown : code ∈ s.table.keys → b = none → (getBookThrough none none code).run s =
    (.error (.keyError s!"Unknown book: {code}"), s)
  loaded : code ∈ s.table.keys → ∀ book,
    (getBookThrough none none code).run s = (.ok book, s) ↔ ∃ a : Book, b = some (.ok a) ∧
      (∀ p ∈ a.fields.periods, p.IsPlain) ∧ book.fields = a.fields.loaded
  available : code ∈ s.table.keys → '/' ∉ code.toList → (∃ c ∈ code.toList, c ≠ '.') →
    code ∈ listAvailableBookCodes cwd config s

/-- Reading a book of the table. -/
theorem run_getBookThrough {code : String} {p : Path} (h : s.table.get? code = some p) :
    (getBookThrough none none code).run s = (loadBook (s.databases p).tables code, s) := by
  have hrequire : (requireRuntime none code).run s = (.ok p, s) := by
    rw [requireRuntime, Procedure.run_bind_of_ok rfl, Procedure.run_bind_of_ok rfl, h]
    rfl
  rw [getBookThrough, Procedure.run_bind_of_ok hrequire, Procedure.run_bind_of_ok rfl,
    Procedure.run_bind_of_ok rfl]
  rfl

omit [Platform] in
/-- A database in the data directory is listed under the code it is named after. -/
theorem mem_listAvailableBookCodes {code : String} (hfile : bookFile cwd config code ∈ s.entries)
    (hslash : '/' ∉ code.toList) (hdots : ∃ c ∈ code.toList, c ≠ '.') :
    code ∈ listAvailableBookCodes cwd config s := by
  obtain ⟨hback, hfinal⟩ := leadsBack_of_noSlash cwd config hslash
  have hpath : bookFile cwd config code =
      ⟨config.fields.dataDirectory.locate cwd, code ++ databaseSuffix⟩ := by
    rw [bookFile, fileAt_databasePath, hfinal, show codeDirectory cwd config code = _ from hback]
  have hstem : Path.stem (bookFile cwd config code) = code := by
    have hname : code ++ databaseSuffix =
        String.ofList (code.toList ++ '.' :: "sqlite3".toList) := by
      rw [String.ofList_append, String.ofList_toList]
      rfl
    rw [hpath, hname, Path.stem_append hdots (by decide), String.ofList_toList]
  refine mem_orderBy.mpr (List.mem_map.mpr ⟨_, List.mem_filter.mpr ⟨hfile, ?_⟩, hstem⟩)
  rw [hpath, decide_eq_true_iff]
  refine ⟨rfl, ?_⟩
  rw [String.toList_append]
  exact List.suffix_append ..

/-- **An open book is the one in memory**: after any calls for any books, whatever has been
closed and opened again, an open book is loaded exactly when the operations that were committed
to it can be carried out in memory, and its periods have plain dates; it is then the book in
memory. -/
theorem served_of_run (cwd : List String) (config : MultiBookRuntimeConfig)
    (entries : List Path) (calls : List MultiBookCall) (code : String) :
    Served cwd config (MultiBookCall.afterAll cwd config calls { entries }) code
      (inMemory code (committed cwd config calls { entries })) := by
  have hstart : Filed cwd config [] { entries } := by
    refine ⟨fun _ _ h => ?_, fun _ => ⟨[], rfl, rfl⟩⟩
    cases h
  have hfiled := hstart.runAll calls
  rw [List.nil_append] at hfiled
  generalize MultiBookCall.afterAll cwd config calls { entries } = s at hfiled
  generalize committed cwd config calls { entries } = ops at hfiled
  have himplements : ∀ p, s.table.get? code = some p →
      Implements (s.databases p).tables code (inMemory code ops) := by
    intro p hp
    obtain ⟨hfile, -⟩ := hfiled.table code p hp
    obtain ⟨stored, hdb, hreturned⟩ := hfiled.stored p
    obtain ⟨σ, hσ, hmatches⟩ := exists_matches_of_returned stored
    have hmatch := hmatches code
    rw [hreturned, inMemory_filter _ fun op hop => by simp [hop, hfile]] at hmatch
    rw [hdb]
    exact hmatch.implements hσ
  constructor
  · intro hclosed
    have hnone := Dict.get?_eq_none_iff.mpr hclosed
    have hrequire : (requireRuntime none code).run s =
        (.error (.keyError s!"No open book: {strRepr code}"), s) := by
      rw [requireRuntime, Procedure.run_bind_of_ok rfl, Procedure.run_bind_of_ok rfl, hnone]
      rfl
    rw [getBookThrough, Procedure.run_bind_of_error hrequire]
  · intro hopen hnone
    obtain ⟨p, hp⟩ := Dict.mem_keys_iff.mp hopen
    rw [run_getBookThrough hp, (himplements p hp).unknown hnone]
  · intro hopen book
    obtain ⟨p, hp⟩ := Dict.mem_keys_iff.mp hopen
    rw [run_getBookThrough hp, ← (himplements p hp).loaded book]
    exact ⟨fun h => congrArg Prod.fst h, fun h => by rw [h]⟩
  · intro hopen hslash hdots
    obtain ⟨p, hp⟩ := Dict.mem_keys_iff.mp hopen
    obtain ⟨hfile, hentry⟩ := hfiled.table code p hp
    exact mem_listAvailableBookCodes (hfile ▸ hentry) hslash hdots

end

end FinestVX
