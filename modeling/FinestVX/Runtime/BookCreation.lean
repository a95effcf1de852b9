import FinestVX.Runtime.DatabasePaths
import FinestVX.Runtime.Submissions
import FinestVX.Persistence.Reversal
import Mathlib.Data.List.Infix

/-!
# Creating a book

`MultiBookRuntime.create_book` makes the data directory, opens a database for the book,
starts a runtime on it, and then has the runtime insert the book; the runtime goes into the
table of open books when that has succeeded.  What a call that raises has made stays made.

## Main definitions

* `MultiBookDisk` — the open books, the running runtimes, and what is on disk.
* `Making`, `CreationWorld` — what the environment does during a call.
* `createBookRuntime` — the call.
* `listAvailableBookCodes` — the books that have a database in the data directory.
* `AtomicOnError` — a call that raises has changed none of these.
* `Starts`, `NothingNew` — the call starts a runtime; it makes no new database.

## Main results

* `atomicOnError_iff` — **a call is atomic on error exactly when** the runtime it starts
  inserts the book, or it starts none and makes no new database.
* `Reference.leftover_runs` — a database of an earlier book, and the runtime left on it.
-/

namespace FinestVX

open Except

section

variable [Platform]

/-! ### The disk -/

/-- What a runtime of many books has, and what is on disk. -/
structure MultiBookDisk where
  /-- The open books, each with the database of its runtime. -/
  table : Dict String Path := []
  /-- The databases of the running runtimes, one for each runtime. -/
  running : List Path := []
  /-- The files and directories. -/
  entries : List Path := []
  /-- The contents of the databases. -/
  databases : Path → Database := fun _ => {}

/-- One more file or directory. -/
def addEntry (entries : List Path) (p : Path) : List Path :=
  if p ∈ entries then entries else entries ++ [p]

/-- The files and directories on the way to what a path denotes, which is the last one. -/
def trail (cwd : List String) (p : PurePath) : List Path :=
  p.parts.inits.tail.map fun parts => fileAt cwd { p with parts := parts }

/-- Something is made, with its parents, or only some of them are. -/
inductive Making
  | done
  | failed (e : PyError) (made : ℕ)

/-- What is made of a trail. -/
def Making.made (l : List Path) : Making → List Path
  | done => l
  | failed _ n => l.take n

/-- What the environment does during a call. -/
structure CreationWorld where
  lockFault : Option PyError := none
  mkdir : Making := .done
  opening : Making := .done
  submission : Submission

/-- A computation on the runtime and the disk. -/
abbrev DiskProcedure := Procedure PyError MultiBookDisk

/-- Make what a path denotes. -/
def make (l : List Path) (m : Making) : DiskProcedure Unit where
  run s :=
    (match m with
      | .done => .ok ()
      | .failed e _ => .error e,
      { s with entries := (m.made l).foldl addEntry s.entries })

/-- `LedgerRuntime(config)`: the store is opened, which makes its file, and the writer is
started. -/
def startRuntime (cwd : List String) (c : RuntimeConfig) (opening : Making) :
    DiskProcedure Unit := do
  make (trail cwd c.databasePath) opening
  Procedure.modify fun s => { s with running := s.running ++ [fileAt cwd c.databasePath] }

/-- A write through the runtime of a database. -/
def submitTo (p : Path) (submission : Submission) (op : Op) (ctx : AuditContext) :
    DiskProcedure StoreWriteReceipt where
  run s :=
    ((submission.submit op ctx).run (s.databases p) |>.1,
      { s with databases :=
          Function.update s.databases p ((submission.submit op ctx).run (s.databases p)).2 })

/-- `MultiBookRuntime.create_book` -/
def createBookRuntime (cwd : List String) (config : MultiBookRuntimeConfig) (w : CreationWorld)
    (book : Book) (ctx : AuditContext) : DiskProcedure StoreWriteReceipt := do
  let _ ← Procedure.lift (raising w.lockFault)
  let s ← Procedure.read
  if book.code ∈ s.table.keys then
    Procedure.raise (.valueError s!"Book {strRepr book.code} is already open")
  else
    make (trail cwd config.fields.dataDirectory) w.mkdir
    let c ← Procedure.lift (runtimeConfigFor config book.code)
    startRuntime cwd c w.opening
    let receipt ← submitTo (fileAt cwd c.databasePath) w.submission (.createBook book) ctx
    Procedure.modify fun s =>
      { s with table := s.table.set book.code (fileAt cwd c.databasePath) }
    return receipt

/-! ### Available books -/

/-- The path is matched by `*.sqlite3` in a directory. -/
def Listed (directory : List String) (p : Path) : Prop :=
  p.parent = directory ∧ databaseSuffix.toList <:+ p.name.toList

instance (directory : List String) (p : Path) : Decidable (Listed directory p) :=
  inferInstanceAs (Decidable (_ ∧ _))

/-- The entries of a directory matched by `*.sqlite3`. -/
def databasesIn (directory : List String) (entries : List Path) : List Path :=
  entries.filter fun p => Listed directory p

/-- `MultiBookRuntime.list_available_book_codes` -/
def listAvailableBookCodes (cwd : List String) (config : MultiBookRuntimeConfig)
    (s : MultiBookDisk) : List String :=
  orderBy id
    ((databasesIn (config.fields.dataDirectory.locate cwd) s.entries).map Path.stem)

/-- No path of the list is a new database of the directory. -/
def NothingNew (directory : List String) (entries made : List Path) : Prop :=
  ∀ p ∈ made, Listed directory p → p ∈ entries

instance (directory : List String) (entries made : List Path) :
    Decidable (NothingNew directory entries made) :=
  inferInstanceAs (Decidable (∀ p ∈ made, _))

omit [Platform] in
/-- The databases of a directory, when one more entry is made. -/
theorem databasesIn_addEntry (directory : List String) (entries : List Path) (p : Path) :
    databasesIn directory (addEntry entries p) =
      if Listed directory p ∧ p ∉ entries then databasesIn directory entries ++ [p]
      else databasesIn directory entries := by
  unfold addEntry databasesIn
  by_cases hmem : p ∈ entries
  · rw [if_pos hmem, if_neg fun h => h.2 hmem]
  · rw [if_neg hmem, List.filter_append]
    by_cases hlisted : Listed directory p
    · simp [hlisted, hmem]
    · simp [hlisted]

omit [Platform] in
theorem mem_addEntry {entries : List Path} {p q : Path} :
    q ∈ addEntry entries p ↔ q ∈ entries ∨ q = p := by
  unfold addEntry
  split
  · next h => exact ⟨.inl, fun hq => hq.elim id fun hqp => hqp ▸ h⟩
  · rw [List.mem_append, List.mem_singleton]

omit [Platform] in
/-- An entry that is no new database leaves the question to the others. -/
theorem nothingNew_cons {directory : List String} {entries made : List Path} {p : Path}
    (hp : ¬ (Listed directory p ∧ p ∉ entries)) : NothingNew directory entries (p :: made) ↔
      NothingNew directory (addEntry entries p) made := by
  have hold : Listed directory p → p ∈ entries := fun hlisted =>
    not_not.mp fun hnot => hp ⟨hlisted, hnot⟩
  constructor
  · intro h q hq hlisted
    exact mem_addEntry.mpr (.inl (h q (List.mem_cons_of_mem p hq) hlisted))
  · intro h q hq hlisted
    rcases List.mem_cons.mp hq with rfl | hq
    · exact hold hlisted
    · rcases mem_addEntry.mp (h q hq hlisted) with hmem | rfl
      · exact hmem
      · exact hold hlisted

omit [Platform] in
/-- The databases of a directory become more, or stay those they are where nothing is new. -/
theorem databasesIn_addEntries (directory : List String) (entries made : List Path) :
    (NothingNew directory entries made ∧
      databasesIn directory (made.foldl addEntry entries) = databasesIn directory entries) ∨
    (¬ NothingNew directory entries made ∧ (databasesIn directory entries).length <
      (databasesIn directory (made.foldl addEntry entries)).length) := by
  induction made generalizing entries with
  | nil => exact .inl ⟨by simp [NothingNew], rfl⟩
  | cons p made ih =>
    rw [List.foldl_cons]
    have hmore := ih (addEntry entries p)
    rw [databasesIn_addEntry] at hmore
    by_cases hp : Listed directory p ∧ p ∉ entries
    · -- the entry is a new database, and stays one
      rw [if_pos hp, List.length_append, List.length_singleton] at hmore
      refine .inr ⟨fun h => hp.2 (h p List.mem_cons_self hp.1), ?_⟩
      rcases hmore with ⟨-, hsame⟩ | ⟨-, hlt⟩
      · rw [hsame, List.length_append, List.length_singleton]
        omega
      · omega
    · rw [if_neg hp] at hmore
      rwa [nothingNew_cons hp]

omit [Platform] in
/-- The available books are the same exactly when no new database has been made. -/
theorem listAvailableBookCodes_eq_iff {cwd : List String} {config : MultiBookRuntimeConfig}
    {s s' : MultiBookDisk} {made : List Path}
    (h : s'.entries = made.foldl addEntry s.entries) :
    listAvailableBookCodes cwd config s' = listAvailableBookCodes cwd config s ↔
      NothingNew (config.fields.dataDirectory.locate cwd) s.entries made := by
  rw [listAvailableBookCodes, listAvailableBookCodes, h]
  rcases databasesIn_addEntries (config.fields.dataDirectory.locate cwd) s.entries made with
    ⟨hnothing, hsame⟩ | ⟨hnew, hlt⟩
  · rw [hsame]
    exact ⟨fun _ => hnothing, fun _ => rfl⟩
  · refine ⟨fun heq => ?_, fun hnothing => (hnew hnothing).elim⟩
    have hlength := congrArg List.length heq
    rw [(orderBy_perm _ _).length_eq, (orderBy_perm _ _).length_eq, List.length_map,
      List.length_map] at hlength
    omega

/-! ### Atomicity -/

/-- A call that raises leaves the running runtimes, the open books and the available ones
as they were. -/
def AtomicOnError (cwd : List String) (config : MultiBookRuntimeConfig) (s : MultiBookDisk)
    (outcome : Except PyError StoreWriteReceipt × MultiBookDisk) : Prop :=
  ¬ outcome.1.Succeeds → outcome.2.running = s.running ∧ outcome.2.table.keys = s.table.keys ∧
    listAvailableBookCodes cwd config outcome.2 = listAvailableBookCodes cwd config s

/-- The call gets the lock, and the book is not open. -/
structure Begins (w : CreationWorld) (book : Book) (s : MultiBookDisk) : Prop where
  lock : w.lockFault = none
  new : book.code ∉ s.table.keys

/-- The call starts a runtime. -/
structure Starts (config : MultiBookRuntimeConfig) (w : CreationWorld) (book : Book)
    (s : MultiBookDisk) : Prop where
  begins : Begins w book s
  mkdir : w.mkdir = .done
  config : (runtimeConfigFor config book.code).Succeeds
  opening : w.opening = .done

/-- What a call that begins makes before it starts a runtime. -/
def madeBeforeStart (cwd : List String) (config : MultiBookRuntimeConfig) (w : CreationWorld)
    (book : Book) : List Path :=
  w.mkdir.made (trail cwd config.fields.dataDirectory) ++
    match w.mkdir, runtimeConfigFor config book.code with
    | .done, .ok c => w.opening.made (trail cwd c.databasePath)
    | _, _ => []

/-- The runtime of the book executes its command in time, and the store accepts the book. -/
def Inserts (cwd : List String) (config : MultiBookRuntimeConfig) (w : CreationWorld)
    (book : Book) (ctx : AuditContext) (s : MultiBookDisk) : Prop :=
  w.submission.IsServed ∧ w.submission.Commits (.createBook book) ctx
    (s.databases (fileAt cwd (databasePath config book.code)))

omit [Platform] in
theorem run_make (l : List Path) (m : Making) (s : MultiBookDisk) :
    (m = .done ∧ (make l m).run s = (.ok (), { s with entries := l.foldl addEntry s.entries })) ∨
    (m ≠ .done ∧ ∃ e, (make l m).run s =
      (.error e, { s with entries := (m.made l).foldl addEntry s.entries })) := by
  cases m with
  | done => exact .inl ⟨rfl, rfl⟩
  | failed e n => exact .inr ⟨by simp, e, rfl⟩

omit [Platform] in
theorem run_startRuntime (cwd : List String) (c : RuntimeConfig) (opening : Making)
    (s : MultiBookDisk) :
    (opening = .done ∧ (startRuntime cwd c opening).run s = (.ok (), { s with
      entries := (trail cwd c.databasePath).foldl addEntry s.entries
      running := s.running ++ [fileAt cwd c.databasePath] })) ∨
    (opening ≠ .done ∧ ∃ e, (startRuntime cwd c opening).run s = (.error e, { s with
      entries := (opening.made (trail cwd c.databasePath)).foldl addEntry s.entries })) := by
  rcases run_make (trail cwd c.databasePath) opening s with ⟨hdone, hrun⟩ | ⟨hfailed, e, hrun⟩
  · exact .inl ⟨hdone, Procedure.run_bind_of_ok hrun⟩
  · exact .inr ⟨hfailed, e, Procedure.run_bind_of_error hrun⟩

variable (cwd : List String) (config : MultiBookRuntimeConfig) {w : CreationWorld} {book : Book}
  (ctx : AuditContext) {s : MultiBookDisk}

/-- A call that begins goes on with the data directory. -/
theorem run_of_begins (h : Begins w book s) : (createBookRuntime cwd config w book ctx).run s =
    (do
      make (trail cwd config.fields.dataDirectory) w.mkdir
      let c ← Procedure.lift (runtimeConfigFor config book.code)
      startRuntime cwd c w.opening
      let receipt ← submitTo (fileAt cwd c.databasePath) w.submission (.createBook book) ctx
      Procedure.modify fun s =>
        { s with table := s.table.set book.code (fileAt cwd c.databasePath) }
      return receipt : DiskProcedure StoreWriteReceipt).run s := by
  have hlock : (Procedure.lift (raising w.lockFault) : DiskProcedure Unit).run s = (.ok (), s) := by
    rw [h.lock]
    rfl
  rw [createBookRuntime, Procedure.run_bind_of_ok hlock,
    Procedure.run_bind_of_ok (Procedure.run_read s), if_neg h.new]

/-- A call that does not begin changes nothing. -/
theorem run_of_not_begins (h : ¬ Begins w book s) :
    ∃ e, (createBookRuntime cwd config w book ctx).run s = (.error e, s) := by
  cases hlock : w.lockFault with
  | some e =>
    refine ⟨e, Procedure.run_bind_of_error ?_⟩
    rw [hlock]
    rfl
  | none =>
    have hopen : book.code ∈ s.table.keys := not_not.mp fun hnew => h ⟨hlock, hnew⟩
    have hlifted : (Procedure.lift (raising w.lockFault) : DiskProcedure Unit).run s =
        (.ok (), s) := by
      rw [hlock]
      rfl
    refine ⟨.valueError s!"Book {strRepr book.code} is already open", ?_⟩
    rw [createBookRuntime, Procedure.run_bind_of_ok hlifted,
      Procedure.run_bind_of_ok (Procedure.run_read s), if_pos hopen]
    rfl

/-- A call that begins and starts no runtime raises, and has made what it could. -/
theorem run_of_not_starts (h : Begins w book s) (hnot : ¬ Starts config w book s) :
    ∃ e, (createBookRuntime cwd config w book ctx).run s = (.error e, { s with
      entries := (madeBeforeStart cwd config w book).foldl addEntry s.entries }) := by
  rw [run_of_begins cwd config ctx h]
  rcases run_make (trail cwd config.fields.dataDirectory) w.mkdir s with
    ⟨hmkdir, hrun⟩ | ⟨hmkdir, e, hrun⟩
  · rw [Procedure.run_bind_of_ok hrun]
    cases hconfig : runtimeConfigFor config book.code with
    | error e =>
      refine ⟨e, ?_⟩
      rw [Procedure.run_bind_of_error (Procedure.run_lift _ _), madeBeforeStart, hmkdir, hconfig]
      exact congrArg (fun l => (Except.error e, { s with entries := l.foldl addEntry s.entries }))
        (List.append_nil _).symm
    | ok c =>
      rw [Procedure.run_bind_of_ok (Procedure.run_lift _ _)]
      rcases run_startRuntime cwd c w.opening
          { s with entries := (trail cwd config.fields.dataDirectory).foldl addEntry s.entries } with
        ⟨hopening, -⟩ | ⟨-, e, hopening⟩
      · exact (hnot ⟨h, hmkdir, ⟨c, hconfig⟩, hopening⟩).elim
      · refine ⟨e, ?_⟩
        rw [Procedure.run_bind_of_error hopening, madeBeforeStart, hmkdir, hconfig,
          List.foldl_append]
        rfl
  · refine ⟨e, ?_⟩
    rw [Procedure.run_bind_of_error hrun, madeBeforeStart]
    have hnil : (match w.mkdir, runtimeConfigFor config book.code with
        | .done, .ok c => w.opening.made (trail cwd c.databasePath)
        | _, _ => []) = ([] : List Path) := by
      cases hcase : w.mkdir with
      | done => exact (hmkdir hcase).elim
      | failed e n => rfl
    rw [hnil, List.append_nil]

/-- A call that starts a runtime returns when the book is inserted; the runtime runs,
whether it returns or not. -/
theorem run_of_starts (h : Starts config w book s) :
    (((createBookRuntime cwd config w book ctx).run s).1.Succeeds ↔
      Inserts cwd config w book ctx s) ∧
    ((createBookRuntime cwd config w book ctx).run s).2.running =
      s.running ++ [fileAt cwd (databasePath config book.code)] := by
  obtain ⟨c, hconfig⟩ := h.config
  have hpath : c.databasePath = databasePath config book.code :=
    congrArg RuntimeConfig.databasePath (RuntimeConfig.postInit_eq_ok.mp hconfig).1
  rw [run_of_begins cwd config ctx h.begins]
  rcases run_make (trail cwd config.fields.dataDirectory) w.mkdir s with
    ⟨-, hrun⟩ | ⟨hfailed, -⟩
  swap
  · exact (hfailed h.mkdir).elim
  rw [Procedure.run_bind_of_ok hrun, hconfig, Procedure.run_bind_of_ok (Procedure.run_lift _ _)]
  rcases run_startRuntime cwd c w.opening
      { s with entries := (trail cwd config.fields.dataDirectory).foldl addEntry s.entries } with
    ⟨-, hopening⟩ | ⟨hfailed, -⟩
  swap
  · exact (hfailed h.opening).elim
  rw [Procedure.run_bind_of_ok hopening, Inserts, ← hpath, ← Submission.submit_succeeds_iff]
  -- the runtime runs; what is left is its write
  cases hsubmit : (w.submission.submit (.createBook book) ctx).run
      (s.databases (fileAt cwd c.databasePath)) with
  | mk outcome db =>
    cases outcome with
    | ok receipt =>
      rw [Procedure.run_bind_of_ok (a := receipt)
        (congrArg (fun r => (r.1, _)) hsubmit)]
      exact ⟨⟨fun _ => succeeds_ok receipt, fun _ => succeeds_ok receipt⟩, rfl⟩
    | error e =>
      rw [Procedure.run_bind_of_error (e := e) (congrArg (fun r => (r.1, _)) hsubmit)]
      exact ⟨⟨fun h => (not_succeeds_error e h).elim, fun h => (not_succeeds_error e h).elim⟩,
        rfl⟩

/-- **A call is atomic on error exactly when** the runtime it starts inserts the book, or it
starts none and, if it begins, makes no new database. -/
theorem atomicOnError_iff (cwd : List String) (config : MultiBookRuntimeConfig)
    (w : CreationWorld) (book : Book) (ctx : AuditContext) (s : MultiBookDisk) :
    AtomicOnError cwd config s ((createBookRuntime cwd config w book ctx).run s) ↔
      Starts config w book s ∧ Inserts cwd config w book ctx s ∨
      ¬ Starts config w book s ∧ (Begins w book s →
        NothingNew (config.fields.dataDirectory.locate cwd) s.entries
          (madeBeforeStart cwd config w book)) := by
  by_cases hstarts : Starts config w book s
  · obtain ⟨hreturns, hruns⟩ := run_of_starts cwd config ctx hstarts
    rw [AtomicOnError, hreturns]
    constructor
    · intro hatomic
      by_contra hnot
      push Not at hnot
      have hsame := hruns.symm.trans (hatomic (hnot.1 hstarts)).1
      simp at hsame
    · rintro (⟨-, hinserts⟩ | ⟨hnot, -⟩)
      · exact fun hnot => (hnot hinserts).elim
      · exact (hnot hstarts).elim
  · have hcases : (Starts config w book s ∧ Inserts cwd config w book ctx s ∨
        ¬ Starts config w book s ∧ (Begins w book s →
          NothingNew (config.fields.dataDirectory.locate cwd) s.entries
            (madeBeforeStart cwd config w book))) ↔ (Begins w book s →
          NothingNew (config.fields.dataDirectory.locate cwd) s.entries
            (madeBeforeStart cwd config w book)) := by
      simp [hstarts]
    rw [hcases]
    by_cases hbegins : Begins w book s
    · obtain ⟨e, hrun⟩ := run_of_not_starts cwd config ctx hbegins hstarts
      rw [hrun, AtomicOnError, imp_iff_right (not_succeeds_error e), imp_iff_right hbegins,
        listAvailableBookCodes_eq_iff rfl]
      simp
    · obtain ⟨e, hrun⟩ := run_of_not_begins cwd config ctx hbegins
      rw [hrun]
      exact ⟨fun _ hb => (hbegins hb).elim, fun _ _ => ⟨rfl, rfl, rfl⟩⟩

end

/-! ### Evaluated -/

namespace Reference

/-- The data directory has the database of an earlier book, which is closed. -/
def leftover : MultiBookDisk where
  entries := [⟨["data"], "BK.sqlite3"⟩]
  databases _ := saleStored

/-- An environment without faults. -/
def calmCreation : CreationWorld := { submission := .served {} }

/-- A book is created whose code has a database already: the call raises, and the runtime it
has started runs on. -/
theorem leftover_runs :
    ¬ ((createBookRuntime [] dataConfig calmCreation plainBook auditor).run leftover).1.Succeeds ∧
    ((createBookRuntime [] dataConfig calmCreation plainBook auditor).run leftover).2.running =
      [⟨["data"], "BK.sqlite3"⟩] ∧
    ¬ AtomicOnError [] dataConfig leftover
      ((createBookRuntime [] dataConfig calmCreation plainBook auditor).run leftover) := by
  have hstarts : Starts dataConfig calmCreation plainBook leftover :=
    { begins := ⟨rfl, by decide⟩
      mkdir := rfl
      config := ⟨_, runtimeConfigFor_dataConfig _⟩
      opening := rfl }
  obtain ⟨hreturns, hruns⟩ := run_of_starts [] dataConfig auditor hstarts
  have hraises : ¬ Inserts [] dataConfig calmCreation plainBook auditor leftover := by
    rintro ⟨-, receipt, hreceipt⟩
    have hfails : (Call.run ⟨.createBook plainBook, auditor, {}⟩ saleStored).1.toOption =
        none := by rfl
    change (Call.run ⟨.createBook plainBook, auditor, {}⟩ saleStored).1 = _ at hreceipt
    rw [hreceipt] at hfails
    cases hfails
  have hnot : ¬ ((createBookRuntime [] dataConfig calmCreation plainBook auditor).run
      leftover).1.Succeeds := fun h => hraises (hreturns.mp h)
  refine ⟨hnot, hruns, fun hatomic => ?_⟩
  have hsame := hruns.symm.trans (hatomic hnot).1
  simp at hsame

end Reference

end FinestVX
