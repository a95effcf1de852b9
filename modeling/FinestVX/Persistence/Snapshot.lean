import FinestVX.Lib.Effects
import FinestVX.Lib.FileSystem
import FinestVX.Core.Platform

/-!
# Snapshots

`create_snapshot` moves the log of the database into it and copies the database to the output
path or, to compress the copy, to an intermediate path first: the output path with the suffix
`.sqlite3`, which is then overwritten and removed.

## Main definitions

* `Path`, `Path.withSuffix` — a path, and `Path.with_suffix`.
* `Files` — the file system.
* `SnapshotWorld` — how the environment answers the steps.
* `createSnapshot` — the operation.

## Main results

* `withSuffix_append` — the outputs that have a given database as intermediate path.
* `run_of_checkpoint_error`, `run_of_backup_error`, `run_of_backup_ok` — how snapshots run.
-/

namespace FinestVX

open Procedure (after_bind run_bind_of_error run_bind_of_ok run_lift run_pure run_read)

/-! ### Paths -/

/-- A path by its directory and its name; the directory is resolved, so links are followed in
the name only. -/
structure Path where
  parent : List String
  name : String
  deriving DecidableEq

namespace Path

/-- What is before the last dot. -/
def beforeLastDot : List Char → Option (List Char)
  | [] => none
  | c :: s =>
    match beforeLastDot s with
    | some t => some (c :: t)
    | none => if c = '.' then some [] else none

/-- `Path.stem`: the name without its last suffix.  Leading dots start no suffix. -/
def stem (p : Path) : String :=
  match beforeLastDot p.name.toList with
  | none => p.name
  | some s => if s.all (· = '.') then p.name else String.ofList s

/-- `Path.with_suffix` -/
def withSuffix (p : Path) (suffix : String) : Except PyError Path :=
  if p.stem = "" then .error (.valueError "path has an empty name")
  else .ok { p with name := p.stem ++ suffix }

theorem beforeLastDot_append {s t : List Char} (ht : '.' ∉ t) :
    beforeLastDot (s ++ '.' :: t) = some s := by
  have hnone : ∀ l : List Char, '.' ∉ l → beforeLastDot l = none := by
    intro l hl
    induction l with
    | nil => rfl
    | cons c l ih =>
      rw [List.mem_cons, not_or] at hl
      rw [beforeLastDot, ih hl.2]
      exact if_neg fun h => hl.1 h.symm
  induction s with
  | nil => simp [beforeLastDot, hnone t ht]
  | cons c s ih => rw [List.cons_append, beforeLastDot, ih]

/-- The outputs with a given intermediate path: the same directory and stem, and any
suffix. -/
theorem withSuffix_append {dir : List String} {s t : List Char} (suffix : String)
    (hs : ∃ c ∈ s, c ≠ '.') (ht : '.' ∉ t) :
    withSuffix ⟨dir, String.ofList (s ++ '.' :: t)⟩ suffix =
      .ok ⟨dir, String.ofList s ++ suffix⟩ := by
  have hall : s.all (· = '.') = false := by
    obtain ⟨c, hc, hne⟩ := hs
    rw [List.all_eq_false]
    exact ⟨c, hc, by simpa using hne⟩
  have hstem : stem ⟨dir, String.ofList (s ++ '.' :: t)⟩ = String.ofList s := by
    rw [stem, String.toList_ofList, beforeLastDot_append ht]
    simp [hall]
  have hne : String.ofList s ≠ "" := by
    obtain ⟨c, hc, -⟩ := hs
    intro heq
    have := congrArg String.toList heq
    rw [String.toList_ofList] at this
    subst this
    cases hc
  rw [withSuffix, hstem, if_neg hne]

/-- The stem of a name with a suffix. -/
theorem stem_append {dir : List String} {s t : List Char} (hs : ∃ c ∈ s, c ≠ '.')
    (ht : '.' ∉ t) : stem ⟨dir, String.ofList (s ++ '.' :: t)⟩ = String.ofList s := by
  have h : withSuffix ⟨dir, String.ofList (s ++ '.' :: t)⟩ "" = _ := withSuffix_append "" hs ht
  unfold withSuffix at h
  split at h
  · cases h
  · simpa using h

end Path

/-! ### Files -/

/-- The contents of a file. -/
abbrev Bytes := List UInt8

/-- The files, by path. -/
abbrev Files := FileSystem Path Bytes

/-- A file that SQLite keeps beside a database: `-journal`, `-wal` and `-shm`. -/
def Path.beside (p : Path) (suffix : String) : Path := { p with name := p.name ++ suffix }

/-- The files that SQLite keeps beside a database. -/
def companions : List String := ["-journal", "-wal", "-shm"]

/-- The files of a database that is open: the database itself, its log and the index of the
log. -/
structure OpenDatabase where
  main : ℕ
  log : Option ℕ
  index : Option ℕ

/-- The files of the database at a path. -/
def openDatabase (fs : Files) (live : Path) : Option OpenDatabase := do
  let real ← fs.resolve live
  let main ← fs.fileAt real
  return ⟨main, fs.fileAt (real.beside "-wal"), fs.fileAt (real.beside "-shm")⟩

/-! ### The operation -/

/-- How the environment answers the steps of a snapshot.  A step that raises may have had its
effect before, and a write that raises may leave anything in the file. -/
structure SnapshotWorld where
  mkdir : Except PyError Unit := .ok ()
  walCheckpoint : Except PyError (ℤ × ℤ) := .ok (0, 0)
  checkpointMade : Bool := false
  /-- The pages of a database, read through its log. -/
  pages : Bytes → Bytes → Bytes := fun db _ => db
  pages_nil : ∀ db, pages db [] = db := by intro; rfl
  /-- The index of the log after a checkpoint. -/
  walIndex : Bytes → Bytes := id
  connect : Except PyError Unit := .ok ()
  backupFault : Option (PyError × Bool) := none
  /-- What SQLite makes of the files beside the copy: it leaves, removes or overwrites them. -/
  beside : String → Option (Option Bytes) := fun _ => none
  readFault : Option PyError := none
  writeFault : Option (PyError × Option Bytes) := none
  unlinkFault : Option PyError := none
  statFault : Option PyError := none
  zstdCompress : Bytes → Bytes := id

/-- A `DatabaseSnapshot`. -/
structure DatabaseSnapshot where
  outputPath : Path
  compressed : Bool
  walFrames : ℤ
  checkpointedFrames : ℤ
  bytesWritten : ℕ
  deriving DecidableEq

/-- A computation on the files. -/
abbrev FileProcedure := Procedure PyError Files

/-- Raise a fault, if there is one. -/
def raisingFault : Option PyError → FileProcedure Unit
  | none => pure ()
  | some e => Procedure.raise e

/-- The log, if it holds frames, is emptied and its pages are moved to the database. -/
def moveLog (w : SnapshotWorld) (db : OpenDatabase) (fs : Files) : Files :=
  match db.log with
  | none => fs
  | some log =>
    if fs.data log = [] then fs
    else (fs.overwrite log []).overwrite db.main (w.pages (fs.data db.main) (fs.data log))

/-- The index of the log is written. -/
def writeIndex (w : SnapshotWorld) (db : OpenDatabase) (fs : Files) : Files :=
  match db.index with
  | none => fs
  | some index => fs.overwrite index (w.walIndex (fs.data index))

/-- The files after a checkpoint of the database at a path. -/
def checkpointed (w : SnapshotWorld) (live : Path) (fs : Files) : Files :=
  match openDatabase fs live with
  | none => fs
  | some db => writeIndex w db (moveLog w db fs)

/-- `wal_checkpoint(mode=SQLITE_CHECKPOINT_TRUNCATE)` -/
def checkpoint (w : SnapshotWorld) (live : Path) : FileProcedure (ℤ × ℤ) :=
  match w.walCheckpoint with
  | .ok frames => do
    Procedure.modify (checkpointed w live)
    return frames
  | .error e => do
    Procedure.modify fun fs => if w.checkpointMade then checkpointed w live fs else fs
    Procedure.raise e

/-- The contents under a path. -/
def contents (p : Path) : FileProcedure Bytes := do
  let fs ← Procedure.read
  match fs.read p with
  | some c => pure c
  | none => Procedure.raise (.fault "No such file or directory")

/-- `apsw.Connection(path)`: opens the file, or creates an empty one. -/
def connect (w : SnapshotWorld) (p : Path) : FileProcedure Unit := do
  Procedure.lift w.connect
  let fs ← Procedure.read
  if fs.Opens p then Procedure.modify fun fs => fs.touch p []
  else Procedure.raise (.fault "unable to open database file")

/-- The image of the database at a path. -/
def image (w : SnapshotWorld) (live : Path) (fs : Files) : Option Bytes :=
  (openDatabase fs live).map fun db =>
    match db.log with
    | none => fs.data db.main
    | some log => w.pages (fs.data db.main) (fs.data log)

/-- SQLite leaves, removes or overwrites what is at a path.  It does not write through links. -/
def settle (choice : Option (Option Bytes)) (p : Path) (fs : Files) : Files :=
  match choice, fs.entries p with
  | some none, some (.file _) | some none, some (.link _) => fs.remove p
  | some (some c), some (.file i) => fs.overwrite i c
  | some (some c), none => fs.create p c
  | _, _ => fs

/-- What SQLite makes of the files beside the copy. -/
def settleCompanions (w : SnapshotWorld) (real : Path) (fs : Files) : Files :=
  companions.foldl (fun fs suffix => settle (w.beside suffix) (real.beside suffix) fs) fs

/-- SQLite removes what is at the path, beside the copy. -/
def SnapshotWorld.RemovesBeside (w : SnapshotWorld) (real p : Path) : Prop :=
  ∃ suffix ∈ companions, p = real.beside suffix ∧ w.beside suffix = some none

/-- The backup of the live database.  The links to the copy are followed when it is opened. -/
def backup (w : SnapshotWorld) (live p : Path) : FileProcedure Unit := do
  let fs ← Procedure.read
  match fs.resolve p, image w live fs with
  | some real, some c =>
    Procedure.modify (settleCompanions w real)
    match w.backupFault with
    | none => Procedure.modify fun fs => fs.write real c
    | some (e, copied) => do
      Procedure.modify fun fs => if copied then fs.write real c else fs
      Procedure.raise e
  | _, _ => Procedure.raise (.fault "unable to open database file")

/-- `path.read_bytes()` -/
def readBytes (w : SnapshotWorld) (p : Path) : FileProcedure Bytes := do
  raisingFault w.readFault
  contents p

/-- `path.write_bytes(c)` -/
def writeBytes (w : SnapshotWorld) (p : Path) (c : Bytes) : FileProcedure Unit := do
  let fs ← Procedure.read
  if fs.Opens p then
    match w.writeFault with
    | none => Procedure.modify fun fs => fs.write p c
    | some (e, left) => do
      Procedure.modify fun fs => (left.map (fs.write p)).getD fs
      Procedure.raise e
  else Procedure.raise (.fault "cannot open the file for writing")

/-- `path.unlink()` -/
def unlink (w : SnapshotWorld) (p : Path) : FileProcedure Unit := do
  raisingFault w.unlinkFault
  let fs ← Procedure.read
  match fs.entries p with
  | some (.file _) | some (.link _) => Procedure.modify fun fs => fs.remove p
  | _ => Procedure.raise (.fault "cannot remove the file")

/-- `path.stat().st_size` -/
def statSize (w : SnapshotWorld) (p : Path) : FileProcedure ℕ := do
  raisingFault w.statFault
  let c ← contents p
  return c.length

/-- The path the database is copied to. -/
def tempPath (destination : Path) (compress : Bool) : Except PyError Path :=
  if compress then destination.withSuffix ".sqlite3" else .ok destination

/-- `SqliteLedgerStore.create_snapshot`, of the store on the file `live` -/
def createSnapshot (w : SnapshotWorld) (live destination : Path) (compress : Bool) :
    FileProcedure DatabaseSnapshot := do
  Procedure.lift w.mkdir
  let frames ← checkpoint w live
  let temp ← Procedure.lift (tempPath destination compress)
  connect w temp
  backup w live temp
  if compress then
    let rawBytes ← readBytes w temp
    let compressedBytes := w.zstdCompress rawBytes
    writeBytes w destination compressedBytes
    unlink w temp
    return ⟨destination, compress, frames.1, frames.2, compressedBytes.length⟩
  else
    let bytesWritten ← statSize w temp
    return ⟨destination, compress, frames.1, frames.2, bytesWritten⟩

/-! ### The checkpoint -/

section

variable {fs s t : Files} {q p live destination temp real : Path} {compress : Bool}
  {w : SnapshotWorld} {db : OpenDatabase} {c : Bytes} {suffix : String}

/-- A checkpoint only changes contents. -/
theorem checkpointed_eq (w : SnapshotWorld) (live : Path) (fs : Files) :
    ∃ d, checkpointed w live fs = { fs with data := d } := by
  have hlog : ∀ db, ∃ d, moveLog w db fs = { fs with data := d } := by
    intro db
    unfold moveLog
    split
    · exact ⟨_, rfl⟩
    · split
      · exact ⟨_, rfl⟩
      · exact ⟨_, rfl⟩
  unfold checkpointed
  split
  · exact ⟨_, rfl⟩
  · next db _ =>
    obtain ⟨d, hd⟩ := hlog db
    rw [hd]
    unfold writeIndex
    split
    · exact ⟨_, rfl⟩
    · exact ⟨_, rfl⟩

theorem entries_checkpointed (w : SnapshotWorld) (live : Path) (fs : Files) :
    (checkpointed w live fs).entries = fs.entries := by
  obtain ⟨d, hd⟩ := checkpointed_eq w live fs
  rw [hd]

theorem grows_checkpointed (w : SnapshotWorld) (live : Path) (fs : Files) :
    fs.Grows (checkpointed w live fs) := by
  obtain ⟨d, hd⟩ := checkpointed_eq w live fs
  rw [hd]
  exact ⟨⟨Nat.le_refl _, fun _ _ h => .inl h⟩, fun _ _ => rfl⟩

/-- The files of a database are found by the names. -/
theorem openDatabase_congr (h : s.entries = fs.entries) (live : Path) :
    openDatabase s live = openDatabase fs live := by
  have hlinks : ∀ r, s.linkAt r = fs.linkAt r := fun r => by
    rw [FileSystem.linkAt, FileSystem.linkAt, h]
  have hfiles : ∀ r, s.fileAt r = fs.fileAt r := fun r => by
    rw [FileSystem.fileAt, FileSystem.fileAt, h]
  rw [openDatabase, openDatabase, FileSystem.resolve_congr hlinks]
  simp only [hfiles]

theorem exists_openDatabase_iff :
    (∃ db, openDatabase fs live = some db) ↔ ∃ i, fs.number live = some i := by
  rw [openDatabase, FileSystem.number]
  cases fs.resolve live with
  | none => simp
  | some real =>
    cases hfile : fs.fileAt real with
    | none => simp [hfile]
    | some i => simp [hfile]

theorem data_writeIndex (w : SnapshotWorld) (db : OpenDatabase) (s : Files) (i : ℕ) :
    (writeIndex w db s).data i = if db.index = some i then w.walIndex (s.data i) else s.data i := by
  unfold writeIndex
  split
  · next hnone => rw [hnone, if_neg (by simp)]
  · next j hj =>
    by_cases hi : i = j
    · rw [if_pos (hi ▸ hj), hi, FileSystem.data_overwrite_self]
    · rw [if_neg fun h => hi (Option.some_inj.mp (h.symm.trans hj)),
        FileSystem.data_overwrite_of_ne _ hi]

/-- A log that holds frames is emptied, and its pages are in the database. -/
theorem data_moveLog {log : ℕ} (hlog : db.log = some log) (hne : s.data log ≠ []) (i : ℕ) :
    (moveLog w db s).data i =
      if i = db.main then w.pages (s.data db.main) (s.data log)
      else if i = log then [] else s.data i := by
  rw [moveLog, hlog]
  dsimp only
  rw [if_neg hne]
  by_cases hmain : i = db.main
  · rw [if_pos hmain, hmain, FileSystem.data_overwrite_self]
  · rw [if_neg hmain, FileSystem.data_overwrite_of_ne _ hmain]
    by_cases hi : i = log
    · rw [if_pos hi, hi, FileSystem.data_overwrite_self]
    · rw [if_neg hi, FileSystem.data_overwrite_of_ne _ hi]

theorem checkpoint_eq_ok {frames : ℤ × ℤ} (h : (checkpoint w live).run fs = (.ok frames, s)) :
    w.walCheckpoint = .ok frames ∧ s = checkpointed w live fs := by
  unfold checkpoint at h
  split at h
  · next hframes =>
    rw [run_bind_of_ok (a := ()) (t := checkpointed w live fs) rfl] at h
    cases h
    exact ⟨hframes, rfl⟩
  · obtain ⟨_, _, -, h⟩ := Procedure.run_bind_eq_ok.mp h
    cases h

/-! ### The files beside the copy -/

theorem beside_ne {suffix : String} (h : suffix ∈ companions) (p : Path) : p.beside suffix ≠ p := by
  intro heq
  have hname : p.name ++ suffix = p.name := congrArg Path.name heq
  have hempty : suffix = "" := by
    have := congrArg (List.length ∘ String.toList) hname
    simp only [Function.comp_apply, String.toList_append, List.length_append] at this
    apply String.toList_inj.mp
    rw [String.toList_empty]
    exact List.length_eq_zero_iff.mp (by omega)
  subst hempty
  exact absurd h (by decide)

theorem settle_none (p : Path) (s : Files) : settle none p s = s := by
  unfold settle
  split
  all_goals first | rfl | next h _ => cases h

theorem entries_settle_of_ne {r : Path} (choice : Option (Option Bytes)) (h : r ≠ p) :
    (settle choice p s).entries r = s.entries r := by
  unfold settle
  split
  · exact FileSystem.entries_remove_of_ne _ h
  · exact FileSystem.entries_remove_of_ne _ h
  · rfl
  · exact FileSystem.entries_create_of_ne _ h _
  · rfl

/-- Links are removed, and no other is made. -/
theorem linkAt_settle (choice : Option (Option Bytes)) (p r : Path) (s : Files) :
    (settle choice p s).linkAt r =
      if r = p ∧ choice = some none then none else s.linkAt r := by
  by_cases hr : r = p
  · subst hr
    cases choice with
    | none => rw [settle_none, if_neg (by simp)]
    | some left =>
      cases left with
      | none =>
        rw [if_pos ⟨rfl, rfl⟩]
        cases h : s.entries r with
        | none => simp [settle, FileSystem.linkAt, h]
        | some e => cases e <;> simp [settle, FileSystem.linkAt, h]
      | some c =>
        rw [if_neg (by simp)]
        cases h : s.entries r with
        | none => simp [settle, FileSystem.linkAt, h]
        | some e => cases e <;> simp [settle, FileSystem.linkAt, h]
  · rw [FileSystem.linkAt, entries_settle_of_ne choice hr, if_neg fun h => hr h.1,
      FileSystem.linkAt]

/-- No directory is removed. -/
theorem directory_settle {r : Path} (choice : Option (Option Bytes))
    (h : s.entries r = some .directory) : (settle choice p s).entries r = some .directory := by
  by_cases hr : r = p
  · subst hr
    unfold settle
    split <;> simp_all
  · rw [entries_settle_of_ne choice hr, h]

/-- A link is removed or stays. -/
theorem entries_settle_link {r target : Path} (choice : Option (Option Bytes))
    (h : s.entries r = some (.link target)) :
    (settle choice r s).entries r = some (.link target) ∨ (settle choice r s).entries r = none := by
  unfold settle
  split <;> simp_all

theorem settle_remove (h : s.Removable p) : settle (some none) p s = s.remove p := by
  obtain ⟨hthere, hdirectory⟩ := h
  cases hp : s.entries p with
  | none => exact absurd hp hthere
  | some e =>
    cases e with
    | file i =>
      unfold settle
      rw [hp]
    | link r =>
      unfold settle
      rw [hp]
    | directory => exact absurd hp hdirectory

theorem settle_overwrite {i : ℕ} (h : s.entries p = some (.file i)) :
    settle (some (some c)) p s = s.overwrite i c := by
  unfold settle
  rw [h]

theorem entries_settleCompanions {r : Path}
    (h : ∀ suffix ∈ companions, r ≠ real.beside suffix) :
    (settleCompanions w real s).entries r = s.entries r :=
  List.foldlRecOn (motive := fun t : Files => t.entries r = s.entries r) companions _ rfl
    fun _ ht suffix hsuffix => (entries_settle_of_ne _ (h suffix hsuffix)).trans ht

/-- The links that stay are those that SQLite does not remove. -/
theorem linkAt_settleCompanions {r t : Path} :
    (settleCompanions w real s).linkAt r = some t ↔
      s.linkAt r = some t ∧ ¬ w.RemovesBeside real r := by
  have hfold : ∀ (l : List String) (s : Files),
      (l.foldl (fun fs suffix => settle (w.beside suffix) (real.beside suffix) fs) s).linkAt r =
        some t ↔ s.linkAt r = some t ∧
          ∀ suffix ∈ l, ¬ (r = real.beside suffix ∧ w.beside suffix = some none) := by
    intro l
    induction l with
    | nil => simp
    | cons suffix l ih =>
      intro s
      rw [List.foldl_cons, ih, linkAt_settle, List.forall_mem_cons, ← and_assoc]
      by_cases hremoved : r = real.beside suffix ∧ w.beside suffix = some none
      · simp [hremoved]
      · simp [hremoved]
  rw [settleCompanions, hfold, SnapshotWorld.RemovesBeside]
  simp

theorem directory_settleCompanions {r : Path} (h : s.entries r = some .directory) :
    (settleCompanions w real s).entries r = some .directory :=
  List.foldlRecOn (motive := fun t : Files => t.entries r = some .directory) companions _ h
    fun _ ht _ _ => directory_settle _ ht

theorem settleCompanions_none (h : w.beside = fun _ => none) (real : Path) (s : Files) :
    settleCompanions w real s = s := by
  rw [settleCompanions, h]
  exact List.foldlRecOn (motive := fun t : Files => t = s) companions _ rfl fun t ht _ _ =>
    (settle_none _ t).trans ht

/-- One of the files beside the copy is removed or overwritten. -/
theorem settleCompanions_single {choice : Option Bytes}
    (hw : w.beside = fun s => if s = suffix then some choice else none)
    (hsuffix : suffix ∈ companions) (real : Path) (s : Files) :
    settleCompanions w real s = settle (some choice) (real.beside suffix) s := by
  rw [settleCompanions, hw, companions]
  simp only [companions, List.mem_cons, List.not_mem_nil, or_false] at hsuffix
  obtain rfl | rfl | rfl := hsuffix <;> simp [settle_none]

/-! ### The steps -/

theorem snd_run_raisingFault (f : Option PyError) (s : Files) : ((raisingFault f).run s).2 = s := by
  cases f with
  | none => rfl
  | some e => rfl

theorem snd_run_contents (p : Path) (s : Files) : ((contents p).run s).2 = s := by
  rw [contents, run_bind_of_ok (run_read s)]
  split
  · rfl
  · rfl

theorem run_contents (h : s.read p = some c) : (contents p).run s = (.ok c, s) := by
  rw [contents, run_bind_of_ok (run_read s), h, run_pure]

theorem contents_eq_ok (h : (contents p).run s = (.ok c, t)) : s.read p = some c ∧ t = s := by
  rw [contents, run_bind_of_ok (run_read s)] at h
  split at h
  · next d hd =>
    cases h
    exact ⟨hd, rfl⟩
  · cases h

theorem run_connect (hw : w.connect = .ok ()) (h : s.Opens p) :
    (connect w p).run s = (.ok (), s.touch p []) := by
  rw [connect, hw, run_bind_of_ok (run_lift _ s), run_bind_of_ok (run_read s), if_pos h]
  rfl

theorem connect_eq_ok (h : (connect w p).run s = (.ok (), t)) :
    s.Opens p ∧ t = s.touch p [] := by
  obtain ⟨_, _, hlift, h⟩ := Procedure.run_bind_eq_ok.mp h
  obtain rfl : s = _ := congrArg Prod.snd hlift
  rw [run_bind_of_ok (run_read s)] at h
  split at h
  · next hopens =>
    cases h
    exact ⟨hopens, rfl⟩
  · cases h

theorem backup_eq_ok (h : (backup w live p).run s = (.ok (), t)) :
    ∃ real c, s.resolve p = some real ∧ image w live s = some c ∧
      t = (settleCompanions w real s).write real c := by
  rw [backup, run_bind_of_ok (run_read s)] at h
  split at h
  · next real c hreal hc =>
    rw [run_bind_of_ok (a := ()) (t := settleCompanions w real s) rfl] at h
    split at h
    · cases h
      exact ⟨real, c, hreal, hc, rfl⟩
    · obtain ⟨_, _, -, h⟩ := Procedure.run_bind_eq_ok.mp h
      cases h
  · cases h

/-- A backup that is made. -/
theorem run_backup (hreal : s.resolve p = some real) (hc : image w live s = some c)
    (hw : w.backupFault = none) :
    (backup w live p).run s = (.ok (), (settleCompanions w real s).write real c) := by
  rw [backup, run_bind_of_ok (run_read s), hreal, hc, hw]
  rfl

/-- A backup that raises, when its copy is made or before. -/
theorem run_backup_of_fault {e : PyError} {copied : Bool} (hreal : s.resolve p = some real)
    (hc : image w live s = some c) (hw : w.backupFault = some (e, copied)) :
    (backup w live p).run s = (.error e,
      if copied then (settleCompanions w real s).write real c else settleCompanions w real s) := by
  rw [backup, run_bind_of_ok (run_read s), hreal, hc, hw]
  rfl

theorem snd_run_readBytes (w : SnapshotWorld) (p : Path) (s : Files) :
    ((readBytes w p).run s).2 = s := by
  refine after_bind (p := fun t => t = s) (snd_run_raisingFault w.readFault s) fun _ t _ ht => ?_
  rw [snd_run_contents, ht]

theorem readBytes_eq_ok (h : (readBytes w p).run s = (.ok c, t)) :
    s.read p = some c ∧ t = s := by
  obtain ⟨_, same, hfault, hread⟩ := Procedure.run_bind_eq_ok.mp h
  obtain rfl : same = s := by rw [← snd_run_raisingFault w.readFault s, hfault]
  exact contents_eq_ok hread

theorem run_readBytes (hw : w.readFault = none) (h : s.read p = some c) :
    (readBytes w p).run s = (.ok c, s) := by
  rw [readBytes, hw]
  exact run_contents h

theorem run_writeBytes (h : s.Opens p) (hw : w.writeFault = none) :
    (writeBytes w p c).run s = (.ok (), s.write p c) := by
  rw [writeBytes, run_bind_of_ok (run_read s), if_pos h, hw]
  rfl

theorem run_writeBytes_of_fault {e : PyError} {left : Bytes} (h : s.Opens p)
    (hw : w.writeFault = some (e, some left)) :
    (writeBytes w p c).run s = (.error e, s.write p left) := by
  rw [writeBytes, run_bind_of_ok (run_read s), if_pos h, hw]
  rfl

theorem writeBytes_eq_ok (h : (writeBytes w p c).run s = (.ok (), t)) :
    s.Opens p ∧ t = s.write p c := by
  rw [writeBytes, run_bind_of_ok (run_read s)] at h
  split at h
  · next hopens =>
    split at h
    · cases h
      exact ⟨hopens, rfl⟩
    · obtain ⟨_, _, -, h⟩ := Procedure.run_bind_eq_ok.mp h
      cases h
  · cases h

theorem run_unlink (hw : w.unlinkFault = none) (h : s.Removable p) :
    (unlink w p).run s = (.ok (), s.remove p) := by
  obtain ⟨hthere, hdirectory⟩ := h
  rw [unlink, hw, raisingFault, run_bind_of_ok (run_pure () s), run_bind_of_ok (run_read s)]
  split
  · rfl
  · rfl
  · next hfile hlink =>
    cases hp : s.entries p with
    | none => exact absurd hp hthere
    | some e =>
      cases e with
      | file i => exact absurd hp (hfile i)
      | link r => exact absurd hp (hlink r)
      | directory => exact absurd hp hdirectory

theorem unlink_eq_ok (h : (unlink w p).run s = (.ok (), t)) : t = s.remove p := by
  obtain ⟨_, same, hfault, hrest⟩ := Procedure.run_bind_eq_ok.mp h
  obtain rfl : same = s := by rw [← snd_run_raisingFault w.unlinkFault s, hfault]
  rw [run_bind_of_ok (run_read same)] at hrest
  split at hrest
  · cases hrest
    rfl
  · cases hrest
    rfl
  · cases hrest

theorem snd_run_statSize (w : SnapshotWorld) (p : Path) (s : Files) :
    ((statSize w p).run s).2 = s := by
  refine after_bind (p := fun t => t = s) (snd_run_raisingFault w.statFault s) fun _ t _ ht => ?_
  refine after_bind (p := fun t => t = s) ?_ fun _ u _ hu => hu
  rw [snd_run_contents, ht]

/-- The files when the copy is open. -/
def opened (w : SnapshotWorld) (live temp : Path) (fs : Files) : Files :=
  (checkpointed w live fs).touch temp []

theorem grows_opened (w : SnapshotWorld) (live temp : Path) (fs : Files) :
    fs.Grows (opened w live temp fs) := (grows_checkpointed w live fs).touch

theorem opens_checkpointed : (checkpointed w live fs).Opens p ↔ fs.Opens p :=
  FileSystem.opens_congr (entries_checkpointed w live fs)

theorem resolve_opened (w : SnapshotWorld) (live temp : Path) (fs : Files) (p : Path) :
    (opened w live temp fs).resolve p = fs.resolve p :=
  FileSystem.resolve_congr (grows_opened w live temp fs).linkAt p

/-- A copy to a file that is there opens it. -/
theorem opened_of_number {temp : Path} {i : ℕ} (h : fs.number temp = some i) :
    opened w live temp fs = checkpointed w live fs := by
  obtain ⟨r, hr, hfile⟩ := FileSystem.number_eq_some.mp ((grows_checkpointed w live fs).number h)
  rw [opened, FileSystem.touch, hr]
  simp [hfile]

/-- The live database is read when the copy is open. -/
theorem exists_image (hdb : openDatabase fs live = some db) (w : SnapshotWorld) (temp : Path) :
    ∃ c, image w live (opened w live temp fs) = some c := by
  obtain ⟨i, hi⟩ := exists_openDatabase_iff.mp ⟨db, hdb⟩
  obtain ⟨db', hdb'⟩ := exists_openDatabase_iff.mpr ⟨i, (grows_opened w live temp fs).number hi⟩
  exact ⟨_, by rw [image, hdb', Option.map_some]⟩

/-! ### Runs -/

/-- The steps before the backup are done. -/
structure SnapshotWorld.Proceeds (w : SnapshotWorld) (frames : ℤ × ℤ) : Prop where
  mkdir : w.mkdir = .ok ()
  walCheckpoint : w.walCheckpoint = .ok frames
  connect : w.connect = .ok ()

theorem run_checkpoint {frames : ℤ × ℤ} (hw : w.Proceeds frames) :
    (checkpoint w live).run fs = (.ok frames, checkpointed w live fs) := by
  rw [checkpoint, hw.walCheckpoint]
  rfl

theorem run_connect_checkpointed {frames : ℤ × ℤ} (hw : w.Proceeds frames)
    (hopens : fs.Opens temp) :
    (connect w temp).run (checkpointed w live fs) = (.ok (), opened w live temp fs) :=
  run_connect hw.connect (opens_checkpointed.mpr hopens)

/-- A snapshot whose checkpoint raises. -/
theorem run_of_checkpoint_error {e : PyError} (hmkdir : w.mkdir = .ok ())
    (hw : w.walCheckpoint = .error e) (hmade : w.checkpointMade = true) :
    (createSnapshot w live destination compress).run fs =
      (.error e, checkpointed w live fs) := by
  have hcheckpoint : (checkpoint w live).run fs = (.error e, checkpointed w live fs) := by
    rw [checkpoint, hw, hmade]
    rfl
  rw [createSnapshot, hmkdir, run_bind_of_ok (run_lift _ fs), run_bind_of_error hcheckpoint]

/-- A snapshot whose backup raises. -/
theorem run_of_backup_error {e : PyError} {frames : ℤ × ℤ} (hw : w.Proceeds frames)
    (htemp : tempPath destination compress = .ok temp) (hopens : fs.Opens temp)
    (hbackup : (backup w live temp).run (opened w live temp fs) = (.error e, s)) :
    (createSnapshot w live destination compress).run fs = (.error e, s) := by
  rw [createSnapshot, hw.mkdir, htemp, run_bind_of_ok (run_lift _ fs),
    run_bind_of_ok (run_checkpoint hw), run_bind_of_ok (run_lift _ _),
    run_bind_of_ok (run_connect_checkpointed hw hopens), run_bind_of_error hbackup]

/-- A compressed snapshot whose backup is made. -/
theorem run_of_backup_ok {frames : ℤ × ℤ} {raw : Bytes} (hw : w.Proceeds frames)
    (hfault : w.readFault = none) (htemp : tempPath destination true = .ok temp)
    (hopens : fs.Opens temp)
    (hbackup : (backup w live temp).run (opened w live temp fs) = (.ok (), s))
    (hraw : s.read temp = some raw) :
    (createSnapshot w live destination true).run fs =
      (do
        writeBytes w destination (w.zstdCompress raw)
        unlink w temp
        return (⟨destination, true, frames.1, frames.2, (w.zstdCompress raw).length⟩ :
          DatabaseSnapshot)).run s := by
  rw [createSnapshot, hw.mkdir, htemp, run_bind_of_ok (run_lift _ fs),
    run_bind_of_ok (run_checkpoint hw), run_bind_of_ok (run_lift _ _),
    run_bind_of_ok (run_connect_checkpointed hw hopens), run_bind_of_ok hbackup, if_pos rfl,
    run_bind_of_ok (run_readBytes hfault hraw)]

end

/-! ### A book next to another one -/

namespace Reference

/-- The database of a book. -/
def ledgerFile : Path := ⟨["books"], "a.sqlite3"⟩

/-- The database of another book in the same directory. -/
def siblingFile : Path := ⟨["books"], "b.sqlite3"⟩

/-- No files. -/
def noFiles : Files where
  entries _ := none
  data _ := []
  next := 0
  bounded _ _ h := by cases h

/-- The files of the two books, with the log of the first one and its index. -/
def ledgerFiles : Files :=
  (((noFiles.create ledgerFile [1]).create (ledgerFile.beside "-wal") [3]).create
    (ledgerFile.beside "-shm") [4]).create siblingFile [2]

/-- An environment without faults; the log holds what is to be put after the database. -/
def appending : SnapshotWorld where
  pages db log := db ++ log
  pages_nil db := List.append_nil db

/-- A snapshot of the first book under the name of the other one. -/
def siblingOutput : Path := ⟨["books"], "b.zst"⟩

/-- A snapshot of the first book under a name of its own. -/
def freshOutput : Path := ⟨["books"], "c.zst"⟩

/-- The intermediate path of a snapshot under a name of its own. -/
def freshTemp : Path := ⟨["books"], "c.sqlite3"⟩

end Reference

end FinestVX
