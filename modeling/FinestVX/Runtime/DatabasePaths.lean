import FinestVX.Lib.Paths
import FinestVX.Core.Reference
import FinestVX.Persistence.Snapshot
import Mathlib.Data.Rat.Init
import Mathlib.Tactic.NormNum

/-!
# Database paths

Every book has a database of its own, the file in the data directory that is named after
its code.  The code is spliced into the path as it is, so that its slashes and dots are
those of the path.

## Main definitions

* `RuntimeConfig`, `MultiBookRuntimeConfig` — the settings of a runtime, and of a runtime of
  many books.
* `runtimeConfigFor` — the settings of the runtime of one book.
* `fileAt` — the file a path denotes.
* `Isolated` — two runtimes have files of their own in the data directory.

## Main results

* `fileAt_runtimeConfigFor` — the file of a book.
* `isolated_iff` — **two books are isolated exactly when** what is before the last slash of
  their codes leads back to the data directory, and what follows it differs.
* `isolated_of_noSlash` — codes without slashes.
* `Reference.dotted_shared` — two codes with one database.
-/

namespace FinestVX

open Except

section

variable [Platform]

/-! ### Settings -/

/-- The settings of a `LedgerRuntime`; those of its store but the path are left out. -/
structure RuntimeConfig where
  databasePath : PurePath
  queueTimeout : ℚ := 5
  pollInterval : ℚ := 1 / 10
  readLockTimeout : Option ℚ := some 5
  writeLockTimeout : Option ℚ := some 5
  legislativeInterpreterPoolMinSize : ℤ := 2
  legislativeInterpreterPoolMaxSize : ℤ := 8
  deriving DecidableEq

/-- The check of a timeout. -/
def requirePositive (value : ℚ) (name : String) : Except PyError Unit :=
  if value ≤ 0 then .error (.valueError (name ++ " must be positive")) else .ok ()

/-- `RuntimeConfig.__post_init__` -/
def RuntimeConfig.postInit (c : RuntimeConfig) : Except PyError RuntimeConfig := do
  requirePositive c.queueTimeout "queue_timeout"
  requirePositive c.pollInterval "poll_interval"
  let _ ← requirePositiveInt c.legislativeInterpreterPoolMinSize
    "legislative_interpreter_pool_min_size"
  if c.legislativeInterpreterPoolMaxSize < c.legislativeInterpreterPoolMinSize then
    throw (.valueError ("legislative_interpreter_pool_max_size must be >= " ++
      "legislative_interpreter_pool_min_size"))
  return c

/-- The fields of a `MultiBookRuntimeConfig`. -/
structure MultiBookRuntimeConfigFields where
  dataDirectory : PurePath
  queueTimeout : ℚ := 5
  pollInterval : ℚ := 1 / 10
  readLockTimeout : Option ℚ := some 5
  writeLockTimeout : Option ℚ := some 5
  legislativeInterpreterPoolMinSize : ℤ := 2
  legislativeInterpreterPoolMaxSize : ℤ := 8
  deriving DecidableEq

/-- `MultiBookRuntimeConfig.__post_init__`; the sizes of the pool are not checked here. -/
def MultiBookRuntimeConfigFields.postInit (c : MultiBookRuntimeConfigFields) :
    Except PyError MultiBookRuntimeConfigFields := do
  requirePositive c.queueTimeout "queue_timeout"
  requirePositive c.pollInterval "poll_interval"
  return c

/-- The settings of a runtime of many books. -/
abbrev MultiBookRuntimeConfig := Built MultiBookRuntimeConfigFields.postInit

/-- The suffix of a database. -/
def databaseSuffix : String := ".sqlite3"

/-- `Path(data_directory) / f"{book_code}.sqlite3"` -/
def databasePath (config : MultiBookRuntimeConfig) (code : String) : PurePath :=
  config.fields.dataDirectory.join (code ++ databaseSuffix)

/-- `MultiBookRuntime._runtime_config_for` -/
def runtimeConfigFor (config : MultiBookRuntimeConfig) (code : String) :
    Except PyError RuntimeConfig :=
  RuntimeConfig.postInit
    { databasePath := databasePath config code
      queueTimeout := config.fields.queueTimeout
      pollInterval := config.fields.pollInterval
      readLockTimeout := config.fields.readLockTimeout
      writeLockTimeout := config.fields.writeLockTimeout
      legislativeInterpreterPoolMinSize := config.fields.legislativeInterpreterPoolMinSize
      legislativeInterpreterPoolMaxSize := config.fields.legislativeInterpreterPoolMaxSize }

omit [Platform] in
theorem requirePositive_eq_ok {value : ℚ} {name : String} {u : Unit} :
    requirePositive value name = .ok u ↔ 0 < value := by
  rw [requirePositive, guard_eq_ok, not_le]
  exact and_iff_left rfl

omit [Platform] in
theorem MultiBookRuntimeConfigFields.postInit_eq_ok {c r : MultiBookRuntimeConfigFields} :
    c.postInit = .ok r ↔ r = c ∧ 0 < c.queueTimeout ∧ 0 < c.pollInterval := by
  constructor
  · intro h
    obtain ⟨_, hqueue, h⟩ := bind_eq_ok.mp h
    obtain ⟨_, hpoll, h⟩ := bind_eq_ok.mp h
    cases h
    exact ⟨rfl, requirePositive_eq_ok.mp hqueue, requirePositive_eq_ok.mp hpoll⟩
  · rintro ⟨rfl, hqueue, hpoll⟩
    refine bind_eq_ok.mpr ⟨(), requirePositive_eq_ok.mpr hqueue, ?_⟩
    exact bind_eq_ok.mpr ⟨(), requirePositive_eq_ok.mpr hpoll, rfl⟩

theorem RuntimeConfig.postInit_eq_ok {c r : RuntimeConfig} : c.postInit = .ok r ↔
    r = c ∧ 0 < c.queueTimeout ∧ 0 < c.pollInterval ∧ 0 < c.legislativeInterpreterPoolMinSize ∧
      c.legislativeInterpreterPoolMinSize ≤ c.legislativeInterpreterPoolMaxSize := by
  constructor
  · intro h
    obtain ⟨_, hqueue, h⟩ := bind_eq_ok.mp h
    obtain ⟨_, hpoll, h⟩ := bind_eq_ok.mp h
    obtain ⟨_, hmin, h⟩ := bind_eq_ok.mp h
    obtain ⟨hmax, h⟩ := guard_eq_ok.mp h
    cases h
    exact ⟨rfl, requirePositive_eq_ok.mp hqueue, requirePositive_eq_ok.mp hpoll,
      ((Platform.requirePositiveInt_eq_ok _ _ _).mp hmin).2, not_lt.mp hmax⟩
  · rintro ⟨rfl, hqueue, hpoll, hmin, hmax⟩
    refine bind_eq_ok.mpr ⟨(), requirePositive_eq_ok.mpr hqueue, ?_⟩
    refine bind_eq_ok.mpr ⟨(), requirePositive_eq_ok.mpr hpoll, ?_⟩
    refine bind_eq_ok.mpr ⟨_, (Platform.requirePositiveInt_eq_ok _ _ _).mpr ⟨rfl, hmin⟩, ?_⟩
    exact guard_eq_ok.mpr ⟨not_lt.mpr hmax, rfl⟩

/-! ### Files -/

/-- The file a path denotes for a process in a working directory. -/
def fileAt (cwd : List String) (p : PurePath) : Path :=
  ⟨(p.locate cwd).dropLast, (p.locate cwd).getLastD ""⟩

/-- The directory the code of a book leads to. -/
def codeDirectory (cwd : List String) (config : MultiBookRuntimeConfig) (code : String) :
    List String :=
  PurePath.walk (if PurePath.isAbsolute code then []
    else config.fields.dataDirectory.locate cwd) (PurePath.leading code)

omit [Platform] in
theorem locate_databasePath (cwd : List String) (config : MultiBookRuntimeConfig) (code : String) :
    (databasePath config code).locate cwd =
      codeDirectory cwd config code ++ [PurePath.final code ++ databaseSuffix] :=
  PurePath.locate_join_append cwd _ code (by decide) ⟨'s', by decide, by decide⟩

omit [Platform] in
theorem fileAt_databasePath (cwd : List String) (config : MultiBookRuntimeConfig) (code : String) :
    fileAt cwd (databasePath config code) =
      ⟨codeDirectory cwd config code, PurePath.final code ++ databaseSuffix⟩ := by
  rw [fileAt, locate_databasePath]
  simp

/-- **The file of a book**: the code leads to its directory, and its last part names it. -/
theorem fileAt_runtimeConfigFor {cwd : List String} {config : MultiBookRuntimeConfig}
    {code : String} {c : RuntimeConfig} (h : runtimeConfigFor config code = .ok c) :
    fileAt cwd c.databasePath =
      ⟨codeDirectory cwd config code, PurePath.final code ++ databaseSuffix⟩ := by
  rw [(RuntimeConfig.postInit_eq_ok.mp h).1]
  exact fileAt_databasePath cwd config code

/-! ### Isolation -/

/-- Two runtimes have two files, each in the data directory itself. -/
structure Isolated (cwd : List String) (config : MultiBookRuntimeConfig) (a b : RuntimeConfig) :
    Prop where
  differ : fileAt cwd a.databasePath ≠ fileAt cwd b.databasePath
  left : (fileAt cwd a.databasePath).parent = config.fields.dataDirectory.locate cwd
  right : (fileAt cwd b.databasePath).parent = config.fields.dataDirectory.locate cwd

/-- What is before the last slash of a code leads from the data directory back to it. -/
def LeadsBack (cwd : List String) (config : MultiBookRuntimeConfig) (code : String) : Prop :=
  codeDirectory cwd config code = config.fields.dataDirectory.locate cwd

instance (cwd : List String) (config : MultiBookRuntimeConfig) (code : String) :
    Decidable (LeadsBack cwd config code) :=
  inferInstanceAs (Decidable (_ = _))

theorem isolated_of_leadsBack {cwd : List String} {config : MultiBookRuntimeConfig}
    {code code' : String} {a b : RuntimeConfig} (ha : runtimeConfigFor config code = .ok a)
    (hb : runtimeConfigFor config code' = .ok b) (hleft : LeadsBack cwd config code)
    (hright : LeadsBack cwd config code') (hfinal : PurePath.final code ≠ PurePath.final code') :
    Isolated cwd config a b := by
  have hfile : fileAt cwd a.databasePath = _ := fileAt_runtimeConfigFor ha
  have hfile' : fileAt cwd b.databasePath = _ := fileAt_runtimeConfigFor hb
  refine ⟨?_, by rw [hfile]; exact hleft, by rw [hfile']; exact hright⟩
  rw [hfile, hfile']
  intro heq
  exact hfinal ((String.append_left_inj _).mp (congrArg Path.name heq))

/-- **Two books are isolated exactly when** what is before the last slash of each code leads
back to the data directory, and what follows it differs. -/
theorem isolated_iff {cwd : List String} {config : MultiBookRuntimeConfig} {code code' : String}
    {a b : RuntimeConfig} (ha : runtimeConfigFor config code = .ok a)
    (hb : runtimeConfigFor config code' = .ok b) :
    Isolated cwd config a b ↔ LeadsBack cwd config code ∧ LeadsBack cwd config code' ∧
      PurePath.final code ≠ PurePath.final code' := by
  have hfile : fileAt cwd a.databasePath = _ := fileAt_runtimeConfigFor ha
  have hfile' : fileAt cwd b.databasePath = _ := fileAt_runtimeConfigFor hb
  constructor
  · rintro ⟨hdiffer, hleft, hright⟩
    rw [hfile] at hleft
    rw [hfile'] at hright
    refine ⟨hleft, hright, fun hfinal => hdiffer ?_⟩
    rw [hfile, hfile', hfinal, show codeDirectory cwd config code = _ from hleft,
      show codeDirectory cwd config code' = _ from hright]
  · rintro ⟨hleft, hright, hfinal⟩
    exact isolated_of_leadsBack ha hb hleft hright hfinal

omit [Platform] in
/-- A code without slashes is the name of a file in the data directory. -/
theorem leadsBack_of_noSlash (cwd : List String) (config : MultiBookRuntimeConfig)
    {code : String} (hslash : '/' ∉ code.toList) :
    LeadsBack cwd config code ∧ PurePath.final code = code := by
  have hsegments := PurePath.segments_of_notMem hslash
  have habsolute : PurePath.isAbsolute code = false := by
    refine decide_eq_false fun h => hslash (List.mem_of_head? h)
  refine ⟨?_, by rw [PurePath.final, hsegments]; rfl⟩
  rw [LeadsBack, codeDirectory, habsolute, PurePath.leading, hsegments]
  rfl

/-- **Codes without slashes** always lead back, so that two of them are isolated. -/
theorem isolated_of_noSlash {cwd : List String} {config : MultiBookRuntimeConfig}
    {code code' : String} {a b : RuntimeConfig} (ha : runtimeConfigFor config code = .ok a)
    (hb : runtimeConfigFor config code' = .ok b) (hne : code ≠ code')
    (hslash : '/' ∉ code.toList) (hslash' : '/' ∉ code'.toList) : Isolated cwd config a b := by
  obtain ⟨hleft, hfinal⟩ := leadsBack_of_noSlash cwd config hslash
  obtain ⟨hright, hfinal'⟩ := leadsBack_of_noSlash cwd config hslash'
  exact isolated_of_leadsBack ha hb hleft hright (by rwa [hfinal, hfinal'])

end

/-! ### Evaluated -/

namespace Reference

/-- The settings of a runtime of books under `/data`. -/
def dataFields : MultiBookRuntimeConfigFields := { dataDirectory := ⟨true, ["data"]⟩ }

def dataConfig : MultiBookRuntimeConfig :=
  ⟨dataFields, dataFields, MultiBookRuntimeConfigFields.postInit_eq_ok.mpr
    ⟨rfl, by norm_num [dataFields], by norm_num [dataFields]⟩⟩

theorem runtimeConfigFor_dataConfig (code : String) : runtimeConfigFor dataConfig code =
    .ok { databasePath := databasePath dataConfig code } :=
  RuntimeConfig.postInit_eq_ok.mpr ⟨rfl, by norm_num [dataConfig, dataFields],
    by norm_num [dataConfig, dataFields], by norm_num [dataConfig, dataFields],
    by norm_num [dataConfig, dataFields]⟩

theorem isolated_plain : ∃ a b, runtimeConfigFor dataConfig "A" = .ok a ∧
    runtimeConfigFor dataConfig "B" = .ok b ∧ Isolated [] dataConfig a b := by
  have ha := runtimeConfigFor_dataConfig "A"
  have hb := runtimeConfigFor_dataConfig "B"
  exact ⟨_, _, ha, hb, (isolated_iff ha hb).mpr (by decide)⟩

/-- Two codes have one database, and a third one has a database elsewhere. -/
theorem dotted_shared : ∃ a b c, runtimeConfigFor dataConfig "A" = .ok a ∧
    runtimeConfigFor dataConfig "./A" = .ok b ∧ runtimeConfigFor dataConfig "../other" = .ok c ∧
    fileAt [] a.databasePath = fileAt [] b.databasePath ∧ ¬ Isolated [] dataConfig a b ∧
    fileAt [] c.databasePath = ⟨[], "other.sqlite3"⟩ := by
  refine ⟨_, _, _, runtimeConfigFor_dataConfig "A", runtimeConfigFor_dataConfig "./A",
    runtimeConfigFor_dataConfig "../other", ?_, ?_, ?_⟩
  · decide
  · intro h
    exact h.differ (by decide)
  · decide

end Reference

end FinestVX
