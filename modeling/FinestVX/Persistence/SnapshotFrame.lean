import FinestVX.Persistence.Snapshot

/-!
# What a snapshot keeps

Nothing keeps the intermediate path of a snapshot from being the database of another book, and
nothing keeps links from leading over it.  The checkpoint writes the files of the live database,
and SQLite settles the files beside the copy.

## Main definitions

* `OthersKept` — under every other path the same is read.
* `Disturbs` — the paths under which it is not.

## Main results

* `untouched_createSnapshot` — what is not listed is not touched, in any environment.
* `Disturbs.changes` — each path that is listed is disturbed in some environment.
* `createSnapshot_keeps_others_iff` — **a snapshot keeps what is read under the other paths exactly
  when** they are not disturbed.
* `Reference.sibling_deleted` — a snapshot that removes the database of another book.
-/

namespace FinestVX

open Procedure (after_bind run_bind_of_error run_bind_of_ok run_read)

/-! ### The frame -/

/-- Under every other path the same is read. -/
def OthersKept (output : Path) (fs fs' : Files) : Prop :=
  ∀ q, q ≠ output → ∀ c, fs.read q = some c → fs'.read q = some c

/-- The log of a database holds frames. -/
def LogHoldsFrames (fs : Files) (db : OpenDatabase) : Prop :=
  ∃ log, db.log = some log ∧ fs.data log ≠ []

/-- The index of the log is a file of its own. -/
def OpenDatabase.IndexApart (db : OpenDatabase) : Prop :=
  ∀ i, db.index = some i → i ≠ db.main ∧ db.log ≠ some i

/-- What is read under a path is already what the backup copies: the contents of the database,
whose log is empty. -/
def AlreadyCopied (fs : Files) (live q : Path) : Prop :=
  ∃ db, openDatabase fs live = some db ∧ ¬ LogHoldsFrames fs db ∧ db.IndexApart ∧
    fs.read q = some (fs.data db.main)

/-- The output can be opened, or could be if a link beside the copy were removed. -/
def OutputOpens (fs : Files) (temp destination : Path) : Prop :=
  fs.Opens destination ∨ ∃ real, fs.resolve temp = some real ∧ ∃ suffix ∈ companions,
    fs.linkAt (real.beside suffix) ≠ none ∧ (fs.remove (real.beside suffix)).Opens destination

/-- The paths under which a snapshot can change what is read. -/
inductive Disturbs (fs : Files) (live destination : Path) (compress : Bool) (q : Path) : Prop
  /-- The database and its log, while the log holds frames. -/
  | database {db : OpenDatabase} (hdb : openDatabase fs live = some db)
    (hframes : LogHoldsFrames fs db) (hq : fs.number q = some db.main ∨ fs.number q = db.log)
  /-- The index of the log. -/
  | index {db : OpenDatabase} {i : ℕ} (hdb : openDatabase fs live = some db)
    (hindex : db.index = some i) (hq : fs.number q = some i)
  /-- The file that gets the copy. -/
  | copy {temp : Path} (htemp : tempPath destination compress = .ok temp)
    (hq : fs.SameFile temp q) (hother : ¬ AlreadyCopied fs live q)
  /-- The files beside the copy. -/
  | beside {temp real : Path} {suffix : String}
    (htemp : tempPath destination compress = .ok temp) (hopens : fs.Opens temp)
    (hreal : fs.resolve temp = some real) (hsuffix : suffix ∈ companions)
    (hq : fs.Leads q (real.beside suffix) ∨
      ∃ i, fs.fileAt (real.beside suffix) = some i ∧ fs.number q = some i)
  /-- The file that gets the compressed copy. -/
  | output {temp : Path} (hcompress : compress = true)
    (htemp : tempPath destination compress = .ok temp) (hopens : fs.Opens temp)
    (hq : fs.SameFile destination q)
  /-- The intermediate path, which is removed once the output is written. -/
  | removed {temp : Path} (hcompress : compress = true)
    (htemp : tempPath destination compress = .ok temp) (hopens : fs.Opens temp)
    (houtput : OutputOpens fs temp destination) (hq : fs.Leads q temp)

/-! ### What a snapshot keeps -/

section

variable {fs s : Files} {q p live destination temp real : Path} {compress : Bool}
  {w : SnapshotWorld} {db : OpenDatabase} {c : Bytes}

/-- A checkpoint only writes the files of the database. -/
theorem untouched_checkpointed
    (hlog : ∀ db, openDatabase fs live = some db → LogHoldsFrames fs db →
      fs.number q ≠ some db.main ∧ fs.number q ≠ db.log)
    (hindex : ∀ db i, openDatabase fs live = some db → db.index = some i → fs.number q ≠ some i) :
    fs.Untouched q (checkpointed w live fs) := by
  unfold checkpointed
  split
  · exact .refl fs q
  · next db hdb =>
    have hmoved : fs.Untouched q (moveLog w db fs) := by
      unfold moveLog
      split
      · exact .refl fs q
      · next log hread =>
        split
        · exact .refl fs q
        · next hframes =>
          obtain ⟨hmain, hother⟩ := hlog db hdb ⟨log, hread, hframes⟩
          exact ((FileSystem.Untouched.refl fs q).overwrite (hread ▸ hother)).overwrite hmain
    unfold writeIndex
    split
    · exact hmoved
    · next i hi => exact hmoved.overwrite (hindex db i hdb hi)

theorem moveLog_of_empty (h : ¬ LogHoldsFrames fs db) : moveLog w db fs = fs := by
  unfold moveLog
  split
  · rfl
  · next log hlog => exact if_pos (by_contra fun hne => h ⟨log, hlog, hne⟩)

/-- A copy that is there already is made again. -/
theorem image_checkpointed (h : AlreadyCopied fs live q) :
    image w live (checkpointed w live fs) = fs.read q := by
  obtain ⟨db, hdb, hframes, hapart, hread⟩ := h
  have hmoved : moveLog w db fs = fs := moveLog_of_empty hframes
  have hdata : ∀ i, db.index ≠ some i → (checkpointed w live fs).data i = fs.data i := by
    intro i hi
    rw [checkpointed, hdb]
    dsimp only
    rw [hmoved, data_writeIndex, if_neg hi]
  have hmain : (checkpointed w live fs).data db.main = fs.data db.main :=
    hdata _ fun hi => (hapart _ hi).1 rfl
  rw [image, openDatabase_congr (entries_checkpointed w live fs), hdb, Option.map_some, hread]
  cases hlog : db.log with
  | none => exact congrArg some hmain
  | some log =>
    have hempty : fs.data log = [] := by_contra fun hne => hframes ⟨log, hlog, hne⟩
    have hkept : (checkpointed w live fs).data log = fs.data log :=
      hdata _ fun hi => (hapart _ hi).2 hlog
    dsimp only
    rw [hkept, hempty, w.pages_nil, hmain]

/-- What is settled at a path is not seen under another one. -/
theorem untouched_settle (h : fs.Untouched q s) (hleads : ¬ fs.Leads q p)
    (hfile : ¬ ∃ i, fs.fileAt p = some i ∧ fs.number q = some i) (choice : Option (Option Bytes)) :
    fs.Untouched q (settle choice p s) := by
  unfold settle
  split
  · exact h.remove fun hp => hleads hp.1
  · exact h.remove fun hp => hleads hp.1
  · next i hi => exact h.overwrite (h.fileAt_ne (FileSystem.fileAt_eq_some.mpr hi) hfile)
  · next hnone => exact h.create hnone
  · exact h

theorem untouched_settleCompanions (h : fs.Untouched q s)
    (hbeside : ∀ suffix ∈ companions, ¬ fs.Leads q (real.beside suffix) ∧
      ¬ ∃ i, fs.fileAt (real.beside suffix) = some i ∧ fs.number q = some i) :
    fs.Untouched q (settleCompanions w real s) :=
  List.foldlRecOn (motive := fun t => fs.Untouched q t) companions _ h fun _ ht suffix hsuffix =>
    untouched_settle ht (hbeside suffix hsuffix).1 (hbeside suffix hsuffix).2 _

theorem untouched_checkpoint (h : fs.Untouched q (checkpointed w live fs)) :
    fs.Untouched q ((checkpoint w live).run fs).2 := by
  unfold checkpoint
  split
  · exact h
  · rw [run_bind_of_ok (a := ())
      (t := if w.checkpointMade then checkpointed w live fs else fs) rfl]
    split
    · exact h
    · exact .refl fs q

theorem untouched_connect (h : fs.Untouched q s) :
    fs.Untouched q ((connect w p).run s).2 := by
  refine after_bind h fun _ t hlift ht => ?_
  rw [run_bind_of_ok (run_read t)]
  split
  · exact ht.touch
  · exact ht

theorem untouched_backup (h : fs.Untouched q s)
    (hbeside : ∀ real, s.resolve p = some real → ∀ suffix ∈ companions,
      ¬ fs.Leads q (real.beside suffix) ∧
        ¬ ∃ i, fs.fileAt (real.beside suffix) = some i ∧ fs.number q = some i)
    (hcopy : ∀ real c, s.resolve p = some real → image w live s = some c →
      fs.SameFile real q → fs.read q = some c) :
    fs.Untouched q ((backup w live p).run s).2 := by
  rw [backup, run_bind_of_ok (run_read s)]
  split
  · next real c hreal hc =>
    have hsettled : fs.Untouched q (settleCompanions w real s) :=
      untouched_settleCompanions h (hbeside real hreal)
    have hcopied := hsettled.write (hcopy real c hreal hc)
    rw [run_bind_of_ok (a := ()) (t := settleCompanions w real s) rfl]
    split
    · exact hcopied
    · next e copied _ =>
      cases copied with
      | true => exact hcopied
      | false => exact hsettled
  · exact h

theorem untouched_writeBytes (h : fs.Untouched q s) (hother : ¬ fs.SameFile p q) :
    fs.Untouched q ((writeBytes w p c).run s).2 := by
  rw [writeBytes, run_bind_of_ok (run_read s)]
  split
  · split
    · exact h.write fun hsame => absurd hsame hother
    · next e left _ =>
      cases left with
      | none => exact h
      | some d => exact h.write fun hsame => absurd hsame hother
  · exact h

theorem untouched_unlink (h : fs.Untouched q s) (hp : ¬ fs.Leads q p) :
    fs.Untouched q ((unlink w p).run s).2 := by
  refine after_bind ?_ fun _ t hfault ht => ?_
  · rw [snd_run_raisingFault]
    exact h
  · rw [run_bind_of_ok (run_read t)]
    split
    · exact ht.remove fun hremoved => hp hremoved.1
    · exact ht.remove fun hremoved => hp hremoved.1
    · exact ht

/-- The output is opened at its own links, or once a link beside the copy has been removed. -/
theorem outputOpens_of_opens {temp destination : Path} (hreal : fs.resolve temp = some real)
    (h : ((settleCompanions w real (opened w live temp fs)).write real c).Opens destination) :
    OutputOpens fs temp destination := by
  have hgrows := grows_opened w live temp fs
  have hlinks : ∀ r, ((settleCompanions w real (opened w live temp fs)).write real c).linkAt r =
      (settleCompanions w real (opened w live temp fs)).linkAt r :=
    fun r => FileSystem.linkAt_write _ real c r
  have hback : ∀ r t, ((settleCompanions w real (opened w live temp fs)).write real c).linkAt r =
      some t → fs.linkAt r = some t := by
    intro r t ht
    rw [hlinks] at ht
    rw [← hgrows.linkAt]
    exact (linkAt_settleCompanions.mp ht).1
  have hdirectories : ∀ r, fs.entries r = some .directory →
      ((settleCompanions w real (opened w live temp fs)).write real c).entries r =
        some .directory := by
    intro r hr
    have hsettled : (settleCompanions w real (opened w live temp fs)).entries r =
        some .directory := directory_settleCompanions ((hgrows.kept r (by simp [hr])).trans hr)
    rw [((FileSystem.Grows.refl _).write (p := real) (c := c)).kept r (by simp [hsettled]),
      hsettled]
  rcases FileSystem.opens_of_links hback hdirectories h with hopens | ⟨r, hlink, hnone, hopens⟩
  · exact .inl hopens
  · refine .inr ⟨real, hreal, ?_⟩
    by_contra hother
    have hentry := entries_settleCompanions (w := w) (s := opened w live temp fs) (r := r)
      fun suffix hsuffix hr => hother ⟨suffix, hsuffix, hr ▸ hlink, hr ▸ hopens⟩
    rw [hlinks, FileSystem.linkAt, hentry, ← FileSystem.linkAt, hgrows.linkAt] at hnone
    exact hlink hnone

/-- **What a snapshot does not disturb** it does not touch. -/
theorem untouched_createSnapshot (h : ¬ Disturbs fs live destination compress q)
    (w : SnapshotWorld) :
    fs.Untouched q ((createSnapshot w live destination compress).run fs).2 := by
  refine after_bind (.refl fs q) fun _ s hs _ => ?_
  obtain rfl : fs = s := congrArg Prod.snd hs
  have hcheckpointed : fs.Untouched q (checkpointed w live fs) := by
    refine untouched_checkpointed (fun db hdb hframes => ⟨?_, ?_⟩) fun db i hdb hi hq => ?_
    · exact fun hq => h (.database hdb hframes (.inl hq))
    · exact fun hq => h (.database hdb hframes (.inr hq))
    · exact h (.index hdb hi hq)
  refine after_bind (untouched_checkpoint hcheckpointed) fun frames s hs hkept => ?_
  obtain rfl : s = _ := (checkpoint_eq_ok hs).2
  refine after_bind hkept fun temp s hs _ => ?_
  have htemp : tempPath destination compress = .ok temp := congrArg Prod.fst hs
  obtain rfl : checkpointed w live fs = s := congrArg Prod.snd hs
  refine after_bind (untouched_connect hkept) fun _ s hs hkept => ?_
  obtain ⟨hopens, rfl⟩ := connect_eq_ok hs
  rw [opens_checkpointed] at hopens
  have hreal : ∀ real, (opened w live temp fs).resolve temp = some real →
      fs.resolve temp = some real := by
    intro real hr
    rw [← hr, resolve_opened]
  have hbacked : fs.Untouched q ((backup w live temp).run (opened w live temp fs)).2 := by
    refine untouched_backup hkept (fun real hr suffix hsuffix => ⟨?_, ?_⟩)
      fun real c hr hc hsame => ?_
    · exact fun hq => h (.beside htemp hopens (hreal real hr) hsuffix (.inl hq))
    · exact fun hq => h (.beside htemp hopens (hreal real hr) hsuffix (.inr hq))
    · have hsame' : fs.SameFile temp q := by
        rwa [FileSystem.SameFile, FileSystem.number_of_resolve (hreal real hr)] at hsame
      have hcopied : AlreadyCopied fs live q :=
        by_contra fun hother => h (.copy htemp hsame' hother)
      obtain ⟨i, hi, -⟩ := hsame'
      rw [← image_checkpointed (w := w) hcopied, ← opened_of_number hi]
      exact hc
  refine after_bind hbacked fun _ s hs hkept => ?_
  obtain ⟨real, c, hr, -, rfl⟩ := backup_eq_ok hs
  split
  · next hcompress =>
    refine after_bind ?_ fun raw s hs hkept => ?_
    · rw [snd_run_readBytes]
      exact hkept
    · obtain ⟨-, rfl⟩ := readBytes_eq_ok hs
      refine after_bind (untouched_writeBytes hkept fun hsame => ?_) fun _ s hs hkept => ?_
      · exact h (.output hcompress htemp hopens hsame)
      · obtain ⟨houtput, rfl⟩ := writeBytes_eq_ok hs
        have houtput' := outputOpens_of_opens (hreal real hr) houtput
        exact after_bind (untouched_unlink hkept fun hleads =>
          h (.removed hcompress htemp hopens houtput' hleads)) fun _ _ _ hkept => hkept
  · refine after_bind ?_ fun _ _ _ hkept => hkept
    rw [snd_run_statSize]
    exact hkept

end

/-! ### What a snapshot can change -/

section

variable {fs s : Files} {q p live destination temp real : Path} {compress : Bool}
  {w : SnapshotWorld} {db : OpenDatabase} {c : Bytes} {suffix : String}

/-- An environment in which the pages of the log make something else of `c`, and of the index of
the log. -/
def changing (c : Bytes) : SnapshotWorld where
  pages db log := if log = [] then db else c ++ [0]
  pages_nil _ := if_pos rfl
  walIndex _ := c ++ [0]

theorem append_zero_ne (c : Bytes) : c ++ [0] ≠ c := by simp

theorem read_of_number {i : ℕ} (h : s.number q = some i) : s.read q = some (s.data i) := by
  rw [FileSystem.read, h, Option.map_some]

theorem data_of_read {i : ℕ} (h : s.number q = some i) (hread : s.read q = some c) :
    s.data i = c := by
  rwa [read_of_number h, Option.some_inj] at hread

/-- What is read under the database and its log changes with the frames that are moved. -/
theorem changed_database (hdb : openDatabase fs live = some db) (hframes : LogHoldsFrames fs db)
    (hq : fs.number q = some db.main ∨ fs.number q = db.log) (hread : fs.read q = some c) :
    (checkpointed (changing c) live fs).read q ≠ some c := by
  obtain ⟨log, hlog, hne⟩ := hframes
  have hpages : (changing c).pages (fs.data db.main) (fs.data log) = c ++ [0] := if_neg hne
  obtain ⟨i, hi, hmoved⟩ : ∃ i, fs.number q = some i ∧ (i = db.main ∨ i = log) := by
    rcases hq with hq | hq
    · exact ⟨_, hq, .inl rfl⟩
    · exact ⟨log, hq.trans hlog, .inr rfl⟩
  rw [read_of_number ((grows_checkpointed _ live fs).number hi), Ne, Option.some_inj, checkpointed,
    hdb]
  dsimp only
  rw [data_writeIndex, data_moveLog hlog hne, hpages]
  split
  · exact append_zero_ne c
  · split
    · exact append_zero_ne c
    · next hmain =>
      obtain rfl : i = log := hmoved.resolve_left hmain
      rw [if_pos rfl, ← data_of_read hi hread]
      exact hne.symm

/-- What is read under the index of the log changes. -/
theorem changed_index {i : ℕ} (hdb : openDatabase fs live = some db) (hindex : db.index = some i)
    (hq : fs.number q = some i) : (checkpointed (changing c) live fs).read q ≠ some c := by
  rw [read_of_number ((grows_checkpointed _ live fs).number hq), Ne, Option.some_inj, checkpointed,
    hdb]
  dsimp only
  rw [data_writeIndex, if_pos hindex]
  exact append_zero_ne c

/-- Another image is copied than what is not copied already. -/
theorem image_ne (hdb : openDatabase fs live = some db) (hread : fs.read q = some c)
    (hother : ¬ AlreadyCopied fs live q) :
    image (changing c) live (checkpointed (changing c) live fs) ≠ some c := by
  intro himage
  set s := checkpointed (changing c) live fs with hs
  have hdata : ∀ i, s.data i =
      if db.index = some i then c ++ [0] else (moveLog (changing c) db fs).data i := by
    intro i
    rw [hs, checkpointed, hdb]
    exact data_writeIndex _ db _ i
  rw [image, openDatabase_congr (entries_checkpointed _ live fs), hdb, Option.map_some,
    Option.some_inj] at himage
  -- the image is read from the database, and from the log unless it is empty
  have hmain : s.data db.main = c := by
    split at himage
    · exact himage
    · change (if _ then _ else _) = c at himage
      split at himage
      · exact himage
      · exact absurd himage (append_zero_ne c)
  have hempty : ∀ log, db.log = some log → s.data log = [] := by
    intro log hlog
    rw [hlog] at himage
    by_contra hne
    exact append_zero_ne c ((if_neg hne).symm.trans himage)
  have hframes : ¬ LogHoldsFrames fs db := by
    rintro ⟨log, hlog, hne⟩
    rw [hdata] at hmain
    split at hmain
    · exact append_zero_ne c hmain
    · rw [data_moveLog hlog hne, if_pos rfl] at hmain
      exact append_zero_ne c ((if_neg hne).symm.trans hmain)
  have hapart : db.IndexApart := by
    intro i hi
    have hchanged : s.data i = c ++ [0] := (hdata i).trans (if_pos hi)
    constructor
    · rintro rfl
      exact append_zero_ne c (hchanged.symm.trans hmain)
    · intro hlog
      rw [hempty i hlog] at hchanged
      simp at hchanged
  refine hother ⟨db, hdb, hframes, hapart, ?_⟩
  rw [hdata, if_neg fun hi => (hapart _ hi).1 rfl, moveLog_of_empty hframes] at hmain
  rw [hread, hmain]

/-! Each of the paths that are listed is disturbed in some environment. -/

/-- What is read under a path can change. -/
def Changes (fs : Files) (live destination : Path) (compress : Bool) (q : Path) : Prop :=
  ∃ w, ((createSnapshot w live destination compress).run fs).2.read q ≠ fs.read q

theorem changes_of_checkpointed (hread : fs.read q = some c)
    (h : (checkpointed (changing c) live fs).read q ≠ some c) :
    Changes fs live destination compress q := by
  refine ⟨{ changing c with
    walCheckpoint := .error (.fault "interrupted"), checkpointMade := true }, ?_⟩
  rw [run_of_checkpoint_error rfl rfl rfl, hread]
  exact h

theorem changes_of_copy (hdb : openDatabase fs live = some db) (hread : fs.read q = some c)
    (htemp : tempPath destination compress = .ok temp) (hq : fs.SameFile temp q)
    (hother : ¬ AlreadyCopied fs live q) : Changes fs live destination compress q := by
  obtain ⟨i, hi, hqi⟩ := hq
  obtain ⟨real, hreal, hfile⟩ := FileSystem.number_eq_some.mp hi
  have hopens : fs.Opens temp := ⟨real, hreal, by simp [hfile]⟩
  let w : SnapshotWorld := { changing c with backupFault := some (.fault "disk I/O error", true) }
  have hopened : opened w live temp fs = checkpointed (changing c) live fs := opened_of_number hi
  obtain ⟨img, himg⟩ := exists_image hdb w temp
  have hne : img ≠ c := by
    rintro rfl
    rw [hopened] at himg
    exact image_ne hdb hread hother himg
  have hbackup := run_backup_of_fault ((resolve_opened w live temp fs temp).trans hreal) himg rfl
  refine ⟨w, ?_⟩
  rw [run_of_backup_error ⟨rfl, rfl, rfl⟩ htemp hopens hbackup, hread, if_pos rfl,
    settleCompanions_none rfl, FileSystem.read_write_of_sameFile, Ne, Option.some_inj]
  · exact hne
  · refine (grows_opened w live temp fs).sameFile ⟨i, ?_, hqi⟩
    rw [FileSystem.number_of_resolve hreal, hi]

theorem changes_of_beside (hdb : openDatabase fs live = some db) (hread : fs.read q = some c)
    (htemp : tempPath destination compress = .ok temp) (hopens : fs.Opens temp)
    (hreal : fs.resolve temp = some real) (hsuffix : suffix ∈ companions)
    (hq : fs.Leads q (real.beside suffix) ∨
      ∃ i, fs.fileAt (real.beside suffix) = some i ∧ fs.number q = some i) :
    Changes fs live destination compress q := by
  have hsettled : ∀ choice : Option Bytes, ∃ w : SnapshotWorld,
      ((createSnapshot w live destination compress).run fs).2 =
        settle (some choice) (real.beside suffix) (opened w live temp fs) := by
    intro choice
    let w : SnapshotWorld :=
      { beside := fun s => if s = suffix then some choice else none
        backupFault := some (.fault "disk I/O error", false) }
    obtain ⟨img, himg⟩ := exists_image hdb w temp
    have hbackup := run_backup_of_fault ((resolve_opened w live temp fs temp).trans hreal) himg rfl
    refine ⟨w, ?_⟩
    rw [run_of_backup_error ⟨rfl, rfl, rfl⟩ htemp hopens hbackup,
      settleCompanions_single rfl hsuffix]
    rfl
  obtain hleads | ⟨i, hi, hqi⟩ := hq
  · obtain ⟨w, hw⟩ := hsettled none
    have hgrows := grows_opened w live temp fs
    refine ⟨w, ?_⟩
    rw [hw, settle_remove (hgrows.removable (FileSystem.removable_of_leads hleads hread)),
      FileSystem.read_remove (hgrows.leads.mpr hleads), hread]
    simp
  · obtain ⟨w, hw⟩ := hsettled (some (c ++ [0]))
    have hgrows := grows_opened w live temp fs
    rw [FileSystem.fileAt_eq_some] at hi
    refine ⟨w, ?_⟩
    rw [hw, settle_overwrite ((hgrows.kept _ (by simp [hi])).trans hi),
      FileSystem.read_overwrite (hgrows.number hqi), hread, Ne, Option.some_inj]
    exact append_zero_ne c

theorem changes_of_output (hdb : openDatabase fs live = some db) (hread : fs.read q = some c)
    (htemp : tempPath destination true = .ok temp) (hopens : fs.Opens temp)
    (hq : fs.SameFile destination q) : Changes fs live destination true q := by
  let w : SnapshotWorld := { writeFault := some (.fault "disk full", some (c ++ [0])) }
  obtain ⟨img, himg⟩ := exists_image hdb w temp
  obtain ⟨real, hreal⟩ : ∃ real, fs.resolve temp = some real := ⟨_, hopens.choose_spec.1⟩
  have hresolve := (resolve_opened w live temp fs temp).trans hreal
  have hbackup := run_backup hresolve himg rfl
  rw [settleCompanions_none rfl] at hbackup
  have hgrows : fs.Grows ((opened w live temp fs).write real img) := (grows_opened ..).write
  have hraw : ((opened w live temp fs).write real img).read temp = some img :=
    FileSystem.read_write (FileSystem.opens_of_resolve ((grows_opened ..).opens hopens) hresolve)
      (hresolve.trans (FileSystem.resolve_self hresolve).symm) img
  have hdestination : fs.Opens destination := FileSystem.opens_of_number hq.choose_spec.1
  refine ⟨w, ?_⟩
  rw [run_of_backup_ok ⟨rfl, rfl, rfl⟩ rfl htemp hopens hbackup hraw,
    run_bind_of_error (run_writeBytes_of_fault (hgrows.opens hdestination) rfl),
    FileSystem.read_write_of_sameFile (hgrows.sameFile hq), hread, Ne, Option.some_inj]
  exact append_zero_ne c

/-- A snapshot without faults removes the intermediate path, and what is read over it. -/
theorem read_of_removed (hdb : openDatabase fs live = some db)
    (htemp : tempPath destination true = .ok temp) (hopens : fs.Opens temp)
    (hw : w = { beside := w.beside }) (hs : settleCompanions w real (opened w live temp fs) = s)
    (hresolve : fs.resolve temp = some real) (hreal : s.resolve temp = some real)
    (htempOpens : s.Opens temp) (hdestination : s.Opens destination) (hremovable : s.Removable temp)
    (hleads : s.Leads q temp) :
    ((createSnapshot w live destination true).run fs).2.read q = none := by
  rw [hw] at hs ⊢
  set w' : SnapshotWorld := { beside := w.beside }
  obtain ⟨img, himg⟩ := exists_image hdb w' temp
  have hbackup := run_backup ((resolve_opened w' live temp fs temp).trans hresolve) himg rfl
  rw [hs] at hbackup
  have hgrows : s.Grows (s.write real img) := (FileSystem.Grows.refl s).write
  have hraw : (s.write real img).read temp = some img :=
    FileSystem.read_write (FileSystem.opens_of_resolve htempOpens hreal)
      (hreal.trans (FileSystem.resolve_self hreal).symm) img
  have hgrows' : s.Grows ((s.write real img).write destination (w'.zstdCompress img)) :=
    hgrows.write
  rw [run_of_backup_ok ⟨rfl, rfl, rfl⟩ rfl htemp hopens hbackup hraw,
    run_bind_of_ok (run_writeBytes (hgrows.opens hdestination) rfl),
    run_bind_of_ok (run_unlink rfl (hgrows'.removable hremovable))]
  exact FileSystem.read_remove (hgrows'.leads.mpr hleads)

theorem changes_of_removed (hdb : openDatabase fs live = some db) (hread : fs.read q = some c)
    (htemp : tempPath destination true = .ok temp) (hopens : fs.Opens temp)
    (houtput : OutputOpens fs temp destination) (hq : fs.Leads q temp) :
    Changes fs live destination true q := by
  have hremovable := FileSystem.removable_of_leads hq hread
  obtain hdestination | ⟨real, hreal, suffix, hsuffix, hlink, hdestination⟩ := houtput
  · obtain ⟨real, hreal⟩ : ∃ real, fs.resolve temp = some real := ⟨_, hopens.choose_spec.1⟩
    have hgrows := grows_opened {} live temp fs
    refine ⟨{}, ?_⟩
    rw [read_of_removed hdb htemp hopens rfl (settleCompanions_none rfl real _) hreal
      (hgrows.resolve hreal) (hgrows.opens hopens) (hgrows.opens hdestination)
      (hgrows.removable hremovable) (hgrows.leads.mpr hq), hread]
    simp
  · -- the link that keeps the output from being opened can be removed
    by_cases hover : fs.Leads q (real.beside suffix)
    · exact changes_of_beside hdb hread htemp hopens hreal hsuffix (.inl hover)
    · have hnever : ¬ fs.Leads temp (real.beside suffix) := fun h => hover (hq.trans h)
      have hne : temp ≠ real.beside suffix := by
        rintro rfl
        exact hnever .refl
      let w : SnapshotWorld := { beside := fun s => if s = suffix then some none else none }
      have hgrows : (fs.remove (real.beside suffix)).Grows
          ((opened w live temp fs).remove (real.beside suffix)) := (grows_opened ..).remove _
      have hresolve := FileSystem.resolve_remove hnever hreal
      have hbeside : fs.Removable (real.beside suffix) := FileSystem.removable_of_linkAt hlink
      refine ⟨w, ?_⟩
      rw [read_of_removed (q := q) hdb htemp hopens rfl
        ((settleCompanions_single rfl hsuffix real _).trans
          (settle_remove ((grows_opened w live temp fs).removable hbeside))) hreal
        (hgrows.resolve hresolve) (hgrows.opens ?_) (hgrows.opens hdestination)
        (hgrows.removable ?_) (hgrows.leads.mpr (FileSystem.leads_remove hq hover)), hread]
      · simp
      · exact FileSystem.opens_remove hnever hopens
      · rwa [FileSystem.Removable, FileSystem.entries_remove_of_ne _ hne]

/-- Each path that is listed can change. -/
theorem Disturbs.changes (hlive : (fs.read live).isSome) (hread : fs.read q = some c)
    (h : Disturbs fs live destination compress q) : Changes fs live destination compress q := by
  obtain ⟨i, hi⟩ : ∃ i, fs.number live = some i := by
    obtain ⟨d, hd⟩ := Option.isSome_iff_exists.mp hlive
    obtain ⟨i, hi, -⟩ := FileSystem.read_eq_some.mp hd
    exact ⟨i, hi⟩
  obtain ⟨db, hdb⟩ := exists_openDatabase_iff.mpr ⟨i, hi⟩
  cases h with
  | database hdb hframes hq =>
    exact changes_of_checkpointed hread (changed_database hdb hframes hq hread)
  | index hdb hindex hq => exact changes_of_checkpointed hread (changed_index hdb hindex hq)
  | copy htemp hq hother => exact changes_of_copy hdb hread htemp hq hother
  | beside htemp hopens hreal hsuffix hq =>
    exact changes_of_beside hdb hread htemp hopens hreal hsuffix hq
  | output hcompress htemp hopens hq =>
    subst hcompress
    exact changes_of_output hdb hread htemp hopens hq
  | removed hcompress htemp hopens houtput hq =>
    subst hcompress
    exact changes_of_removed hdb hread htemp hopens houtput hq

/-- What is read under a path stays exactly when it is not disturbed. -/
theorem createSnapshot_keeps_iff (hlive : (fs.read live).isSome) (hread : fs.read q = some c) :
    (∀ w, ((createSnapshot w live destination compress).run fs).2.read q = some c) ↔
      ¬ Disturbs fs live destination compress q := by
  constructor
  · intro hkept hdisturbs
    obtain ⟨w, hw⟩ := hdisturbs.changes hlive hread
    exact hw ((hkept w).trans hread.symm)
  · intro h w
    exact (untouched_createSnapshot h w).read hread

/-- **A snapshot keeps what is read under all other paths**, however the environment answers its
steps, **exactly when** none of them is disturbed; and each path for itself. -/
theorem createSnapshot_keeps_others_iff {fs : Files} {live destination : Path} {compress : Bool}
    (hlive : (fs.read live).isSome) :
    ((∀ w, OthersKept destination fs ((createSnapshot w live destination compress).run fs).2) ↔
      ∀ q, q ≠ destination → (fs.read q).isSome → ¬ Disturbs fs live destination compress q) ∧
    ∀ q c, fs.read q = some c →
      ((∀ w, ((createSnapshot w live destination compress).run fs).2.read q = some c) ↔
        ¬ Disturbs fs live destination compress q) := by
  refine ⟨⟨?_, ?_⟩, fun q c hread => createSnapshot_keeps_iff hlive hread⟩
  · intro hkept q hq hsome
    obtain ⟨c, hc⟩ := Option.isSome_iff_exists.mp hsome
    exact (createSnapshot_keeps_iff hlive hc).mp fun w => hkept w q hq c hc
  · intro hnone w q hq c hc
    have hcalm := hnone q hq (Option.isSome_iff_exists.mpr ⟨c, hc⟩)
    exact (createSnapshot_keeps_iff hlive hc).mpr hcalm w

end

/-! ### A snapshot under the name of another book -/

namespace Reference

/-- The intermediate path of a snapshot of one book can be the database of another one,
which the snapshot removes. -/
theorem sibling_deleted : siblingOutput ≠ ledgerFile ∧
    ¬ OthersKept siblingOutput ledgerFiles
      ((createSnapshot appending ledgerFile siblingOutput true).run ledgerFiles).2 := by
  refine ⟨by decide, fun hkept => ?_⟩
  have hsibling := hkept siblingFile (by decide) [2] rfl
  have hremoved : ((createSnapshot appending ledgerFile siblingOutput true).run ledgerFiles).2.read
      siblingFile = none := rfl
  rw [hremoved] at hsibling
  cases hsibling

/-- The other book is not disturbed by a snapshot under a name of its own. -/
theorem calm_siblingFile : ¬ Disturbs ledgerFiles ledgerFile freshOutput true siblingFile := by
  have hsibling : ledgerFiles.number siblingFile = some 3 := rfl
  have hopened : openDatabase ledgerFiles ledgerFile = some ⟨0, some 1, some 2⟩ := rfl
  have htempPath : tempPath freshOutput true = .ok freshTemp := rfl
  have hleads : ∀ p, ledgerFiles.Leads siblingFile p → p = siblingFile :=
    fun p => (FileSystem.leads_of_linkAt_none rfl).mp
  intro h
  cases h with
  | database hdb _ hq =>
    rw [hopened, Option.some_inj] at hdb
    subst hdb
    rw [hsibling] at hq
    exact absurd hq (by decide)
  | index hdb hindex hq =>
    rw [hopened, Option.some_inj] at hdb
    subst hdb
    rw [hsibling, Option.some_inj] at hq
    subst hq
    exact absurd hindex (by decide)
  | copy htemp hq _ =>
    cases htemp.symm.trans htempPath
    obtain ⟨i, hi, -⟩ := hq
    cases hi
  | beside htemp _ hreal hsuffix hq =>
    cases htemp.symm.trans htempPath
    cases hreal
    simp only [companions, List.mem_cons, List.not_mem_nil, or_false] at hsuffix
    obtain hq | ⟨i, hi, -⟩ := hq
    · obtain rfl | rfl | rfl := hsuffix <;> exact absurd (hleads _ hq) (by decide)
    · obtain rfl | rfl | rfl := hsuffix <;> cases hi
  | output _ _ _ hq =>
    obtain ⟨i, hi, -⟩ := hq
    cases hi
  | removed _ htemp _ _ hq =>
    cases htemp.symm.trans htempPath
    exact absurd (hleads _ hq) (by decide)

theorem siblings_kept : ledgerFiles.read siblingFile = some [2] ∧
    ∀ w, ((createSnapshot w ledgerFile freshOutput true).run ledgerFiles).2.read siblingFile =
      some [2] := by
  have hlive : (ledgerFiles.read ledgerFile).isSome := rfl
  exact ⟨rfl, ((createSnapshot_keeps_others_iff hlive).2 siblingFile [2] rfl).mpr calm_siblingFile⟩

end Reference

end FinestVX
