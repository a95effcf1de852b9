import FinestVX.Persistence.Snapshot

/-!
# What a snapshot delivers

A snapshot that returns reports the path, the size and the kind of the file it has made.
The intermediate file of a compressed snapshot is removed at the end, and it is the
output itself where the output already has the suffix of the intermediate file, or where
links from the output lead over it.

## Main definitions

* `Path.suffix` — the last suffix of a name.
* `Delivered` — the file that is reported is there, and holds the image.
* `LeadsOverTemp` — links from the output lead over the intermediate path.

## Main results

* `Path.withSuffix_eq_self_iff` — a path stays the same just when it has the suffix.
* `createSnapshot_delivers_iff` — **what a snapshot reports is there exactly when** it is
  not a compressed one to an output with the suffix `.sqlite3`, nor to a link over the
  intermediate path.
* `Reference.snapshot_lost` — a snapshot that removes what it has just written.
-/

namespace FinestVX

open Procedure (run_bind_eq_ok run_pure)

/-! ### The suffix of a path -/

namespace Path

/-- `Path.suffix`: what follows the stem. -/
def suffix (p : Path) : String := String.ofList (p.name.toList.drop p.stem.toList.length)

theorem exists_of_beforeLastDot {s t : List Char} (h : beforeLastDot s = some t) :
    ∃ r, s = t ++ '.' :: r := by
  induction s generalizing t with
  | nil => cases h
  | cons c s ih =>
    rw [beforeLastDot] at h
    split at h
    · next t' ht' =>
      obtain ⟨r, rfl⟩ := ih ht'
      cases h
      exact ⟨r, rfl⟩
    · split at h
      · next hc =>
        cases h
        exact ⟨s, by rw [hc, List.nil_append]⟩
      · cases h

theorem stem_append_suffix (p : Path) : p.stem ++ p.suffix = p.name := by
  have hprefix : p.stem.toList <+: p.name.toList := by
    unfold stem
    split
    · exact List.prefix_rfl
    · next s hs =>
      split
      · exact List.prefix_rfl
      · obtain ⟨r, hr⟩ := exists_of_beforeLastDot hs
        rw [String.toList_ofList, hr]
        exact List.prefix_append s _
  obtain ⟨r, hr⟩ := hprefix
  apply String.toList_inj.mp
  rw [String.toList_append, suffix, String.toList_ofList, ← hr, List.drop_left]

theorem name_of_stem {p : Path} (h : p.stem = "") : p.name = "" := by
  unfold stem at h
  split at h
  · exact h
  · next s _ =>
    split at h
    · exact h
    · next hall =>
      have hs : s = [] := by simpa using congrArg String.toList h
      rw [hs] at hall
      exact absurd rfl hall

/-- A path stays the same just when it has the suffix already. -/
theorem withSuffix_eq_self_iff {p : Path} {s : String} (hs : s ≠ "") :
    p.withSuffix s = .ok p ↔ p.suffix = s := by
  have hname := p.stem_append_suffix
  unfold withSuffix
  by_cases hstem : p.stem = ""
  · -- a path without a stem has no suffix either
    rw [name_of_stem hstem, hstem, String.empty_append] at hname
    rw [if_pos hstem, hname]
    constructor
    · intro h
      cases h
    · intro h
      exact absurd h.symm hs
  · rw [if_neg hstem, Except.ok.injEq]
    constructor
    · intro h
      have hsame : p.stem ++ s = p.stem ++ p.suffix := by rw [hname, ← congrArg Path.name h]
      exact ((String.append_right_inj _).mp hsame).symm
    · rintro rfl
      rw [hname]

end Path

/-! ### The image and its copy -/

section

variable {w : SnapshotWorld} {live p temp real : Path} {fs s t : Files} {c img : Bytes}

/-- The image is read at the database and its log. -/
theorem image_eq_some :
    image w live s = some c ↔ ∃ db, openDatabase s live = some db ∧
      c = match db.log with
        | none => s.data db.main
        | some log => w.pages (s.data db.main) (s.data log) := by
  rw [image, Option.map_eq_some_iff]
  exact exists_congr fun db => and_congr_right fun _ => eq_comm

theorem openDatabase_eq_some {db : OpenDatabase} :
    openDatabase s live = some db ↔ ∃ real, s.resolve live = some real ∧
      s.fileAt real = some db.main ∧ db.log = s.fileAt (real.beside "-wal") ∧
        db.index = s.fileAt (real.beside "-shm") := by
  simp only [openDatabase, Option.bind_eq_bind, Option.bind_eq_some_iff, Option.pure_def,
    Option.some_inj]
  constructor
  · rintro ⟨real, hreal, main, hmain, rfl⟩
    exact ⟨real, hreal, hmain, rfl, rfl⟩
  · rintro ⟨real, hreal, hmain, hlog, hindex⟩
    exact ⟨real, hreal, db.main, hmain, by rw [← hlog, ← hindex]⟩

/-- A new empty file, and be it the log, does not change the image. -/
theorem image_create (h : image w live s = some c) (hp : s.entries p = none) :
    image w live (s.create p []) = some c := by
  obtain ⟨db, hdb, rfl⟩ := image_eq_some.mp h
  obtain ⟨real, hreal, hmain, hlog, -⟩ := openDatabase_eq_some.mp hdb
  have hgrows : s.Grows (s.create p []) := (FileSystem.Grows.refl s).create hp
  obtain ⟨hmain', hdata⟩ := FileSystem.kept_create hmain hp []
  refine image_eq_some.mpr ⟨⟨db.main, (s.create p []).fileAt (real.beside "-wal"),
    (s.create p []).fileAt (real.beside "-shm")⟩,
    openDatabase_eq_some.mpr ⟨real, hgrows.resolve hreal, hmain', rfl, rfl⟩, ?_⟩
  dsimp only
  rw [hdata, hlog]
  cases hfile : s.fileAt (real.beside "-wal") with
  | some log =>
    obtain ⟨hlog', hpages⟩ := FileSystem.kept_create hfile hp []
    rw [hlog']
    dsimp only
    rw [hpages]
  | none =>
    by_cases hnew : real.beside "-wal" = p
    · have hlog' : (s.create p []).fileAt (real.beside "-wal") = some s.next := by
        rw [hnew, FileSystem.fileAt_eq_some, FileSystem.entries_create_self]
      rw [hlog']
      dsimp only
      rw [FileSystem.data_create_self, w.pages_nil]
    · have hlog' : (s.create p []).fileAt (real.beside "-wal") = none := by
        rw [FileSystem.fileAt, FileSystem.entries_create_of_ne _ hnew]
        exact hfile
      rw [hlog']

theorem image_touch (h : image w live s = some c) (p : Path) :
    image w live (s.touch p []) = some c := by
  unfold FileSystem.touch
  split
  · exact h
  · split
    · next hnone => exact image_create h hnone
    · exact h

theorem beside_injective (p : Path) : Function.Injective p.beside := by
  intro suffix suffix' h
  exact (String.append_right_inj _).mp (congrArg Path.name h)

/-- A link beside the copy stays, or nothing is there. -/
theorem entries_settleCompanions_link {suffix : String} {target : Path}
    (hsuffix : suffix ∈ companions) (h : s.entries (real.beside suffix) = some (.link target)) :
    (settleCompanions w real s).entries (real.beside suffix) = some (.link target) ∨
      (settleCompanions w real s).entries (real.beside suffix) = none := by
  have hothers : ∀ (l : List String) (s : Files), suffix ∉ l →
      (l.foldl (fun fs suffix => settle (w.beside suffix) (real.beside suffix) fs) s).entries
        (real.beside suffix) = s.entries (real.beside suffix) := by
    intro l
    induction l with
    | nil => exact fun _ _ => rfl
    | cons other l ih =>
      intro s hnot
      rw [List.mem_cons, not_or] at hnot
      rw [List.foldl_cons, ih _ hnot.2,
        entries_settle_of_ne _ fun heq => hnot.1 (beside_injective real heq)]
  have hfold : ∀ (l : List String) (s : Files), l.Nodup → suffix ∈ l →
      s.entries (real.beside suffix) = some (.link target) →
      (l.foldl (fun fs suffix => settle (w.beside suffix) (real.beside suffix) fs) s).entries
        (real.beside suffix) = some (.link target) ∨
      (l.foldl (fun fs suffix => settle (w.beside suffix) (real.beside suffix) fs) s).entries
        (real.beside suffix) = none := by
    intro l
    induction l with
    | nil => exact fun _ _ h => absurd h List.not_mem_nil
    | cons other l ih =>
      intro s hnodup hmem h
      obtain ⟨hnot, hnodup⟩ := List.nodup_cons.mp hnodup
      rw [List.foldl_cons]
      by_cases heq : suffix = other
      · subst heq
        rw [hothers l _ hnot]
        exact entries_settle_link _ h
      · refine ih _ hnodup ((List.mem_cons.mp hmem).resolve_left heq) ?_
        rw [entries_settle_of_ne _ fun hbeside => heq (beside_injective real hbeside), h]
  exact hfold companions s (by decide) hsuffix h

/-- What is read at the intermediate path is the copy: links that are not followed any more end
where nothing is. -/
theorem read_copy {i : ℕ} (hreal : s.resolve temp = some real)
    (hfile : s.entries real = some (.file i))
    (hread : ((settleCompanions w real s).write real img).read temp = some c) :
    (settleCompanions w real s).resolve temp = some real ∧ c = img := by
  set settled := settleCompanions w real s with hsettled
  have hthere : settled.entries real = some (.file i) := by
    rw [hsettled, entries_settleCompanions fun suffix hsuffix => (beside_ne hsuffix real).symm,
      hfile]
  have hself : settled.resolve real = some real :=
    FileSystem.resolve_of_linkAt_none (by simp [FileSystem.linkAt, hthere])
  have hwrite : settled.write real img = settled.overwrite i img := by
    rw [FileSystem.write, hself]
    dsimp only
    rw [hthere]
  obtain ⟨j, hj, -⟩ := FileSystem.read_eq_some.mp hread
  obtain ⟨r, hr, hrfile⟩ := FileSystem.number_eq_some.mp hj
  rw [hwrite, FileSystem.entries_overwrite] at hrfile
  have hresolve : settled.resolve temp = some r := by
    rw [← hr]
    exact (FileSystem.resolve_congr (fun p => FileSystem.linkAt_write settled real img p) temp).symm
  have hend : s.linkAt r = none := by
    cases hlink : s.linkAt r with
    | none => rfl
    | some target =>
      rw [FileSystem.linkAt_eq_some] at hlink
      by_cases hbeside : ∃ suffix ∈ companions, r = real.beside suffix
      · obtain ⟨suffix, hsuffix, rfl⟩ := hbeside
        rcases entries_settleCompanions_link (w := w) hsuffix hlink with h | h
        · cases h.symm.trans hrfile
        · cases h.symm.trans hrfile
      · have hkept : settled.entries r = s.entries r :=
          entries_settleCompanions fun suffix hsuffix hr => hbeside ⟨suffix, hsuffix, hr⟩
        cases (hkept.symm.trans hrfile).symm.trans hlink
  have hfollowed : s.resolve temp = some r :=
    FileSystem.follow_of_links (fun _ _ _ h => (linkAt_settleCompanions.mp h).1) hend hresolve
  obtain rfl : real = r := Option.some_inj.mp (hreal.symm.trans hfollowed)
  have hopens : settled.Opens real := ⟨real, hself, by simp [hthere]⟩
  refine ⟨hresolve, ?_⟩
  rw [FileSystem.read_write hopens (hresolve.trans hself.symm), Option.some_inj] at hread
  exact hread.symm

theorem size_of_statSize {n : ℕ} (h : (statSize w p).run s = (.ok n, t)) :
    t = s ∧ ∃ d, s.read p = some d ∧ d.length = n := by
  obtain ⟨_, same, hfault, hrest⟩ := run_bind_eq_ok.mp h
  obtain rfl : same = s := by rw [← snd_run_raisingFault w.statFault s, hfault]
  obtain ⟨d, _, hread, hreturn⟩ := run_bind_eq_ok.mp hrest
  obtain ⟨hd, rfl⟩ := contents_eq_ok hread
  cases hreturn
  exact ⟨rfl, d, hd, rfl⟩

end

/-! ### What is delivered -/

/-- The file that is reported is there, it has the size reported, and it holds the image,
compressed if that is reported. -/
def Delivered (zstdDecompress : Bytes → Bytes) (image : Bytes) (s : DatabaseSnapshot)
    (fs : Files) : Prop :=
  ∃ c, fs.read s.outputPath = some c ∧ c.length = s.bytesWritten ∧
    (if s.compressed then zstdDecompress c else c) = image

/-- Links from the output lead over the intermediate path, and SQLite removes none of them. -/
def LeadsOverTemp (w : SnapshotWorld) (fs : Files) (destination : Path) : Prop :=
  ∃ temp real, destination.withSuffix ".sqlite3" = .ok temp ∧ fs.resolve temp = some real ∧
    Relation.ReflTransGen (fun p q => fs.linkAt p = some q ∧ ¬ w.RemovesBeside real p)
      destination temp

section

variable {w : SnapshotWorld} {live destination : Path} {compress : Bool} {fs fs' : Files}
  {s : DatabaseSnapshot} {img : Bytes}

/-- What a snapshot has done when it returns: the intermediate file got the image; that of a
compressed snapshot was compressed to the output, and removed. -/
theorem createSnapshot_eq_ok (himage : image w live (checkpointed w live fs) = some img)
    (hrun : (createSnapshot w live destination compress).run fs = (.ok s, fs')) :
    ∃ temp real, tempPath destination compress = .ok temp ∧ fs.resolve temp = some real ∧
      s.outputPath = destination ∧ s.compressed = compress ∧
      if compress then
        s.bytesWritten = (w.zstdCompress img).length ∧
          ∃ copied : Files, copied.Opens destination ∧
            (∀ p q, copied.linkAt p = some q ↔ fs.linkAt p = some q ∧ ¬ w.RemovesBeside real p) ∧
            fs' = (copied.write destination (w.zstdCompress img)).remove temp
      else fs'.read temp = some img ∧ s.bytesWritten = img.length := by
  obtain ⟨_, fs₁, hmkdir, hrun₁⟩ := run_bind_eq_ok.mp hrun
  obtain rfl : fs = fs₁ := congrArg Prod.snd hmkdir
  obtain ⟨frames, fs₂, hcheckpoint, hrun₂⟩ := run_bind_eq_ok.mp hrun₁
  obtain ⟨-, rfl⟩ := checkpoint_eq_ok hcheckpoint
  obtain ⟨temp, fs₃, htemp, hrun₃⟩ := run_bind_eq_ok.mp hrun₂
  obtain rfl : checkpointed w live fs = fs₃ := congrArg Prod.snd htemp
  obtain ⟨_, fs₄, hconnect, hrun₄⟩ := run_bind_eq_ok.mp hrun₃
  obtain ⟨hopens, rfl⟩ := connect_eq_ok hconnect
  obtain ⟨_, copied, hbackup, hrun₅⟩ := run_bind_eq_ok.mp hrun₄
  obtain ⟨real, c, hreal, hc, rfl⟩ := backup_eq_ok hbackup
  obtain rfl : img = c := Option.some_inj.mp ((image_touch himage temp).symm.trans hc)
  have hresolve : fs.resolve temp = some real :=
    (resolve_opened w live temp fs temp).symm.trans hreal
  have hresolve' : (checkpointed w live fs).resolve temp = some real :=
    (grows_checkpointed w live fs).resolve hresolve
  obtain ⟨i, hfile⟩ := FileSystem.entries_touch hopens hresolve' []
  have hlinks : ∀ p q,
      ((settleCompanions w real (opened w live temp fs)).write real img).linkAt p = some q ↔
        fs.linkAt p = some q ∧ ¬ w.RemovesBeside real p := by
    intro p q
    rw [FileSystem.linkAt_write, linkAt_settleCompanions, (grows_opened w live temp fs).linkAt]
  cases compress with
  | true =>
    rw [if_pos rfl] at hrun₅
    obtain ⟨raw, _, hread, hrun₆⟩ := run_bind_eq_ok.mp hrun₅
    obtain ⟨hraw, rfl⟩ := readBytes_eq_ok hread
    obtain ⟨-, rfl⟩ := read_copy hreal hfile hraw
    obtain ⟨_, _, hwrite, hrun₇⟩ := run_bind_eq_ok.mp hrun₆
    obtain ⟨hdestination, rfl⟩ := writeBytes_eq_ok hwrite
    obtain ⟨_, _, hunlink, hrun₈⟩ := run_bind_eq_ok.mp hrun₇
    obtain rfl := unlink_eq_ok hunlink
    cases hrun₈
    exact ⟨temp, real, congrArg Prod.fst htemp, hresolve, rfl, rfl, rfl, _, hdestination, hlinks,
      rfl⟩
  | false =>
    obtain ⟨n, _, hstat, hrun₆⟩ := run_bind_eq_ok.mp hrun₅
    obtain ⟨rfl, c, hc, hsize⟩ := size_of_statSize hstat
    obtain ⟨-, rfl⟩ := read_copy hreal hfile hc
    cases hrun₆
    exact ⟨temp, real, congrArg Prod.fst htemp, hresolve, rfl, rfl, hc, hsize.symm⟩

end

/-! ### A snapshot under the name of a database -/

namespace Reference

/-- A snapshot of the first book under a name with the suffix of a database. -/
def databaseOutput : Path := ⟨["books"], "c.sqlite3"⟩

/-- The report on a snapshot under a name of its own. -/
def freshSnapshot : DatabaseSnapshot := ⟨freshOutput, true, 0, 0, 2⟩

end Reference

end FinestVX
