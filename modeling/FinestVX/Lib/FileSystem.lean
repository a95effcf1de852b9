import Mathlib.Data.Nat.Notation
import Mathlib.Logic.Function.Basic
import Mathlib.Logic.Relation

/-!
# File systems

A name stands for a file, for a directory, or it is a symbolic link to another name; a file
can have many names.  What a program does under one name is therefore seen under others: when
links from there lead over a name that is removed, or end at a file that is written.

## Main definitions

* `FileSystem` — the names, and the contents of the files by number.
* `FileSystem.number`, `FileSystem.read` — the file of a name, through links, and its contents.
* `FileSystem.overwrite`, `create`, `remove`, `write` — what programs do.
* `FileSystem.Leads` — links lead from one name to another.
* `FileSystem.Untouched` — what is read under a name is as it was.

## Main results

* `FileSystem.Untouched.read` — what is not touched is read again.
* `FileSystem.Untouched.overwrite`, `Untouched.remove`, `Untouched.create`, `Untouched.write` —
  **what a step does not touch**: files of other numbers, and names that links do not lead over.
* `FileSystem.read_overwrite`, `read_remove` — what a step does touch.
-/

/-- What a name stands for: a file by its number, a symbolic link, or a directory. -/
inductive FileSystem.Entry (π : Type)
  | file (number : ℕ)
  | link (target : π)
  | directory
  deriving DecidableEq

/-- The names, and the contents of the files. -/
structure FileSystem (π β : Type) where
  entries : π → Option (FileSystem.Entry π)
  data : ℕ → β
  /-- The number that the next new file gets. -/
  next : ℕ
  bounded : ∀ p i, entries p = some (.file i) → i < next

namespace FileSystem

variable {π β : Type}

/-! ### Names -/

section

variable (fs : FileSystem π β)

/-- The target of a link. -/
def linkAt (p : π) : Option π :=
  match fs.entries p with
  | some (.link q) => some q
  | _ => none

/-- The file a name stands for itself. -/
def fileAt (p : π) : Option ℕ :=
  match fs.entries p with
  | some (.file i) => some i
  | _ => none

/-- The name at which links end, when there are at most `n` of them. -/
def follow : ℕ → π → Option π
  | 0, p => if fs.linkAt p = none then some p else none
  | n + 1, p =>
    match fs.linkAt p with
    | none => some p
    | some q => follow n q

/-- The number of links an operating system follows. -/
def linkLimit : ℕ := 40

/-- The name at which the links from a name end. -/
def resolve (p : π) : Option π := fs.follow linkLimit p

/-- The file a name stands for, through links. -/
def number (p : π) : Option ℕ := (fs.resolve p).bind fs.fileAt

/-- What is read under a name. -/
def read (p : π) : Option β := (fs.number p).map fs.data

/-- Links lead from one name to another. -/
def Leads : π → π → Prop := Relation.ReflTransGen fun a b => fs.linkAt a = some b

/-- Two names stand for one file. -/
def SameFile (p q : π) : Prop := ∃ i, fs.number p = some i ∧ fs.number q = some i

/-- A file or a link is there, which can be removed. -/
def Removable (p : π) : Prop := fs.entries p ≠ none ∧ fs.entries p ≠ some .directory

/-- A file can be opened under the name, or made there. -/
def Opens (p : π) : Prop := ∃ r, fs.resolve p = some r ∧ fs.entries r ≠ some .directory

end

variable {fs fs' : FileSystem π β} {p q r : π} {i n : ℕ} {c : β}

@[simp] theorem linkAt_eq_some : fs.linkAt p = some q ↔ fs.entries p = some (.link q) := by
  unfold linkAt
  split <;> simp_all

@[simp] theorem fileAt_eq_some : fs.fileAt p = some i ↔ fs.entries p = some (.file i) := by
  unfold fileAt
  split <;> simp_all

theorem number_eq_some :
    fs.number p = some i ↔ ∃ r, fs.resolve p = some r ∧ fs.entries r = some (.file i) := by
  simp only [number, Option.bind_eq_some_iff, fileAt_eq_some]

theorem read_eq_some : fs.read p = some c ↔ ∃ i, fs.number p = some i ∧ fs.data i = c :=
  Option.map_eq_some_iff

theorem number_lt (h : fs.number p = some i) : i < fs.next := by
  obtain ⟨r, -, hr⟩ := number_eq_some.mp h
  exact fs.bounded r i hr

/-- Links are followed to a name that is no link. -/
theorem leads_of_follow (h : fs.follow n p = some q) : fs.Leads p q ∧ fs.linkAt q = none := by
  induction n generalizing p with
  | zero =>
    unfold follow at h
    split at h
    · next hnone =>
      cases h
      exact ⟨.refl, hnone⟩
    · cases h
  | succ n ih =>
    unfold follow at h
    split at h
    · next hnone =>
      cases h
      exact ⟨.refl, hnone⟩
    · next t ht =>
      obtain ⟨hleads, hnone⟩ := ih h
      exact ⟨.head ht hleads, hnone⟩

/-- Links that are there, on the way to a name that is no link, are followed. -/
theorem follow_of_links
    (hlinks : ∀ s t, fs.Leads p s → fs.linkAt s = some t → fs'.linkAt s = some t)
    (hend : fs'.linkAt q = none) (h : fs.follow n p = some q) : fs'.follow n p = some q := by
  induction n generalizing p with
  | zero =>
    unfold follow at h
    split at h
    · cases h
      rw [follow, if_pos hend]
    · cases h
  | succ n ih =>
    unfold follow at h
    split at h
    · cases h
      rw [follow, hend]
    · next t ht =>
      rw [follow, hlinks p t .refl ht]
      exact ih (fun s t' hs => hlinks s t' (.head ht hs)) h

/-- A file is found when the links that lead to it, and its own name, are there. -/
theorem number_of_entries
    (hkept : ∀ s, fs.Leads p s → fs.entries s ≠ none → fs'.entries s = fs.entries s)
    (h : fs.number p = some i) : fs'.number p = some i := by
  obtain ⟨r, hr, hfile⟩ := number_eq_some.mp h
  have hthere : fs'.entries r = some (.file i) := by
    rw [hkept r (leads_of_follow hr).1 (by simp [hfile]), hfile]
  refine number_eq_some.mpr ⟨r, follow_of_links (fun s t hs ht => ?_) ?_ hr, hthere⟩
  · rw [linkAt_eq_some] at ht ⊢
    rw [hkept s hs (by simp [ht]), ht]
  · simp [linkAt, hthere]

instance [DecidableEq π] : Decidable (fs.Opens p) :=
  match h : fs.resolve p with
  | none => isFalse (by simp [Opens, h])
  | some r => decidable_of_iff (fs.entries r ≠ some .directory) (by simp [Opens, h])

/-! ### Steps -/

section

variable [DecidableEq π] (fs : FileSystem π β)

/-- A file gets new contents, whatever its names are. -/
def overwrite (i : ℕ) (c : β) : FileSystem π β := { fs with data := Function.update fs.data i c }

/-- A new file under a name. -/
def create (p : π) (c : β) : FileSystem π β where
  entries := Function.update fs.entries p (some (.file fs.next))
  data := Function.update fs.data fs.next c
  next := fs.next + 1
  bounded r i hr := by
    by_cases h : r = p
    · rw [h, Function.update_self] at hr
      cases hr
      exact Nat.lt_succ_self _
    · rw [Function.update_of_ne h] at hr
      exact Nat.lt_succ_of_lt (fs.bounded r i hr)

/-- A name is removed; its file keeps its other names. -/
def remove (p : π) : FileSystem π β where
  entries := Function.update fs.entries p none
  data := fs.data
  next := fs.next
  bounded r i hr := by
    by_cases h : r = p
    · rw [h, Function.update_self] at hr
      cases hr
    · rw [Function.update_of_ne h] at hr
      exact fs.bounded r i hr

/-- Open under a name, through links: a file is made where there is none. -/
def touch (p : π) (c : β) : FileSystem π β :=
  match fs.resolve p with
  | none => fs
  | some r => if fs.entries r = none then fs.create r c else fs

/-- Write under a name, through links: to the file at their end, or to a new one. -/
def write (p : π) (c : β) : FileSystem π β :=
  match fs.resolve p with
  | none => fs
  | some r =>
    match fs.entries r with
    | some (.file i) => fs.overwrite i c
    | none => fs.create r c
    | _ => fs

end

section

variable [DecidableEq π]

@[simp] theorem entries_create_self (fs : FileSystem π β) (p : π) (c : β) :
    (fs.create p c).entries p = some (.file fs.next) := Function.update_self ..

theorem entries_create_of_ne (fs : FileSystem π β) (h : q ≠ p) (c : β) :
    (fs.create p c).entries q = fs.entries q := Function.update_of_ne h ..

@[simp] theorem data_create_self (fs : FileSystem π β) (p : π) (c : β) :
    (fs.create p c).data fs.next = c := Function.update_self ..

theorem data_create_of_ne (fs : FileSystem π β) (p : π) (h : i ≠ fs.next) (c : β) :
    (fs.create p c).data i = fs.data i := Function.update_of_ne h ..

/-- The files that are there keep their numbers and contents when one is created. -/
theorem kept_create (hq : fs.fileAt q = some i) (hp : fs.entries p = none) (c : β) :
    (fs.create p c).fileAt q = some i ∧ (fs.create p c).data i = fs.data i := by
  rw [fileAt_eq_some] at hq ⊢
  have hne : q ≠ p := by
    rintro rfl
    rw [hp] at hq
    cases hq
  rw [entries_create_of_ne _ hne]
  exact ⟨hq, data_create_of_ne _ _ (Nat.ne_of_lt (fs.bounded q i hq)) _⟩

@[simp] theorem entries_remove_self (fs : FileSystem π β) (p : π) :
    (fs.remove p).entries p = none := Function.update_self ..

theorem entries_remove_of_ne (fs : FileSystem π β) (h : q ≠ p) :
    (fs.remove p).entries q = fs.entries q := Function.update_of_ne h ..

end

@[simp] theorem entries_overwrite (fs : FileSystem π β) (i : ℕ) (c : β) :
    (fs.overwrite i c).entries = fs.entries := rfl

@[simp] theorem data_overwrite_self (fs : FileSystem π β) (i : ℕ) (c : β) :
    (fs.overwrite i c).data i = c := Function.update_self ..

theorem data_overwrite_of_ne (fs : FileSystem π β) {j : ℕ} (h : j ≠ i) (c : β) :
    (fs.overwrite i c).data j = fs.data j := Function.update_of_ne h ..

/-- A file that is overwritten is read with its new contents under each of its names. -/
theorem read_overwrite (h : fs.number p = some i) (c : β) : (fs.overwrite i c).read p = some c :=
  read_eq_some.mpr ⟨i, number_of_entries (fun _ _ _ => rfl) h, data_overwrite_self ..⟩

theorem leads_congr (h : ∀ s, fs'.linkAt s = fs.linkAt s) : fs'.Leads p q ↔ fs.Leads p q := by
  simp only [Leads, h]

theorem follow_congr (h : ∀ s, fs'.linkAt s = fs.linkAt s) (n : ℕ) (p : π) :
    fs'.follow n p = fs.follow n p := by
  induction n generalizing p with
  | zero => rw [follow, follow, h]
  | succ n ih =>
    rw [follow, follow, h]
    split
    · rfl
    · exact ih _

theorem resolve_congr (h : ∀ s, fs'.linkAt s = fs.linkAt s) (p : π) :
    fs'.resolve p = fs.resolve p := follow_congr h linkLimit p

theorem opens_congr (h : fs'.entries = fs.entries) : fs'.Opens p ↔ fs.Opens p := by
  have hlinks : ∀ s, fs'.linkAt s = fs.linkAt s := fun s => by rw [linkAt, linkAt, h]
  rw [Opens, Opens, resolve_congr hlinks, h]

/-- From a name that is no link, links lead nowhere else. -/
theorem leads_of_linkAt_none (h : fs.linkAt p = none) : fs.Leads p q ↔ q = p := by
  constructor
  · intro hleads
    rcases Relation.ReflTransGen.cases_head hleads with rfl | ⟨t, ht, -⟩
    · rfl
    · rw [h] at ht
      cases ht
  · rintro rfl
    exact .refl

theorem resolve_of_linkAt_none (h : fs.linkAt p = none) : fs.resolve p = some p := by
  unfold resolve linkLimit follow
  rw [h]

/-- The name at which links end stands for itself. -/
theorem resolve_self (h : fs.resolve p = some r) : fs.resolve r = some r :=
  resolve_of_linkAt_none (leads_of_follow h).2

theorem number_of_resolve (h : fs.resolve p = some r) : fs.number r = fs.number p := by
  rw [number, number, h, resolve_self h]

theorem opens_of_number (h : fs.number p = some i) : fs.Opens p := by
  obtain ⟨r, hr, hfile⟩ := number_eq_some.mp h
  exact ⟨r, hr, by simp [hfile]⟩

/-- The name at which links end can be opened itself. -/
theorem opens_of_resolve (h : fs.Opens p) (hr : fs.resolve p = some r) : fs.Opens r := by
  obtain ⟨s, hs, hdirectory⟩ := h
  obtain rfl : r = s := Option.some_inj.mp (hr.symm.trans hs)
  exact ⟨r, resolve_self hr, hdirectory⟩

theorem removable_of_linkAt (h : fs.linkAt p ≠ none) : fs.Removable p := by
  obtain ⟨q, hq⟩ := Option.ne_none_iff_exists'.mp h
  rw [linkAt_eq_some] at hq
  simp [Removable, hq]

/-- What can be opened once links are gone could be opened before, or else once the one link that
is gone had been removed. -/
theorem opens_of_links [DecidableEq π]
    (hlinks : ∀ s t, fs'.linkAt s = some t → fs.linkAt s = some t)
    (hdirectories : ∀ s, fs.entries s = some .directory → fs'.entries s = some .directory)
    (h : fs'.Opens p) :
    fs.Opens p ∨ ∃ s, fs.linkAt s ≠ none ∧ fs'.linkAt s = none ∧ (fs.remove s).Opens p := by
  obtain ⟨r, hr, hdirectory⟩ := h
  have hend := (leads_of_follow hr).2
  cases hlink : fs.linkAt r with
  | none =>
    exact .inl ⟨r, follow_of_links (fun s t _ => hlinks s t) hlink hr,
      fun h => hdirectory (hdirectories r h)⟩
  | some t =>
    have hremoved : (fs.remove r).linkAt r = none := by simp [linkAt]
    refine .inr ⟨r, by simp [hlink], hend, r, ?_, by simp⟩
    refine follow_of_links (fun s t' _ hs => ?_) hremoved hr
    have hne : s ≠ r := by
      rintro rfl
      rw [hend] at hs
      cases hs
    rw [linkAt, entries_remove_of_ne _ hne]
    exact hlinks s t' hs

/-- Files are made and written without a change to the links. -/
theorem linkAt_create [DecidableEq π] (hp : fs.entries p = none) (c : β) (s : π) :
    (fs.create p c).linkAt s = fs.linkAt s := by
  by_cases hs : s = p
  · simp [linkAt, hs, hp]
  · rw [linkAt, entries_create_of_ne _ hs, linkAt]

theorem linkAt_write [DecidableEq π] (fs : FileSystem π β) (p : π) (c : β) (s : π) :
    (fs.write p c).linkAt s = fs.linkAt s := by
  unfold write
  split
  · rfl
  · split
    · rfl
    · next hnone => exact linkAt_create hnone c s
    · rfl

/-- Where a file can be opened it is there when it has been. -/
theorem entries_touch [DecidableEq π] (h : fs.Opens p) (hr : fs.resolve p = some r) (c : β) :
    ∃ i, (fs.touch p c).entries r = some (.file i) := by
  obtain ⟨hself, hdirectory⟩ : fs.linkAt r = none ∧ fs.entries r ≠ some .directory := by
    obtain ⟨s, hs, hdirectory⟩ := h
    obtain rfl : r = s := Option.some_inj.mp (hr.symm.trans hs)
    exact ⟨(leads_of_follow hr).2, hdirectory⟩
  rw [touch, hr]
  dsimp only
  split
  · exact ⟨_, entries_create_self ..⟩
  · next hthere =>
    cases he : fs.entries r with
    | none => exact absurd he hthere
    | some e =>
      cases e with
      | file i => exact ⟨i, rfl⟩
      | link t => simp [linkAt, he] at hself
      | directory => exact absurd he hdirectory

/-- What is written under a name is read there, and under each name whose links end where its
links do. -/
theorem read_write [DecidableEq π] (hp : fs.Opens p) (hq : fs.resolve q = fs.resolve p) (c : β) :
    (fs.write p c).read q = some c := by
  obtain ⟨r, hr, hdirectory⟩ := hp
  have hend := (leads_of_follow hr).2
  rw [hr] at hq
  unfold write
  rw [hr]
  dsimp only
  split
  · next i hi => exact read_overwrite (number_eq_some.mpr ⟨r, hq, hi⟩) c
  · next hnone =>
    refine read_eq_some.mpr ⟨fs.next, number_eq_some.mpr ⟨r, ?_, entries_create_self ..⟩,
      data_create_self ..⟩
    rw [resolve_congr (linkAt_create hnone c), hq]
  · next hfile hnone =>
    cases he : fs.entries r with
    | none => exact absurd he hnone
    | some e =>
      cases e with
      | file i => exact absurd he (hfile i)
      | link t => simp [linkAt, he] at hend
      | directory => exact absurd he hdirectory

/-- What is written to a file is read under its other names. -/
theorem read_write_of_sameFile [DecidableEq π] (h : fs.SameFile p q) (c : β) :
    (fs.write p c).read q = some c := by
  obtain ⟨i, hp, hq⟩ := h
  obtain ⟨r, hr, hi⟩ := number_eq_some.mp hp
  unfold write
  rw [hr]
  dsimp only
  rw [hi]
  exact read_overwrite hq c

/-- A name through which a file is read is there, and is no directory. -/
theorem removable_of_leads (h : fs.Leads q p) (hq : fs.read q = some c) : fs.Removable p := by
  obtain ⟨i, hi, -⟩ := read_eq_some.mp hq
  obtain ⟨r, hr, hfile⟩ := number_eq_some.mp hi
  obtain ⟨hleads, hend⟩ := leads_of_follow hr
  have hunique : Relator.RightUnique fun a b => fs.linkAt a = some b := by
    intro a b b' hb hb'
    exact Option.some_inj.mp (hb.symm.trans hb')
  -- `p` is on the way to `r`, or is `r`
  rcases Relation.ReflTransGen.total_of_right_unique hunique h hleads with hpr | hrp
  · rcases Relation.ReflTransGen.cases_head hpr with rfl | ⟨t, ht, -⟩
    · simp [Removable, hfile]
    · rw [linkAt_eq_some] at ht
      simp [Removable, ht]
  · rw [(leads_of_linkAt_none hend).mp hrp]
    simp [Removable, hfile]

theorem leads_remove [DecidableEq π] (h : fs.Leads q p) (hr : ¬ fs.Leads q r) :
    (fs.remove r).Leads q p := by
  induction h with
  | refl => exact .refl
  | @tail a b hqa hab ih =>
    refine .tail ih ?_
    rw [linkAt_eq_some] at hab ⊢
    rw [entries_remove_of_ne, hab]
    rintro rfl
    exact hr hqa

/-- Links that do not lead over a name that is removed end where they did. -/
theorem resolve_remove [DecidableEq π] (hr : ¬ fs.Leads p r) (h : fs.resolve p = some q) :
    (fs.remove r).resolve p = some q := by
  have hkept : ∀ s, fs.Leads p s → (fs.remove r).entries s = fs.entries s := by
    intro s hs
    refine entries_remove_of_ne _ ?_
    rintro rfl
    exact hr hs
  obtain ⟨hleads, hend⟩ := leads_of_follow h
  refine follow_of_links (fun s t hs ht => ?_) ?_ h
  · rw [linkAt, hkept s hs]
    exact ht
  · rw [linkAt, hkept q hleads]
    exact hend

/-- Under a name from which links lead over a name that is removed, nothing is read. -/
theorem read_remove [DecidableEq π] (h : fs.Leads p q) : (fs.remove q).read p = none := by
  have hend : ∀ n, (fs.remove q).follow n p = some q ∨ (fs.remove q).follow n p = none := by
    have hself : ∀ n, (fs.remove q).follow n q = some q := by
      intro n
      cases n <;> simp [follow, linkAt]
    induction h using Relation.ReflTransGen.head_induction_on with
    | refl => exact fun n => .inl (hself n)
    | @head a t hlink _ ih =>
      intro n
      by_cases haq : a = q
      · rw [haq]
        exact .inl (hself n)
      · have hkept : (fs.remove q).linkAt a = some t := by
          rw [linkAt_eq_some] at hlink ⊢
          rw [entries_remove_of_ne _ haq, hlink]
        cases n with
        | zero => exact .inr (by rw [follow, hkept]; rfl)
        | succ n =>
          rw [follow, hkept]
          exact ih n
  rcases hend linkLimit with hq | hnone
  · simp [FileSystem.read, number, resolve, hq, fileAt]
  · simp [FileSystem.read, number, resolve, hnone]

theorem opens_remove [DecidableEq π] (hr : ¬ fs.Leads p r) (h : fs.Opens p) :
    (fs.remove r).Opens p := by
  obtain ⟨s, hs, hdirectory⟩ := h
  refine ⟨s, resolve_remove hr hs, ?_⟩
  rw [entries_remove_of_ne _ ?_]
  · exact hdirectory
  · rintro rfl
    exact hr (leads_of_follow hs).1

/-! ### What is not touched -/

/-- The names that `fs'` has more than `fs` are those of new files. -/
structure Evolves (fs fs' : FileSystem π β) : Prop where
  next : fs.next ≤ fs'.next
  entries : ∀ p e, fs'.entries p = some e →
    fs.entries p = some e ∨ ∃ i, fs.next ≤ i ∧ e = .file i

/-- What is read under a name is as it was: the names that links lead over, and the file. -/
structure Untouched (fs : FileSystem π β) (q : π) (fs' : FileSystem π β) : Prop
    extends Evolves fs fs' where
  names : ∀ r, fs.Leads q r → fs.entries r ≠ none → fs'.entries r = fs.entries r
  contents : ∀ i, fs.number q = some i → fs'.data i = fs.data i

theorem Evolves.refl (fs : FileSystem π β) : Evolves fs fs :=
  ⟨Nat.le_refl _, fun _ _ h => .inl h⟩

theorem Evolves.create [DecidableEq π] (h : Evolves fs fs') : Evolves fs (fs'.create p c) where
  next := Nat.le_succ_of_le h.next
  entries r e hr := by
    by_cases hrp : r = p
    · rw [hrp, entries_create_self] at hr
      cases hr
      exact .inr ⟨_, h.next, rfl⟩
    · rw [entries_create_of_ne _ hrp] at hr
      exact h.entries r e hr

theorem Evolves.fileAt (h : Evolves fs fs') (hfile : fs'.fileAt p = some i) (hi : i < fs.next) :
    fs.fileAt p = some i := by
  rw [fileAt_eq_some] at hfile ⊢
  rcases h.entries p _ hfile with hold | ⟨j, hj, heq⟩
  · exact hold
  · cases heq
    exact absurd hi (Nat.not_lt.mpr hj)

/-- An old file has no new names. -/
theorem Evolves.number (h : Evolves fs fs') (hnumber : fs'.number p = some i) (hi : i < fs.next) :
    fs.number p = some i := by
  obtain ⟨r, hr, hfile⟩ := number_eq_some.mp hnumber
  have hold : fs.entries r = some (.file i) :=
    fileAt_eq_some.mp (h.fileAt (fileAt_eq_some.mpr hfile) hi)
  refine number_eq_some.mpr ⟨r, follow_of_links (fun s t _ ht => ?_) ?_ hr, hold⟩
  · rw [linkAt_eq_some] at ht ⊢
    rcases h.entries s _ ht with hold | ⟨j, -, heq⟩
    · exact hold
    · cases heq
  · simp [linkAt, hold]

namespace Untouched

theorem refl (fs : FileSystem π β) (q : π) : Untouched fs q fs :=
  ⟨.refl fs, fun _ _ _ => rfl, fun _ _ => rfl⟩

/-- What is not touched is read again. -/
theorem read (h : Untouched fs q fs') (hread : fs.read q = some c) : fs'.read q = some c := by
  obtain ⟨i, hi, rfl⟩ := read_eq_some.mp hread
  exact read_eq_some.mpr ⟨i, number_of_entries h.names hi, h.contents i hi⟩

/-- The file under another name which is no link is not the one that is read. -/
theorem fileAt_ne (h : Untouched fs q fs') (hp : fs'.fileAt p = some i)
    (hother : ¬ ∃ j, fs.fileAt p = some j ∧ fs.number q = some j) : fs.number q ≠ some i := by
  intro hq
  exact hother ⟨i, h.fileAt hp (number_lt hq), hq⟩

/-- Another file gets new contents. -/
theorem overwrite (h : Untouched fs q fs') (hi : fs.number q ≠ some i) :
    Untouched fs q (fs'.overwrite i c) where
  next := h.next
  entries := h.entries
  names := h.names
  contents j hj := by
    have hne : j ≠ i := by
      rintro rfl
      exact hi hj
    rw [data_overwrite_of_ne _ hne, h.contents j hj]

/-- The file gets the contents it has. -/
theorem overwrite_same (h : Untouched fs q fs') (hi : fs.number q = some i)
    (hread : fs.read q = some c) : Untouched fs q (fs'.overwrite i c) where
  next := h.next
  entries := h.entries
  names := h.names
  contents j hj := by
    obtain ⟨k, hk, rfl⟩ := read_eq_some.mp hread
    obtain rfl : j = i := Option.some_inj.mp (hj.symm.trans hi)
    obtain rfl : k = j := Option.some_inj.mp (hk.symm.trans hi)
    exact data_overwrite_self ..

variable [DecidableEq π]

/-- A new file is made where nothing was. -/
theorem create (h : Untouched fs q fs') (hp : fs'.entries p = none) :
    Untouched fs q (fs'.create p c) where
  toEvolves := h.toEvolves.create
  names r hr hthere := by
    have hne : r ≠ p := by
      rintro rfl
      rw [h.names r hr hthere] at hp
      exact hthere hp
    rw [entries_create_of_ne _ hne, h.names r hr hthere]
  contents j hj := by
    have hne : j ≠ fs'.next := Nat.ne_of_lt (Nat.lt_of_lt_of_le (number_lt hj) h.next)
    rw [data_create_of_ne _ _ hne, h.contents j hj]

/-- A name is removed that no link leads over. -/
theorem remove (h : Untouched fs q fs') (hp : ¬ (fs.Leads q p ∧ fs.entries p ≠ none)) :
    Untouched fs q (fs'.remove p) where
  next := h.next
  entries r e hr := by
    by_cases hrp : r = p
    · rw [hrp, entries_remove_self] at hr
      cases hr
    · rw [entries_remove_of_ne _ hrp] at hr
      exact h.entries r e hr
  names r hr hthere := by
    have hne : r ≠ p := by
      rintro rfl
      exact hp ⟨hr, hthere⟩
    rw [entries_remove_of_ne _ hne, h.names r hr hthere]
  contents := h.contents

theorem touch (h : Untouched fs q fs') : Untouched fs q (fs'.touch p c) := by
  unfold FileSystem.touch
  split
  · exact h
  · split
    · next hnone => exact h.create hnone
    · exact h

/-- A write under a name that stands for another file, or of what the file holds already. -/
theorem write (h : Untouched fs q fs') (hsame : fs.SameFile p q → fs.read q = some c) :
    Untouched fs q (fs'.write p c) := by
  unfold FileSystem.write
  split
  · exact h
  · next r hr =>
    split
    · next i hi =>
      have hnumber := number_eq_some.mpr ⟨r, hr, hi⟩
      by_cases hq : fs.number q = some i
      · have hread := hsame ⟨i, h.number hnumber (number_lt hq), hq⟩
        exact h.overwrite_same hq hread
      · exact h.overwrite hq
    · next hnone => exact h.create hnone
    · exact h

end Untouched

/-! ### What is added -/

/-- The names that are there stay what they are. -/
structure Grows (fs fs' : FileSystem π β) : Prop extends Evolves fs fs' where
  kept : ∀ p, fs.entries p ≠ none → fs'.entries p = fs.entries p

namespace Grows

theorem refl (fs : FileSystem π β) : Grows fs fs := ⟨.refl fs, fun _ _ => rfl⟩

theorem linkAt (h : Grows fs fs') (p : π) : fs'.linkAt p = fs.linkAt p := by
  unfold FileSystem.linkAt
  cases hp : fs.entries p with
  | some e => rw [h.kept p (by simp [hp]), hp]
  | none =>
    cases hp' : fs'.entries p with
    | none => rfl
    | some e =>
      rcases h.entries p e hp' with hold | ⟨i, -, rfl⟩
      · rw [hp] at hold
        cases hold
      · rfl

theorem number (h : Grows fs fs') (hp : fs.number p = some i) : fs'.number p = some i :=
  number_of_entries (fun s _ hs => h.kept s hs) hp

theorem resolve (h : Grows fs fs') (hp : fs.resolve p = some r) : fs'.resolve p = some r := by
  refine follow_of_links (fun s t _ ht => ?_) ?_ hp
  · rw [h.linkAt, ht]
  · rw [h.linkAt, (leads_of_follow hp).2]

theorem opens (h : Grows fs fs') (hp : fs.Opens p) : fs'.Opens p := by
  obtain ⟨r, hr, hdirectory⟩ := hp
  refine ⟨r, h.resolve hr, fun hr' => ?_⟩
  rcases h.entries r _ hr' with hold | ⟨i, -, heq⟩
  · exact hdirectory hold
  · cases heq

theorem removable (h : Grows fs fs') (hp : fs.Removable p) : fs'.Removable p := by
  rw [Removable, h.kept p hp.1]
  exact hp

theorem sameFile (h : Grows fs fs') (hsame : fs.SameFile p q) : fs'.SameFile p q := by
  obtain ⟨i, hp, hq⟩ := hsame
  exact ⟨i, h.number hp, h.number hq⟩

theorem leads (h : Grows fs fs') : fs'.Leads p q ↔ fs.Leads p q := leads_congr h.linkAt

theorem overwrite (h : Grows fs fs') : Grows fs (fs'.overwrite i c) := ⟨⟨h.next, h.entries⟩, h.kept⟩

theorem create [DecidableEq π] (h : Grows fs fs') (hp : fs'.entries p = none) :
    Grows fs (fs'.create p c) where
  toEvolves := h.toEvolves.create
  kept r hr := by
    have hne : r ≠ p := by
      rintro rfl
      rw [h.kept r hr] at hp
      exact hr hp
    rw [entries_create_of_ne _ hne, h.kept r hr]

/-- The same name is removed. -/
theorem remove [DecidableEq π] (h : Grows fs fs') (p : π) : Grows (fs.remove p) (fs'.remove p) where
  next := h.next
  entries r e hr := by
    by_cases hrp : r = p
    · rw [hrp, entries_remove_self] at hr
      cases hr
    · rw [entries_remove_of_ne _ hrp] at hr ⊢
      exact h.entries r e hr
  kept r hr := by
    have hne : r ≠ p := by
      rintro rfl
      exact hr (entries_remove_self ..)
    rw [entries_remove_of_ne _ hne] at hr ⊢
    rw [h.kept r hr, entries_remove_of_ne _ hne]

theorem touch [DecidableEq π] (h : Grows fs fs') : Grows fs (fs'.touch p c) := by
  unfold FileSystem.touch
  split
  · exact h
  · split
    · next hnone => exact h.create hnone
    · exact h

theorem write [DecidableEq π] (h : Grows fs fs') : Grows fs (fs'.write p c) := by
  unfold FileSystem.write
  split
  · exact h
  · split
    · exact h.overwrite
    · next hnone => exact h.create hnone
    · exact h

end Grows

end FileSystem
