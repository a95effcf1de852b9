import Mathlib.Data.List.Basic
import Mathlib.Data.String.Basic

/-!
# Paths

Texts as paths, in the POSIX way: slashes separate the components, empty ones and dots are
dropped, a text that begins with a slash starts at the root, and two dots climb.  A path
denotes a location, the names on the way from the root, once a working directory is given.

## Main definitions

* `PurePath`, `PurePath.ofString`, `PurePath.join` — paths, and how they are joined to texts.
* `PurePath.walk`, `PurePath.locate` — the location a path denotes.
* `PurePath.leading`, `PurePath.final` — a text before and after its last slash.

## Main results

* `PurePath.segments_append` — a text without a slash goes on with the last component.
* `PurePath.locate_join_append` — the location of a name with a suffix, joined to a path.
-/

/-- A path: whether it starts at the root, and its components. -/
structure PurePath where
  absolute : Bool
  parts : List String
  deriving DecidableEq

namespace PurePath

/-- The texts between the slashes of a text. -/
def segments (s : String) : List String := (s.toList.splitOn '/').map String.ofList

/-- The text is kept as a component. -/
def isComponent (s : String) : Bool := s ≠ "" ∧ s ≠ "."

/-- The text starts at the root. -/
def isAbsolute (s : String) : Bool := s.toList.head? = some '/'

/-- `PurePosixPath(s)` -/
def ofString (s : String) : PurePath := ⟨isAbsolute s, (segments s).filter isComponent⟩

/-- `p / s` -/
def join (p : PurePath) (s : String) : PurePath :=
  if isAbsolute s then ofString s
  else ⟨p.absolute, p.parts ++ (segments s).filter isComponent⟩

/-- The location one component further. -/
def enter (location : List String) (part : String) : List String :=
  if part = ".." then location.dropLast else location ++ [part]

/-- The location some components further. -/
def walk (location : List String) (parts : List String) : List String :=
  parts.foldl enter location

/-- The location a path denotes in a working directory. -/
def locate (cwd : List String) (p : PurePath) : List String :=
  walk (if p.absolute then [] else cwd) p.parts

/-- The components of a text before its last slash. -/
def leading (s : String) : List String := (segments s).dropLast.filter isComponent

/-- What follows the last slash of a text, or all of it. -/
def final (s : String) : String := (segments s).getLastD ""

/-! ### Texts -/

theorem segments_of_notMem {s : String} (h : '/' ∉ s.toList) : segments s = [s] := by
  rw [segments, List.splitOn_eq_singleton h, List.map_cons, List.map_nil, String.ofList_toList]

/-- Putting an element before the first part leaves what is put after the last one there. -/
theorem modifyHead_dropLast_append {α : Type} (b : α) {parts : List (List α)} (t : List α)
    (h : parts ≠ []) :
    (parts.dropLast ++ [parts.getLastD [] ++ t]).modifyHead (b :: ·) =
      (parts.modifyHead (b :: ·)).dropLast ++ [(parts.modifyHead (b :: ·)).getLastD [] ++ t] := by
  cases parts with
  | nil => exact (h rfl).elim
  | cons x xs =>
    cases xs with
    | nil => rfl
    | cons y ys => rfl

/-- A list without the separator goes on with the last part. -/
theorem splitOn_append {α : Type} [DecidableEq α] {a : α} (l : List α) {t : List α} (ht : a ∉ t) :
    (l ++ t).splitOn a = (l.splitOn a).dropLast ++ [(l.splitOn a).getLastD [] ++ t] := by
  induction l with
  | nil => simpa using List.splitOn_eq_singleton ht
  | cons b l ih =>
    have hne := List.splitOn_ne_nil a l
    simp only [List.cons_append, List.splitOn_cons_eq_if_modifyHead, ih]
    split
    · cases hl : l.splitOn a with
      | nil => exact (hne hl).elim
      | cons x xs => rfl
    · exact modifyHead_dropLast_append b t hne

/-- A text without a slash goes on with the last segment. -/
theorem segments_append (s : String) {t : String} (ht : '/' ∉ t.toList) :
    segments (s ++ t) = (segments s).dropLast ++ [final s ++ t] := by
  have hfinal : final s = String.ofList ((s.toList.splitOn '/').getLastD []) := by
    have hne := List.splitOn_ne_nil '/' s.toList
    rw [final, segments, List.getLastD_eq_getLast?, List.getLastD_eq_getLast?, List.getLast?_map,
      List.getLast?_eq_some_getLast hne]
    rfl
  rw [segments, String.toList_append, splitOn_append _ ht, List.map_append, List.map_cons,
    List.map_nil, String.ofList_append, String.ofList_toList, hfinal, segments, List.map_dropLast]

theorem isAbsolute_append (s : String) {t : String} (ht : '/' ∉ t.toList) :
    isAbsolute (s ++ t) = isAbsolute s := by
  rw [isAbsolute, isAbsolute, String.toList_append, List.head?_append]
  cases hs : s.toList.head? with
  | some c => rfl
  | none =>
    rw [Option.none_or]
    have hhead : t.toList.head? ≠ some '/' := fun h => ht (List.mem_of_head? h)
    simp [hhead]

/-! ### Locations -/

@[simp] theorem walk_append (location parts parts' : List String) :
    walk location (parts ++ parts') = walk (walk location parts) parts' :=
  List.foldl_append

theorem locate_join (cwd : List String) (p : PurePath) (s : String) :
    locate cwd (p.join s) = walk (if isAbsolute s then [] else p.locate cwd)
      ((segments s).filter isComponent) := by
  unfold join
  split
  · next h => rw [locate, ofString, if_pos h]
  · rw [locate, walk_append]
    rfl

/-- A suffix with a character of its own keeps the last component from being dropped, and from
climbing. -/
theorem final_append_ne (s : String) {t : String} (hdots : ∃ c ∈ t.toList, c ≠ '.') {u : String}
    (hu : ∀ d ∈ u.toList, d = '.') : final s ++ t ≠ u := by
  obtain ⟨c, hc, hdot⟩ := hdots
  have hmem : c ∈ (final s ++ t).toList := by
    rw [String.toList_append]
    exact List.mem_append_right _ hc
  rintro rfl
  exact hdot (hu c hmem)

theorem isComponent_final_append (s : String) {t : String} (hdots : ∃ c ∈ t.toList, c ≠ '.') :
    isComponent (final s ++ t) = true :=
  decide_eq_true ⟨final_append_ne s hdots (by simp), final_append_ne s hdots (by simp)⟩

/-- **The location of a name with a suffix**, joined to a path: the leading components lead
to the directory, and the rest is the name in it. -/
theorem locate_join_append (cwd : List String) (p : PurePath) (s : String) {t : String}
    (hslash : '/' ∉ t.toList) (hdots : ∃ c ∈ t.toList, c ≠ '.') :
    locate cwd (p.join (s ++ t)) =
      walk (if isAbsolute s then [] else p.locate cwd) (leading s) ++ [final s ++ t] := by
  rw [locate_join, isAbsolute_append s hslash, segments_append s hslash, List.filter_append,
    walk_append, List.filter_cons_of_pos (isComponent_final_append s hdots), List.filter_nil]
  exact if_neg (final_append_ne s hdots (by simp))

/-- A name with a suffix, joined to a path, is a component of it. -/
theorem parts_join_append_ne_nil (p : PurePath) (s : String) {t : String}
    (hslash : '/' ∉ t.toList) (hdots : ∃ c ∈ t.toList, c ≠ '.') :
    (p.join (s ++ t)).parts ≠ [] := by
  have hmem : final s ++ t ∈ (segments (s ++ t)).filter isComponent := by
    refine List.mem_filter.mpr ⟨?_, isComponent_final_append s hdots⟩
    rw [segments_append s hslash]
    simp
  unfold join
  split
  · exact List.ne_nil_of_mem hmem
  · exact List.append_ne_nil_of_right_ne_nil _ (List.ne_nil_of_mem hmem)

end PurePath
