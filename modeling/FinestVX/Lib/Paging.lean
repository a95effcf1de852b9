import FinestVX.Lib.Collections

/-!
# Reading a growing log page by page

The entries of a log have distinct keys, and an entry written later has a key
past all the earlier ones.  A reader keeps a cursor: it fetches the first
entries past the cursor and moves the cursor to the last of them.

## Main definitions

* `rowsPast`, `rowsBetween` — the entries past a cursor, and between two cursors.
* `GrowsPast` — the later log has more entries, past those of the earlier one.
* `PagesSound` — the pages are what lies between the start and the cursor.

## Main results

* `PagesSound.grow`, `PagesSound.fetch` — kept by writes, and by a fetch.
* `PagesSound.complete` — with nothing past the cursor the pages are everything
  past the start.
* `length_rowsPast_lt` — a fetch leaves less to read.
-/

section Rows

variable {α κ : Type} [LinearOrder κ]

/-- The entries past a cursor, in order. -/
def rowsPast (key : α → κ) (c : κ) (log : List α) : List α :=
  orderBy key (log.filter fun a => c < key a)

/-- The entries past a cursor and up to another one, in order. -/
def rowsBetween (key : α → κ) (c c' : κ) (log : List α) : List α :=
  orderBy key (log.filter fun a => c < key a ∧ key a ≤ c')

/-- The log has grown by entries past all the earlier ones. -/
def GrowsPast (key : α → κ) (log log' : List α) : Prop :=
  ∃ new, log' = log ++ new ∧ (new.map key).Nodup ∧ ∀ a ∈ log, ∀ b ∈ new, key a < key b

variable {key : α → κ} {log log' : List α} {c c' c'' : κ}

theorem mem_rowsPast {a : α} : a ∈ rowsPast key c log ↔ a ∈ log ∧ c < key a := by
  simp [rowsPast]

omit [LinearOrder κ] in
theorem nodup_keys_filter (hkeys : (log.map key).Nodup) (p : α → Bool) :
    ((log.filter p).map key).Nodup :=
  (List.filter_sublist.map key).nodup hkeys

theorem nodup_keys_orderBy (hkeys : (log.map key).Nodup) : ((orderBy key log).map key).Nodup :=
  ((orderBy_perm key log).map key).nodup_iff.mpr hkeys

/-- Distinct keys in order are in strict order. -/
theorem strict_orderBy (hkeys : (log.map key).Nodup) :
    ((orderBy key log).map key).Pairwise (· < ·) := by
  have hle : ((orderBy key log).map key).Pairwise (· ≤ ·) :=
    List.pairwise_map.mpr (pairwise_orderBy key log)
  refine (hle.and (nodup_keys_orderBy hkeys)).imp ?_
  intro a b hab
  exact lt_of_le_of_ne hab.1 hab.2

/-- Selecting and ordering commute. -/
theorem filter_orderBy (hkeys : (log.map key).Nodup) (p : α → Bool) :
    (orderBy key log).filter p = orderBy key (log.filter p) := by
  have hp : ((orderBy key log).filter p).Perm (log.filter p) := (orderBy_perm key log).filter p
  have hpairs := (pairwise_orderBy key log).filter p
  rw [← orderBy_eq_self hpairs]
  exact orderBy_eq_of_perm hp ((hp.map key).nodup_iff.mpr (nodup_keys_filter hkeys p))

theorem rowsBetween_eq_filter (hkeys : (log.map key).Nodup) :
    rowsBetween key c c' log = (rowsPast key c log).filter fun a => key a ≤ c' := by
  rw [rowsPast, filter_orderBy (nodup_keys_filter hkeys _), List.filter_filter, rowsBetween]
  congr 1
  apply List.filter_congr
  intro a _
  simp [and_comm]

/-- Between a cursor and itself there is nothing. -/
@[simp] theorem rowsBetween_self : rowsBetween key c c log = [] := by
  have hnone : (log.filter fun a => c < key a ∧ key a ≤ c) = [] := by
    apply List.filter_eq_nil_iff.mpr
    intro a _
    simp
  rw [rowsBetween, hnone]
  rfl

/-- The last entry of a page is past the cursor. -/
theorem getLast_mem_log {n : ℕ} {page : List α} (hne : page ≠ [])
    (hpage : (rowsPast key c log).take n = page) :
    page.getLast hne ∈ log ∧ c < key (page.getLast hne) := by
  apply mem_rowsPast.mp
  apply List.mem_of_mem_take (i := n)
  rw [hpage]
  exact List.getLast_mem hne

/-- What lies past a cursor, split at an entry that stands in the middle. -/
theorem take_rowsPast {n : ℕ} {page : List α} (hkeys : (log.map key).Nodup) (hne : page ≠ [])
    (hpage : (rowsPast key c log).take n = page) :
    page = rowsBetween key c (key (page.getLast hne)) log := by
  have hstrict : ((rowsPast key c log).map key).Pairwise (· < ·) :=
    strict_orderBy (nodup_keys_filter hkeys _)
  have hsplit : rowsPast key c log = page ++ (rowsPast key c log).drop n := by
    rw [← hpage, List.take_append_drop]
  rw [hsplit, List.map_append, List.pairwise_append] at hstrict
  obtain ⟨hpairs, -, hcross⟩ := hstrict
  -- the page is what is not past its last entry
  have hkeep : ∀ a ∈ page, key a ≤ key (page.getLast hne) := by
    intro a ha
    obtain ⟨init, last, rfl⟩ := List.eq_nil_or_concat page |>.resolve_left hne
    rw [List.concat_eq_append, List.mem_append, List.mem_singleton] at ha
    simp only [List.concat_eq_append, List.getLast_append_singleton]
    rcases ha with ha | rfl
    · rw [List.concat_eq_append, List.map_append, List.pairwise_append] at hpairs
      exact le_of_lt (hpairs.2.2 _ (List.mem_map_of_mem ha) _ (by simp))
    · exact le_rfl
  have hdrop : ∀ a ∈ (rowsPast key c log).drop n, ¬ key a ≤ key (page.getLast hne) := by
    intro a ha
    have := hcross _ (List.mem_map_of_mem (List.getLast_mem hne)) _ (List.mem_map_of_mem ha)
    exact not_le.mpr this
  rw [rowsBetween_eq_filter hkeys, hsplit, List.filter_append,
    List.filter_eq_self.mpr (by simpa using hkeep), List.filter_eq_nil_iff.mpr (by simpa using hdrop),
    List.append_nil]

/-- What lies between two cursors, split at a third. -/
theorem rowsBetween_append (hkeys : (log.map key).Nodup) (h : c ≤ c') (h' : c' ≤ c'') :
    rowsBetween key c c' log ++ rowsBetween key c' c'' log = rowsBetween key c c'' log := by
  set between := log.filter fun a => c < key a ∧ key a ≤ c'' with hbetween
  have hlow : (log.filter fun a => c < key a ∧ key a ≤ c') =
      between.filter fun a => key a ≤ c' := by
    rw [hbetween, List.filter_filter]
    apply List.filter_congr
    intro a _
    by_cases ha : key a ≤ c'
    · simp [ha, ha.trans h']
    · simp [ha]
  have hhigh : (log.filter fun a => c' < key a ∧ key a ≤ c'') =
      between.filter fun a => !decide (key a ≤ c') := by
    rw [hbetween, List.filter_filter]
    apply List.filter_congr
    intro a _
    by_cases ha : key a ≤ c'
    · simp [ha]
    · simp [ha, not_le.mp ha, h.trans_lt (not_le.mp ha)]
  have hperm : (rowsBetween key c c' log ++ rowsBetween key c' c'' log).Perm between := by
    refine ((orderBy_perm key _).append (orderBy_perm key _)).trans ?_
    rw [hlow, hhigh]
    exact List.filter_append_perm _ _
  have hpairs : (rowsBetween key c c' log ++ rowsBetween key c' c'' log).Pairwise
      fun a b => key a ≤ key b := by
    refine List.pairwise_append.mpr ⟨pairwise_orderBy _ _, pairwise_orderBy _ _, ?_⟩
    intro a ha b hb
    simp only [rowsBetween, mem_orderBy, List.mem_filter, decide_eq_true_eq] at ha hb
    exact ha.2.2.trans (le_of_lt hb.2.1)
  rw [← orderBy_eq_self hpairs]
  exact orderBy_eq_of_perm hperm ((hperm.map key).nodup_iff.mpr (nodup_keys_filter hkeys _))

/-- With nothing past the later cursor, what lies between is what lies past the earlier. -/
theorem rowsBetween_of_rowsPast_eq_nil (h : rowsPast key c' log = []) :
    rowsBetween key c c' log = rowsPast key c log := by
  rw [rowsBetween, rowsPast]
  congr 1
  apply List.filter_congr
  intro a ha
  have hle : key a ≤ c' := by
    by_contra hlt
    have hmem : a ∈ rowsPast key c' log := mem_rowsPast.mpr ⟨ha, not_le.mp hlt⟩
    simp [h] at hmem
  simp [hle]

/-! ### Growth -/

theorem GrowsPast.refl (key : α → κ) (log : List α) : GrowsPast key log log :=
  ⟨[], by simp, by simp, by simp⟩

theorem GrowsPast.trans {log'' : List α} (h : GrowsPast key log log')
    (h' : GrowsPast key log' log'') : GrowsPast key log log'' := by
  obtain ⟨new, rfl, hnew, hpast⟩ := h
  obtain ⟨new', rfl, hnew', hpast'⟩ := h'
  refine ⟨new ++ new', by simp, ?_, ?_⟩
  · rw [List.map_append]
    refine List.Nodup.append hnew hnew' ?_
    intro k hk hk'
    obtain ⟨a, ha, rfl⟩ := List.mem_map.mp hk
    obtain ⟨b, hb, hba⟩ := List.mem_map.mp hk'
    exact absurd hba (ne_of_gt (hpast' a (List.mem_append_right log ha) b hb))
  · intro a ha b hb
    rcases List.mem_append.mp hb with hb | hb
    · exact hpast a ha b hb
    · exact hpast' a (List.mem_append_left new ha) b hb

theorem GrowsPast.nodup (h : GrowsPast key log log') (hkeys : (log.map key).Nodup) :
    (log'.map key).Nodup := by
  obtain ⟨new, rfl, hnew, hpast⟩ := h
  rw [List.map_append]
  refine List.Nodup.append hkeys hnew ?_
  intro k hk hk'
  obtain ⟨a, ha, rfl⟩ := List.mem_map.mp hk
  obtain ⟨b, hb, hba⟩ := List.mem_map.mp hk'
  exact absurd hba (ne_of_gt (hpast a ha b hb))

/-- What lies before an entry of the log does not change when the log grows. -/
theorem GrowsPast.rowsBetween_eq (h : GrowsPast key log log') {a : α} (ha : a ∈ log) :
    rowsBetween key c (key a) log' = rowsBetween key c (key a) log := by
  obtain ⟨new, rfl, -, hpast⟩ := h
  have hnone : (new.filter fun b => c < key b ∧ key b ≤ key a) = [] := by
    apply List.filter_eq_nil_iff.mpr
    intro b hb
    simp [hpast a ha b hb]
  rw [rowsBetween, List.filter_append, hnone, List.append_nil, rowsBetween]

end Rows

section Pages

variable {α κ : Type} [LinearOrder κ]

/-- The pages read so far: each has entries, at most `n`, and together they are what
lies between the start and the cursor. -/
structure PagesSound (key : α → κ) (n : ℕ) (start cursor : κ) (pages : List (List α))
    (log : List α) : Prop where
  size : ∀ page ∈ pages, page ≠ [] ∧ page.length ≤ n
  rows : pages.flatten = rowsBetween key start cursor log
  cursor : cursor = start ∨ start < cursor ∧ ∃ a ∈ log, key a = cursor

namespace PagesSound

variable {key : α → κ} {n : ℕ} {start cursor : κ} {pages : List (List α)} {log log' : List α}

theorem empty (key : α → κ) (n : ℕ) (start : κ) (log : List α) :
    PagesSound key n start start [] log where
  size := by simp
  rows := by simp
  cursor := .inl rfl

theorem le (h : PagesSound key n start cursor pages log) : start ≤ cursor := by
  rcases h.cursor with heq | hlt
  · exact le_of_eq heq.symm
  · exact le_of_lt hlt.1

/-- Writes between two fetches change nothing of what was read. -/
theorem grow (h : PagesSound key n start cursor pages log) (hgrows : GrowsPast key log log') :
    PagesSound key n start cursor pages log' := by
  rcases h.cursor with rfl | ⟨hlt, a, ha, rfl⟩
  · exact ⟨h.size, by rw [h.rows, rowsBetween_self, rowsBetween_self], .inl rfl⟩
  · refine ⟨h.size, by rw [h.rows, hgrows.rowsBetween_eq ha], .inr ⟨hlt, a, ?_, rfl⟩⟩
    obtain ⟨new, rfl, -⟩ := hgrows
    exact List.mem_append_left new ha

/-- A fetch reads on from the cursor. -/
theorem fetch (h : PagesSound key n start cursor pages log) (hkeys : (log.map key).Nodup)
    {page : List α} (hne : page ≠ []) (hpage : (rowsPast key cursor log).take n = page) :
    PagesSound key n start (key (page.getLast hne)) (pages ++ [page]) log := by
  obtain ⟨hmem, hlt⟩ := getLast_mem_log hne hpage
  refine ⟨?_, ?_, .inr ⟨h.le.trans_lt hlt, _, hmem, rfl⟩⟩
  · intro p hp
    rcases List.mem_append.mp hp with hp | hp
    · exact h.size p hp
    · obtain rfl := List.mem_singleton.mp hp
      exact ⟨hne, hpage ▸ List.length_take_le ..⟩
  · rw [List.flatten_append, List.flatten_singleton, h.rows]
    nth_rewrite 1 [take_rowsPast hkeys hne hpage]
    exact rowsBetween_append hkeys h.le (le_of_lt hlt)

/-- With nothing past the cursor, the pages are everything past the start. -/
theorem complete (h : PagesSound key n start cursor pages log)
    (hend : rowsPast key cursor log = []) : pages.flatten = rowsPast key start log := by
  rw [h.rows, rowsBetween_of_rowsPast_eq_nil hend]

end PagesSound

/-- A fetch leaves less to read. -/
theorem length_rowsPast_lt {key : α → κ} {n : ℕ} {cursor : κ} {page log : List α}
    (hne : page ≠ []) (hpage : (rowsPast key cursor log).take n = page) :
    (rowsPast key (key (page.getLast hne)) log).length < (rowsPast key cursor log).length := by
  obtain ⟨hmem, hlt⟩ := getLast_mem_log hne hpage
  have hlater : (log.filter fun a => key (page.getLast hne) < key a) =
      (log.filter fun a => cursor < key a).filter fun a => key (page.getLast hne) < key a := by
    rw [List.filter_filter]
    apply List.filter_congr
    intro a _
    by_cases ha : key (page.getLast hne) < key a
    · simp [ha, hlt.trans ha]
    · simp [ha]
  rw [rowsPast, rowsPast, (orderBy_perm key _).length_eq, (orderBy_perm key _).length_eq, hlater]
  apply List.length_filter_lt_length_iff_exists.mpr
  exact ⟨page.getLast hne, by simpa using ⟨hmem, hlt⟩, by simp⟩

end Pages
