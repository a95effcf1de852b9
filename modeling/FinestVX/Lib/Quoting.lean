import Mathlib.Data.List.Basic
import Mathlib.Tactic.Common

/-!
# Quoted literals

A literal is enclosed in quotes, and a quote inside of it is doubled.  Reading one off the
front of a text needs one symbol of lookahead, at each quote.

## Main definitions

* `Quoting.enclose` — the literal of a text.
* `Quoting.readLiteral` — reading a literal off the front of a text.

## Main results

* `Quoting.readLiteral_eq_some_iff` — what is read is the literal of a text, and the reading
  stops where a quote does not follow.
* `Quoting.enclose_injective` — different texts have different literals.
-/

namespace Quoting

variable {α : Type} [DecidableEq α]

/-- Every occurrence of a symbol replaced. -/
def replace (old : α) (new : List α) (s : List α) : List α :=
  s.flatMap fun c => if c = old then new else [c]

@[simp] theorem replace_nil (old : α) (new : List α) : replace old new [] = [] := rfl

theorem replace_cons (old : α) (new : List α) (c : α) (s : List α) :
    replace old new (c :: s) = (if c = old then new else [c]) ++ replace old new s := rfl

/-- The literal of a text, with the quote `q`. -/
def enclose (q : α) (s : List α) : List α := q :: (replace q [q, q] s ++ [q])

/-- A literal read off the front of a text. -/
structure Literal (α : Type) where
  /-- What was read. -/
  lexeme : List α
  /-- The text it denotes. -/
  value : List α
  /-- What follows it. -/
  rest : List α
  deriving DecidableEq, Repr

/-- Read the rest of a literal, after its opening quote. -/
def readBody (q : α) : List α → Option (Literal α)
  | [] => none
  | [c] => if c = q then some ⟨[q], [], []⟩ else none
  | c :: d :: t =>
    if c = q then
      if d = q then (readBody q t).map fun l => ⟨q :: q :: l.lexeme, q :: l.value, l.rest⟩
      else some ⟨[q], [], d :: t⟩
    else (readBody q (d :: t)).map fun l => ⟨c :: l.lexeme, c :: l.value, l.rest⟩

/-- Read a literal off the front of a text. -/
def readLiteral (q : α) : List α → Option (Literal α)
  | [] => none
  | c :: t =>
    if c = q then (readBody q t).map fun l => { l with lexeme := q :: l.lexeme } else none

variable {q : α} {s r t : List α} {l : Literal α}

theorem readBody_quote (hr : r.head? ≠ some q) : readBody q (q :: r) = some ⟨[q], [], r⟩ := by
  cases r with
  | nil => rw [readBody, if_pos rfl]
  | cons d r =>
    rw [List.head?_cons, ne_eq, Option.some_inj] at hr
    rw [readBody, if_pos rfl, if_neg hr]

theorem readBody_cons_of_ne {c : α} (hc : c ≠ q) (ht : t ≠ []) : readBody q (c :: t) =
    (readBody q t).map fun l => ⟨c :: l.lexeme, c :: l.value, l.rest⟩ := by
  cases t with
  | nil => exact absurd rfl ht
  | cons d t => rw [readBody, if_neg hc]

/-- The rest of the literal of a text is read as this text. -/
theorem readBody_replace (s : List α) (hr : r.head? ≠ some q) :
    readBody q (replace q [q, q] s ++ q :: r) = some ⟨replace q [q, q] s ++ [q], s, r⟩ := by
  induction s with
  | nil => exact readBody_quote hr
  | cons c s ih =>
    rw [replace_cons]
    by_cases hc : c = q
    · subst hc
      rw [if_pos rfl, List.append_assoc, List.cons_append, List.cons_append, List.nil_append,
        readBody, if_pos rfl, if_pos rfl, ih]
      rfl
    · rw [if_neg hc, List.append_assoc, List.singleton_append,
        readBody_cons_of_ne hc (by simp), ih]
      rfl

/-- What is read is the rest of the literal of what it denotes. -/
theorem readBody_eq_some (h : readBody q t = some l) :
    l.lexeme = replace q [q, q] l.value ++ [q] ∧ t = l.lexeme ++ l.rest ∧
      l.rest.head? ≠ some q := by
  induction t using readBody.induct q generalizing l with
  | case1 => cases h
  | case2 =>
    -- the closing quote is the last symbol
    rw [readBody, if_pos rfl, Option.some_inj] at h
    subst h
    exact ⟨rfl, rfl, by simp⟩
  | case3 c hc =>
    rw [readBody, if_neg hc] at h
    cases h
  | case4 t ih =>
    -- a doubled quote
    rw [readBody, if_pos rfl, if_pos rfl] at h
    obtain ⟨l', hl', rfl⟩ := Option.map_eq_some_iff.mp h
    obtain ⟨hlexeme, ht, hrest⟩ := ih hl'
    refine ⟨?_, ?_, hrest⟩
    · rw [replace_cons, if_pos rfl, hlexeme]
      rfl
    · rw [ht]
      rfl
  | case5 d t hd =>
    -- a quote before something else
    rw [readBody, if_pos rfl, if_neg hd, Option.some_inj] at h
    subst h
    refine ⟨rfl, rfl, ?_⟩
    rwa [List.head?_cons, ne_eq, Option.some_inj]
  | case6 c d t hc ih =>
    rw [readBody, if_neg hc] at h
    obtain ⟨l', hl', rfl⟩ := Option.map_eq_some_iff.mp h
    obtain ⟨hlexeme, ht, hrest⟩ := ih hl'
    refine ⟨?_, ?_, hrest⟩
    · rw [replace_cons, if_neg hc, hlexeme]
      rfl
    · rw [ht]
      rfl

/-- What is read is the literal of a text, and no quote follows it. -/
theorem readLiteral_eq_some_iff : readLiteral q t = some l ↔
    l.lexeme = enclose q l.value ∧ t = l.lexeme ++ l.rest ∧ l.rest.head? ≠ some q := by
  constructor
  · intro h
    cases t with
    | nil => cases h
    | cons c t =>
      rw [readLiteral] at h
      split at h
      · next hc =>
        obtain ⟨l', hl', rfl⟩ := Option.map_eq_some_iff.mp h
        obtain ⟨hlexeme, ht, hrest⟩ := readBody_eq_some hl'
        subst hc
        refine ⟨?_, ?_, hrest⟩
        · rw [enclose, hlexeme]
        · rw [ht]
          rfl
      · cases h
  · rintro ⟨hlexeme, rfl, hrest⟩
    obtain ⟨lexeme, value, rest⟩ := l
    rw [show lexeme = enclose q value from hlexeme, enclose, List.cons_append, List.append_assoc,
      List.singleton_append, readLiteral, if_pos rfl, readBody_replace value hrest]
    rfl

/-- The literal of a text is read as this text. -/
theorem readLiteral_enclose (s : List α) (hr : r.head? ≠ some q) :
    readLiteral q (enclose q s ++ r) = some ⟨enclose q s, s, r⟩ :=
  readLiteral_eq_some_iff.mpr ⟨rfl, rfl, hr⟩

/-- Different texts have different literals. -/
theorem enclose_injective : Function.Injective (enclose q) := by
  intro s s' h
  have hs := readLiteral_enclose (q := q) s (r := []) (by simp)
  rw [h, readLiteral_enclose s' (by simp), Option.some_inj, Literal.mk.injEq] at hs
  exact hs.2.1.symm

end Quoting
