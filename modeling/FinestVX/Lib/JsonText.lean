import FinestVX.Lib.Collections
import FinestVX.Lib.IntegerText

/-!
# JSON texts

JSON values, the compact text of a value without floats, and a reader of JSON texts without
floats.  The writer escapes what has to be escaped, or everything that is not printable
ASCII; the reader takes both, with white space between the tokens.

## Main definitions

* `Value`, `Value.sortKeys` — values, and a value with the keys of its objects in order.
* `write`, `dumps?` — the text of a value.
* `readValue`, `loads?` — reading a value.

## Main results

* `readValue_write` — what is written is read back, whatever follows it.
* `loads?_dumps?` — **reading undoes writing**, up to the order of the keys.
-/

namespace JsonText

/-! ### Values -/

/-- A JSON value: its numbers are integers, or floats given by their 64 bits. -/
inductive Value
  | null
  | bool (b : Bool)
  | number (n : ℤ)
  | float (bits : BitVec 64)
  | string (s : String)
  | array (items : List Value)
  | object (members : List (String × Value))

/-- A text, or `null`. -/
def Value.ofText? : Option String → Value
  | none => .null
  | some s => .string s

/-- A property holds of every value if the values that contain others inherit it. -/
@[elab_as_elim]
theorem Value.induction {motive : Value → Prop} (null : motive .null)
    (bool : ∀ b, motive (.bool b)) (number : ∀ n, motive (.number n))
    (float : ∀ bits, motive (.float bits)) (string : ∀ s, motive (.string s))
    (array : ∀ items, (∀ v ∈ items, motive v) → motive (.array items))
    (object : ∀ members, (∀ m ∈ members, motive m.2) → motive (.object members))
    (v : Value) : motive v :=
  @Value.rec motive (fun items => ∀ v ∈ items, motive v)
    (fun members => ∀ m ∈ members, motive m.2) (fun m => motive m.2)
    null bool number float string array object
    (fun _ hv => (List.not_mem_nil hv).elim)
    (fun _ _ hv hl => List.forall_mem_cons.mpr ⟨hv, hl⟩)
    (fun _ hm => (List.not_mem_nil hm).elim)
    (fun _ _ hm hl => List.forall_mem_cons.mpr ⟨hm, hl⟩)
    (fun _ _ hv => hv) v

/-! ### The writer -/

/-- `\uXXXX` -/
def unicodeEscape (n : ℕ) : List Char :=
  ['\\', 'u', Nat.digitChar (n / 0x1000 % 0x10), Nat.digitChar (n / 0x100 % 0x10),
    Nat.digitChar (n / 0x10 % 0x10), Nat.digitChar (n % 0x10)]

/-- The surrogates of a character beyond the basic plane. -/
def surrogates (n : ℕ) : ℕ × ℕ :=
  (0xd800 + (n - 0x10000) / 0x400, 0xdc00 + (n - 0x10000) % 0x400)

/-- The characters with an escape of their own. -/
def escapeTable : Dict Char Char :=
  [('"', '"'), ('\\', '\\'), ('\n', 'n'), ('\r', 'r'), ('\t', 't'), ('\x0c', 'f'), ('\x08', 'b')]

/-- A character inside of a string; `ascii` is `ensure_ascii`. -/
def escapeChar (ascii : Bool) (c : Char) : List Char :=
  match escapeTable.get? c with
  | some e => ['\\', e]
  | none =>
    if c.toNat < 0x20 then unicodeEscape c.toNat
    else if ascii = true ∧ 0x7e < c.toNat then
      if c.toNat < 0x10000 then unicodeEscape c.toNat
      else unicodeEscape (surrogates c.toNat).1 ++ unicodeEscape (surrogates c.toNat).2
    else [c]

/-- A string, in quotes. -/
def writeString (ascii : Bool) (s : String) : List Char :=
  '"' :: (s.toList.flatMap (escapeChar ascii) ++ ['"'])

/-- Texts with commas between them. -/
def separate (texts : List (List Char)) : List Char := [','].intercalate texts

mutual

/-- The compact text of a value; that of a float is left out. -/
def write (ascii : Bool) : Value → List Char
  | .null => ['n', 'u', 'l', 'l']
  | .bool true => ['t', 'r', 'u', 'e']
  | .bool false => ['f', 'a', 'l', 's', 'e']
  | .number n => (toString n).toList
  | .float _ => []
  | .string s => writeString ascii s
  | .array items => '[' :: (separate (writeItems ascii items) ++ [']'])
  | .object members => '\x7b' :: (separate (writeMembers ascii members) ++ ['\x7d'])

/-- The texts of the items of an array. -/
def writeItems (ascii : Bool) : List Value → List (List Char)
  | [] => []
  | v :: items => write ascii v :: writeItems ascii items

/-- The texts of the members of an object. -/
def writeMembers (ascii : Bool) : List (String × Value) → List (List Char)
  | [] => []
  | (k, v) :: members =>
    (writeString ascii k ++ ':' :: write ascii v) :: writeMembers ascii members

end

mutual

/-- `sort_keys=True` -/
def Value.sortKeys : Value → Value
  | .array items => .array (sortItems items)
  | .object members => .object (orderBy Prod.fst (sortMembers members))
  | v => v

/-- The items of an array, sorted. -/
def sortItems : List Value → List Value
  | [] => []
  | v :: items => v.sortKeys :: sortItems items

/-- The members of an object, sorted each by itself. -/
def sortMembers : List (String × Value) → List (String × Value)
  | [] => []
  | (k, v) :: members => (k, v.sortKeys) :: sortMembers members

end

mutual

/-- The integers in a value have no more digits than can be converted, and it has no floats. -/
def Value.convertible : Value → Bool
  | .number n => (Integer.digits n).length ≤ Integer.maxStrDigits
  | .float _ => false
  | .array items => convertibleItems items
  | .object members => convertibleMembers members
  | _ => true

/-- The items of an array can be written. -/
def convertibleItems : List Value → Bool
  | [] => true
  | v :: items => v.convertible && convertibleItems items

/-- The members of an object can be written. -/
def convertibleMembers : List (String × Value) → Bool
  | [] => true
  | (_, v) :: members => v.convertible && convertibleMembers members

end

mutual

/-- No object in a value has a key twice. -/
def Value.distinct : Value → Prop
  | .array items => distinctItems items
  | .object members => (members.map Prod.fst).Nodup ∧ distinctMembers members
  | _ => True

/-- No object in the items of an array has a key twice. -/
def distinctItems : List Value → Prop
  | [] => True
  | v :: items => v.distinct ∧ distinctItems items

/-- No object in the members of an object has a key twice. -/
def distinctMembers : List (String × Value) → Prop
  | [] => True
  | (_, v) :: members => v.distinct ∧ distinctMembers members

end

/-- `json.dumps(value, ensure_ascii=ascii, separators=(",", ":"), sort_keys=True)`, of values
without floats; `none` if an integer has too many digits. -/
def dumps? (ascii : Bool) (v : Value) : Option String :=
  if v.convertible then some (String.ofList (write ascii v.sortKeys)) else none

theorem writeItems_eq (ascii : Bool) (items : List Value) :
    writeItems ascii items = items.map (write ascii) := by
  induction items with
  | nil => rfl
  | cons v items ih => rw [writeItems, ih, List.map_cons]

/-- The text of a member of an object. -/
def writeMember (ascii : Bool) (m : String × Value) : List Char :=
  writeString ascii m.1 ++ ':' :: write ascii m.2

theorem writeMembers_eq (ascii : Bool) (members : List (String × Value)) :
    writeMembers ascii members = members.map (writeMember ascii) := by
  induction members with
  | nil => rfl
  | cons m members ih => rw [writeMembers, ih, List.map_cons, writeMember]

theorem sortItems_eq (items : List Value) : sortItems items = items.map Value.sortKeys := by
  induction items with
  | nil => rfl
  | cons v items ih => rw [sortItems, ih, List.map_cons]

theorem sortMembers_eq (members : List (String × Value)) :
    sortMembers members = members.map fun m => (m.1, m.2.sortKeys) := by
  induction members with
  | nil => rfl
  | cons m members ih => rw [sortMembers, ih, List.map_cons]

theorem convertibleItems_iff {items : List Value} :
    convertibleItems items = true ↔ ∀ v ∈ items, v.convertible = true := by
  induction items with
  | nil => simp [convertibleItems]
  | cons v items ih => rw [convertibleItems, Bool.and_eq_true, ih, List.forall_mem_cons]

theorem convertibleMembers_iff {members : List (String × Value)} :
    convertibleMembers members = true ↔ ∀ m ∈ members, m.2.convertible = true := by
  induction members with
  | nil => simp [convertibleMembers]
  | cons m members ih => rw [convertibleMembers, Bool.and_eq_true, ih, List.forall_mem_cons]

theorem distinctItems_iff {items : List Value} :
    distinctItems items ↔ ∀ v ∈ items, v.distinct := by
  induction items with
  | nil => simp [distinctItems]
  | cons v items ih => rw [distinctItems, ih, List.forall_mem_cons]

theorem distinctMembers_iff {members : List (String × Value)} :
    distinctMembers members ↔ ∀ m ∈ members, m.2.distinct := by
  induction members with
  | nil => simp [distinctMembers]
  | cons m members ih => rw [distinctMembers, ih, List.forall_mem_cons]

/-! ### Sorting the keys -/

theorem Value.convertible_sortKeys (v : Value) : v.sortKeys.convertible = v.convertible := by
  induction v using Value.induction with
  | null | bool b | number n | float bits | string s => rfl
  | array items ih =>
    rw [Bool.eq_iff_iff, sortKeys, convertible, convertible, convertibleItems_iff,
      convertibleItems_iff, sortItems_eq, List.forall_mem_map]
    exact forall₂_congr fun v hv => by rw [ih v hv]
  | object members ih =>
    rw [Bool.eq_iff_iff, sortKeys, convertible, convertible, convertibleMembers_iff,
      convertibleMembers_iff, sortMembers_eq]
    simp only [mem_orderBy, List.forall_mem_map]
    exact forall₂_congr fun m hm => by rw [ih m hm]

theorem keys_sortMembers (members : List (String × Value)) :
    (sortMembers members).map Prod.fst = members.map Prod.fst := by
  rw [sortMembers_eq, List.map_map]
  rfl

theorem nodup_keys_sorted {members : List (String × Value)}
    (h : (members.map Prod.fst).Nodup) :
    ((orderBy Prod.fst (sortMembers members)).map Prod.fst).Nodup := by
  rw [((orderBy_perm _ _).map _).nodup_iff, keys_sortMembers]
  exact h

theorem Value.distinct_sortKeys {v : Value} (h : v.distinct) : v.sortKeys.distinct := by
  induction v using Value.induction with
  | null | bool b | number n | float bits | string s => trivial
  | array items ih =>
    rw [distinct, distinctItems_iff] at h
    rw [sortKeys, distinct, distinctItems_iff, sortItems_eq, List.forall_mem_map]
    exact fun v hv => ih v hv (h v hv)
  | object members ih =>
    rw [distinct, distinctMembers_iff] at h
    rw [sortKeys, distinct, distinctMembers_iff]
    refine ⟨nodup_keys_sorted h.1, ?_⟩
    rw [sortMembers_eq]
    simp only [mem_orderBy, List.forall_mem_map]
    exact fun m hm => ih m hm (h.2 m hm)

/-- Sorted keys stay as they are. -/
@[simp] theorem Value.sortKeys_sortKeys (v : Value) : v.sortKeys.sortKeys = v.sortKeys := by
  induction v using Value.induction with
  | null | bool b | number n | float bits | string s => rfl
  | array items ih =>
    rw [sortKeys, sortKeys, sortItems_eq, sortItems_eq, List.map_map]
    exact congrArg array (List.map_congr_left ih)
  | object members ih =>
    rw [sortKeys, sortKeys, sortMembers_eq (orderBy _ _)]
    have hsame : (orderBy Prod.fst (sortMembers members)).map (fun m => (m.1, m.2.sortKeys)) =
        orderBy Prod.fst (sortMembers members) := by
      refine (List.map_congr_left fun m hm => ?_).trans (List.map_id _)
      rw [mem_orderBy, sortMembers_eq] at hm
      obtain ⟨m', hm', rfl⟩ := List.mem_map.mp hm
      exact Prod.ext rfl (ih m' hm')
    rw [hsame, orderBy_eq_self (pairwise_orderBy _ _)]

theorem get?_sortMembers (members : Dict String Value) (k : String) :
    Dict.get? (sortMembers members) k = (Dict.get? members k).map Value.sortKeys := by
  induction members with
  | nil => rfl
  | cons m members ih =>
    rw [sortMembers, Dict.get?, Dict.get?, ih]
    split_ifs <;> rfl

/-- Sorting moves no value to another key. -/
theorem get?_orderBy {members : Dict String Value} (h : (members.map Prod.fst).Nodup)
    (k : String) : Dict.get? (orderBy Prod.fst members) k = Dict.get? members k := by
  have hperm := orderBy_perm Prod.fst members
  cases hget : Dict.get? members k with
  | none =>
    rw [Dict.get?_eq_none_iff, Dict.keys] at hget ⊢
    rwa [(hperm.map Prod.fst).mem_iff]
  | some v =>
    refine Dict.get?_eq_some_of_mem ((hperm.map Prod.fst).nodup_iff.mpr h) ?_
    exact hperm.mem_iff.mpr (Dict.mem_of_get?_eq_some hget)

/-! ### The reader -/

/-- White space between tokens. -/
def isSpace (c : Char) : Bool := c = ' ' || c = '\t' || c = '\n' || c = '\r'

def skipSpace (s : List Char) : List Char := s.dropWhile isSpace

/-- The value of a hexadecimal digit. -/
def hexValue? (c : Char) : Option ℕ :=
  if c.isDigit then some (c.toNat - 48)
  else if 97 ≤ c.toNat ∧ c.toNat ≤ 102 then some (c.toNat - 87)
  else if 65 ≤ c.toNat ∧ c.toNat ≤ 70 then some (c.toNat - 55)
  else none

/-- The value of four hexadecimal digits. -/
def hexValue₄? (a b c d : Char) : Option ℕ :=
  match hexValue? a, hexValue? b, hexValue? c, hexValue? d with
  | some a, some b, some c, some d => some (0x1000 * a + 0x100 * b + 0x10 * c + d)
  | _, _, _, _ => none

/-- The character after a backslash. -/
def escaped? (c : Char) : Option ℕ :=
  if c = '"' ∨ c = '\\' ∨ c = '/' then some c.toNat
  else if c = 'n' then some 0x0a
  else if c = 'r' then some 0x0d
  else if c = 't' then some 0x09
  else if c = 'f' then some 0x0c
  else if c = 'b' then some 0x08
  else none

/-- The code points and the surrogates of a string, after its opening quote. -/
def readUnits : List Char → Option (List ℕ × List Char)
  | [] => none
  | c :: s =>
    if c = '"' then some ([], s)
    else if c = '\\' then
      match s with
      | 'u' :: h₁ :: h₂ :: h₃ :: h₄ :: s =>
        (hexValue₄? h₁ h₂ h₃ h₄).bind fun n => (readUnits s).map fun p => (n :: p.1, p.2)
      | e :: s => (escaped? e).bind fun n => (readUnits s).map fun p => (n :: p.1, p.2)
      | [] => none
    else if c.toNat < 0x20 then none
    else (readUnits s).map fun p => (c.toNat :: p.1, p.2)

/-- Pairs of surrogates are put together; a surrogate that is alone is not a character. -/
def joinUnits : List ℕ → Option (List Char)
  | [] => some []
  | [n] => if n.isValidChar then some [Char.ofNat n] else none
  | n :: m :: s =>
    if (0xd800 ≤ n ∧ n ≤ 0xdbff) ∧ 0xdc00 ≤ m ∧ m ≤ 0xdfff then
      (joinUnits s).map (Char.ofNat (0x10000 + (n - 0xd800) * 0x400 + (m - 0xdc00)) :: ·)
    else if n.isValidChar then (joinUnits (m :: s)).map (Char.ofNat n :: ·)
    else none

/-- A string, after its opening quote. -/
def readString (s : List Char) : Option (String × List Char) :=
  (readUnits s).bind fun p => (joinUnits p.1).map fun cs => (String.ofList cs, p.2)

/-- A fraction or an exponent follows the digits. -/
def continues (r : List Char) : Bool := r.head?.any fun c => c = '.' || c = 'e' || c = 'E'

/-- An integer; a number with a fraction or an exponent is none. -/
def readNumber (s : List Char) : Option (ℤ × List Char) :=
  let neg := s.head? = some '-'
  let t := if neg then s.tail else s
  let ds := t.takeWhile Char.isDigit
  let r := t.dropWhile Char.isDigit
  if ds ≠ [] ∧ (ds.head? = some '0' → ds.length = 1) ∧ ds.length ≤ Integer.maxStrDigits ∧
      continues r = false then
    some (if neg then -(Nat.ofDigitChars 10 ds 0 : ℤ) else Nat.ofDigitChars 10 ds 0, r)
  else none

/-- A value that is no string and contains no other. -/
def readScalar (s : List Char) : Option (Value × List Char) :=
  match s with
  | 'n' :: 'u' :: 'l' :: 'l' :: s => some (.null, s)
  | 't' :: 'r' :: 'u' :: 'e' :: s => some (.bool true, s)
  | 'f' :: 'a' :: 'l' :: 's' :: 'e' :: s => some (.bool false, s)
  | s => (readNumber s).map fun p => (.number p.1, p.2)

section

variable {α : Type}

/-- One item or more with commas between them, up to the closing bracket. -/
def readSeparated (close : Char) (item : List Char → Option (α × List Char)) :
    ℕ → List Char → Option (List α × List Char)
  | 0, _ => none
  | n + 1, s =>
    (item s).bind fun p =>
      match skipSpace p.2 with
      | [] => none
      | c :: r =>
        if c = ',' then (readSeparated close item n r).map fun q => (p.1 :: q.1, q.2)
        else if c = close then some ([p.1], r)
        else none

/-- Items with commas between them, after the opening bracket. -/
def readEnclosed (close : Char) (item : List Char → Option (α × List Char)) (s : List Char) :
    Option (List α × List Char) :=
  if (skipSpace s).head? = some close then some ([], (skipSpace s).tail)
  else readSeparated close item s.length s

end

/-- A member of an object. -/
def readMember (value : List Char → Option (Value × List Char)) (s : List Char) :
    Option ((String × Value) × List Char) :=
  match skipSpace s with
  | '"' :: s => (readString s).bind fun p =>
    match skipSpace p.2 with
    | ':' :: s => (value s).map fun q => ((p.1, q.1), q.2)
    | _ => none
  | _ => none

/-- The dictionary of some members; the last one of a key counts. -/
def dictOf (members : List (String × Value)) : List (String × Value) :=
  members.foldl (fun d m => Dict.set d m.1 m.2) []

/-- A value, and what follows it; `n` bounds the depth. -/
def readValue : ℕ → List Char → Option (Value × List Char)
  | 0, _ => none
  | n + 1, s =>
    match skipSpace s with
    | '"' :: s => (readString s).map fun p => (.string p.1, p.2)
    | '[' :: s => (readEnclosed ']' (readValue n) s).map fun p => (.array p.1, p.2)
    | '\x7b' :: s => (readEnclosed '\x7d' (readMember (readValue n)) s).map fun p =>
        (.object (dictOf p.1), p.2)
    | s => readScalar s

/-- `json.loads(text)`, on texts without floats. -/
def loads? (text : String) : Option Value :=
  (readValue text.toList.length text.toList).bind fun p =>
    if skipSpace p.2 = [] then some p.1 else none

/-! ### Strings are read back -/

/-- What is read of a character that was written. -/
def units (ascii : Bool) (c : Char) : List ℕ :=
  if ascii = true ∧ 0x10000 ≤ c.toNat then [(surrogates c.toNat).1, (surrogates c.toNat).2]
  else [c.toNat]

/-- A character is no surrogate. -/
theorem toNat_valid (c : Char) : c.toNat < 0xd800 ∨ 0xdfff < c.toNat ∧ c.toNat < 0x110000 :=
  c.valid

theorem hexValue?_digitChar : ∀ n < 0x10, hexValue? (Nat.digitChar n) = some n := by decide

@[simp] theorem readUnits_quote (s : List Char) : readUnits ('"' :: s) = some ([], s) := by
  rw [readUnits.eq_def]
  rfl

/-- The reader knows the escapes that the writer uses. -/
theorem escapeTable_spec : ∀ p ∈ escapeTable,
    p.2 ≠ 'u' ∧ escaped? p.2 = some p.1.toNat ∧ p.1.toNat < 0x10000 := by decide

theorem readUnits_escaped {e : Char} (he : e ≠ 'u') (s : List Char) :
    readUnits ('\\' :: e :: s) =
      (escaped? e).bind fun n => (readUnits s).map fun p => (n :: p.1, p.2) := by
  rw [readUnits.eq_def]
  dsimp only
  rw [if_neg (by decide), if_pos rfl]
  split
  · next heq => exact absurd (List.cons.inj heq).1 he
  · next heq =>
    obtain ⟨rfl, rfl⟩ := List.cons.inj heq
    rfl
  · next heq => cases heq

/-- A character that stands for itself. -/
theorem readUnits_cons {c : Char} (hquote : c ≠ '"') (hback : c ≠ '\\') (hcontrol : ¬ c.toNat < 0x20)
    (s : List Char) : readUnits (c :: s) = (readUnits s).map fun p => (c.toNat :: p.1, p.2) := by
  rw [readUnits.eq_def]
  simp only [if_neg hquote, if_neg hback, if_neg hcontrol]

theorem readUnits_unicodeEscape {n : ℕ} (h : n < 0x10000) (s : List Char) :
    readUnits (unicodeEscape n ++ s) = (readUnits s).map fun p => (n :: p.1, p.2) := by
  have hvalue : hexValue₄? (Nat.digitChar (n / 0x1000 % 0x10)) (Nat.digitChar (n / 0x100 % 0x10))
      (Nat.digitChar (n / 0x10 % 0x10)) (Nat.digitChar (n % 0x10)) = some n := by
    have hdigit : ∀ m, hexValue? (Nat.digitChar (m % 0x10)) = some (m % 0x10) := fun m =>
      hexValue?_digitChar _ (Nat.mod_lt _ (by omega))
    simp only [hexValue₄?, hdigit, Option.some.injEq]
    omega
  simp [unicodeEscape, readUnits, hvalue]

theorem surrogates_lt {c : Char} (h : 0x10000 ≤ c.toNat) :
    (0xd800 ≤ (surrogates c.toNat).1 ∧ (surrogates c.toNat).1 ≤ 0xdbff) ∧
      0xdc00 ≤ (surrogates c.toNat).2 ∧ (surrogates c.toNat).2 ≤ 0xdfff := by
  have hvalid := toNat_valid c
  simp only [surrogates]
  omega

/-- A character that was written is read as its units. -/
theorem readUnits_escapeChar (ascii : Bool) (c : Char) (s : List Char) :
    readUnits (escapeChar ascii c ++ s) =
      (readUnits s).map fun p => (units ascii c ++ p.1, p.2) := by
  have hsmall : c.toNat < 0x10000 → units ascii c = [c.toNat] := fun h =>
    if_neg fun hlarge => absurd hlarge.2 (by omega)
  cases htable : escapeTable.get? c with
  | some e =>
    obtain ⟨he, hescaped, hlt⟩ := escapeTable_spec _ (Dict.mem_of_get?_eq_some htable)
    rw [hsmall hlt, escapeChar, htable]
    change readUnits ('\\' :: e :: s) = _
    rw [readUnits_escaped he, hescaped]
    rfl
  | none =>
    rw [Dict.get?_eq_none_iff] at htable
    have hne : c ≠ '"' ∧ c ≠ '\\' :=
      ⟨fun h => htable (h ▸ by decide), fun h => htable (h ▸ by decide)⟩
    rw [escapeChar, Dict.get?_eq_none_iff.mpr htable]
    dsimp only
    split_ifs with hcontrol hascii hplane
    · rw [hsmall (by omega), readUnits_unicodeEscape (by omega)]
      rfl
    · rw [hsmall hplane, readUnits_unicodeEscape hplane]
      rfl
    · -- beyond the basic plane: two surrogates
      have hlarge : 0x10000 ≤ c.toNat := by omega
      have hlt := surrogates_lt hlarge
      rw [List.append_assoc, readUnits_unicodeEscape (by omega), readUnits_unicodeEscape (by omega),
        Option.map_map, units, if_pos ⟨hascii.1, hlarge⟩]
      rfl
    · -- the character stands for itself
      have hunits : units ascii c = [c.toNat] := if_neg fun h => hascii ⟨h.1, by omega⟩
      rw [List.singleton_append, readUnits_cons hne.1 hne.2 hcontrol, hunits]
      rfl

theorem readUnits_flatMap (ascii : Bool) (cs s : List Char) :
    readUnits (cs.flatMap (escapeChar ascii) ++ '"' :: s) =
      some (cs.flatMap (units ascii), s) := by
  induction cs with
  | nil => exact readUnits_quote s
  | cons c cs ih =>
    rw [List.flatMap_cons, List.append_assoc, readUnits_escapeChar, ih, List.flatMap_cons]
    rfl

theorem joinUnits_toNat (c : Char) (s : List ℕ) :
    joinUnits (c.toNat :: s) = (joinUnits s).map (c :: ·) := by
  have hvalid : c.toNat.isValidChar := c.valid
  have hhigh := toNat_valid c
  cases s with
  | nil =>
    change (if c.toNat.isValidChar then some [Char.ofNat c.toNat] else none) = some [c]
    rw [if_pos hvalid, Char.ofNat_toNat]
  | cons m s => rw [joinUnits, if_neg (by omega), if_pos hvalid, Char.ofNat_toNat]

theorem joinUnits_units (ascii : Bool) (c : Char) (s : List ℕ) :
    joinUnits (units ascii c ++ s) = (joinUnits s).map (c :: ·) := by
  unfold units
  split_ifs with h
  · have hvalid := toNat_valid c
    have hvalue : 0x10000 + ((surrogates c.toNat).1 - 0xd800) * 0x400 +
        ((surrogates c.toNat).2 - 0xdc00) = c.toNat := by
      simp only [surrogates]
      omega
    rw [List.cons_append, List.singleton_append, joinUnits, if_pos (surrogates_lt h.2), hvalue,
      Char.ofNat_toNat]
  · exact joinUnits_toNat c s

theorem joinUnits_flatMap (ascii : Bool) (cs : List Char) :
    joinUnits (cs.flatMap (units ascii)) = some cs := by
  induction cs with
  | nil => rfl
  | cons c cs ih =>
    rw [List.flatMap_cons, joinUnits_units, ih]
    rfl

/-- **A string is read back.** -/
theorem readString_writeString (ascii : Bool) (s : String) (r : List Char) :
    readString (s.toList.flatMap (escapeChar ascii) ++ '"' :: r) = some (s, r) := by
  rw [readString, readUnits_flatMap, Option.bind_some, joinUnits_flatMap, Option.map_some,
    String.ofList_toList]

/-! ### Numbers are read back -/

/-- What follows a value in a text. -/
def Follows (r : List Char) : Prop := ∀ c ∈ r.head?, c = ',' ∨ c = ']' ∨ c = '\x7d'

theorem digits_head {n : ℤ} (h : (Integer.digits n).head? = some '0') :
    (Integer.digits n).length = 1 := by
  obtain ⟨t, ht⟩ := List.head?_eq_some_iff.mp h
  have hdigits : ∀ c ∈ t, c.isDigit = true := fun c hc =>
    Integer.isDigit_of_mem_digits (n := n) (ht ▸ List.mem_cons_of_mem _ hc)
  have hvalue : Nat.ofDigitChars 10 (Integer.digits n) 0 = n.natAbs :=
    Nat.ofDigitChars_ten_toDigits
  rw [ht, Nat.ofDigitChars_cons] at hvalue
  have hlt := Integer.ofDigitChars_lt hdigits 0
  rw [zero_add, one_mul, show 0 = 10 * 0 + ('0'.toNat - '0'.toNat) from rfl, hvalue] at hlt
  by_contra hne
  have hpos : 0 < t.length := by
    rw [ht, List.length_cons] at hne
    omega
  have hle : (Integer.digits n).length ≤ t.length :=
    (Nat.length_toDigits_le_iff (by norm_num) hpos).mpr hlt
  rw [ht, List.length_cons] at hle
  omega

theorem readNumber_toString {n : ℤ} (hn : (Integer.digits n).length ≤ Integer.maxStrDigits)
    {r : List Char} (hr : Follows r) : readNumber ((toString n).toList ++ r) = some (n, r) := by
  have hall : ∀ c ∈ Integer.digits n, c.isDigit = true := fun c => Integer.isDigit_of_mem_digits
  have hstop : ∀ c ∈ r.head?, c.isDigit = false ∧ continues r = false := by
    intro c hc
    rw [continues, Option.mem_def.mp hc]
    rcases hr c hc with rfl | rfl | rfl <;> decide
  have hends : continues r = false := by
    cases r with
    | nil => rfl
    | cons c r => exact (hstop c rfl).2
  have htake : (Integer.digits n ++ r).takeWhile Char.isDigit = Integer.digits n := by
    rw [List.takeWhile_append_of_pos hall]
    cases r with
    | nil => simp
    | cons c r => simp [(hstop c rfl).1]
  have hdrop : (Integer.digits n ++ r).dropWhile Char.isDigit = r := by
    rw [List.dropWhile_append_of_pos hall]
    cases r with
    | nil => rfl
    | cons c r => simp [(hstop c rfl).1]
  have hsign : ((toString n).toList ++ r).head? = some '-' ↔ n < 0 := by
    rw [Integer.toList_toString]
    split_ifs with hneg
    · simp [hneg]
    · obtain ⟨a, t, ht⟩ := List.exists_cons_of_ne_nil (Integer.digits_ne_nil n)
      have ha := hall a (ht ▸ List.mem_cons_self)
      rw [List.nil_append, ht, List.cons_append, List.head?_cons, Option.some_inj]
      refine ⟨fun heq => ?_, fun h => absurd h hneg⟩
      rw [heq] at ha
      exact absurd ha (by decide)
  have htail : (if ((toString n).toList ++ r).head? = some '-'
      then ((toString n).toList ++ r).tail else (toString n).toList ++ r) =
      Integer.digits n ++ r := by
    by_cases hneg : n < 0
    · rw [if_pos (hsign.mpr hneg), Integer.toList_toString, if_pos hneg]
      rfl
    · rw [if_neg (mt hsign.mp hneg), Integer.toList_toString, if_neg hneg, List.nil_append]
  have hvalue : Nat.ofDigitChars 10 (Integer.digits n) 0 = n.natAbs :=
    Nat.ofDigitChars_ten_toDigits
  simp only [readNumber, htail, htake, hdrop, hvalue]
  rw [if_pos ⟨Integer.digits_ne_nil n, digits_head, hn, hends⟩]
  simp only [hsign, Option.some.injEq, Prod.mk.injEq, and_true]
  split_ifs <;> omega

/-! ### Values are read back -/

theorem skipSpace_cons {c : Char} (h : isSpace c = false) (s : List Char) :
    skipSpace (c :: s) = c :: s := by
  simp [skipSpace, h]

theorem Follows.cons {c : Char} (h : c = ',' ∨ c = ']' ∨ c = '\x7d') (s : List Char) :
    Follows (c :: s) := by
  intro c' hc'
  cases hc'
  exact h

theorem Follows.skipSpace {r : List Char} (h : Follows r) : skipSpace r = r := by
  cases r with
  | nil => rfl
  | cons c r =>
    refine skipSpace_cons ?_ r
    rcases h c rfl with rfl | rfl | rfl <;> rfl

section

variable {α : Type} {close : Char} {item : List Char → Option (α × List Char)}
  {text : α → List Char} {l : List α}

theorem separate_cons_cons (t u : List Char) (texts : List (List Char)) :
    separate (t :: u :: texts) = t ++ ',' :: separate (u :: texts) := by
  simp [separate, List.intercalate]

theorem separate_singleton (t : List Char) : separate [t] = t := by
  simp [separate, List.intercalate]

theorem length_le_separate (h : ∀ a ∈ l, text a ≠ []) :
    l.length ≤ (separate (l.map text)).length + 1 := by
  induction l with
  | nil => simp
  | cons a l ih =>
    cases l with
    | nil => simp
    | cons b l =>
      have hle := ih fun x hx => h x (List.mem_cons_of_mem _ hx)
      have hlength : (separate ((a :: b :: l).map text)).length =
          (text a).length + ((separate ((b :: l).map text)).length + 1) := by
        rw [List.map_cons, List.map_cons, separate_cons_cons, List.length_append,
          List.length_cons]
      have hlen : (a :: b :: l).length = (b :: l).length + 1 := rfl
      omega

/-- Items that are read back one by one are read back with commas between them. -/
theorem readSeparated_separate (hclose : close = ']' ∨ close = '\x7d') (hl : l ≠ [])
    (hitem : ∀ a ∈ l, ∀ r, Follows r → item (text a ++ r) = some (a, r)) {n : ℕ}
    (hn : l.length ≤ n) (r : List Char) :
    readSeparated close item n (separate (l.map text) ++ close :: r) = some (l, r) := by
  have hspace : isSpace close = false := by rcases hclose with rfl | rfl <;> rfl
  have hcomma : close ≠ ',' := by rcases hclose with rfl | rfl <;> decide
  induction l generalizing n with
  | nil => exact absurd rfl hl
  | cons a l ih =>
    cases n with
    | zero => simp at hn
    | succ n =>
      have ha := hitem a List.mem_cons_self
      cases l with
      | nil =>
        rw [List.map_singleton, separate_singleton, readSeparated,
          ha _ (Follows.cons (.inr hclose) r), Option.bind_some, skipSpace_cons hspace]
        simp only [if_neg hcomma, if_true]
      | cons b l =>
        rw [List.map_cons, List.map_cons, separate_cons_cons, List.append_assoc,
          List.cons_append, readSeparated, ha _ (Follows.cons (.inl rfl) _), Option.bind_some,
          skipSpace_cons rfl]
        simp only [if_true]
        rw [← List.map_cons, ih (List.cons_ne_nil _ _)
          (fun x hx => hitem x (List.mem_cons_of_mem _ hx)) (by simpa using hn)]
        rfl

/-- Items are read back up to the bracket if none of them starts like white space or the
bracket. -/
theorem readEnclosed_separate (hclose : close = ']' ∨ close = '\x7d')
    (hitem : ∀ a ∈ l, ∀ r, Follows r → item (text a ++ r) = some (a, r))
    (hhead : ∀ a ∈ l, ∃ c s, text a = c :: s ∧ isSpace c = false ∧ c ≠ close)
    (r : List Char) :
    readEnclosed close item (separate (l.map text) ++ close :: r) = some (l, r) := by
  have hspace : isSpace close = false := by rcases hclose with rfl | rfl <;> rfl
  cases l with
  | nil =>
    have hskip : skipSpace (separate (([] : List α).map text) ++ close :: r) = close :: r :=
      skipSpace_cons hspace r
    rw [readEnclosed, hskip]
    simp
  | cons a l =>
    obtain ⟨c, s, ha, hc, hne⟩ := hhead a List.mem_cons_self
    have hstart : ∃ t, separate ((a :: l).map text) = c :: t := by
      cases l with
      | nil => exact ⟨s, by rw [List.map_singleton, separate_singleton, ha]⟩
      | cons b l =>
        exact ⟨_, by rw [List.map_cons, List.map_cons, separate_cons_cons, ha, List.cons_append]⟩
    have hlength : (a :: l).length ≤ (separate ((a :: l).map text) ++ close :: r).length := by
      have hne : ∀ x ∈ a :: l, text x ≠ [] := by
        intro x hx
        obtain ⟨c, s, heq, -⟩ := hhead x hx
        rw [heq]
        exact List.cons_ne_nil c s
      have hle := length_le_separate hne
      refine hle.trans ?_
      rw [List.length_append]
      exact Nat.add_le_add_left (Nat.succ_pos _) _
    obtain ⟨t, ht⟩ := hstart
    rw [readEnclosed, if_neg]
    · exact readSeparated_separate hclose (List.cons_ne_nil _ _) hitem hlength r
    · rw [ht, List.cons_append, skipSpace_cons hc, List.head?_cons, Option.some_inj]
      exact hne

end

/-- A number starts with a sign or a digit. -/
theorem toString_head (n : ℤ) :
    ∃ c s, (toString n).toList = c :: s ∧ (c = '-' ∨ c.isDigit = true) := by
  obtain ⟨c, s, hs⟩ : ∃ c s, (toString n).toList = c :: s := by
    refine List.exists_cons_of_ne_nil ?_
    rw [Integer.toList_toString]
    exact List.append_ne_nil_of_right_ne_nil _ (Integer.digits_ne_nil n)
  exact ⟨c, s, hs, Integer.mem_toString (hs ▸ List.mem_cons_self)⟩

theorem ne_of_sign_or_digit {c d : Char} (h : c = '-' ∨ c.isDigit = true) (hd : d ≠ '-')
    (hdigit : d.isDigit = false) : c ≠ d := by
  rintro rfl
  rcases h with h | h
  · exact hd h
  · rw [hdigit] at h
    cases h

theorem write_head (ascii : Bool) {v : Value} (hv : v.convertible = true) :
    ∃ c s, write ascii v = c :: s ∧ isSpace c = false ∧ c ≠ ']' ∧ c ≠ '\x7d' := by
  cases v with
  | float bits => cases hv
  | null => exact ⟨_, _, rfl, by decide⟩
  | bool b => cases b <;> exact ⟨_, _, rfl, by decide⟩
  | string s => exact ⟨_, _, rfl, by decide⟩
  | array items => exact ⟨_, _, rfl, by decide⟩
  | object members => exact ⟨_, _, rfl, by decide⟩
  | number n =>
    obtain ⟨c, s, hs, hc⟩ := toString_head n
    refine ⟨c, s, hs, ?_, ne_of_sign_or_digit hc (by decide) rfl,
      ne_of_sign_or_digit hc (by decide) rfl⟩
    have hspace : ∀ d ∈ [' ', '\t', '\n', '\r'], c ≠ d := by
      intro d hd
      have hds : ∀ d ∈ [' ', '\t', '\n', '\r'], d ≠ '-' ∧ d.isDigit = false := by simp
      exact ne_of_sign_or_digit hc (hds d hd).1 (hds d hd).2
    simp [isSpace, hspace]

/-- A member of an object is read back if its value is. -/
theorem readMember_writeMember (ascii : Bool) {value : List Char → Option (Value × List Char)}
    {m : String × Value} {r : List Char}
    (h : value (write ascii m.2 ++ r) = some (m.2, r)) :
    readMember value (writeMember ascii m ++ r) = some (m, r) := by
  have htext : writeMember ascii m ++ r = '"' :: (m.1.toList.flatMap (escapeChar ascii) ++
      '"' :: (':' :: (write ascii m.2 ++ r))) := by
    simp [writeMember, writeString]
  rw [htext, readMember, skipSpace_cons rfl]
  simp only [readString_writeString, Option.bind_some, skipSpace_cons (c := ':') rfl, h]
  rfl

/-- A dictionary of different keys is that of its members. -/
theorem dictOf_of_nodup {members : List (String × Value)} (h : (members.map Prod.fst).Nodup) :
    dictOf members = members := by
  have hset : ∀ (d : Dict String Value) (k : String) (v : Value), k ∉ d.keys →
      d.set k v = d ++ [(k, v)] := by
    intro d k v hk
    induction d with
    | nil => rfl
    | cons p d ih =>
      rw [Dict.keys, List.map_cons, List.mem_cons, not_or] at hk
      rw [Dict.set, if_neg (Ne.symm hk.1), ih hk.2, List.cons_append]
  have hfold : ∀ (l d : List (String × Value)), ((d ++ l).map Prod.fst).Nodup →
      l.foldl (fun d m => Dict.set d m.1 m.2) d = d ++ l := by
    intro l
    induction l with
    | nil => simp
    | cons m l ih =>
      intro d hd
      have hm : m.1 ∉ Dict.keys d := by
        rw [List.map_append, List.map_cons] at hd
        exact fun hmem => (List.nodup_append.mp hd).2.2 _ hmem _ List.mem_cons_self rfl
      rw [List.foldl_cons, hset d m.1 m.2 hm, ih _ (by simpa using hd), List.append_assoc]
      rfl
  exact hfold members [] h

/-! ### Everything is read back -/

theorem exists_succ {ascii : Bool} {v : Value} {n : ℕ} (hv : v.convertible = true)
    (hn : (write ascii v).length ≤ n) : ∃ m, n = m + 1 := by
  obtain ⟨c, s, hwrite, -⟩ := write_head ascii hv
  rw [hwrite, List.length_cons] at hn
  exact ⟨n - 1, by omega⟩

theorem length_le_of_mem {texts : List (List Char)} {t : List Char} (h : t ∈ texts) :
    t.length ≤ (separate texts).length := by
  induction texts with
  | nil => cases h
  | cons u texts ih =>
    cases texts with
    | nil => rw [separate_singleton, List.mem_singleton.mp h]
    | cons w texts =>
      rw [separate_cons_cons, List.length_append]
      rcases List.mem_cons.mp h with rfl | h
      · exact Nat.le_add_right _ _
      · exact (ih h).trans (by simp; omega)

/-- **What is written is read back**, whatever follows it. -/
theorem readValue_write (ascii : Bool) {v : Value} (hconvertible : v.convertible = true)
    (hdistinct : v.distinct) {n : ℕ} (hn : (write ascii v).length ≤ n) {r : List Char}
    (hr : Follows r) : readValue n (write ascii v ++ r) = some (v, r) := by
  induction v using Value.induction generalizing n r with
  | null =>
    obtain ⟨m, rfl⟩ := exists_succ hconvertible hn
    rfl
  | bool b =>
    obtain ⟨m, rfl⟩ := exists_succ hconvertible hn
    cases b <;> rfl
  | number k =>
    obtain ⟨m, rfl⟩ := exists_succ hconvertible hn
    obtain ⟨c, s, hs, hc⟩ := toString_head k
    obtain ⟨c', s', hwrite, hspace, -⟩ := write_head ascii hconvertible
    have hread := readNumber_toString (of_decide_eq_true hconvertible) hr
    have hne : ∀ d : Char, d ≠ '-' → d.isDigit = false → c ≠ d := fun d =>
      ne_of_sign_or_digit hc
    obtain ⟨rfl, rfl⟩ := List.cons.inj (hs.symm.trans hwrite)
    rw [hs, List.cons_append] at hread
    rw [hwrite, List.cons_append, readValue, skipSpace_cons hspace]
    split
    · next h => exact absurd (List.cons.inj h).1 (hne _ (by decide) rfl)
    · next h => exact absurd (List.cons.inj h).1 (hne _ (by decide) rfl)
    · next h => exact absurd (List.cons.inj h).1 (hne _ (by decide) rfl)
    · unfold readScalar
      split
      · next h => exact absurd (List.cons.inj h).1 (hne _ (by decide) rfl)
      · next h => exact absurd (List.cons.inj h).1 (hne _ (by decide) rfl)
      · next h => exact absurd (List.cons.inj h).1 (hne _ (by decide) rfl)
      · rw [hread]
        rfl
  | float bits => cases hconvertible
  | string s =>
    obtain ⟨m, rfl⟩ := exists_succ hconvertible hn
    have htext : write ascii (.string s) ++ r =
        '"' :: (s.toList.flatMap (escapeChar ascii) ++ '"' :: r) := by
      simp [write, writeString]
    rw [htext, readValue, skipSpace_cons rfl]
    simp only [readString_writeString, Option.map_some]
  | array items ih =>
    obtain ⟨m, rfl⟩ := exists_succ hconvertible hn
    rw [Value.convertible, convertibleItems_iff] at hconvertible
    rw [Value.distinct, distinctItems_iff] at hdistinct
    rw [write, writeItems_eq] at hn ⊢
    have hitem : ∀ v ∈ items, ∀ r, Follows r →
        readValue m (write ascii v ++ r) = some (v, r) := by
      intro v hv r hr
      have hle := length_le_of_mem (List.mem_map_of_mem (f := write ascii) hv)
      refine ih v hv (hconvertible v hv) (hdistinct v hv) ?_ hr
      rw [List.length_cons, List.length_append] at hn
      omega
    have hhead : ∀ v ∈ items, ∃ c s, write ascii v = c :: s ∧ isSpace c = false ∧ c ≠ ']' := by
      intro v hv
      obtain ⟨c, s, hs, hspace, hclose, -⟩ := write_head ascii (hconvertible v hv)
      exact ⟨c, s, hs, hspace, hclose⟩
    rw [List.cons_append, List.append_assoc, List.singleton_append, readValue, skipSpace_cons rfl]
    simp only [readEnclosed_separate (.inl rfl) hitem hhead, Option.map_some]
  | object members ih =>
    obtain ⟨m, rfl⟩ := exists_succ hconvertible hn
    rw [Value.convertible, convertibleMembers_iff] at hconvertible
    rw [Value.distinct, distinctMembers_iff] at hdistinct
    rw [write, writeMembers_eq] at hn ⊢
    have hitem : ∀ x ∈ members, ∀ r, Follows r →
        readMember (readValue m) (writeMember ascii x ++ r) = some (x, r) := by
      intro x hx r hr
      have hle := length_le_of_mem (List.mem_map_of_mem (f := writeMember ascii) hx)
      refine readMember_writeMember ascii (ih x hx (hconvertible x hx) (hdistinct.2 x hx) ?_ hr)
      rw [List.length_cons, List.length_append] at hn
      rw [writeMember, List.length_append, List.length_cons] at hle
      omega
    have hhead : ∀ x ∈ members,
        ∃ c s, writeMember ascii x = c :: s ∧ isSpace c = false ∧ c ≠ '\x7d' :=
      fun x _ => ⟨'"', _, rfl, rfl, by decide⟩
    rw [List.cons_append, List.append_assoc, List.singleton_append, readValue, skipSpace_cons rfl]
    simp only [readEnclosed_separate (.inr rfl) hitem hhead, Option.map_some,
      dictOf_of_nodup hdistinct.1]

/-- **Reading undoes writing**, up to the order of the keys. -/
theorem loads?_dumps? {ascii : Bool} {v : Value} {text : String} (hdistinct : v.distinct)
    (h : dumps? ascii v = some text) : loads? text = some v.sortKeys := by
  unfold dumps? at h
  split at h
  · next hconvertible =>
    cases h
    have hread := readValue_write ascii (v.convertible_sortKeys.trans hconvertible)
      (Value.distinct_sortKeys hdistinct) le_rfl (r := []) nofun
    rw [List.append_nil] at hread
    rw [loads?, String.toList_ofList, hread]
    rfl
  · cases h

end JsonText
