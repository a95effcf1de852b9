import FinestVX.Core.Books

/-!
# A concrete platform

An implementation of the external functions that behaves as they do on the
inputs this development evaluates: trimming, a table of currencies, the ranges
of fiscal periods, readers of ISO texts, and the digest of the row signatures.

## Main definitions

* `Reference.readDate`, `Reference.readDateTime` — readers of ISO texts.
* `Reference.Blake2b.hexdigest` — the digest of a text.
* `Reference.platform` — the instance.

## Main results

* `Reference.readDate_isoformatChars`, `Reference.readDateTime_isoformat` — the
  readers invert `isoformat`.
-/

namespace FinestVX.Reference

open Text

/-! ### Reading ISO texts -/

/-- Read one given character. -/
def expect (c : Char) : List Char → Option (List Char)
  | [] => none
  | a :: s => if a = c then some s else none

@[simp] theorem expect_cons (c : Char) (s : List Char) : expect c (c :: s) = some s := by
  simp [expect]

/-- Read `YYYY-MM-DD` off the front of a text. -/
def readDate (s : List Char) : Option (Date × List Char) := do
  let (y, s) ← readFixed 4 0 s
  let s ← expect '-' s
  let (m, s) ← readFixed 2 0 s
  let s ← expect '-' s
  let (d, s) ← readFixed 2 0 s
  if h : (1 ≤ y ∧ y ≤ 9999) ∧ (1 ≤ m ∧ m ≤ 12) ∧ 1 ≤ d ∧ d ≤ daysInMonth y m then
    some (⟨y, m, d, h.1, h.2.1, h.2.2⟩, s)
  else none

theorem readDate_isoformatChars (d : Date) (s : List Char) :
    readDate (d.isoformatChars ++ s) = some (d, s) := by
  have := d.year_range
  have := d.month_range
  have := d.day_le
  have h := And.intro d.year_range (And.intro d.month_range d.day_range)
  simp [readDate, Date.isoformatChars, readFixed_fixed (w := 4) (n := d.year) (by omega),
    readFixed_fixed (w := 2) (n := d.month) (by omega),
    readFixed_fixed (w := 2) (n := d.day) (by omega), h]

/-- Read an optional fraction of a second. -/
def readFraction : List Char → Option (ℕ × List Char)
  | '.' :: s => readFixed 6 0 s
  | s => some (0, s)

theorem readFraction_fractionChars {us : ℕ} (h : us < 1000000) {s : List Char}
    (hs : ∀ r, s ≠ '.' :: r) : readFraction (DateTime.fractionChars us ++ s) = some (us, s) := by
  unfold DateTime.fractionChars
  split
  · next h0 =>
    subst h0
    unfold readFraction
    split
    · next r heq => exact absurd heq (hs r)
    · rfl
  · rw [List.cons_append, readFraction, readFixed_fixed (by omega)]

/-- Read the optional seconds of an offset, up to the end of the text. -/
def readOffsetSeconds : List Char → Option (ℕ × ℕ)
  | [] => some (0, 0)
  | s => do
    let s ← expect ':' s
    let (sec, s) ← readFixed 2 0 s
    let (us, s) ← readFraction s
    if s = [] then some (sec, us) else none

/-- Read an optional offset, up to the end of the text. -/
def readOffset : List Char → Option (Option ℤ)
  | [] => some none
  | sign :: s => do
    let (h, s) ← readFixed 2 0 s
    let s ← expect ':' s
    let (m, s) ← readFixed 2 0 s
    let (sec, us) ← readOffsetSeconds s
    let abs := ((h * 60 + m) * 60 + sec) * 1000000 + us
    if sign = '-' then some (some (-(abs : ℤ)))
    else if sign = '+' then some (some (abs : ℤ))
    else none

theorem readOffset_offsetChars {o : Option ℤ} (h : ∀ x ∈ o, x.natAbs < microsecondsPerDay) :
    readOffset (DateTime.offsetChars o) = some o := by
  cases o with
  | none => rfl
  | some x =>
    have hx : x.natAbs < 86400 * 1000000 := h x rfl
    simp only [DateTime.offsetChars]
    set us := x.natAbs % 1000000
    set s := x.natAbs / 1000000
    -- seconds and fraction are left out when both are zero
    have hseconds : readOffsetSeconds (if s % 60 = 0 ∧ us = 0 then []
        else ':' :: (fixed 2 (s % 60) ++ DateTime.fractionChars us)) = some (s % 60, us) := by
      split
      · next h0 => simp [readOffsetSeconds, h0]
      · have hus : us < 1000000 := by omega
        have hfrac := readFraction_fractionChars hus (s := []) (by simp)
        rw [List.append_nil] at hfrac
        simp [readOffsetSeconds, readFixed_fixed (w := 2) (n := s % 60) (by omega), hfrac]
    have habs : ((s / 3600 * 60 + s / 60 % 60) * 60 + s % 60) * 1000000 + us = x.natAbs := by
      omega
    simp only [readOffset, readFixed_fixed (w := 2) (n := s / 3600) (by omega), expect_cons,
      readFixed_fixed (w := 2) (n := s / 60 % 60) (by omega), hseconds, habs,
      Option.bind_eq_bind, Option.bind_some]
    by_cases hneg : x < 0
    · simp only [hneg, if_true]
      congr 2
      omega
    · simp only [hneg, if_false]
      rw [if_neg (by decide), if_pos trivial]
      congr 2
      omega

/-- Read a whole text as a datetime. -/
def readDateTime (s : List Char) : Option DateTime := do
  let (date, s) ← readDate s
  let s ← expect 'T' s
  let (hour, s) ← readFixed 2 0 s
  let s ← expect ':' s
  let (minute, s) ← readFixed 2 0 s
  let s ← expect ':' s
  let (second, s) ← readFixed 2 0 s
  let (microsecond, s) ← readFraction s
  let utcoffset ← readOffset s
  if h : (hour < 24 ∧ minute < 60 ∧ second < 60 ∧ microsecond < 1000000) ∧
      ∀ o ∈ utcoffset, o.natAbs < microsecondsPerDay then
    some ⟨date, hour, minute, second, microsecond, utcoffset, h.1, h.2⟩
  else none

theorem offsetChars_ne (o : Option ℤ) (r : List Char) : DateTime.offsetChars o ≠ '.' :: r := by
  cases o with
  | none => simp [DateTime.offsetChars]
  | some x =>
    simp only [DateTime.offsetChars]
    split <;> simp

theorem readDateTime_isoformat (t : DateTime) : readDateTime t.isoformat.toList = some t := by
  obtain ⟨hh, hm, hs, hus⟩ := t.time_range
  have h := And.intro t.time_range t.offset_range
  rw [DateTime.isoformat, String.toList_ofList]
  simp only [readDateTime, readDate_isoformatChars, expect_cons,
    readFixed_fixed (w := 2) (n := t.hour) (by omega),
    readFixed_fixed (w := 2) (n := t.minute) (by omega),
    readFixed_fixed (w := 2) (n := t.second) (by omega),
    readFraction_fractionChars hus (offsetChars_ne t.utcoffset),
    readOffset_offsetChars t.offset_range, Option.bind_eq_bind, Option.bind_some]
  rw [dif_pos h]

/-- `date.fromisoformat`, on the texts `isoformat` writes. -/
def dateFromIsoformat (s : String) : Except PyError Date :=
  match readDate s.toList with
  | some (d, []) => .ok d
  | _ => .error (.valueError "Invalid isoformat string")

theorem dateFromIsoformat_isoformat (d : Date) : dateFromIsoformat d.isoformat = .ok d := by
  have h := readDate_isoformatChars d []
  rw [List.append_nil] at h
  rw [dateFromIsoformat, Date.isoformat, String.toList_ofList, h]

theorem dateFromIsoformat_datetime (t : DateTime) :
    ∃ msg, dateFromIsoformat t.isoformat = .error (.valueError msg) := by
  refine ⟨"Invalid isoformat string", ?_⟩
  rw [dateFromIsoformat, DateTime.isoformat, String.toList_ofList, readDate_isoformatChars]

/-- `datetime.fromisoformat`, on the texts `isoformat` writes. -/
def datetimeFromIsoformat (s : String) : Except PyError DateTime :=
  match readDateTime s.toList with
  | some t => .ok t
  | none => .error (.valueError "Invalid isoformat string")

/-! ### Digests -/

namespace Blake2b

/-- The initial state. -/
def iv : List UInt64 :=
  [0x6a09e667f3bcc908, 0xbb67ae8584caa73b, 0x3c6ef372fe94f82b, 0xa54ff53a5f1d36f1,
    0x510e527fade682d1, 0x9b05688c2b3e6c1f, 0x1f83d9abfb41bd6b, 0x5be0cd19137e2179]

/-- The order in which a round takes the words of a block. -/
def sigma : List (List ℕ) :=
  let s :=
    [[0, 1, 2, 3, 4, 5, 6, 7, 8, 9, 10, 11, 12, 13, 14, 15],
      [14, 10, 4, 8, 9, 15, 13, 6, 1, 12, 0, 2, 11, 7, 5, 3],
      [11, 8, 12, 0, 5, 2, 15, 13, 10, 14, 3, 6, 7, 1, 9, 4],
      [7, 9, 3, 1, 13, 12, 11, 14, 2, 6, 5, 10, 4, 0, 15, 8],
      [9, 0, 5, 7, 2, 4, 10, 15, 14, 1, 11, 12, 6, 8, 3, 13],
      [2, 12, 6, 10, 0, 11, 8, 3, 4, 13, 7, 5, 15, 14, 1, 9],
      [12, 5, 1, 15, 14, 13, 4, 10, 0, 7, 6, 3, 9, 2, 8, 11],
      [13, 11, 7, 14, 12, 1, 3, 9, 5, 0, 15, 4, 8, 6, 2, 10],
      [6, 15, 14, 9, 11, 3, 0, 8, 12, 2, 13, 7, 1, 4, 10, 5],
      [10, 2, 8, 4, 7, 6, 1, 5, 15, 11, 9, 14, 3, 12, 13, 0]]
  s ++ s.take 2

/-- The columns and the diagonals of the state. -/
def quarters : List (ℕ × ℕ × ℕ × ℕ) :=
  [(0, 4, 8, 12), (1, 5, 9, 13), (2, 6, 10, 14), (3, 7, 11, 15),
    (0, 5, 10, 15), (1, 6, 11, 12), (2, 7, 8, 13), (3, 4, 9, 14)]

def rotr (x n : UInt64) : UInt64 := (x >>> n) ||| (x <<< (64 - n))

/-- Mix two words of a block into a quarter of the state. -/
def mix (x y : UInt64) (v : List UInt64) : ℕ × ℕ × ℕ × ℕ → List UInt64
  | (a, b, c, d) =>
    let va := v.getD a 0 + v.getD b 0 + x
    let vd := rotr (v.getD d 0 ^^^ va) 32
    let vc := v.getD c 0 + vd
    let vb := rotr (v.getD b 0 ^^^ vc) 24
    let va := va + vb + y
    let vd := rotr (vd ^^^ va) 16
    let vc := vc + vd
    let vb := rotr (vb ^^^ vc) 63
    (((v.set a va).set b vb).set c vc).set d vd

/-- One round over the words of a block. -/
def round (m v : List UInt64) (order : List ℕ) : List UInt64 :=
  quarters.zipIdx.foldl (fun v (q, i) =>
    mix (m.getD (order.getD (2 * i) 0) 0) (m.getD (order.getD (2 * i + 1) 0) 0) v q) v

/-- A block of bytes as words, the low bytes first. -/
def words (block : List UInt8) : List UInt64 :=
  (List.range 16).map fun i =>
    ((block.drop (8 * i)).take 8).foldr (fun b w => w * 256 + b.toUInt64) 0

/-- Compress a block into the state; `t` bytes have been read. -/
def compress (h : List UInt64) (block : List UInt8) (t : ℕ) (last : Bool) : List UInt64 :=
  let iv := (iv.set 4 (iv.getD 4 0 ^^^ t.toUInt64)).set 6
    (if last then ~~~(iv.getD 6 0) else iv.getD 6 0)
  let v := sigma.foldl (round (words block)) (h ++ iv)
  h.zipIdx.map fun (w, i) => w ^^^ v.getD i 0 ^^^ v.getD (i + 8) 0

/-- Compress what is left of a text; the last block is never empty, unless the text is. -/
def absorb : ℕ → List UInt64 → ℕ → List UInt8 → List UInt64
  | 0, h, _, _ => h
  | n + 1, h, t, s =>
    if s.length ≤ 128 then compress h s (t + s.length) true
    else absorb n (compress h (s.take 128) (t + 128) false) (t + 128) (s.drop 128)

/-- `blake2b(s, digest_size=16).digest()` -/
def digest (s : List UInt8) : List UInt8 :=
  let h := absorb (s.length + 1) (iv.set 0 (iv.getD 0 0 ^^^ 0x01010010)) 0 s
  (h.take 2).flatMap fun (w : UInt64) =>
    (List.range 8).map fun i => (w >>> (8 * i).toUInt64).toUInt8

/-- The digest of a text in hexadecimal. -/
def hexdigest (s : String) : String :=
  String.ofList ((digest s.toUTF8.toList).flatMap fun b =>
    [(b.toNat / 16).digitChar, (b.toNat % 16).digitChar])

end Blake2b

/-! ### The platform -/

def requireNonEmptyStr (v f : String) : Except PyError String :=
  if strip v = "" then .error (.valueError (f ++ " cannot be blank")) else .ok (strip v)

def normalizeOptionalDecimalRange (v : Option Decimal) (lo hi : Dec) (f : String) :
    Except PyError (Option Decimal) :=
  match v with
  | none => .ok none
  | some (.finite d _) =>
    if d.numLt lo || hi.numLt d then
      .error (.valueError s!"{f} must be in range [{lo.formatF}, {hi.formatF}]")
    else .ok v
  | some _ => .error (.valueError s!"{f} must be finite")

theorem normalizeOptionalDecimalRange_some (v : Decimal) (lo hi : Dec) (f : String)
    (r : Option Decimal) : normalizeOptionalDecimalRange (some v) lo hi f = .ok r ↔
      r = some v ∧ ∃ d, v.toDec? = some d ∧ lo.value ≤ d.value ∧ d.value ≤ hi.value := by
  cases v with
  | finite d held =>
    simp only [normalizeOptionalDecimalRange, Except.guard_eq_ok, Bool.or_eq_true,
      Dec.numLt_iff, not_or, not_lt, Except.ok.injEq, Decimal.toDec?_finite, Option.some.injEq]
    constructor
    · rintro ⟨⟨hlo, hhi⟩, rfl⟩
      exact ⟨rfl, d, rfl, hlo, hhi⟩
    · rintro ⟨rfl, _, rfl, hlo, hhi⟩
      exact ⟨⟨hlo, hhi⟩, rfl⟩
  | infinity n => simp [normalizeOptionalDecimalRange]
  | nan => simp [normalizeOptionalDecimalRange]

theorem toUpper_of_isUpper {c : Char} (h : c.isUpper = true) : c.toUpper = c := by
  have hle := (toNat_of_isUpper h).2
  have hlower : ¬ ('a'.val ≤ c.val ∧ c.val ≤ 'z'.val) := by
    rintro ⟨h97, -⟩
    have : 97 ≤ c.toNat := UInt32.le_iff_toNat_le.mp h97
    omega
  exact dif_neg hlower

/-- Some currencies with their decimal places. -/
def currencies : Dict String ℕ :=
  [("EUR", 2), ("USD", 2), ("GBP", 2), ("JPY", 0), ("BHD", 3)]

mutual

/-- The text of a JSON value. -/
def jsonText : Json → String
  | .null => "null"
  | .int n => toString n
  | .text s => s.quote
  | .array l => "[" ++ String.intercalate "," (jsonItems l) ++ "]"
  | .object fields => "\x7b" ++ String.intercalate "," (jsonFields fields) ++ "\x7d"

/-- The texts of the items of an array. -/
def jsonItems : List Json → List String
  | [] => []
  | j :: l => jsonText j :: jsonItems l

/-- The texts of the fields of an object. -/
def jsonFields : List (String × Json) → List String
  | [] => []
  | (k, j) :: l => (k.quote ++ ":" ++ jsonText j) :: jsonFields l

end

/-- The external functions, implemented. -/
scoped instance platform : Platform where
  requireNonEmptyStr := requireNonEmptyStr
  normalizeOptionalStr v f :=
    match v with
    | none => .ok none
    | some v => (requireNonEmptyStr v f).map some
  normalizeOptionalDecimalRange := normalizeOptionalDecimalRange
  requirePositiveInt v f :=
    if v ≤ 0 then .error (.valueError (f ++ " must be positive")) else .ok v
  requireNonNegativeInt v f :=
    if v < 0 then .error (.valueError (f ++ " must be non-negative")) else .ok v
  makeFluentNumber := FluentNumber.mk
  isValidCurrencyCode c := c ∈ currencies.keys
  getCurrencyDecimalDigits c := currencies.get? c
  checkFiscalPeriod y q m :=
    if 1 ≤ y ∧ 1 ≤ q ∧ q ≤ 4 ∧ 1 ≤ m ∧ m ≤ 12 then .ok ()
    else .error (.valueError "invalid fiscal period")
  checkFiscalCalendar m :=
    if 1 ≤ m ∧ m ≤ 12 then .ok () else .error (.valueError "start_month must be 1-12")
  upper s := String.ofList (s.toList.map Char.toUpper)
  dateFromIsoformat := dateFromIsoformat
  datetimeFromIsoformat := datetimeFromIsoformat
  strRepr s := "'" ++ s ++ "'"
  fiscalPeriodRepr y q m := s!"FiscalPeriod(fiscal_year={y}, quarter={q}, month={m})"
  jsonText := jsonText
  blake2Hex := Blake2b.hexdigest
  requireNonEmptyStr_eq _ _ := rfl
  normalizeOptionalStr_none _ := rfl
  normalizeOptionalStr_some _ _ := rfl
  normalizeOptionalDecimalRange_none _ _ _ := rfl
  normalizeOptionalDecimalRange_some := normalizeOptionalDecimalRange_some
  requirePositiveInt_eq_ok v f r := by
    rw [Except.guard_eq_ok, not_le, Except.ok.injEq, eq_comm (a := r), and_comm]
  requireNonNegativeInt_eq_ok v f r := by
    rw [Except.guard_eq_ok, not_lt, Except.ok.injEq, eq_comm (a := r), and_comm]
  decimalValue_makeFluentNumber _ := rfl
  isUpper_of_isValidCurrencyCode c h := by
    have hall : currencies.keys.all fun c =>
        c.toList.length == 3 && c.toList.all Char.isUpper := by decide
    have hc := List.all_eq_true.mp hall c (of_decide_eq_true h)
    rwa [Bool.and_eq_true, beq_iff_eq, List.all_eq_true] at hc
  upper_of_isUpper s h := by
    have hmap : s.toList.map Char.toUpper = s.toList.map id :=
      List.map_congr_left fun c hc => toUpper_of_isUpper (h c hc)
    rw [hmap, List.map_id, String.ofList_toList]
  dateFromIsoformat_isoformat := dateFromIsoformat_isoformat
  dateFromIsoformat_datetime := dateFromIsoformat_datetime
  datetimeFromIsoformat_isoformat t := by rw [datetimeFromIsoformat, readDateTime_isoformat]

end FinestVX.Reference
