import FinestVX.Core.Platform
import FinestVX.Lib.Checked
import FinestVX.Lib.IntegerText
import FinestVX.Lib.Quoting

/-!
# Rendering SQL

The statements of the schema are templates, whose interpolations are rendered as quoted
identifiers, as literals, or as they are.  The database reads the literal of a text back as
this text, whatever follows it but a quote.

## Main definitions

* `quoteIdentifier`, `quoteLiteral`, `renderSql` — the rendering.
* `lexStringLiteral` — the rule by which the database reads a literal of a text.

## Main results

* `lexStringLiteral_quoteLiteral` — the literal of a text is one token, with this text as
  its value.
* `lexStringLiteral_renderSql` — so it is inside of a rendered template.
-/

namespace FinestVX

open Except Quoting

/-- What an interpolation may hold; of other objects the type only is looked at. -/
inductive SqlValue
  | null
  | bool (b : Bool)
  | int (n : ℤ)
  | str (s : String)
  | other (typeName : String)
  deriving DecidableEq, Repr

/-- `type(value).__name__` -/
def SqlValue.typeName : SqlValue → String
  | null => "NoneType"
  | bool _ => "bool"
  | int _ => "int"
  | str _ => "str"
  | other typeName => typeName

/-- `'` -/
def singleQuote : Char := Char.ofNat 39

/-! ### Rendering -/

/-- `_SQLITE_IDENTIFIER_RE.fullmatch` -/
def isSqliteIdentifier : List Char → Bool
  | [] => false
  | c :: s => (c.isAlpha || c = '_') && s.all fun d => d.isAlphanum || d = '_'

/-- `quote_identifier` -/
def quoteIdentifier [Platform] : SqlValue → Except PyError String
  | .str identifier =>
    if isSqliteIdentifier identifier.toList then .ok ("\"" ++ identifier ++ "\"")
    else .error (.valueError ("Invalid SQLite identifier: " ++ Platform.strRepr identifier))
  | v => .error (.typeError s!"SQLite identifier must be str, got {v.typeName}")

/-- `value.replace("'", "''")`, between quotes. -/
def quoteText (s : String) : String :=
  "'" ++ String.ofList (replace singleQuote [singleQuote, singleQuote] s.toList) ++ "'"

/-- `quote_literal` -/
def quoteLiteral : SqlValue → Except PyError String
  | .null => .ok "NULL"
  | .bool _ => .error (.typeError "SQLite literal values must not be bool")
  | .int n =>
    match Integer.toText? n with
    | some text => .ok text
    | none => .error (.valueError "Exceeds the limit (4300 digits) for integer string conversion")
  | .str s => .ok (quoteText s)
  | .other typeName => .error (.typeError s!"Unsupported SQLite literal type: {typeName}")

/-- A part of a template. -/
inductive TemplatePart
  | text (s : String)
  | interpolation (value : SqlValue) (conversion : Option String) (formatSpec : String)
  deriving DecidableEq, Repr

section

variable [Platform]

/-- What `render_sql` makes of a part of the template. -/
def renderPart : TemplatePart → Except PyError String
  | .text s => .ok s
  | .interpolation value conversion formatSpec => do
    match conversion with
    | none | some "" => pure ()
    | some c => throw (.valueError ("Unsupported SQL template conversion: " ++ Platform.strRepr c))
    match formatSpec with
    | "identifier" => quoteIdentifier value
    | "literal" => quoteLiteral value
    | "raw" =>
      match value with
      | .str s => .ok s
      | v => throw (.typeError s!"Raw SQL segments must be str, got {v.typeName}")
    | spec => throw (.valueError
        ("Unsupported SQL template format spec: " ++ Platform.strRepr spec))

/-- `render_sql` -/
def renderSql (template : List TemplatePart) : Except PyError String := do
  let parts ← template.mapM renderPart
  return String.join parts

end

/-! ### Reading -/

/-- A literal opens with a quote, a doubled quote in it stands for one, and a single one
closes it. -/
def lexStringLiteral (sql : String) : Option (Literal Char) := readLiteral singleQuote sql.toList

theorem toList_quoteText (s : String) : (quoteText s).toList = enclose singleQuote s.toList := by
  have hquote : "'".toList = [singleQuote] := by decide
  rw [quoteText, String.toList_append, String.toList_append, hquote, String.toList_ofList]
  rfl

theorem lexStringLiteral_quoteText {s r : String} (hr : r.toList.head? ≠ some singleQuote) :
    lexStringLiteral (quoteText s ++ r) = some ⟨(quoteText s).toList, s.toList, r.toList⟩ := by
  rw [lexStringLiteral, String.toList_append, toList_quoteText]
  exact readLiteral_enclose s.toList hr

theorem quoteText_injective : Function.Injective quoteText := by
  intro s s' h
  have hlist := congrArg String.toList h
  rw [toList_quoteText, toList_quoteText] at hlist
  exact String.toList_injective (enclose_injective hlist)

section

variable [Platform] {before after : List TemplatePart} {s sql : String}

theorem renderSql_append_eq_ok : renderSql (before ++ after) = .ok sql ↔
    ∃ a b, renderSql before = .ok a ∧ renderSql after = .ok b ∧ sql = a ++ b := by
  unfold renderSql
  rw [List.mapM_append]
  constructor
  · intro h
    obtain ⟨parts, hparts, h⟩ := bind_eq_ok.mp h
    obtain ⟨as, has, hparts⟩ := bind_eq_ok.mp hparts
    obtain ⟨bs, hbs, hparts⟩ := bind_eq_ok.mp hparts
    cases hparts
    cases h
    exact ⟨String.join as, String.join bs, by rw [has]; rfl, by rw [hbs]; rfl, by simp⟩
  · rintro ⟨a, b, ha, hb, rfl⟩
    obtain ⟨as, has, ha⟩ := bind_eq_ok.mp ha
    obtain ⟨bs, hbs, hb⟩ := bind_eq_ok.mp hb
    cases ha
    cases hb
    rw [has, hbs]
    simp

/-- An interpolated text is, in the rendered statement, a token that denotes it, and ends where
the rest of the template begins. -/
theorem lexStringLiteral_renderSql
    (h : renderSql (before ++ .interpolation (.str s) none "literal" :: after) = .ok sql) :
    ∃ a b, renderSql before = .ok a ∧ renderSql after = .ok b ∧ sql = a ++ (quoteText s ++ b) ∧
      (b.toList.head? ≠ some singleQuote → lexStringLiteral (quoteText s ++ b) =
        some ⟨(quoteText s).toList, s.toList, b.toList⟩) := by
  obtain ⟨a, c, ha, hc, rfl⟩ := renderSql_append_eq_ok.mp h
  rw [← List.singleton_append] at hc
  obtain ⟨literal, b, hliteral, hb, rfl⟩ := renderSql_append_eq_ok.mp hc
  obtain rfl : quoteText s = literal := by
    simpa [renderSql, renderPart, quoteLiteral] using hliteral
  exact ⟨a, b, ha, hb, rfl, lexStringLiteral_quoteText⟩

end

/-- The literal of a text is read as one token, which denotes this text, unless a quote
follows; so that texts with the same literal are the same. -/
theorem lexStringLiteral_quoteLiteral (s : String) :
    ∃ literal, quoteLiteral (.str s) = .ok literal ∧
      (∀ r : String, r.toList.head? ≠ some singleQuote →
        lexStringLiteral (literal ++ r) = some ⟨literal.toList, s.toList, r.toList⟩) ∧
      ∀ s' : String, quoteLiteral (.str s') = .ok literal → s' = s := by
  refine ⟨quoteText s, rfl, fun r hr => lexStringLiteral_quoteText hr, ?_⟩
  intro s' h
  exact quoteText_injective (Except.ok.inj h)

theorem lexStringLiteral_demo : quoteLiteral (.str "demo's") = .ok "'demo''s'" ∧
    lexStringLiteral ("'demo''s'" ++ ")") =
      some ⟨"'demo''s'".toList, "demo's".toList, ")".toList⟩ := by
  obtain ⟨literal, hliteral, hlex, -⟩ := lexStringLiteral_quoteLiteral "demo's"
  have hdemo : quoteLiteral (.str "demo's") = .ok "'demo''s'" := by decide
  obtain rfl : literal = "'demo''s'" := Except.ok.inj (hliteral.symm.trans hdemo)
  exact ⟨hdemo, hlex ")" (by decide)⟩

end FinestVX
