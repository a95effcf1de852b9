import FinestVX.Lib.Collections
import FinestVX.Lib.IntegerText
import Mathlib.Data.List.Forall2

/-!
# Element trees and schemas

XML documents as trees of elements with attributes; the text between elements, comments and
processing instructions are left out.  A schema declares for each element which attributes
it may and must have, and of which simple type they are.

## Main definitions

* `XmlText`, `Element` — texts a document may contain, and elements.
* `Element.Same` — trees of one shape, up to a relation on the texts of each attribute.
* `AttributeDecl`, `ElementDecl` — declarations of a schema.

## Main results

* `Element.same_iff` — two elements are the same when their attributes and children are.
* `ElementDecl.sameAttributes_iff` — attributes are compared one declaration at a time.
-/

namespace Xml

/-! ### Texts -/

/-- The characters a document may contain. -/
def isXmlChar (c : Char) : Bool :=
  let n := c.toNat
  n = 0x9 || n = 0xa || n = 0xd || (0x20 ≤ n && n != 0xfffe && n != 0xffff)

/-- The text may stand in a document. -/
def IsXmlText (s : String) : Prop := ∀ c ∈ s.toList, isXmlChar c = true

instance (s : String) : Decidable (IsXmlText s) :=
  List.decidableBAll (isXmlChar · = true) s.toList

/-- A text of a document. -/
structure XmlText where
  text : String
  valid : IsXmlText text

/-- The white space around a text can be removed. -/
theorem IsXmlText.strip {s : String} (h : IsXmlText s) : IsXmlText (Text.strip s) := by
  intro c hc
  rw [Text.strip, String.toList_ofList] at hc
  exact h c ((List.dropWhile_suffix _).subset ((List.rdropWhile_prefix _ _).subset hc))

/-- The characters from the space to the tilde may stand in a document. -/
theorem isXmlChar_of_ascii {c : Char} (hlo : 0x20 ≤ c.toNat) (hhi : c.toNat ≤ 0x7e) :
    isXmlChar c = true := by
  have hne : c.toNat ≠ 0xfffe ∧ c.toNat ≠ 0xffff := by omega
  simp [isXmlChar, hlo, hne]

theorem isXmlChar_of_isDigit {c : Char} (h : c.isDigit = true) : isXmlChar c = true := by
  have hrange : 48 ≤ c.toNat ∧ c.toNat ≤ 57 := by
    simpa [Char.isDigit, UInt32.le_iff_toNat_le] using h
  exact isXmlChar_of_ascii (by omega) (by omega)

theorem isXmlChar_of_isUpper {c : Char} (h : c.isUpper = true) : isXmlChar c = true := by
  have hrange := Text.toNat_of_isUpper h
  exact isXmlChar_of_ascii (by omega) (by omega)

/-! ### Elements -/

/-- An element with its attributes and the elements in it. -/
structure Element where
  tag : String
  attributes : Dict String XmlText
  children : List Element

namespace Element

/-- `element.get(name)` -/
def get (e : Element) (name : String) : Option String :=
  (e.attributes.get? name).map XmlText.text

/-- `element.get(name, default)` -/
def getD (e : Element) (name default : String) : String := (e.get name).getD default

/-- `element.find(tag)` -/
def find (e : Element) (tag : String) : Option Element := e.children.find? (·.tag = tag)

theorem isXmlText_of_get {e : Element} {name s : String} (h : e.get name = some s) :
    IsXmlText s := by
  obtain ⟨t, -, rfl⟩ := Option.map_eq_some_iff.mp h
  exact t.valid

/-- The attributes of two elements are the same, up to a relation on their texts. -/
def SameAttributes (r : String → String → String → Prop) (e e' : Element) : Prop :=
  ∀ name, Option.Rel (r name) (e.get name) (e'.get name)

/-- The same elements in the same order, with the same attributes up to a relation on their
texts. -/
inductive Same (r : String → String → String → Prop) : Element → Element → Prop
  | intro {e e' : Element} (tag : e.tag = e'.tag) (attributes : SameAttributes r e e')
      (children : List.Forall₂ (Same r) e.children e'.children) : Same r e e'

theorem same_iff {r : String → String → String → Prop} {e e' : Element} :
    Same r e e' ↔ e.tag = e'.tag ∧ SameAttributes r e e' ∧
      List.Forall₂ (Same r) e.children e'.children := by
  constructor
  · rintro ⟨htag, hattributes, hchildren⟩
    exact ⟨htag, hattributes, hchildren⟩
  · rintro ⟨htag, hattributes, hchildren⟩
    exact ⟨htag, hattributes, hchildren⟩

end Element

/-! ### Declarations -/

/-- The simple types of attributes. -/
inductive SimpleType
  | string
  | integer
  deriving DecidableEq, Repr

/-- The texts of a simple type. -/
def SimpleType.admits : SimpleType → String → Bool
  | string, _ => true
  | integer, text => Integer.isXsdInteger text

/-- The declaration of an attribute. -/
structure AttributeDecl where
  name : String
  type : SimpleType := .string
  required : Bool := true
  deriving DecidableEq, Repr

/-- A value of the attribute, or its absence. -/
def AttributeDecl.Admits (d : AttributeDecl) (value : Option String) : Prop :=
  (d.required → value.isSome) ∧ ∀ text ∈ value, d.type.admits text

instance (d : AttributeDecl) (value : Option String) : Decidable (d.Admits value) :=
  inferInstanceAs (Decidable (_ ∧ _))

/-- The declaration of an element without its content. -/
structure ElementDecl where
  tag : String
  attributes : List AttributeDecl
  deriving DecidableEq, Repr

namespace ElementDecl

/-- The names of the attributes. -/
def names (d : ElementDecl) : List String := d.attributes.map AttributeDecl.name

/-- The attributes that every element may have without a declaration: hints where a schema
is found. -/
def schemaHints : List String := ["xsi:schemaLocation", "xsi:noNamespaceSchemaLocation"]

/-- The element has the tag, and its attributes are declared. -/
def Admits (d : ElementDecl) (e : Element) : Prop :=
  e.tag = d.tag ∧ (∀ name ∈ e.attributes.keys, name ∈ d.names ∨ name ∈ schemaHints) ∧
    ∀ a ∈ d.attributes, a.Admits (e.get a.name)

instance (d : ElementDecl) (e : Element) : Decidable (d.Admits e) :=
  inferInstanceAs (Decidable (_ ∧ _))

/-- The element has none of the attributes that need no declaration. -/
def NoHints (e : Element) : Prop := ∀ name ∈ schemaHints, e.get name = none

instance (e : Element) : Decidable (NoHints e) :=
  inferInstanceAs (Decidable (∀ name ∈ schemaHints, _))

/-- A required attribute is there. -/
theorem Admits.exists_get {d : ElementDecl} {e : Element} (h : d.Admits e) {name : String}
    (hname : ∃ a ∈ d.attributes, a.name = name ∧ a.required = true) :
    ∃ text, e.get name = some text := by
  obtain ⟨a, ha, rfl, hrequired⟩ := hname
  exact Option.isSome_iff_exists.mp ((h.2.2 a ha).1 hrequired)

/-- Every attribute of an admitted element without hints is declared. -/
theorem get_eq_none {d : ElementDecl} {e : Element} (h : d.Admits e) (hhints : NoHints e)
    {name : String} (hname : name ∉ d.names) : e.get name = none := by
  cases hget : e.get name with
  | none => rfl
  | some text =>
    obtain ⟨t, ht, -⟩ := Option.map_eq_some_iff.mp hget
    have hmem : name ∈ e.attributes.keys := Dict.mem_keys_iff.mpr ⟨t, ht⟩
    rcases h.2.1 name hmem with hdeclared | hhint
    · exact (hname hdeclared).elim
    · rw [hhints name hhint] at hget
      cases hget

/-- **Attributes are compared one declaration at a time** with those of an element that has
declared attributes only. -/
theorem sameAttributes_iff {d : ElementDecl} {r : String → String → String → Prop}
    {e e' : Element} (h : d.Admits e) (h' : ∀ name, name ∉ d.names → e'.get name = none)
    (hnames : ∀ name ∈ d.names, name ∉ schemaHints) :
    e.SameAttributes r e' ↔ NoHints e ∧
      ∀ a ∈ d.attributes, Option.Rel (r a.name) (e.get a.name) (e'.get a.name) := by
  constructor
  · intro hsame
    refine ⟨fun name hname => ?_, fun a _ => hsame a.name⟩
    have hrel := hsame name
    rw [h' name fun hmem => hnames name hmem hname] at hrel
    cases hget : e.get name with
    | none => rfl
    | some text =>
      rw [hget] at hrel
      cases hrel
  · rintro ⟨hhints, hdeclared⟩ name
    by_cases hname : name ∈ d.names
    · obtain ⟨a, ha, rfl⟩ := List.mem_map.mp hname
      exact hdeclared a ha
    · rw [get_eq_none h hhints hname, h' name hname]
      exact .none

end ElementDecl

end Xml
