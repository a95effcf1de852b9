import FinestVX.Core.Serialization
import FinestVX.Lib.Xml

/-!
# Ledger XML

The schema `ledger.xsd`, the export of a book as a document, and the import of a document
as a book.  The content of an artifact, an XML text, is kept as the document it denotes.

## Main definitions

* `accountDecl` and its siblings, `ValidLedgerBook` — the schema.
* `Attribute`, `Shows` — attributes that are set one after the other.
* `toXml` — `LedgerExporter.to_xml`.
* `bookFromSaft` — `book_from_saft`.

## Main results

* `shows_of_setAttributes` — what an element has after its attributes are set.
* `validLedgerBook_of_bookElement` — **an exported document is valid.**
-/

namespace FinestVX

open Except Xml

/-! ### The schema -/

/-- The element `account`. -/
def accountDecl : ElementDecl where
  tag := "account"
  attributes :=
    [{ name := "code" }, { name := "name" }, { name := "normal-side" }, { name := "currency" },
      { name := "parent-code", required := false }, { name := "allow-posting" },
      { name := "active" }]

/-- The element `period`. -/
def periodDecl : ElementDecl where
  tag := "period"
  attributes :=
    [{ name := "fiscal-year", type := .integer }, { name := "quarter", type := .integer },
      { name := "month", type := .integer }, { name := "start-date" }, { name := "end-date" },
      { name := "state" }]

/-- The element `entry`. -/
def entryDecl : ElementDecl where
  tag := "entry"
  attributes :=
    [{ name := "account-code" }, { name := "side" }, { name := "amount" }, { name := "currency" },
      { name := "description", required := false }, { name := "tax-rate", required := false }]

/-- The element `transaction`. -/
def transactionDecl : ElementDecl where
  tag := "transaction"
  attributes :=
    [{ name := "reference" }, { name := "posted-at" }, { name := "state" },
      { name := "description" }, { name := "reversal-of", required := false },
      { name := "period-fiscal-year", type := .integer, required := false },
      { name := "period-quarter", type := .integer, required := false },
      { name := "period-month", type := .integer, required := false }]

/-- The element `ledger-book`. -/
def ledgerBookDecl : ElementDecl where
  tag := "ledger-book"
  attributes :=
    [{ name := "code" }, { name := "name" }, { name := "base-currency" },
      { name := "legislative-pack" }, { name := "fiscal-start-month", type := .integer }]

/-- An element without content. -/
def ValidLeaf (d : ElementDecl) (e : Element) : Prop := d.Admits e ∧ e.children = []

/-- A transaction, a sequence of entries. -/
def ValidTransaction (e : Element) : Prop :=
  transactionDecl.Admits e ∧ ∀ c ∈ e.children, ValidLeaf entryDecl c

/-- One of the three parts of a book, an element without attributes. -/
def ValidPart (tag : String) (valid : Element → Prop) (e : Element) : Prop :=
  ElementDecl.Admits ⟨tag, []⟩ e ∧ ∀ c ∈ e.children, valid c

/-- A book, the sequence of its three parts. -/
def ValidLedgerBook (e : Element) : Prop :=
  ledgerBookDecl.Admits e ∧
    match e.children with
    | [accounts, periods, transactions] =>
      ValidPart "accounts" (ValidLeaf accountDecl) accounts ∧
        ValidPart "periods" (ValidLeaf periodDecl) periods ∧
          ValidPart "transactions" ValidTransaction transactions
    | _ => False

instance (d : ElementDecl) : DecidablePred (ValidLeaf d) := fun _ =>
  inferInstanceAs (Decidable (_ ∧ _))

instance : DecidablePred ValidTransaction := fun _ => inferInstanceAs (Decidable (_ ∧ _))

instance (tag : String) (valid : Element → Prop) [DecidablePred valid] :
    DecidablePred (ValidPart tag valid) := fun _ => inferInstanceAs (Decidable (_ ∧ _))

instance : DecidablePred ValidLedgerBook := fun e =>
  match h : e.children with
  | [accounts, periods, transactions] =>
    decidable_of_iff (ledgerBookDecl.Admits e ∧
      ValidPart "accounts" (ValidLeaf accountDecl) accounts ∧
        ValidPart "periods" (ValidLeaf periodDecl) periods ∧
          ValidPart "transactions" ValidTransaction transactions) (by rw [ValidLedgerBook, h])
  | [] | [_] | [_, _] | _ :: _ :: _ :: _ :: _ => isFalse (by simp [ValidLedgerBook, h])

/-! ### Setting attributes -/

/-- `str(n)` -/
def strInt (n : ℤ) : Except PyError String :=
  match Integer.toText? n with
  | some s => .ok s
  | none => .error (.valueError "Exceeds the limit (4300 digits) for integer string conversion")

/-- An attribute that is set to a text, or not set for `None`. -/
structure Attribute where
  name : String
  value : Except PyError (Option String)

namespace Attribute

/-- A text. -/
def text (name value : String) : Attribute := ⟨name, .ok (some value)⟩

/-- A text that may be `None`. -/
def text? (name : String) (value : Option String) : Attribute := ⟨name, .ok value⟩

/-- An integer. -/
def int (name : String) (n : ℤ) : Attribute := ⟨name, (strInt n).map some⟩

/-- An integer that may be `None`. -/
def int? (name : String) (value : Option ℤ) : Attribute where
  name := name
  value :=
    match value with
    | none => .ok none
    | some n => (strInt n).map some

/-- `str(flag).lower()` -/
def bool (name : String) (flag : Bool) : Attribute := text name (if flag then "true" else "false")

end Attribute

/-- `element.set(name, value)` -/
def setAttribute (d : Dict String XmlText) (name value : String) :
    Except PyError (Dict String XmlText) :=
  if h : IsXmlText value then .ok (d.set name ⟨value, h⟩)
  else .error (.valueError
    "All strings must be XML compatible: Unicode or ASCII, no NULL bytes or control characters")

/-- Set attributes one after the other. -/
def setAttributes : List Attribute → Dict String XmlText → Except PyError (Dict String XmlText)
  | [], d => .ok d
  | a :: l, d => do
    match ← a.value with
    | none => setAttributes l d
    | some value =>
      let d ← setAttribute d a.name value
      setAttributes l d

/-- An element with attributes and without content. -/
def leafElement (tag : String) (l : List Attribute) : Except PyError Element := do
  let attributes ← setAttributes l []
  return ⟨tag, attributes, []⟩

/-- What an element has after attributes were set, and no others. -/
structure Shows (l : List Attribute) (e : Element) : Prop where
  value : ∀ a ∈ l, a.value = .ok (e.get a.name)
  others : ∀ name, name ∉ l.map Attribute.name → e.get name = none

theorem setAttribute_eq_ok {d d' : Dict String XmlText} {name value : String} :
    setAttribute d name value = .ok d' ↔ ∃ h : IsXmlText value, d' = d.set name ⟨value, h⟩ := by
  unfold setAttribute
  split
  · next h => simp [h, eq_comm]
  · next h => simp [h]

/-- Attributes of different names that are set keep their texts. -/
theorem setAttributes_eq_ok {l : List Attribute} {d d' : Dict String XmlText}
    (h : setAttributes l d = .ok d') (hnodup : (l.map Attribute.name).Nodup)
    (hfresh : ∀ a ∈ l, d.get? a.name = none) :
    (∀ a ∈ l, a.value = .ok ((d'.get? a.name).map XmlText.text)) ∧
      ∀ name, name ∉ l.map Attribute.name → d'.get? name = d.get? name := by
  induction l generalizing d with
  | nil =>
    cases h
    exact ⟨by simp, fun _ _ => rfl⟩
  | cons a l ih =>
    obtain ⟨hname, hnodup⟩ := List.nodup_cons.mp hnodup
    obtain ⟨hd, hrest⟩ := List.forall_mem_cons.mp hfresh
    obtain ⟨value, hvalue, h⟩ := bind_eq_ok.mp h
    -- the texts set later leave this one alone
    cases value with
    | none =>
      obtain ⟨hset, hkept⟩ := ih h hnodup hrest
      refine ⟨List.forall_mem_cons.mpr ⟨?_, hset⟩, fun name hn => ?_⟩
      · rw [hvalue, hkept a.name hname, hd]
        rfl
      · exact hkept name fun hmem => hn (List.mem_cons_of_mem _ hmem)
    | some value =>
      obtain ⟨d₁, hd₁, h⟩ := bind_eq_ok.mp h
      obtain ⟨hxml, rfl⟩ := setAttribute_eq_ok.mp hd₁
      have hne : ∀ x ∈ l, a.name ≠ x.name := fun x hx heq =>
        hname (heq ▸ List.mem_map_of_mem hx)
      obtain ⟨hset, hkept⟩ := ih h hnodup fun x hx => by
        rw [Dict.get?_set_of_ne (hne x hx), hrest x hx]
      refine ⟨List.forall_mem_cons.mpr ⟨?_, hset⟩, fun name hn => ?_⟩
      · rw [hvalue, hkept a.name hname, Dict.get?_set_self]
        rfl
      · have hname' : a.name ≠ name := fun heq => hn (heq ▸ List.mem_cons_self ..)
        rw [hkept name fun hmem => hn (List.mem_cons_of_mem _ hmem), Dict.get?_set_of_ne hname']

theorem shows_of_setAttributes {l : List Attribute} {d : Dict String XmlText}
    (h : setAttributes l [] = .ok d) (hnodup : (l.map Attribute.name).Nodup) (tag : String)
    (children : List Element) : Shows l ⟨tag, d, children⟩ := by
  obtain ⟨hset, hkept⟩ := setAttributes_eq_ok h hnodup fun _ _ => rfl
  refine ⟨hset, fun name hname => ?_⟩
  rw [Element.get, hkept name hname]
  rfl

/-- Attributes are set when their values are computed and may stand in a document. -/
theorem setAttributes_succeeds {l : List Attribute}
    (h : ∀ a ∈ l, ∃ value, a.value = .ok value ∧ ∀ s ∈ value, IsXmlText s)
    (d : Dict String XmlText) : (setAttributes l d).Succeeds := by
  induction l generalizing d with
  | nil => exact succeeds_ok d
  | cons a l ih =>
    obtain ⟨⟨value, hvalue, hxml⟩, hrest⟩ := List.forall_mem_cons.mp h
    rw [setAttributes, hvalue, ok_bind]
    cases value with
    | none => exact ih hrest d
    | some s =>
      show (setAttribute d a.name s >>= setAttributes l).Succeeds
      rw [setAttribute_eq_ok.mpr ⟨hxml s rfl, rfl⟩, ok_bind]
      exact ih hrest _

/-- What an attribute is set to is admitted by its declaration. -/
structure Attribute.Fits (a : Attribute) (d : AttributeDecl) : Prop where
  name : a.name = d.name
  value : ∀ v, a.value = .ok v → d.Admits v

namespace Attribute

theorem fits_text (name value : String) (required : Bool) :
    (text name value).Fits ⟨name, .string, required⟩ :=
  ⟨rfl, fun v hv => by
    cases hv
    exact ⟨fun _ => rfl, fun _ _ => rfl⟩⟩

theorem fits_text? (name : String) (value : Option String) :
    (text? name value).Fits ⟨name, .string, false⟩ :=
  ⟨rfl, fun _ _ => ⟨fun h => (Bool.false_ne_true h).elim, fun _ _ => rfl⟩⟩

/-- The text of an integer, which is read as the integer. -/
theorem int_value {n : ℤ} {v : Option String} (h : (strInt n).map some = .ok v) :
    ∃ s, v = some s ∧ Integer.toText? n = some s := by
  unfold strInt at h
  split at h
  · next s hs =>
    cases h
    exact ⟨s, rfl, hs⟩
  · cases h

theorem fits_int (name : String) (n : ℤ) (required : Bool) :
    (int name n).Fits ⟨name, .integer, required⟩ :=
  ⟨rfl, fun v hv => by
    obtain ⟨s, rfl, hs⟩ := int_value hv
    exact ⟨fun _ => rfl, fun t ht => by
      cases ht
      exact Integer.isXsdInteger_of_toText? hs⟩⟩

theorem fits_int? (name : String) (n : Option ℤ) :
    (int? name n).Fits ⟨name, .integer, false⟩ := by
  cases n with
  | none =>
    exact ⟨rfl, fun v hv => by
      cases hv
      exact ⟨fun h => (Bool.false_ne_true h).elim, by simp⟩⟩
  | some n => exact fits_int name n false

end Attribute

/-- Attributes that fit declarations, one by one. -/
abbrev Fit (l : List Attribute) (d : ElementDecl) : Prop :=
  List.Forall₂ Attribute.Fits l d.attributes

theorem Fit.names {l : List Attribute} {d : ElementDecl} (h : Fit l d) :
    l.map Attribute.name = d.names := by
  refine List.forall₂_eq_eq_eq ▸ ?_
  rw [ElementDecl.names, List.forall₂_map_left_iff, List.forall₂_map_right_iff]
  exact h.imp fun _ _ hf => hf.name

/-- An element whose attributes fit the declarations is admitted. -/
theorem admits_of_shows {l : List Attribute} {d : ElementDecl} {e : Element} (hfits : Fit l d)
    (h : Shows l e) (htag : e.tag = d.tag) : d.Admits e := by
  have hnames := hfits.names
  refine ⟨htag, fun name hname => .inl ?_, ?_⟩
  · obtain ⟨t, ht⟩ := Dict.mem_keys_iff.mp hname
    by_contra hnot
    have hnone := h.others name (hnames ▸ hnot)
    rw [Element.get, ht] at hnone
    cases hnone
  · intro a ha
    obtain ⟨i, hi, rfl⟩ := List.mem_iff_getElem.mp ha
    have hil : i < l.length := hfits.length_eq ▸ hi
    have hfit : l[i].Fits d.attributes[i] := hfits.get hil hi
    rw [← hfit.name]
    exact hfit.value _ (h.value _ (List.getElem_mem hil))

/-- What an element that was made has. -/
theorem leafElement_eq_ok {tag : String} {l : List Attribute} {d : ElementDecl} {e : Element}
    (h : leafElement tag l = .ok e) (hfits : Fit l d) (hnodup : d.names.Nodup) :
    e.tag = tag ∧ e.children = [] ∧ Shows l e := by
  obtain ⟨attributes, hset, h⟩ := bind_eq_ok.mp h
  cases h
  exact ⟨rfl, rfl, shows_of_setAttributes hset (hfits.names ▸ hnodup) tag []⟩

/-- An element that was made from declared attributes is valid. -/
theorem validLeaf_of_leafElement {l : List Attribute} {d : ElementDecl} {e : Element}
    (h : leafElement d.tag l = .ok e) (hfits : Fit l d) (hnodup : d.names.Nodup) :
    ValidLeaf d e := by
  obtain ⟨htag, hchildren, hshows⟩ := leafElement_eq_ok h hfits hnodup
  exact ⟨admits_of_shows hfits hshows htag, hchildren⟩

/-! ### Export -/

/-- An artifact of the exporter. -/
structure ExportArtifact where
  formatName : String
  mediaType : String
  content : Element

section

variable [Platform]

/-- The attributes of an account. -/
def accountAttributes (a : Account) : List Attribute :=
  [.text "code" a.fields.code, .text "name" a.fields.name,
    .text "normal-side" a.fields.normalSide.value, .text "currency" a.fields.currency,
    .text? "parent-code" a.fields.parentCode, .bool "allow-posting" a.fields.allowPosting,
    .bool "active" a.fields.active]

/-- The element of an account. -/
def accountElement (a : Account) : Except PyError Element :=
  leafElement "account" (accountAttributes a)

/-- The attributes of a period. -/
def periodAttributes (p : BookPeriod) : List Attribute :=
  [.int "fiscal-year" p.fields.period.fiscalYear, .int "quarter" p.fields.period.quarter,
    .int "month" p.fields.period.month, .text "start-date" p.fields.startDate.isoformat,
    .text "end-date" p.fields.endDate.isoformat, .text "state" p.fields.state.value]

/-- The element of a period. -/
def periodElement (p : BookPeriod) : Except PyError Element :=
  leafElement "period" (periodAttributes p)

/-- The attributes of an entry. -/
def entryAttributes (e : LedgerEntry) : List Attribute :=
  [.text "account-code" e.fields.accountCode, .text "side" e.fields.side.value,
    .text "amount" e.decimalValue.formatF, .text "currency" e.fields.currency,
    .text? "description" e.fields.description,
    .text? "tax-rate" (e.fields.taxRate.map Decimal.formatF)]

/-- The element of an entry. -/
def entryElement (e : LedgerEntry) : Except PyError Element :=
  leafElement "entry" (entryAttributes e)

/-- The attributes of a transaction. -/
def transactionAttributes (t : JournalTransaction) : List Attribute :=
  [.text "reference" t.fields.reference, .text "posted-at" t.fields.postedAt.isoformat,
    .text "state" t.fields.state.value, .text "description" t.fields.description,
    .text? "reversal-of" t.fields.reversalOf,
    .int? "period-fiscal-year" (t.fields.period.map FiscalPeriod.fiscalYear),
    .int? "period-quarter" (t.fields.period.map FiscalPeriod.quarter),
    .int? "period-month" (t.fields.period.map FiscalPeriod.month)]

/-- The element of a transaction. -/
def transactionElement (t : JournalTransaction) : Except PyError Element := do
  let attributes ← setAttributes (transactionAttributes t) []
  let entries ← t.fields.entries.mapM entryElement
  return ⟨"transaction", attributes, entries⟩

/-- The attributes of a book. -/
def bookAttributes (b : BookFields) : List Attribute :=
  [.text "code" b.code, .text "name" b.name, .text "base-currency" b.baseCurrency,
    .text "legislative-pack" b.legislativePack,
    .int "fiscal-start-month" b.fiscalCalendar.startMonth]

/-- The document of a book. -/
def bookElement (b : BookFields) : Except PyError Element := do
  let attributes ← setAttributes (bookAttributes b) []
  let accounts ← b.accounts.mapM accountElement
  let periods ← b.periods.mapM periodElement
  let transactions ← b.transactions.mapM transactionElement
  return ⟨"ledger-book", attributes,
    [⟨"accounts", [], accounts⟩, ⟨"periods", [], periods⟩, ⟨"transactions", [], transactions⟩]⟩

/-- `schema.assertValid(document)` -/
def assertValid (root : Element) : Except PyError Unit :=
  if ValidLedgerBook root then .ok ()
  else .error (.documentInvalid "the document does not conform to the schema")

/-- `LedgerExporter.to_xml` -/
def toXml (book : Book) : Except PyError ExportArtifact := do
  let root ← bookElement book.fields
  assertValid root
  return ⟨"xml", "application/xml", root⟩

/-! ### Exported documents -/

theorem fit_account (a : Account) : Fit (accountAttributes a) accountDecl :=
  .cons (Attribute.fits_text _ _ _) <| .cons (Attribute.fits_text _ _ _) <|
    .cons (Attribute.fits_text _ _ _) <| .cons (Attribute.fits_text _ _ _) <|
    .cons (Attribute.fits_text? _ _) <| .cons (Attribute.fits_text _ _ _) <|
    .cons (Attribute.fits_text _ _ _) .nil

theorem fit_period (p : BookPeriod) : Fit (periodAttributes p) periodDecl :=
  .cons (Attribute.fits_int _ _ _) <| .cons (Attribute.fits_int _ _ _) <|
    .cons (Attribute.fits_int _ _ _) <| .cons (Attribute.fits_text _ _ _) <|
    .cons (Attribute.fits_text _ _ _) <| .cons (Attribute.fits_text _ _ _) .nil

theorem fit_entry (e : LedgerEntry) : Fit (entryAttributes e) entryDecl :=
  .cons (Attribute.fits_text _ _ _) <| .cons (Attribute.fits_text _ _ _) <|
    .cons (Attribute.fits_text _ _ _) <| .cons (Attribute.fits_text _ _ _) <|
    .cons (Attribute.fits_text? _ _) <| .cons (Attribute.fits_text? _ _) .nil

theorem fit_transaction (t : JournalTransaction) :
    Fit (transactionAttributes t) transactionDecl :=
  .cons (Attribute.fits_text _ _ _) <| .cons (Attribute.fits_text _ _ _) <|
    .cons (Attribute.fits_text _ _ _) <| .cons (Attribute.fits_text _ _ _) <|
    .cons (Attribute.fits_text? _ _) <| .cons (Attribute.fits_int? _ _) <|
    .cons (Attribute.fits_int? _ _) <| .cons (Attribute.fits_int? _ _) .nil

theorem fit_book (b : BookFields) : Fit (bookAttributes b) ledgerBookDecl :=
  .cons (Attribute.fits_text _ _ _) <| .cons (Attribute.fits_text _ _ _) <|
    .cons (Attribute.fits_text _ _ _) <| .cons (Attribute.fits_text _ _ _) <|
    .cons (Attribute.fits_int _ _ _) .nil

theorem accountElement_eq_ok {a : Account} {e : Element} (h : accountElement a = .ok e) :
    e.tag = "account" ∧ e.children = [] ∧ Shows (accountAttributes a) e :=
  leafElement_eq_ok h (fit_account a) (by decide)

theorem periodElement_eq_ok {p : BookPeriod} {e : Element} (h : periodElement p = .ok e) :
    e.tag = "period" ∧ e.children = [] ∧ Shows (periodAttributes p) e :=
  leafElement_eq_ok h (fit_period p) (by decide)

theorem entryElement_eq_ok {x : LedgerEntry} {e : Element} (h : entryElement x = .ok e) :
    e.tag = "entry" ∧ e.children = [] ∧ Shows (entryAttributes x) e :=
  leafElement_eq_ok h (fit_entry x) (by decide)

theorem transactionElement_eq_ok {t : JournalTransaction} {e : Element}
    (h : transactionElement t = .ok e) :
    e.tag = "transaction" ∧ t.fields.entries.mapM entryElement = .ok e.children ∧
      Shows (transactionAttributes t) e := by
  obtain ⟨attributes, hset, h⟩ := bind_eq_ok.mp h
  obtain ⟨entries, hentries, h⟩ := bind_eq_ok.mp h
  cases h
  exact ⟨rfl, hentries,
    shows_of_setAttributes hset ((fit_transaction t).names ▸ by decide) _ _⟩

/-- The document of a book: its attributes, and its parts in the order of the schema. -/
structure DocumentOf (b : BookFields) (root : Element) (accounts periods transactions : List Element) :
    Prop where
  tag : root.tag = "ledger-book"
  children : root.children =
    [⟨"accounts", [], accounts⟩, ⟨"periods", [], periods⟩, ⟨"transactions", [], transactions⟩]
  attributes : Shows (bookAttributes b) root
  accounts : b.accounts.mapM accountElement = .ok accounts
  periods : b.periods.mapM periodElement = .ok periods
  transactions : b.transactions.mapM transactionElement = .ok transactions

theorem bookElement_eq_ok {b : BookFields} {root : Element} (h : bookElement b = .ok root) :
    ∃ accounts periods transactions, DocumentOf b root accounts periods transactions := by
  obtain ⟨attributes, hset, h⟩ := bind_eq_ok.mp h
  obtain ⟨accounts, haccounts, h⟩ := bind_eq_ok.mp h
  obtain ⟨periods, hperiods, h⟩ := bind_eq_ok.mp h
  obtain ⟨transactions, htransactions, h⟩ := bind_eq_ok.mp h
  cases h
  exact ⟨accounts, periods, transactions,
    { tag := rfl
      children := rfl
      attributes := shows_of_setAttributes hset ((fit_book b).names ▸ by decide) _ _
      accounts := haccounts
      periods := hperiods
      transactions := htransactions }⟩

omit [Platform] in
/-- An element without attributes whose content is valid. -/
theorem validPart_of_children {tag : String} {valid : Element → Prop} {children : List Element}
    (h : ∀ c ∈ children, valid c) : ValidPart tag valid ⟨tag, [], children⟩ :=
  ⟨⟨rfl, by simp [Dict.keys], by simp⟩, h⟩

theorem validTransaction_of_transactionElement {t : JournalTransaction} {e : Element}
    (h : transactionElement t = .ok e) : ValidTransaction e := by
  obtain ⟨htag, hentries, hshows⟩ := transactionElement_eq_ok h
  refine ⟨admits_of_shows (fit_transaction t) hshows htag, fun c hc => ?_⟩
  obtain ⟨x, -, hx⟩ := exists_of_mapM_eq_ok hentries c hc
  exact validLeaf_of_leafElement hx (fit_entry x) (by decide)

/-- **An exported document is valid.** -/
theorem validLedgerBook_of_bookElement {b : BookFields} {root : Element}
    (h : bookElement b = .ok root) : ValidLedgerBook root := by
  obtain ⟨accounts, periods, transactions, hroot⟩ := bookElement_eq_ok h
  refine ⟨admits_of_shows (fit_book b) hroot.attributes hroot.tag, ?_⟩
  rw [hroot.children]
  refine ⟨validPart_of_children fun e he => ?_, validPart_of_children fun e he => ?_,
    validPart_of_children fun e he => ?_⟩
  · obtain ⟨a, -, ha⟩ := exists_of_mapM_eq_ok hroot.accounts e he
    exact validLeaf_of_leafElement ha (fit_account a) (by decide)
  · obtain ⟨p, -, hp⟩ := exists_of_mapM_eq_ok hroot.periods e he
    exact validLeaf_of_leafElement hp (fit_period p) (by decide)
  · obtain ⟨t, -, ht⟩ := exists_of_mapM_eq_ok hroot.transactions e he
    exact validTransaction_of_transactionElement ht

/-- The check of the schema never fails on export. -/
theorem toXml_eq_ok {book : Book} {artifact : ExportArtifact} : toXml book = .ok artifact ↔
    ∃ root, bookElement book.fields = .ok root ∧ artifact = ⟨"xml", "application/xml", root⟩ := by
  constructor
  · intro h
    obtain ⟨root, hroot, h⟩ := bind_eq_ok.mp h
    obtain ⟨_, -, h⟩ := bind_eq_ok.mp h
    cases h
    exact ⟨root, hroot, rfl⟩
  · rintro ⟨root, hroot, rfl⟩
    rw [toXml, hroot, ok_bind, assertValid, if_pos (validLedgerBook_of_bookElement hroot)]
    rfl

/-! ### Import -/

/-- `int(text)` -/
def intOfText (text : String) : Except PyError ℤ :=
  match Integer.ofText? text with
  | some n => .ok n
  | none => .error (.valueError s!"invalid literal for int() with base 10: {strRepr text}")

/-- `_parse_entry` -/
def parseEntry (el : Element) : Except PyError LedgerEntry := do
  let side ← PostingSide.ofValue (el.getD "side" "")
  let amount ← requireDecimal (el.getD "amount" "0")
  let taxRate ← optionalDecimal (el.get "tax-rate")
  Built.new LedgerEntryFields.postInit
    { accountCode := el.getD "account-code" "", side, amount := makeFluentNumber amount,
      currency := el.getD "currency" "", description := el.get "description", taxRate }

/-- The period of a `transaction` element. -/
def parsePeriod (el : Element) : Except PyError (Option FiscalPeriod) :=
  if (el.get "period-fiscal-year").isSome then do
    let fiscalYear ← intOfText (el.getD "period-fiscal-year" "0")
    let quarter ← intOfText (el.getD "period-quarter" "0")
    let month ← intOfText (el.getD "period-month" "0")
    let period ← FiscalPeriod.new fiscalYear quarter month
    return some period
  else .ok none

/-- `_parse_transaction` -/
def parseTransaction (el : Element) : Except PyError JournalTransaction := do
  let period ← parsePeriod el
  let postedAt ← datetimeFromIsoformat (el.getD "posted-at" "")
  let state ← TransactionState.ofValue (el.getD "state" "")
  let entries ← el.children.mapM parseEntry
  Built.new JournalTransactionFields.postInit
    { reference := el.getD "reference" "", postedAt, description := el.getD "description" "",
      entries, period, state, reversalOf := el.get "reversal-of" }

/-- The account of an `account` element. -/
def parseAccount (el : Element) : Except PyError Account := do
  let normalSide ← PostingSide.ofValue (el.getD "normal-side" "")
  Built.new AccountFields.postInit
    { code := el.getD "code" "", name := el.getD "name" "", normalSide,
      currency := el.getD "currency" "", parentCode := el.get "parent-code",
      allowPosting := el.getD "allow-posting" "true" == "true",
      active := el.getD "active" "true" == "true" }

/-- The period of a `period` element. -/
def parseBookPeriod (el : Element) : Except PyError BookPeriod := do
  let fiscalYear ← intOfText (el.getD "fiscal-year" "0")
  let quarter ← intOfText (el.getD "quarter" "0")
  let month ← intOfText (el.getD "month" "0")
  let period ← FiscalPeriod.new fiscalYear quarter month
  let startDate ← dateFromIsoformat (el.getD "start-date" "")
  let endDate ← dateFromIsoformat (el.getD "end-date" "")
  let state ← FiscalPeriodState.ofValue (el.getD "state" "")
  Built.new BookPeriodFields.postInit
    { period, startDate := .date startDate, endDate := .date endDate, state }

/-- The elements in one of the parts of a book. -/
def partsOf (root : Element) (tag : String) : List Element :=
  match root.find tag with
  | some part => part.children
  | none => []

/-- `_book_from_element` -/
def bookFromElement (root : Element) : Except PyError Book := do
  let fiscalCalendar ← FiscalCalendar.new (← intOfText (root.getD "fiscal-start-month" "1"))
  let accounts ← (partsOf root "accounts").mapM parseAccount
  let periods ← (partsOf root "periods").mapM parseBookPeriod
  let transactions ← (partsOf root "transactions").mapM parseTransaction
  Built.new BookFields.postInit
    { code := root.getD "code" "", name := root.getD "name" "",
      baseCurrency := root.getD "base-currency" "", fiscalCalendar,
      legislativePack := root.getD "legislative-pack" "", accounts, periods, transactions }

/-- What `etree.parse` finds at a path. -/
inductive XmlFile
  /-- A file that cannot be read. -/
  | unreadable (e : PyError)
  /-- A file that is not an XML document. -/
  | malformed (msg : String)
  | document (root : Element)

/-- `book_from_saft` -/
def bookFromSaft : XmlFile → Except PyError Book
  | .unreadable e => .error e
  | .malformed msg => .error (.persistenceIntegrityError s!"SAF-T XML parse failed: {msg}")
  | .document root => do
    (assertValid root).mapError fun e =>
      .persistenceIntegrityError s!"SAF-T XML schema validation failed: {e.message}"
    (bookFromElement root).mapError fun e =>
      if e.isTypeOrValueError then
        .persistenceIntegrityError s!"SAF-T import domain invariant violation: {e.message}"
      else e

end

end FinestVX
