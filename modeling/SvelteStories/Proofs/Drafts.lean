import SvelteStories.Markup.Forest

/-!
# Drafts of markup

A draft is a forest of markup that has no places yet.  Writing it out gives a text, and placing it
at a byte offset gives the markup tree whose spans are the bytes that the written nodes take.  A
draft is well formed if no node of it, written out, could be taken for something else: names have
name characters only, a quoted value has no quote and no brace, an expression ends at its own brace,
a comment does not hold its own end, and a run of text neither starts markup nor stands next to
another run of text.

## Key definitions

- `Draft.render`, `renderAll`: the text of a draft
- `Draft.placed`, `placedAll`: the markup tree of a draft
- `Draft.IsWellFormed`, `AreWellFormed`: the drafts that can be read back
-/

namespace SvelteStories.Markup

open Text

/-! ## Attributes -/

/-- An attribute as it is written in a tag. -/
inductive DraftAttribute
  | boolean (name : List Char)
  /-- A value between double quotes. -/
  | quoted (name value : List Char)
  /-- A brace expression behind an equals sign. -/
  | assigned (name expression : List Char)
  /-- A brace expression that stands alone. -/
  | lone (expression : List Char)
deriving Repr, DecidableEq

/-- An expression between braces. -/
def braced (expression : List Char) : List Char :=
  '{' :: (expression ++ ['}'])

namespace DraftAttribute

/-- The text of an attribute. -/
def render : DraftAttribute → List Char
  | boolean name => name
  | quoted name value => name ++ '=' :: '"' :: (value ++ ['"'])
  | assigned name expression => name ++ '=' :: braced expression
  | lone expression => braced expression

/-- The name that an attribute goes by. -/
def name : DraftAttribute → String
  | boolean name | quoted name _ | assigned name _ => String.ofList name
  | lone expression => loneName expression

/-- The value of an attribute. -/
def value : DraftAttribute → AttributeValue
  | boolean _ => .boolean
  | quoted _ value => .static (String.ofList value)
  | assigned _ expression | lone expression => .expression (String.ofList expression)

/-- The attribute, written at the byte offset `here`. -/
def placed (draft : DraftAttribute) (here : Nat) : Attribute :=
  ⟨draft.name, draft.value, ⟨here, here + byteLength draft.render⟩⟩

end DraftAttribute

/-- The text of the attributes of a tag, each behind a space. -/
def renderAttributes (drafts : List DraftAttribute) : List Char :=
  drafts.flatMap (' ' :: ·.render)

/-- The attributes of a tag, written from the byte offset `here` on. -/
def placedAttributes : (drafts : List DraftAttribute) → (here : Nat) → List Attribute
  | [], _ => []
  | draft :: drafts, here =>
    draft.placed (here + 1) :: placedAttributes drafts (here + 1 + byteLength draft.render)

/-! ## Nodes -/

/-- A node of the markup without a place. -/
inductive Draft
  /-- An element without content. -/
  | leaf (name : List Char) (attributes : List DraftAttribute) (closesItself : Bool)
  /-- An element with a closing tag of its own. -/
  | element (name : List Char) (attributes : List DraftAttribute) (children : List Draft)
  | comment (data : List Char)
  | text (raw : List Char)
  | rawBlock (name : List Char) (attributes : List DraftAttribute) (content : List Char)
deriving Repr, Inhabited

/-- The text that ends an opening tag. -/
def tagStop (closesItself : Bool) : List Char :=
  if closesItself then [' ', '/', '>'] else ['>']

/-- An opening tag. -/
def openingTag (name : List Char) (attributes : List DraftAttribute) (closesItself : Bool) :
    List Char :=
  '<' :: (name ++ (renderAttributes attributes ++ tagStop closesItself))

/-- A closing tag. -/
def closingTag (name : List Char) : List Char :=
  '<' :: '/' :: (name ++ ['>'])

mutual

/-- The text of a draft. -/
def Draft.render : Draft → List Char
  | .leaf name attrs closesItself => openingTag name attrs closesItself
  | .element name attrs children =>
    openingTag name attrs false ++ (renderAll children ++ closingTag name)
  | .comment data => '<' :: '!' :: '-' :: '-' :: (data ++ ['-', '-', '>'])
  | .text raw => raw
  | .rawBlock name attrs content => openingTag name attrs false ++ (content ++ closingTag name)

/-- The text of drafts that stand one behind the other. -/
def renderAll : List Draft → List Char
  | [] => []
  | draft :: drafts => draft.render ++ renderAll drafts

end

mutual

/-- The node of a draft, written at the byte offset `here`. -/
def Draft.placed : (draft : Draft) → (here : Nat) → Node
  | .leaf name attrs closesItself, here =>
    .element ⟨String.ofList name, placedAttributes attrs (here + 1 + byteLength name),
      ⟨here, here + byteLength (Draft.leaf name attrs closesItself).render⟩, none⟩ []
  | .element name attrs children, here =>
    let start := here + byteLength (openingTag name attrs false)
    .element ⟨String.ofList name, placedAttributes attrs (here + 1 + byteLength name),
      ⟨here, here + byteLength (Draft.element name attrs children).render⟩,
      some ⟨start, start + byteLength (renderAll children)⟩⟩ (placedAll children start)
  | .comment data, here =>
    .comment (String.ofList data) ⟨here, here + byteLength (Draft.comment data).render⟩
  | .text raw, here => .text (String.ofList raw) ⟨here, here + byteLength (Draft.text raw).render⟩
  | .rawBlock name attrs content, here =>
    let start := here + byteLength (openingTag name attrs false)
    .rawBlock ⟨String.ofList name, placedAttributes attrs (here + 1 + byteLength name),
      ⟨start, start + byteLength content⟩,
      ⟨here, here + byteLength (Draft.rawBlock name attrs content).render⟩⟩

/-- The nodes of drafts that are written one behind the other, from the byte offset `here` on. -/
def placedAll : (drafts : List Draft) → (here : Nat) → List Node
  | [], _ => []
  | draft :: drafts, here => draft.placed here :: placedAll drafts (here + byteLength draft.render)

end

/-- The drafts inside a draft. -/
def Draft.children : Draft → List Draft
  | .element _ _ children => children
  | _ => []

/-- Induction over drafts that stand one behind the other: over the children of the first one and
    over those behind it. -/
theorem drafts_induction {P : List Draft → Prop} (nil : P [])
    (cons : ∀ draft drafts, P draft.children → P drafts → P (draft :: drafts)) : ∀ drafts, P drafts
  | [] => nil
  | .element _ _ children :: drafts =>
    cons _ _ (drafts_induction nil cons children) (drafts_induction nil cons drafts)
  | .leaf _ _ _ :: drafts | .comment _ :: drafts | .text _ :: drafts | .rawBlock _ _ _ :: drafts =>
    cons _ _ nil (drafts_induction nil cons drafts)

/-- A node takes as many bytes as its draft has when it is written out. -/
theorem Draft.span_placed (draft : Draft) (here : Nat) :
    (draft.placed here).span = ⟨here, here + byteLength draft.render⟩ := by
  cases draft <;> rfl

/-! ## Well-formed drafts -/

/-- A name of a tag: a letter and then name characters. -/
structure IsTagName (name : List Char) : Prop where
  letter : name.head?.any Char.isAlpha = true
  chars : name.all isTagNameChar = true

instance : DecidablePred IsTagName := fun name =>
  decidable_of_iff (name.head?.any Char.isAlpha = true ∧ name.all isTagNameChar = true)
    ⟨fun h => ⟨h.1, h.2⟩, fun h => ⟨h.letter, h.chars⟩⟩

/-- A name of an attribute. -/
structure IsAttributeName (name : List Char) : Prop where
  nonempty : name ≠ []
  chars : name.all isAttributeNameChar = true

instance : DecidablePred IsAttributeName := fun name =>
  decidable_of_iff (name ≠ [] ∧ name.all isAttributeNameChar = true)
    ⟨fun h => ⟨h.1, h.2⟩, fun h => ⟨h.nonempty, h.chars⟩⟩

/-- An expression without white space at its ends, whose closing brace is the one written behind
    it. -/
structure IsExpression (expression : List Char) : Prop where
  trimmed : trim expression = expression
  whole : Braces.after? (braced expression) = some []

instance : DecidablePred IsExpression := fun expression =>
  decidable_of_iff (trim expression = expression ∧ Braces.after? (braced expression) = some [])
    ⟨fun h => ⟨h.1, h.2⟩, fun h => ⟨h.trimmed, h.whole⟩⟩

/-- A run of text: brace expressions, and characters at which no markup starts. -/
inductive IsRun : List Char → Prop
  | nil : IsRun []
  | expression {tag rest : List Char} (hstart : tag.head? = some '{')
    (hwhole : Braces.after? tag = some []) (hrest : IsRun rest) : IsRun (tag ++ rest)
  | plain {c : Char} {rest : List Char} (hc : c ≠ '{') (hmarkup : startsMarkup (c :: rest) = false)
    (hrest : IsRun rest) : IsRun (c :: rest)

/-- Whether an attribute can be read back. -/
def DraftAttribute.IsWellFormed : DraftAttribute → Prop
  | boolean name => IsAttributeName name
  | quoted name value => IsAttributeName name ∧ '"' ∉ value ∧ '{' ∉ value
  | assigned name expression => IsAttributeName name ∧ IsExpression expression
  | lone expression => IsExpression expression

instance : DecidablePred DraftAttribute.IsWellFormed
  | .boolean name => inferInstanceAs (Decidable (IsAttributeName name))
  | .quoted name value =>
    inferInstanceAs (Decidable (IsAttributeName name ∧ '"' ∉ value ∧ '{' ∉ value))
  | .assigned name expression =>
    inferInstanceAs (Decidable (IsAttributeName name ∧ IsExpression expression))
  | .lone expression => inferInstanceAs (Decidable (IsExpression expression))

/-- Whether a draft is a run of text. -/
def Draft.isText : Draft → Bool
  | .text _ => true
  | _ => false

mutual

/-- Whether a draft can be read back. -/
def Draft.IsWellFormed : Draft → Prop
  | .leaf name attrs closesItself =>
    IsTagName name ∧ isRawName name = false ∧ (∀ attr ∈ attrs, attr.IsWellFormed) ∧
      (closesItself = true ∨ isVoidName name = true)
  | .element name attrs children =>
    IsTagName name ∧ isRawName name = false ∧ (∀ attr ∈ attrs, attr.IsWellFormed) ∧
      isVoidName name = false ∧ AreWellFormed children
  | .comment data => ¬ ['-', '-', '>'] <:+: data
  | .text raw => raw ≠ [] ∧ IsRun raw
  | .rawBlock name attrs content =>
    isRawName name = true ∧ (∀ attr ∈ attrs, attr.IsWellFormed) ∧
      ¬ '<' :: '/' :: name.map Char.toLower <:+: content.map Char.toLower

/-- Whether drafts that stand one behind the other can be read back. -/
def AreWellFormed : List Draft → Prop
  | [] => True
  | draft :: drafts =>
    draft.IsWellFormed ∧ (draft.isText = true → drafts.head?.all (!·.isText) = true) ∧
      AreWellFormed drafts

end

end SvelteStories.Markup
