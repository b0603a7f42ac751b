import SvelteStories.Text.Span
import SvelteStories.Text.Uppercase

/-!
# The markup tree

The markup of a stories file is a forest of elements, comments, runs of text and raw blocks (scripts
and styles).  Every node knows the span of bytes that it takes in the file.  Brace tags such as a
snippet or an expression are no nodes of their own: they are part of the text around them.
-/

namespace SvelteStories.Markup

open Text

/-- The value written for an attribute. -/
inductive AttributeValue
  /-- A quoted or bare value. -/
  | static (text : String)
  /-- One brace expression, without its braces and the white space next to them. -/
  | expression (text : String)
  /-- No value. -/
  | boolean
deriving Repr, DecidableEq

/-- One attribute of a tag.  An expression that stands alone is its own name, and a spread is named
    by its three dots. -/
structure Attribute where
  name : String
  value : AttributeValue
  span : Span
deriving Repr, DecidableEq

/-- The value of the first attribute with the given name, if that value is static. -/
def staticAttribute? (attributes : List Attribute) (name : String) : Option String :=
  match attributes.find? (·.name == name) with
  | some { value := .static text, .. } => some text
  | _ => none

/-- An element without its children. -/
structure Element where
  name : String
  attributes : List Attribute
  span : Span
  /-- From the end of the opening tag to the start of the closing tag; none if the element has no
      closing tag of its own. -/
  content : Option Span
deriving Repr, DecidableEq

/-- The static value of an attribute of the element. -/
def Element.static? (e : Element) (name : String) : Option String :=
  staticAttribute? e.attributes name

/-- A script or style: what stands between its tags is not markup. -/
structure RawBlock where
  name : String
  attributes : List Attribute
  content : Span
  span : Span
deriving Repr, DecidableEq

/-- Whether two names are the same up to the case of ASCII letters. -/
def sameName (a b : String) : Bool :=
  a.toList.map Char.toLower == b.toList.map Char.toLower

/-- Whether the block is a script that belongs to the module and not to an instance of it. -/
def RawBlock.isModuleScript (b : RawBlock) : Bool :=
  sameName b.name "script" &&
    (b.attributes.any (·.name == "module")
      || staticAttribute? b.attributes "context" == some "module")

/-- A node of the markup tree. -/
inductive Node
  | element (head : Element) (children : List Node)
  | comment (data : String) (span : Span)
  | text (raw : String) (span : Span)
  | rawBlock (block : RawBlock)
deriving Repr, Inhabited

/-- The span of bytes that a node takes. -/
def Node.span : Node → Span
  | element head _ => head.span
  | comment _ span | text _ span => span
  | rawBlock block => block.span

/-- Whether a tag name names a component: it starts with an uppercase letter or has a dot. -/
def isComponentName (name : List Char) : Bool :=
  name.head?.any isUppercase || name.contains '.'

/-- The elements that never have a closing tag. -/
def voidElements : List String :=
  ["area", "base", "br", "col", "embed", "hr", "img", "input", "link", "meta", "source", "track",
    "wbr"]

/-- Whether a tag name names a void element, which ends with its opening tag. -/
def isVoidName (name : List Char) : Bool :=
  !isComponentName name && voidElements.contains (String.ofList (name.map Char.toLower))

/-- Whether a tag name names a raw block. -/
def isRawName (name : List Char) : Bool :=
  let lower := String.ofList (name.map Char.toLower)
  lower == "script" || lower == "style"

end SvelteStories.Markup
