import SvelteStories.Markup.Basic
import SvelteStories.Markup.Braces
import SvelteStories.Text.Blank
import SvelteStories.Text.Identifier

/-!
# Snippets and the raw code of children

The raw code of an element is what stands between its tags, letter by letter.  If the element
declares a snippet named `children` directly among its text, the raw code is the body of that
snippet alone.  Snippets are found by their brace tags: the body runs from the end of the opening
tag to the start of the closing tag that matches it.
-/

namespace SvelteStories.Markup

open Text

/-- A brace expression in a run of text, with its braces. -/
structure BraceTag where
  text : List Char
  span : Span
deriving Repr, DecidableEq

/-- The brace expressions of a text that starts at the byte offset `here`, up to the first brace
    that nothing closes. -/
def braceTags (cs : List Char) (here : Nat) : List BraceTag :=
  match cs with
  | [] => []
  | c :: rest =>
    if c = '{' then
      match _h : Braces.after? (c :: rest) with
      | none => []
      | some after =>
        let tag := consumed (c :: rest) after
        let stop := here + byteLength tag
        ⟨tag, ⟨here, stop⟩⟩ :: braceTags after stop
    else braceTags rest (here + c.utf8Size)
termination_by cs.length
decreasing_by
  · exact Braces.length_lt_of_after? (by assumption)
  · simp

/-- Whether a character may start the name of a snippet. -/
def isSnippetNameStart (c : Char) : Bool :=
  c.isAlpha || c == '_' || c == '$'

/-- Whether a character may continue the name of a snippet. -/
def isSnippetNamePart (c : Char) : Bool :=
  isWord c || c == '$'

/-- What follows the given opening of a brace tag. -/
def afterOpening? (opening : String) (tag : List Char) : Option (List Char) :=
  if startsWith opening.toList tag then some (tag.drop opening.length) else none

/-- The name of the snippet that a brace tag opens. -/
def BraceTag.opens? (tag : BraceTag) : Option String := do
  let blank ← afterOpening? "\x7b#snippet" tag.text
  let name := blank.dropWhile isBlank
  if name.length < blank.length && name.head?.any isSnippetNameStart then
    return String.ofList (name.takeWhile isSnippetNamePart)
  else none

/-- Whether a brace tag closes a snippet. -/
def BraceTag.closes (tag : BraceTag) : Bool :=
  match afterOpening? "\x7b/snippet" tag.text with
  | some blank => blank.dropWhile isBlank == ['}']
  | none => false

/-- The body of the first snippet `children` that is closed, given the brace tags in order, the
    number of snippets open and where the body starts if its opening tag was met. -/
def childrenBody? : (tags : List BraceTag) → (depth : Nat) → (start : Option Nat) → Option Span
  | [], _, _ => none
  | tag :: tags, depth, start =>
    match tag.opens? with
    | some name =>
      let isBody := depth == 0 && name == "children"
      childrenBody? tags (depth + 1) (if isBody then some tag.span.stop else start)
    | none =>
      if tag.closes then
        match depth - 1, start with
        | 0, some start => some ⟨start, tag.span.start⟩
        | depth, start => childrenBody? tags depth start
      else childrenBody? tags depth start

/-- The brace tags of a node that is a run of text. -/
def Node.braceTags : Node → List BraceTag
  | .text raw span => Markup.braceTags raw.toList span.start
  | _ => []

/-- The span of the raw code of an element with content. -/
def rawCodeSpan (content : Span) (children : List Node) : Span :=
  (childrenBody? (children.flatMap Node.braceTags) 0 none).getD content

/-- The raw code of an element's children, empty if the element has no content. -/
def rawCode (source : List Char) (head : Element) (children : List Node) : String :=
  match head.content with
  | none => ""
  | some content => String.ofList ((rawCodeSpan content children).slice source)

end SvelteStories.Markup
