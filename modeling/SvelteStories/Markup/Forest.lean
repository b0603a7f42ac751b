import SvelteStories.Markup.Lexeme

/-!
# The forest of the markup

Lexemes are put together into a forest from left to right.  A `Builder` holds the elements that are
still open, innermost first, each with the children it has so far.  A closing tag closes the
innermost open element of its name and, before it, all elements open inside that one; these end
where the closing tag starts.  A closing tag without such an element is passed over.  Elements still
open at the end of the file end there.  Building never fails.
-/

namespace SvelteStories.Markup

open Text

/-- An element whose closing tag has not been met. -/
structure OpenElement where
  name : String
  attributes : List Attribute
  /-- The span of the opening tag. -/
  tag : Span
  /-- The children so far, the last one first. -/
  children : List Node

/-- The element, its content ending at `contentStop` and its span at `stop`. -/
def OpenElement.close (e : OpenElement) (contentStop stop : Nat) : Node :=
  .element ⟨e.name, e.attributes, ⟨e.tag.start, stop⟩, some ⟨e.tag.stop, contentStop⟩⟩
    e.children.reverse

/-- A forest under construction. -/
structure Builder where
  /-- The open elements, the innermost one first. -/
  opened : List OpenElement
  /-- The nodes outside all open elements, the last one first. -/
  roots : List Node

namespace Builder

/-- Nothing built yet. -/
def empty : Builder := ⟨[], []⟩

/-- Adds a node inside the innermost open element. -/
def push (b : Builder) (node : Node) : Builder :=
  match b.opened with
  | [] => { b with roots := node :: b.roots }
  | e :: outer => { b with opened := { e with children := node :: e.children } :: outer }

/-- Closes the innermost open element. -/
def closeInnermost (b : Builder) (contentStop stop : Nat) : Builder :=
  match b.opened with
  | [] => b
  | e :: outer => { b with opened := outer }.push (e.close contentStop stop)

/-- Closes the given number of innermost open elements at one place. -/
def closeMany (b : Builder) (stop : Nat) : Nat → Builder
  | 0 => b
  | n + 1 => (b.closeInnermost stop stop).closeMany stop n

/-- Meets a closing tag. -/
def closeNamed (b : Builder) (name : String) (span : Span) : Builder :=
  match b.opened.findIdx? (·.name == name) with
  | none => b
  | some inner => (b.closeMany span.start inner).closeInnermost span.start span.stop

/-- Meets a lexeme. -/
def add (b : Builder) : Lexeme → Builder
  | .text raw span => b.push (.text raw span)
  | .comment data span => b.push (.comment data span)
  | .rawBlock block => b.push (.rawBlock block)
  | .leaf head => b.push (.element head [])
  | .opening name attributes span => { b with opened := ⟨name, attributes, span, []⟩ :: b.opened }
  | .closing name span => b.closeNamed name span

/-- Closes what is open at the end of a file of the given length. -/
def finish (b : Builder) (length : Nat) : List Node :=
  (b.closeMany length b.opened.length).roots.reverse

end Builder

/-- The forest of the given lexemes of a file of the given length in bytes. -/
def forest (lexemes : List Lexeme) (length : Nat) : List Node :=
  (lexemes.foldl Builder.add .empty).finish length

/-- Reads the markup of a stories file. -/
def parse (text : List Char) : Except LocatedFault (List Node) := do
  return forest (← lexemes text) (byteLength text)

end SvelteStories.Markup
