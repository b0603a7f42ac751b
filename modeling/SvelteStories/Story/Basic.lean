import SvelteStories.Markup.Snippet

/-!
# Stories of a stories file

A story is an element of the markup whose name is the one that the module script binds to the story
component.  `collect` lists the stories in document order.  An element inside a story is not looked
at.  A comment belongs to the story that follows it among the same children, with nothing but blank
text between the two; of several comments before a story the last one counts.
-/

namespace SvelteStories

open Text Markup

/-- One story as the stories file declares it. -/
structure Story where
  /-- The static attribute `name`. -/
  name : Option String := none
  /-- The static attribute `exportName`. -/
  exportName : Option String := none
  /-- The comment above the story. -/
  comment : Option String := none
  /-- The raw code of the children. -/
  rawCode : String := ""
  /-- Where the story stands in the file. -/
  span : Span := ⟨0, 0⟩
deriving Repr, DecidableEq

namespace Story

/-- What a diagnostic calls the story. -/
def label? (story : Story) : Option String :=
  story.name <|> story.exportName

/-- The story that an element declares. -/
def ofElement (source : List Char) (head : Element) (children : List Node)
    (comment : Option String) : Story where
  name := head.static? "name"
  exportName := head.static? "exportName"
  comment
  rawCode := Markup.rawCode source head children
  span := head.span

mutual

/-- The stories below a node that is no story itself. -/
def collectBelow (source : List Char) (component : String) : Node → List Story
  | .element _ children => collectAmong source component children none
  | .comment _ _ | .text _ _ | .rawBlock _ => []

/-- The stories among the given nodes and below them, where `pending` is the comment before the
    first node. -/
def collectAmong (source : List Char) (component : String) :
    (nodes : List Node) → (pending : Option String) → List Story
  | [], _ => []
  | .comment data _ :: rest, _ => collectAmong source component rest (some data)
  | .text raw _ :: rest, pending =>
    collectAmong source component rest (if isBlankText raw.toList then pending else none)
  | .rawBlock _ :: rest, _ => collectAmong source component rest none
  | .element head children :: rest, pending =>
    (if head.name == component then [ofElement source head children pending]
      else collectBelow source component (.element head children))
      ++ collectAmong source component rest none

end

/-- The stories of a forest, in document order. -/
def collect (source : List Char) (component : String) (nodes : List Node) : List Story :=
  collectAmong source component nodes none

end Story

end SvelteStories
