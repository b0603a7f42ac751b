import SvelteStories.Markup.Basic

/-!
# Walking the markup

A walk meets the nodes of a forest in document order: an element before its children, the children
before what follows the element.  `traceAll` records what a walk meets, and `elementsOf` lists the
elements in the order of the walk.
-/

namespace SvelteStories.Markup

/-- What a walk met. -/
inductive Meeting
  | enter (name : String)
  | leave (name : String)
  | comment (data : String)
  | text (raw : String)
  | raw (name : String) (isModuleScript : Bool)
deriving Repr, DecidableEq

mutual

/-- The meetings of a walk over one node. -/
def Node.trace : Node → List Meeting
  | .element head children => .enter head.name :: (traceAll children ++ [.leave head.name])
  | .comment data _ => [.comment data]
  | .text raw _ => [.text raw]
  | .rawBlock block => [.raw block.name block.isModuleScript]

/-- The meetings of a walk over a forest. -/
def traceAll : List Node → List Meeting
  | [] => []
  | node :: rest => node.trace ++ traceAll rest

end

mutual

/-- The elements of one node with their children, in document order. -/
def Node.elements : Node → List (Element × List Node)
  | .element head children => (head, children) :: elementsOf children
  | .comment _ _ | .text _ _ | .rawBlock _ => []

/-- The elements of a forest with their children, in document order. -/
def elementsOf : List Node → List (Element × List Node)
  | [] => []
  | node :: rest => node.elements ++ elementsOf rest

end

end SvelteStories.Markup
