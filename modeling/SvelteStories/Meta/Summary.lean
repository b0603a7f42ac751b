import SvelteStories.Object.Basic

/-!
# The summary of the metadata

What an index of stories files shows of a meta object: its title and its tags, as far as they are
written out.
-/

namespace SvelteStories.Meta

open Script

/-- What a meta object says about its component. -/
structure Summary where
  title : Option String
  tags : List String
deriving Repr, DecidableEq

/-- The text of a node that is a string. -/
def string? : Node → Option String
  | .mk (.string value _) _ _ => some value
  | _ => none

/-- The strings among the elements of an array literal. -/
def strings : Node → List String
  | .mk .array _ elements => elements.filterMap string?
  | _ => []

/-- The summary of a meta object. -/
def summary (properties : Properties) : Summary where
  title := properties.string? "title"
  tags := ((properties.value? "tags").map strings).getD []

/-- Those of the given names that are keys of a meta object, in order and each once. -/
def keysAmong (names : List String) (properties : Properties) : List String :=
  ((names.filter properties.has).mergeSort (fun a b => decide (a ≤ b))).eraseDups

end SvelteStories.Meta
