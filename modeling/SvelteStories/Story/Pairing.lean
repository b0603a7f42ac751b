import SvelteStories.Story.Basic
import SvelteStories.Story.Call

/-!
# Pairing stories with story calls

The compiler renders the stories of a file in the order in which the file declares them.  So the
first story belongs to the first story call, the second to the second, and so on; if they are not as
many, nothing is known.
-/

namespace SvelteStories.Story

open Diagnostic Script

/-- A story with the story call that renders it. -/
abbrev Pair := Story × StoryCall

/-- Pairs stories with story calls by their order. -/
def pair (filename : String) (stories : List Story) (calls : List StoryCall) :
    Except Report (List Pair) :=
  if stories.length = calls.length then .ok (stories.zip calls)
  else .error ((Problem.countMismatch (stories.map (·.label?)) calls.length).report filename)

/-- Pairing succeeds exactly when there are as many stories as story calls. -/
theorem pair_eq_ok_iff {filename : String} {stories : List Story} {calls : List StoryCall}
    {pairs : List Pair} : pair filename stories calls = .ok pairs ↔
      stories.length = calls.length ∧ pairs = stories.zip calls := by
  unfold pair
  split <;> simp_all [eq_comm]

end SvelteStories.Story
