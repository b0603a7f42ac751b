import SvelteStories.Script.Tree
import SvelteStories.Text.Comment

/-!
# The comment above a statement

The description of a component is the first comment above its meta declaration.  A comment on the
line of the statement before it belongs to that statement.
-/

namespace SvelteStories.Script

open Text

namespace Module

/-- Where the statement before the one with the given index ends. -/
def stopBefore (module : Module) : (index : Nat) → Nat
  | 0 => 0
  | index + 1 => ((module.statements[index]?).map (·.span.stop)).getD 0

/-- Whether a line ends between an offset and a comment. -/
def startsLineAfter (module : Module) (offset : Nat) (comment : Comment) : Bool :=
  (Span.slice ⟨offset, comment.span.start⟩ module.source).contains '\n'

/-- The text of the first comment above the statement with the given index. -/
def commentAbove? (module : Module) (index : Nat) : Option String := do
  let statement ← module.statements[index]?
  let stop := module.stopBefore index
  let comment ← module.comments.find? fun comment =>
    stop ≤ comment.span.start && comment.span.stop ≤ statement.span.start
      && (index == 0 || module.startsLineAfter stop comment)
  return String.ofList (commentText comment.raw)

end Module

end SvelteStories.Script
