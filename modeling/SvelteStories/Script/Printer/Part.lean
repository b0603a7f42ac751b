import SvelteStories.Script.Printer.Comments

/-!
# Parts of a tree in print

How a node is printed depends on its `Place`.  A node is printed by a rule, which is given the node
and its parts; a `Part` is a node together with the action that prints it at a place.
-/

namespace SvelteStories.Script

/-- Where a node is printed. -/
inductive Place
  /-- On a line of its own, with the comments that lead it. -/
  | line
  /-- Within a line: a declaration behind `export`, a block behind a head. -/
  | inLine
  /-- At the start of a loop, where the operator `in` is put in parentheses. -/
  | loopHead
  /-- Behind the key of a method, where a function goes on with its parameters. -/
  | behindKey
  /-- Inside an expression, where it is put in parentheses if `level` is at least its own.
      `noCall` tells that a call is too, `noIn` that the operator `in` is. -/
  | inside (level : Level) (noCall noIn : Bool)
deriving DecidableEq

namespace Place

/-- A place inside an expression, for what is above the given level. -/
def above (level : Level) : Place := inside level false false

/-- The level that an expression has to be above. -/
def level : Place → Level
  | inside level _ _ => level
  | _ => .lowest

/-- Whether calls are put in parentheses. -/
def noCall : Place → Bool
  | inside _ noCall _ => noCall
  | _ => false

/-- Whether the operator `in` is put in parentheses. -/
def noIn : Place → Bool
  | inside _ _ noIn => noIn
  | loopHead => true
  | _ => false

/-- The place of an operand that needs the given level and stands where the operator `in` may be
    used only if it may be used at `place`. -/
def operand (place : Place) (level : Level) : Place := inside level false place.noIn

/-- Whether a place is inside an expression. -/
def isExpression : Place → Bool
  | inside .. => true
  | _ => false

end Place

/-- A part of a node in print. -/
structure Part where
  node : Node
  print : Place → Printer Unit

namespace Part

/-- The part that is left out. -/
def absent : Part := ⟨.absent, fun _ => pure ()⟩

/-- Whether the part is left out. -/
def isAbsent (part : Part) : Bool := part.node.isAbsent

/-- Prints an expression that nothing around it holds. -/
def free (part : Part) : Printer Unit := part.print (.above .lowest)

/-- Prints an expression that stands between commas. -/
def item (part : Part) : Printer Unit := part.print (.above .comma)

/-- Prints a part on a line of its own. -/
def line (part : Part) : Printer Unit := part.print .line

/-- Prints an expression and what stands before it, unless it is left out. -/
def after (text : String) (part : Part) : Printer Unit := do
  if !part.isAbsent then
    .put text
    part.free

end Part

/-- How a node with the given parts is printed at a place. -/
abbrev PrintRule := Node → List Part → Place → Printer Unit

mutual

/-- A node and its parts in print by a rule. -/
def Node.part (rule : PrintRule) : Node → Part
  | .mk kind span parts =>
    ⟨.mk kind span parts, rule (.mk kind span parts) (Node.partsInPrint rule parts)⟩

/-- Nodes in print by a rule. -/
def Node.partsInPrint (rule : PrintRule) : List Node → List Part
  | [] => []
  | node :: rest => node.part rule :: Node.partsInPrint rule rest

end

end SvelteStories.Script
