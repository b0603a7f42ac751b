import SvelteStories.Script.Grammar.Modules

/-!
# Reading scripts

`Module.parse?` reads a whole script as a module.  The grammar is an open recursion; `grammar`
closes it up to a depth, and a script cannot nest deeper than it has characters.
-/

namespace SvelteStories.Script

/-- Reads a phrase whose parts are read by the given grammar. -/
def Phrase.reader (g : Grammar) : Phrase → Reader Node
  | statement => Grammar.statement g
  | assignment => Grammar.assignment g
  | operand least => Grammar.operand g least false
  | unary => Grammar.unary g false
  | constructor => Grammar.constructor g
  | heritage => Grammar.leftHand g false
  | pattern => Grammar.pattern g
  | type => Grammar.type g

/-- The grammar of phrases that nest at most to the given depth. -/
def grammar : Nat → Grammar
  | 0 => fun _ => failure
  | depth + 1 => (·.reader (grammar depth))

/-- Reads the directives and the statements of a module up to the end of the script. -/
def moduleBody (g : Grammar) : Reader (List String × List Node) :=
  Grammar.statementsUntil (return (← Reader.cursor).token == .finish) (Grammar.moduleItem g)

namespace Module

/-- Reads a module, with types if `typed`.  There is no answer if it is not well formed. -/
def parse? (source : String) (typed : Bool) : Option Module := do
  let chars := source.toList
  let (hashbang, rest) := splitHashbang chars
  let offset := Text.byteLength (Text.consumed chars rest)
  let limit := chars.length + 2
  let ((directives, statements), cursor) ←
    (moduleBody (grammar (2 * limit))).run { typed, limit } |>.run (.enter rest offset true [])
  if statements.all (·.defaultsInPatterns) then
    some { source := chars, hashbang, directives, statements, comments := cursor.comments.reverse }
  else none

end Module

end SvelteStories.Script
