import SvelteStories.Script.Tree
import SvelteStories.Script.Quoted

/-!
# The page that a script is printed on

Printing appends to a `Page`.  Besides the text the page holds how deep the current line is
indented, the comments that are not printed yet, and the places at which an expression may not start
with every token: at such a place an object literal or a function is put in parentheses.
-/

namespace SvelteStories.Script

/-- A page in the course of printing.  Places on it are byte lengths of the text. -/
structure Page where
  text : String := ""
  depth : Nat := 0
  /-- The next indentation is a single space. -/
  spaceNext : Bool := false
  /-- The comments that are not printed yet. -/
  comments : List Comment
  /-- Where the last expression statement starts. -/
  statementStart : Option Nat := none
  /-- Where the last arrow body that is an expression starts. -/
  arrowStart : Option Nat := none
  /-- Where the last exported default starts. -/
  defaultStart : Option Nat := none
  /-- The sign that was printed last and where it ends. -/
  sign : Option (Char × Nat) := none

/-- An action that prints. -/
abbrev Printer := StateM Page

namespace Printer

/-- The length of the text so far. -/
def place : Printer Nat := return (← get).text.utf8ByteSize

/-- Appends a text. -/
def put (text : String) : Printer Unit :=
  modify fun page => { page with text := page.text ++ text }

/-- Ends a line. -/
def newline : Printer Unit := put "\n"

/-- Ends a statement and its line. -/
def endStatement : Printer Unit := put ";\n"

/-- Indents a line, or puts the single space that was asked for in its place. -/
def indent : Printer Unit := do
  let page ← get
  if page.spaceNext then
    put " "
    modify fun page => { page with spaceNext := false }
  else
    put (String.ofList (List.replicate page.depth '\t'))

/-- Prints one level deeper. -/
def deeper (inner : Printer Unit) : Printer Unit := do
  modify fun page => { page with depth := page.depth + 1 }
  inner
  modify fun page => { page with depth := page.depth - 1 }

/-- Puts parentheses around what is printed if the condition holds. -/
def parenthesizedIf (condition : Bool) (inner : Printer Unit) : Printer Unit := do
  if condition then
    put "("
    inner
    put ")"
  else inner

/-- Prints braces around lines, which are one level deeper. -/
def braces (inner : Printer Unit) : Printer Unit := do
  put "\x7b\n"
  deeper inner
  indent
  put "\x7d"

/-- Prints actions with a text between them. -/
def between (separator : String) : List (Printer Unit) → Printer Unit
  | [] => return
  | [last] => last
  | first :: rest => do
    first
    put separator
    between separator rest

/-- Prints actions with a comma and a space between them. -/
def list (actions : List (Printer Unit)) : Printer Unit := between ", " actions

/-- Prints each action on a line of its own, one level deeper. -/
def column (actions : List (Printer Unit)) : Printer Unit := do
  deeper (between "," (actions.map fun action => do
    newline
    indent
    action))
  newline
  indent

/-- Whether an expression that starts here starts a statement. -/
def atStatementStart : Printer Bool := return (← get).statementStart == some (← place)

/-- Whether an expression that starts here starts the body of an arrow. -/
def atArrowStart : Printer Bool := return (← get).arrowStart == some (← place)

/-- Whether an expression that starts here starts an exported default. -/
def atDefaultStart : Printer Bool := return (← get).defaultStart == some (← place)

/-- Marks the place as the start of a statement. -/
def markStatement : Printer Unit := do
  let here ← place
  modify fun page => { page with statementStart := some here }

/-- Marks the place as the start of the body of an arrow. -/
def markArrow : Printer Unit := do
  let here ← place
  modify fun page => { page with arrowStart := some here }

/-- Marks the place as the start of an exported default. -/
def markDefault : Printer Unit := do
  let here ← place
  modify fun page => { page with defaultStart := some here }

/-- Prints a sign before an operand, apart from an equal sign just printed, with which it would be
    read as another operator. -/
def putSign (text : String) : Printer Unit := do
  let here ← place
  let first := text.toList.head?
  if (← get).sign.any fun (c, stop) =>
    stop == here && some c == first && (c == '-' || c == '+') then
    put " "
  put text
  let here ← place
  modify fun page => { page with sign := text.toList.getLast?.map (·, here) }

end Printer

end SvelteStories.Script
