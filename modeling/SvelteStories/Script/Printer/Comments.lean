import SvelteStories.Script.Printer.Page
import SvelteStories.Text.Blank

/-!
# Printing comments

The comments that lead a token are printed before the statement or member that starts with it, each
one once.  A comment that was on a line of its own stays on one; a comment on the line of the
statement stays there.
-/

namespace SvelteStories.Script

open Text

namespace Comment

/-- Whether a comment is written with two slashes. -/
def isLine (comment : Comment) : Bool :=
  startsWith ['/', '/'] comment.raw

/-- Whether a comment is to be kept with the code for legal reasons. -/
def isLegal (comment : Comment) : Bool :=
  startsWith ['!'] (comment.raw.drop 2) ||
    ["@license", "@preserve"].any fun mark =>
      (seek? (startsWith mark.toList) comment.raw).isSome

/-- Whether a line break stands before or behind a comment. -/
def isApart (comment : Comment) : Bool :=
  comment.newlineBefore || comment.newlineAfter

end Comment

/-- Splits a text at its line breaks. -/
def scriptLines : List Char → List (List Char)
  | [] => [[]]
  | '\r' :: '\n' :: cs => [] :: scriptLines cs
  | c :: cs =>
    if isLineBreak c then [] :: scriptLines cs
    else match scriptLines cs with
      | [] => [[c]]
      | line :: rest => (c :: line) :: rest

namespace Printer

/-- Prints a comment. The lines of a comment of several lines are indented like the code. -/
def comment (comment : Comment) : Printer Unit := do
  if !comment.isLine && comment.raw.any isLineBreak then
    for line in scriptLines comment.raw do
      if !startsWith ['/', '*'] line then indent
      put (String.ofList (breakScriptEnds (trimStart line)))
      if !startsWith ['/', '*'] line.reverse then newline
  else put (String.ofList (breakScriptEnds comment.raw))

/-- Prints what stands before the first of some comments. -/
def beforeFirstComment (comment : Comment) : Printer Unit := do
  let text := (← get).text
  if comment.newlineBefore then
    if text.endsWith "\n" then indent
    else if !text.isEmpty && !text.endsWith "\t" then
      newline
      indent
  else indent

/-- Prints what stands between two comments, the second of which is given. -/
def betweenComments (comment : Comment) : Printer Unit := do
  if comment.newlineBefore then
    newline
    indent
  else if comment.isLegal then newline
  else put " "

/-- Prints what stands behind the last of some comments. -/
def afterLastComment (comment : Comment) : Printer Unit := do
  if comment.isLine || comment.newlineAfter then newline
  else modify fun page => { page with spaceNext := true }

/-- Prints comments. -/
def comments (list : List Comment) : Printer Unit := do
  match list with
  | [] => return
  | first :: rest =>
    beforeFirstComment first
    comment first
    for next in rest do
      betweenComments next
      comment next
    afterLastComment (rest.getLastD first)

/-- Takes the comments that lead the token at an offset from those that are not printed yet. -/
def takeComments (offset : Nat) : Printer (List Comment) := do
  let (mine, others) := (← get).comments.partition (·.leads == some offset)
  modify fun page => { page with comments := others }
  return mine

/-- Prints the comments that lead the token at an offset. -/
def commentsAt (offset : Nat) : Printer Unit := do
  comments (← takeComments offset)

end Printer

end SvelteStories.Script
