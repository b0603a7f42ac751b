import SvelteStories.Text.Blank

/-!
# Common indentation

`dedent` makes a description out of the text of a comment: the indentation that all indented lines
have in common is removed from every line, and white space is removed at both ends of the whole.  A
line that starts without indentation, or that is blank, has no say in what the common indentation
is.
-/

namespace SvelteStories.Text

/-- The lines of a text: the parts between its line feeds. -/
def lines : List Char → List (List Char)
  | [] => [[]]
  | '\n' :: cs => [] :: lines cs
  | c :: cs =>
    match lines cs with
    | [] => [[c]]
    | line :: rest => (c :: line) :: rest

/-- The text with the given lines. -/
def unlines (ls : List (List Char)) : List Char :=
  ['\n'].intercalate ls

/-- Whether a character indents: a space or a tab. -/
def isIndent (c : Char) : Bool :=
  c == ' ' || c == '\t'

/-- The number of spaces and tabs that a line starts with. -/
def indentation (line : List Char) : Nat :=
  (line.takeWhile isIndent).length

/-- The indentation that a line asks to be common: none if it is not indented or blank. -/
def indentation? (line : List Char) : Option Nat :=
  let n := indentation line
  if n > 0 && !isBlankText (line.drop n) then some n else none

/-- The smallest indentation that a line asks for. -/
def commonIndentation? (ls : List (List Char)) : Option Nat :=
  (ls.filterMap indentation?).min?

/-- Removes at most `n` spaces and tabs from the start of a line. -/
def unindent (n : Nat) (line : List Char) : List Char :=
  line.drop (min (indentation line) n)

/-- Removes the common indentation from every line, then white space at both ends. -/
def dedent (text : List Char) : List Char :=
  match commonIndentation? (lines text) with
  | none => trim text
  | some n => trim (unlines ((lines text).map (unindent n)))

/-- `dedent` on strings. -/
def dedentString (text : String) : String :=
  String.ofList (dedent text.toList)

end SvelteStories.Text
