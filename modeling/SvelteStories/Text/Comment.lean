import SvelteStories.Text.Dedent

/-!
# The text of a comment

A comment of a script is written with delimiters: `//` up to the end of the line, or a slash and a
star up to a star and a slash.  `commentText` takes the delimiters away.  A comment that starts with
two stars is a doc comment, whose lines may start with a gutter: spaces and tabs, then a star.  The
gutter of such a line is taken away with its star; a line without one stays as it is.
-/

namespace SvelteStories.Text

/-- What follows the given opening, if the text starts with it. -/
def after? : List Char → List Char → Option (List Char)
  | [], cs => some cs
  | _ :: _, [] => none
  | p :: ps, c :: cs => if p = c then after? ps cs else none

/-- What precedes the given ending, if the text ends with it. -/
def before? (ending text : List Char) : Option (List Char) :=
  (after? ending.reverse text.reverse).map List.reverse

/-- Takes the gutter of one line of a doc comment away. -/
def dropGutter (line : List Char) : List Char :=
  match line.dropWhile isIndent with
  | '*' :: '/' :: _ => line
  | '*' :: rest => rest
  | _ => line

/-- The inside of a block comment; a text that is no block comment is all inside. -/
def blockInside (raw : List Char) : List Char :=
  ((after? ['/', '*'] raw).bind (before? ['*', '/'])).getD raw

/-- The text of a comment, given with its delimiters. -/
def commentText (raw : List Char) : List Char :=
  match after? ['/', '/'] raw with
  | some body => (body.reverse.dropWhile (· == '\r')).reverse
  | none =>
    match blockInside raw with
    | '*' :: doc => unlines ((lines doc).map dropGutter)
    | inside => inside

/-- `commentText` on strings. -/
def commentTextString (raw : String) : String :=
  String.ofList (commentText raw.toList)

end SvelteStories.Text
