import SvelteStories.Diagnostic.Code
import SvelteStories.Text.Position

/-!
# Reports and warnings

A `Report` is a fatal diagnostic as it is shown: it names the stories file and ends the work on that
file.  A `Warning` is shown and the work goes on.
-/

namespace SvelteStories.Diagnostic

open Text

/-- A fatal diagnostic of one stories file. -/
structure Report where
  code : Code
  message : String
  file : String
  position : Position := .unknown
  context : Option String := none
  hints : List String := []
deriving Repr, DecidableEq

/-- The one-line form of a report. -/
def Report.display (r : Report) : String :=
  "[" ++ r.code.text ++ "] " ++ r.message ++ " Stories file: " ++ r.file

/-- A report placed at a byte offset of the given text. -/
def Report.atOffset (code : Code) (message file : String) (text : List Char) (offset : Nat) :
    Report where
  code
  message
  file
  position := Text.position text offset

/-- A diagnostic that does not stop the work on its stories file. -/
structure Warning where
  code : String
  message : String
  file : String
  /-- The name of the story that the warning is about. -/
  story : Option String
deriving Repr, DecidableEq

/-- The one-line form of a warning. -/
def Warning.display (w : Warning) : String :=
  w.message ++ " Stories file: " ++ w.file

end SvelteStories.Diagnostic
