/-!
# Failures to read a file

Why a file cannot be read, with the wording that the system gives.
-/

namespace SvelteStories.Files

/-- Why a file cannot be read. -/
inductive Failure
  /-- Nothing has that path. -/
  | missing
  /-- A part of the path, which would have to be a directory, is none. -/
  | notDirectory
  /-- The path leads to a directory. -/
  | isDirectory
  /-- The links on the way do not end. -/
  | endlessLinks
  /-- The path holds a character that no path can hold. -/
  | notPath
  /-- The bytes of the file are no text. -/
  | notText
deriving Repr, DecidableEq

/-- The wording of a failure. -/
def Failure.message : Failure → String
  | missing => "No such file or directory (os error 2)"
  | notDirectory => "Not a directory (os error 20)"
  | isDirectory => "Is a directory (os error 21)"
  | endlessLinks => "Too many levels of symbolic links (os error 40)"
  | notPath => "file name contained an unexpected NUL byte"
  | notText => "stream did not contain valid UTF-8"

end SvelteStories.Files
