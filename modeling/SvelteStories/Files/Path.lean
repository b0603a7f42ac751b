/-!
# Paths

A path is a text whose components stand between slashes.  Slashes that follow each other count as
one.  The component `.` leads nowhere; at the end of a path it says, as a slash there does, that the
path is one of a directory.
-/

namespace SvelteStories.Files

/-- The parts of a text between slashes. -/
def parts : List Char → List (List Char)
  | [] => [[]]
  | '/' :: cs => [] :: parts cs
  | c :: cs =>
    match parts cs with
    | [] => [[c]]
    | part :: rest => (c :: part) :: rest

/-- Whether a path starts at the root of all files. -/
def isAbsolute (path : String) : Bool :=
  path.toList.head? == some '/'

/-- The components of a path, in order; a slash at the end counts as `.`. -/
def components (path : String) : List String :=
  let names := (parts path.toList).map String.ofList
  let last := if names.getLast? == some "" && names.length > 1 then ["."] else []
  names.filter (· != "") ++ last

/-- The name of the file that a path leads to. -/
def fileName? (path : String) : Option String :=
  match ((components path).filter (· != ".")).getLast? with
  | some ".." => none
  | last => last

/-- The path of an entry of the directory with the given path. -/
def join (path name : String) : String :=
  if path.isEmpty || path.toList.getLast? == some '/' then path ++ name else path ++ "/" ++ name

/-- The end of the name of every stories file. -/
def storiesEnding : String := ".stories.svelte"

/-- Whether a name is the name of a stories file: something stands before the ending. -/
def isStoriesName (name : String) : Bool :=
  let ending := storiesEnding.toList
  name.length > ending.length && name.toList.drop (name.length - ending.length) == ending

/-- Whether a path leads to a stories file by its name. -/
def isStoriesPath (path : String) : Bool :=
  (fileName? path).any isStoriesName

end SvelteStories.Files
