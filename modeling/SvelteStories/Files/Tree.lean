import SvelteStories.Files.Failure
import SvelteStories.Files.Path

/-!
# Trees of files

A tree of files, directories and symbolic links, mounted at the working directory: its root is the
directory that relative paths start from.  A *location* is the way from the root of the tree to an
entry that leads through no link; it is written innermost name first.  `resolve` follows a path to
its location, through links on the way and at the end.  A path may lead through forty links.

Nothing outside the tree is read.  An absolute path leads out of it, as the tree does not know where
the working directory is, and is answered as one that nothing has; so is a link with an absolute
target.  `..` at the root stays at the root, as it does at the root of a file system.
-/

namespace SvelteStories.Files

/-- A file, directory or link. -/
inductive Entry
  | file (bytes : ByteArray)
  | directory (entries : List (String × Entry))
  | link (target : String)
deriving Inhabited

/-- The way to an entry, innermost name first. -/
abbrev Location := List String

namespace Entry

/-- The entry of a directory with the given name. -/
def child? (name : String) : Entry → Option Entry
  | directory entries => entries.lookup name
  | _ => none

/-- The entry at a location. -/
def at? (root : Entry) (location : Location) : Option Entry :=
  location.reverse.foldlM (fun entry name => entry.child? name) root

/-- Whether an entry is a directory. -/
def isDirectory : Entry → Bool
  | directory _ => true
  | _ => false

end Entry

/-- Where a path leads. -/
structure Place where
  location : Location
  entry : Entry
  /-- The number of links that a longer path may still lead through. -/
  links : Nat

/-- The number of links that a path may lead through. -/
def mostLinks : Nat := 40

/-- Follows components from the directory at a location of a tree that is mounted at the working
    directory.  The target of a link is followed from the directory that holds the link; an absolute
    target leads out of the tree, where nothing is read, and is missing.  `..` goes to the directory
    around, and stays at the root when it is met there. -/
def follow (root : Entry) : (links : Nat) → Location → List String → Except Failure Place
  | links, location, [] =>
    match root.at? location with
    | some entry => .ok ⟨location, entry, links⟩
    | none => .error .missing
  | links, location, name :: rest =>
    match root.at? location with
    | none => .error .missing
    | some (.directory entries) =>
      if name == "." then follow root links location rest
      else if name == ".." then follow root links location.tail rest
      else match entries.lookup name with
        | none => .error .missing
        | some (.link target) =>
          match links with
          | 0 => .error .endlessLinks
          | links + 1 =>
            if isAbsolute target then .error .missing
            else follow root links location (components target ++ rest)
        | some _ => follow root links (name :: location) rest
    | some _ => .error .notDirectory
termination_by links _ names => (links, names.length)

/-- Follows a path from the root of the tree, the working directory.  An absolute path leads out of
    the tree, where nothing is read, and is missing as the empty path is. -/
def resolve (root : Entry) (path : String) : Except Failure Place :=
  if path.contains '\x00' then .error .notPath
  else if path.isEmpty || isAbsolute path then .error .missing
  else follow root mostLinks [] (components path)

/-- Reads the text of a file. -/
def readText (root : Entry) (path : String) : Except Failure String := do
  match (← resolve root path).entry with
  | .file bytes =>
    match String.fromUTF8? bytes with
    | some text => .ok text
    | none => .error .notText
  | _ => .error .isDirectory

/-! ## Building trees -/

/-- The entries of a directory with one more, which takes the place of one with its name. -/
def setEntry (name : String) (entry : Entry) : List (String × Entry) → List (String × Entry)
  | [] => [(name, entry)]
  | (other, old) :: rest =>
    if other == name then (name, entry) :: rest else (other, old) :: setEntry name entry rest

/-- The entry with another one put at the end of a way of names. -/
def Entry.put (entry : Entry) : (names : List String) → Entry → Entry
  | [], _ => entry
  | name :: names, directory entries =>
    let old := (entries.lookup name).getD (directory [])
    directory (setEntry name (entry.put names old) entries)
  | _ :: _, other => other

/-- Goes on to the directory with the given name, which is made if there is none. -/
def enter (place : Entry × Location) (name : String) : Entry × Location :=
  let (root, location) := place
  match follow root mostLinks location [name] with
  | .ok found => (root, found.location)
  | .error _ => ((Entry.directory []).put (name :: location).reverse root, name :: location)

/-- Puts an entry into a tree; the directories on its way are made. -/
def plant (root : Entry) (path : String) (entry : Entry) : Entry :=
  match (components path).reverse with
  | [] => root
  | name :: parents =>
    let (root, location) := parents.reverse.foldl enter (root, [])
    let place := (name :: location).reverse
    if entry.isDirectory && ((root.at? (name :: location)).any (·.isDirectory)) then root
    else entry.put place root

end SvelteStories.Files
