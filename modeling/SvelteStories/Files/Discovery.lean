import SvelteStories.Diagnostic.Problem
import SvelteStories.Files.Tree

/-!
# Discovering stories files

`discover` lists the stories files below a directory.  Links are followed, but not into a directory
that the walk is already inside.  Directories named `node_modules` and those whose names start with
a dot are left out, except the one that the walk starts from.  What cannot be read is left out too.

`readStoriesFile` reads the text of one of them.
-/

namespace SvelteStories.Files

open Diagnostic

/-- Whether a directory with the given name is left out. -/
def isIgnoredName (name : String) : Bool :=
  name == "node_modules" || name.toList.head? == some '.'

/-- Where a walk is: the location of its directory, those of the directories around it on the walked
    path, and the number of links that it may still lead through. -/
structure WalkPlace where
  location : Location
  around : List Location
  links : Nat

/-- The place of a walk that goes on into a directory below it. -/
def WalkPlace.below (place : WalkPlace) (location : Location) (links : Nat) : WalkPlace :=
  ⟨location, place.location :: place.around, links⟩

/-- Whether a walk is inside the directory at a location. -/
def WalkPlace.isInside (place : WalkPlace) (location : Location) : Bool :=
  (place.location :: place.around).contains location

mutual

/-- The stories files at or below an entry of a directory, by the names that lead to them. -/
def storiesAt (root : Entry) (place : WalkPlace) (name : String) (entry : Entry) :
    List (List String) :=
  match entry with
  | .file _ => if isStoriesName name then [[name]] else []
  | .directory entries =>
    if isIgnoredName name then []
    else (storiesAmong root (place.below (name :: place.location) place.links) entries).map
      (name :: ·)
  | .link _ =>
    match follow root place.links place.location [name] with
    | .error _ => []
    | .ok found =>
      match found.entry with
      | .file _ => if isStoriesName name then [[name]] else []
      | .link _ => []
      | .directory entries =>
        if isIgnoredName name || place.isInside found.location then []
        else if found.links < place.links then
          (storiesAmong root (place.below found.location found.links) entries).map (name :: ·)
        else []
termination_by (place.links, sizeOf entry)

/-- The stories files at or below the given entries of a directory. -/
def storiesAmong (root : Entry) (place : WalkPlace) (entries : List (String × Entry)) :
    List (List String) :=
  match entries with
  | [] => []
  | (name, entry) :: rest => storiesAt root place name entry ++ storiesAmong root place rest
termination_by (place.links, sizeOf entries)

end

/-- Whether a way of names comes before another one or is the same: the first names that differ
    decide, and a way comes before those that go on from it. -/
def comesBefore : List String → List String → Bool
  | [], _ => true
  | _ :: _, [] => false
  | a :: as, b :: bs => if a == b then comesBefore as bs else decide (a < b)

/-- The paths of the stories files at or below a path, in the order of their components. -/
def discover (root : Entry) (base : String) : List String :=
  match resolve root base with
  | .error _ => []
  | .ok found =>
    match found.entry with
    | .file _ => if isStoriesPath base then [base] else []
    | .link _ => []
    | .directory entries =>
      let names := storiesAmong root ⟨found.location, [], found.links⟩ entries
      (names.mergeSort comesBefore).map (·.foldl join base)

/-- Reads the text of a stories file, which is reported by its path if that fails. -/
def readStoriesFile (root : Entry) (path : String) : Except Report String :=
  (readText root path).mapError fun failure => (Problem.unreadable failure).report path

end SvelteStories.Files
