import SvelteStories.Diagnostic.Subject
import SvelteStories.Files.Failure
import SvelteStories.Markup.Fault
import SvelteStories.Object.Basic

/-!
# Problems

A `Problem` is why the work on a stories file ends.  It does not know the file; who finds a problem
was given the name of the file that is worked on, and answers with the report of the problem there.
-/

namespace SvelteStories.Diagnostic

open Text

/-- Why the work on a stories file ends. -/
inductive Problem
  /-- The markup has a fault at the given position. -/
  | markup (fault : Markup.Fault) (position : Position)
  | noModuleScript
  /-- The module script, which starts at the given position, is not well formed. -/
  | scriptSyntax (position : Position)
  /-- The module script, which starts at the given position, does not import `defineMeta`. -/
  | metaNotImported (package : String) (position : Position)
  | metaMissing
  /-- There is more than one meta declaration; the second one is given. -/
  | metaRepeated (declaration : String)
  | metaArgument
  | storyBinding
  | compiledSyntax
  | compiledMetaNotImported (package : String)
  /-- The meta declaration is not where it was found. -/
  | metaMoved
  /-- A story call has no props object. -/
  | storyProps (position : Position) (call : Option String)
  /-- The stories are not as many as the story calls. -/
  | countMismatch (labels : List (Option String)) (calls : Nat)
  /-- A story call is not where it was found. -/
  | callMoved
  /-- A documented property has a value of another kind. -/
  | shape (subject : Subject) (error : Script.ShapeError)
  | unreadable (failure : Files.Failure)
deriving Repr, DecidableEq

namespace Problem

/-- The code of a problem. -/
def code : Problem → Code
  | markup .. | scriptSyntax _ | compiledSyntax => .parsing
  | noModuleScript | metaNotImported .. | metaMissing | compiledMetaNotImported _ | metaMoved =>
    .metaMissing
  | metaRepeated _ => .metaDuplicate
  | metaArgument => .metaArgument
  | storyBinding => .storyBinding
  | storyProps .. => .storyProps
  | countMismatch .. | callMoved => .correlation
  | shape .. => .propertyShape
  | unreadable _ => .reading

/-- The wording of a problem. -/
def message : Problem → String
  | markup fault _ => fault.message
  | noModuleScript => "No module script found."
  | scriptSyntax _ => "Failed to parse module script:"
  | metaNotImported package _ => "defineMeta is not imported from '" ++ package ++ "'."
  | metaMissing => "No `const \x7b Story \x7d = defineMeta(\x7b...\x7d)` declaration found."
  | metaRepeated _ => "defineMeta() is called more than once."
  | metaArgument => "Internal error while trying to get first argument from defineMeta."
  | storyBinding => "The result of defineMeta() must be destructured to obtain `Story`."
  | compiledSyntax => "Failed to parse compiled output:"
  | compiledMetaNotImported package =>
    "The compiled output does not import defineMeta from '" ++ package ++ "'."
  | metaMoved => "defineMeta() declaration moved while transforming."
  | storyProps .. =>
    "Internal error. Failed to extract Story props as object expression from the compiled code."
  | countMismatch labels calls =>
    "Found " ++ toString labels.length ++ " <Story /> component(s) in the source but "
      ++ toString calls ++ " in the compiled output."
  | callMoved => "Story call sites changed while transforming."
  | shape subject error => "In " ++ subject.label ++ ": " ++ error.message ++ "."
  | unreadable failure => "Failed to read file: " ++ failure.message

/-- Where in the stories file a problem is. -/
def position : Problem → Position
  | markup _ position | scriptSyntax position | metaNotImported _ position
  | storyProps position _ => position
  | _ => .unknown

/-- The piece of code or the list of names that a problem is shown with. -/
def context : Problem → Option String
  | metaRepeated declaration => some declaration
  | storyProps _ call => call
  | countMismatch labels _ =>
    some ("source stories: [" ++ ", ".intercalate (labels.map (·.getD "<unnamed>")) ++ "]")
  | _ => none

/-- What the author of the stories file can do about a problem. -/
def hints : Problem → List String
  | noModuleScript => ["Declare defineMeta() inside <script module>."]
  | metaMissing => ["Declare the metadata in the module script of the stories file."]
  | metaArgument =>
    ["defineMeta() must be called through its imported name.",
      "defineMeta() accepts exactly one argument, an object literal."]
  | storyBinding => ["const \x7b Story \x7d = defineMeta(\x7b ... \x7d);"]
  | storyProps .. => ["Compile the stories file with the Svelte 5 client compiler."]
  | countMismatch .. =>
    ["Declare every <Story /> at a position the compiler renders unconditionally.",
      "Pass the compiled output of this exact source."]
  | shape .. => ["Write parameters and parameters.docs inline as object literals."]
  | _ => []

/-- The report of a problem of the given stories file. -/
def report (problem : Problem) (file : String) : Report where
  code := problem.code
  message := problem.message
  file
  position := problem.position
  context := problem.context
  hints := problem.hints

end Problem

/-- The report of a fault in the markup of the given stories file, placed in its text. -/
def faultReport (file : String) (source : List Char) (fault : Markup.LocatedFault) : Report :=
  (Problem.markup fault.fault (position source fault.offset)).report file

end SvelteStories.Diagnostic
