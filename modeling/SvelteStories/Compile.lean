import SvelteStories.Edit.Transform
import SvelteStories.Script.Printer.Modules
import SvelteStories.Story.File

/-!
# Compiling stories files

`compile` takes a stories file and its compiled module and answers with the text of the transformed
module, the warnings and what an index shows of the file, or with a report.  The name of the file
goes to whoever reads, finds, pairs or edits, for the warnings and the report.
-/

namespace SvelteStories

open Diagnostic

/-- What is compiled, and how. -/
structure CompileOptions where
  /-- The name of the stories file. -/
  filename : String
  /-- The text of the stories file. -/
  source : String
  /-- The text of its compiled module. -/
  compiled : String
  /-- The package that exports `defineMeta`. -/
  package : String := defaultPackage

/-- What an index shows of a story. -/
structure StoryEntry where
  name : Option String
  exportName : Option String
  /-- What the comment above the story says, also where it is ignored. -/
  description : Option String
  rawCode : String
deriving Repr, DecidableEq

/-- The entry of a story. -/
def Story.entry (story : Story) : StoryEntry where
  name := story.name
  exportName := story.exportName
  description := story.comment.map Text.dedentString
  rawCode := story.rawCode

/-- What compiling answers with. -/
structure CompileResult where
  code : String
  warnings : List Warning
  summary : Meta.Summary
  stories : List StoryEntry
  importInserted : Bool
deriving Repr, DecidableEq

/-- What a transform needs to know of a stories file. -/
def StoriesFile.content (file : StoriesFile) : StoriesContent where
  metaDescription := file.metaDescription
  stories := file.stories

/-- Reads the compiled module of a stories file. -/
def compiledModule (filename compiled : String) : Except Report Script.Module :=
  match Script.Module.parse? compiled false with
  | some module => .ok module
  | none => .error (Problem.compiledSyntax.report filename)

/-- Compiles a stories file, up to the printing of its module.  The name of the file goes to the
    reader of the stories file, to the reader of the compiled module and to the transform. -/
def compileModule (options : CompileOptions) :
    Except Report (StoriesFile × Edit.Transformed Bool × Bool) := do
  let file ← StoriesFile.read options.filename options.source options.package
  let module ← compiledModule options.filename options.compiled
  let transformed := Edit.transform options.filename file.content options.package module
  return (file, transformed, ← transformed.outcome)

/-- Compiles a stories file. -/
def compile (options : CompileOptions) : Except Report CompileResult := do
  let (file, transformed, importInserted) ← compileModule options
  return {
    code := transformed.module.print
    warnings := transformed.warnings
    summary := file.summary
    stories := file.stories.map (·.entry)
    importInserted
  }

/-- Compiles stories files that have nothing to do with each other. -/
def compileAll (inputs : List CompileOptions) : List (String × Except Report CompileResult) :=
  inputs.map fun options => (options.filename, compile options)

/-- Compiles a stories file a number of times, each time with the code of the time before as the
    compiled module, and ends with the first report. -/
def compileRepeatedly : (times : Nat) → CompileOptions → List (Except Report CompileResult)
  | 0, _ => []
  | times + 1, options =>
    match compile options with
    | .error report => [.error report]
    | .ok result =>
      .ok result :: compileRepeatedly times { options with compiled := result.code }

end SvelteStories
