import SvelteStories.Edit.Description
import SvelteStories.Edit.RuntimeImport
import SvelteStories.Story.Pairing

/-!
# Transforming a compiled module

`transform` writes what a stories file says into its compiled module: the description of the
component, the description and the raw code of every story, and the runtime import.  The work ends
at the first report; the module keeps the edits that were made before it.  Every step is given the
name of the stories file for the diagnostics that it gives.
-/

namespace SvelteStories

open Text Diagnostic Script

/-- What a transform needs to know of a stories file. -/
structure StoriesContent where
  metaDescription : Option String := none
  stories : List Story

/-- What is found in a compiled module. -/
structure CompiledContent where
  /-- The local name of `defineMeta`. -/
  metaBinding : String
  /-- The local name of the story component. -/
  component : String
  /-- The index of the meta declaration. -/
  metaIndex : Nat
  metaCall : Span
  calls : List StoryCall

namespace Edit

/-- A module after a part of the work. -/
structure Transformed (α : Type) where
  module : Module
  /-- The warnings about ignored comments. -/
  warnings : List Warning
  /-- What the work answers with, or the report that ended it. -/
  outcome : Except Report α

/-- The outcome of an edit that answers with nothing. -/
def outcomeOf : Option Report → Except Report Unit
  | none => .ok ()
  | some report => .error report

end Edit

namespace Script.Module

/-- Finds the meta declaration and the story calls of a compiled module. -/
def compiledContent (module : Module) (filename package : String) :
    Except Report CompiledContent := do
  let metaBinding ← match module.metaImport? package with
    | some name => .ok name
    | none => .error ((Problem.compiledMetaNotImported package).report filename)
  let (metaIndex, declaration) ← module.metaDeclaration filename metaBinding
  let _ ← declaration.metaObject filename metaBinding
  let component ← declaration.storyBinding filename
  let calls ← module.storyCalls filename component
  return { metaBinding, component, metaIndex, metaCall := declaration.metaCallSpan, calls }

/-- Changes the meta object of a module. -/
def editMetaObject (module : Module) (filename : String) (content : CompiledContent)
    (change : Properties → Edit.Described) : Edit.Transformed Unit :=
  match module.statements[content.metaIndex]? with
  | none => ⟨module, [], .error (Problem.metaMoved.report filename)⟩
  | some declaration =>
    if declaration.isVariables then
      match declaration.metaObject filename content.metaBinding with
      | .error report => ⟨module, [], .error report⟩
      | .ok properties =>
        let described := change properties
        let declaration := declaration.withMetaObject described.properties
        ⟨{ module with statements := module.statements.set content.metaIndex declaration },
          described.warnings, Edit.outcomeOf described.failure⟩
    else ⟨module, [], .error (Problem.metaMoved.report filename)⟩

end Script.Module

namespace Edit

/-- Edits the story call with the given index, which has to be the one that a story was paired
    with. -/
def editStoryCall (filename : String) (pairs : List Story.Pair) (index : Nat)
    (warnings : List Warning) (call : Node) : EditedCall (List Warning) Report :=
  match pairs[index]? with
  | none => ⟨call, warnings, some (Problem.callMoved.report filename)⟩
  | some (story, found) =>
    if found.span = call.span then
      match call.props filename with
      | .error report => ⟨call, warnings, some report⟩
      | .ok properties =>
        let described := editProps filename story properties
        ⟨call.withProps described.properties, warnings ++ described.warnings, described.failure⟩
    else ⟨call, warnings, some (Problem.callMoved.report filename)⟩

/-- Edits all story calls of a module and adds the runtime import. -/
def editStories (filename package component : String) (pairs : List Story.Pair) (module : Module)
    (warnings : List Warning) : Transformed Bool :=
  let (module, run) := module.editStoryCalls component warnings (editStoryCall filename pairs)
  match run.failure with
  | some report => ⟨module, run.state, .error report⟩
  | none =>
    let (module, added) := module.addRuntimeImport package
    ⟨module, run.state, .ok added⟩

/-- What a transform works on: the content of the compiled module, and its story calls paired with
    the stories of the stories file. -/
def correlated (filename : String) (file : StoriesContent) (package : String) (module : Module) :
    Except Report (CompiledContent × List Story.Pair) := do
  let content ← module.compiledContent filename package
  return (content, ← Story.pair filename file.stories content.calls)

/-- Writes the content of a stories file into its compiled module, and tells whether the
    runtime import was added. -/
def transform (filename : String) (file : StoriesContent) (package : String) (module : Module) :
    Transformed Bool :=
  match correlated filename file package module with
  | .error report => ⟨module, [], .error report⟩
  | .ok (content, pairs) =>
    let edited := module.editMetaObject filename content
      (describe filename file.metaDescription .component)
    match edited.outcome with
    | .error report => ⟨edited.module, edited.warnings, .error report⟩
    | .ok () =>
      editStories filename package content.component pairs edited.module edited.warnings

end Edit

end SvelteStories
