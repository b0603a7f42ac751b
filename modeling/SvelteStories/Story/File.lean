import SvelteStories.Markup.Forest
import SvelteStories.Meta.Comment
import SvelteStories.Meta.Summary
import SvelteStories.Script.Parse
import SvelteStories.Story.Pairing

/-!
# Stories files

What a stories file says: the module script declares the metadata, and the markup holds the stories.
-/

namespace SvelteStories

open Text Diagnostic

/-- The package that exports `defineMeta` unless another one is given. -/
def defaultPackage : String := "@storybook/addon-svelte-csf"

/-- What a stories file says. -/
structure StoriesFile where
  /-- The local name of `defineMeta`. -/
  metaBinding : String
  /-- Where the meta declaration stands in the file. -/
  metaDeclaration : Span
  /-- The local name of the story component. -/
  component : String
  /-- The comment above the meta declaration. -/
  metaDescription : Option String
  summary : Meta.Summary
  stories : List Story
deriving Repr, DecidableEq

namespace StoriesFile

/-- The module script among the nodes of a file. -/
def moduleScript? (nodes : List Markup.Node) : Option Markup.RawBlock :=
  nodes.findSome? fun
    | .rawBlock block => if block.isModuleScript then some block else none
    | _ => none

/-- Whether a script is written with types. -/
def isTyped (script : Markup.RawBlock) : Bool :=
  match Markup.staticAttribute? script.attributes "lang" with
  | some lang => lang == "ts" || lang == "typescript"
  | none => false

/-- The span of a part of a script in the file that holds the script. -/
def spanInFile (script : Markup.RawBlock) (span : Span) : Span :=
  ⟨script.content.start + span.start, script.content.start + span.stop⟩

/-- The markup of a stories file.  The scanner stops at the first fault.  All kinds of faults are
    reported here, of the file that is scanned. -/
def markup (filename : String) (source : List Char) : Except Report (List Markup.Node) :=
  (Markup.parse source).mapError (faultReport filename source)

/-- The module that a script of a stories file holds. -/
def scriptModule (filename : String) (source : List Char) (script : Markup.RawBlock) :
    Except Report Script.Module :=
  match Script.Module.parse? (String.ofList (script.content.slice source)) (isTyped script) with
  | some module => .ok module
  | none => .error ((Problem.scriptSyntax (position source script.content.start)).report filename)

/-- Reads a stories file that uses the given package. -/
def read (filename source package : String) : Except Report StoriesFile := do
  let source := source.toList
  let nodes ← markup filename source
  let script ← match moduleScript? nodes with
    | some script => .ok script
    | none => .error (Problem.noModuleScript.report filename)
  let module ← scriptModule filename source script
  let metaBinding ← match module.metaImport? package with
    | some name => .ok name
    | none =>
      let start := position source script.content.start
      .error ((Problem.metaNotImported package start).report filename)
  let (index, declaration) ← module.metaDeclaration filename metaBinding
  let metaObject ← declaration.metaObject filename metaBinding
  let component ← declaration.storyBinding filename
  return {
    metaBinding
    metaDeclaration := spanInFile script declaration.span
    component
    metaDescription := module.commentAbove? index
    summary := Meta.summary metaObject
    stories := Story.collect source component nodes
  }

end StoriesFile

end SvelteStories
