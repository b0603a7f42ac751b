import SvelteStories.Diagnostic.Problem
import SvelteStories.Object.Basic
import SvelteStories.Story.Basic
import SvelteStories.Text.Dedent

/-!
# Descriptions and raw code

The comment above a story becomes `parameters.docs.description.story` of its props object, the
comment above the meta declaration becomes `parameters.docs.description.component` of the meta
object.  A description that is already there stays, and the comment is ignored.  The raw code of a
story is kept in its parameters.
-/

namespace SvelteStories.Edit

open Diagnostic Script

/-- Properties after an edit, the warnings about ignored comments, and the report that ended the
    edit.  What was done before the report is not undone. -/
structure Described where
  properties : Properties
  warnings : List Warning := []
  failure : Option Report := none

/-- Goes on with another edit, unless there was a report. -/
def Described.andThen (described : Described) (next : Properties → Described) : Described :=
  if described.failure.isSome then described
  else
    let edited := next described.properties
    { edited with warnings := described.warnings ++ edited.warnings }

/-- Writes the description that a comment gives, unless there is one, and tells whether there
    was. -/
def describeBy (comment : String) (subject : Subject) : Properties → Properties.Edited Bool :=
  Properties.editAt Properties.descriptionPath fun description =>
    if Properties.has description subject.key then ⟨description, .ok true⟩
    else ⟨Properties.add description subject.key (.ofString (Text.dedentString comment)), .ok false⟩

/-- Writes the description of a subject, if it has a comment. -/
def describe (filename : String) (comment : Option String) (subject : Subject)
    (properties : Properties) : Described :=
  match comment with
  | none => { properties }
  | some comment =>
    let edited := describeBy comment subject properties
    match edited.outcome with
    | .error e =>
      { properties := edited.properties,
        failure := some ((Problem.shape subject e).report filename) }
    | .ok kept =>
      { properties := edited.properties,
        warnings := if kept then [subject.explicitDescription filename] else [] }

/-- The subject that a story is. -/
def subjectOf (story : Story) : Subject :=
  .story story.label?

/-- The key of the parameters under which the raw code of a story is kept. -/
def linkageKey : String := "__svelteCsf"

/-- What is kept of a story in its parameters. -/
def linkage (story : Story) : Node :=
  .ofProperties [.ofEntry "rawCode" (.ofString story.rawCode)]

/-- Keeps the raw code of a story in its parameters. -/
def link (filename : String) (story : Story) (properties : Properties) : Described :=
  let edited := Properties.editAt Properties.parametersPath
    (fun parameters => ⟨Properties.add parameters linkageKey (linkage story), .ok ()⟩) properties
  match edited.outcome with
  | .error e =>
    { properties := edited.properties,
      failure := some ((Problem.shape (subjectOf story) e).report filename) }
  | .ok () => { properties := edited.properties }

/-- Writes the description and the raw code of a story into its props object. -/
def editProps (filename : String) (story : Story) (properties : Properties) : Described :=
  (describe filename story.comment (subjectOf story) properties).andThen (link filename story)

end SvelteStories.Edit
