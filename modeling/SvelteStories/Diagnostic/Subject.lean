import SvelteStories.Diagnostic.Report

/-!
# What is described

The meta object describes the component of a stories file, and every story has a description of its
own.  A `Subject` is one of these; it tells under which key its description is kept and what a
diagnostic calls it.
-/

namespace SvelteStories.Diagnostic

/-- What a description is about. -/
inductive Subject
  /-- The component, which the meta object describes. -/
  | component
  /-- A story, with its name if it is known. -/
  | story (label : Option String)
deriving Repr, DecidableEq

namespace Subject

/-- The key of the description. -/
def key : Subject → String
  | component => "component"
  | story _ => "story"

/-- What a diagnostic calls the subject. -/
def label : Subject → String
  | component => "defineMeta()"
  | story (some name) => "<Story name=\"" ++ name ++ "\" />"
  | story none => "One of <Story /> component(s)"

/-- The kind of comment that describes the subject. -/
def commentKind : Subject → String
  | component => "JSDoc comment"
  | story _ => "HTML comment"

/-- The name of the story, if the subject is one and its name is known. -/
def storyName? : Subject → Option String
  | component => none
  | story label => label

/-- The warning that a comment is ignored, as the subject has a description of its own. -/
def explicitDescription (subject : Subject) (file : String) : Warning where
  code := "SCSF-DESCRIPTION-EXPLICIT"
  message := subject.label ++ " already has explicitly set description. Ignoring the "
    ++ subject.commentKind ++ " above."
  file
  story := subject.storyName?

end Subject

end SvelteStories.Diagnostic
