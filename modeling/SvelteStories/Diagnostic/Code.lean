/-!
# Diagnostic codes

Each fatal diagnostic names the guarantee that a stories file or its compiled module fails to give.
Codes are written out as short texts; a text that names no known guarantee is kept as it is, so that
reading a code and writing it again gives the same text.
-/

namespace SvelteStories.Diagnostic

/-- What a fatal diagnostic is about. -/
inductive Code
  | metaMissing
  | metaDuplicate
  | metaArgument
  | storyBinding
  | storyProps
  | propertyShape
  | correlation
  | parsing
  | reading
  /-- A code that names no known guarantee. -/
  | unlisted (text : String)
deriving Repr, DecidableEq

namespace Code

/-- The written form of a code. -/
def text : Code → String
  | metaMissing => "SCSF-META-MISSING"
  | metaDuplicate => "SCSF-META-DUPLICATE"
  | metaArgument => "SCSF-META-ARGUMENT"
  | storyBinding => "SCSF-STORY-BINDING"
  | storyProps => "SCSF-STORY-PROPS"
  | propertyShape => "SCSF-PROPERTY-SHAPE"
  | correlation => "SCSF-CORRELATION"
  | parsing => "PARSE_ERROR"
  | reading => "IO_ERROR"
  | unlisted text => text

/-- The codes with a guarantee of their own. -/
def listed : List Code :=
  [metaMissing, metaDuplicate, metaArgument, storyBinding, storyProps, propertyShape, correlation,
    parsing, reading]

/-- The code with the given written form. -/
def ofText (text : String) : Code :=
  (listed.find? (·.text == text)).getD (unlisted text)

/-- Reading a code and writing it again gives the same text. -/
theorem text_ofText (text : String) : (ofText text).text = text := by
  unfold ofText
  cases h : listed.find? (·.text == text) with
  | none => rfl
  | some c => simpa using List.find?_some h

/-- The class of failures that a code belongs to. -/
def kind : Code → String
  | parsing => "PARSE_ERROR"
  | reading => "IO_ERROR"
  | _ => "STRUCTURAL_INVARIANT_VIOLATION"

/-- The guarantee that a diagnostic with this code finds broken. -/
def guarantee : Code → String
  | metaMissing | metaDuplicate =>
    "Every stories file declares its metadata with exactly one defineMeta() call."
  | metaArgument =>
    "defineMeta() is invoked through its imported binding with a single object literal."
  | storyBinding =>
    "The Story component is obtained by destructuring the defineMeta() result."
  | storyProps =>
    "Every compiled <Story /> invocation receives its props as an object literal."
  | propertyShape =>
    "parameters, parameters.docs and parameters.docs.description are object literals."
  | correlation =>
    "Every <Story /> in the source has exactly one compiled invocation, in order."
  | parsing => "Source and compiled code are syntactically valid."
  | reading => "Stories files are readable."
  | unlisted _ => "Unknown invariant."

end Code

end SvelteStories.Diagnostic
