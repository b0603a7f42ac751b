/-!
# Faults of the markup

What keeps a text from being markup.  Reading stops at the first fault.
-/

namespace SvelteStories.Markup

/-- What is wrong with the markup. -/
inductive Fault
  | unbalancedBrace
  | unbalancedAttributeBrace
  | unclosedComment
  | unclosedBlock (name : String)
  | unterminatedClosingTag
  | unterminatedTag (name : String)
  | unterminatedValue
  | unexpectedCharacter (name : String)
deriving Repr, DecidableEq

/-- The wording of a fault. -/
def Fault.message : Fault → String
  | unbalancedBrace => "Unbalanced `\x7b` in markup."
  | unbalancedAttributeBrace => "Unbalanced `\x7b` in attribute."
  | unclosedComment => "Unclosed HTML comment."
  | unclosedBlock name => "Unclosed <" ++ name ++ "> block."
  | unterminatedClosingTag => "Unterminated closing tag."
  | unterminatedTag name => "Unterminated <" ++ name ++ "> tag."
  | unterminatedValue => "Unterminated attribute value."
  | unexpectedCharacter name => "Unexpected character in <" ++ name ++ "> tag."

/-- A fault and the byte offset that it is reported at. -/
structure LocatedFault where
  fault : Fault
  offset : Nat
deriving Repr, DecidableEq

/-- Reports a fault at a byte offset. -/
def Fault.raise {α : Type} (fault : Fault) (offset : Nat) : Except LocatedFault α :=
  .error ⟨fault, offset⟩

end SvelteStories.Markup
