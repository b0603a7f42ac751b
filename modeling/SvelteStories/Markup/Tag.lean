import SvelteStories.Markup.Basic
import SvelteStories.Markup.Braces
import SvelteStories.Markup.Fault
import SvelteStories.Text.Blank

/-!
# Opening tags

An opening tag is a name and a list of attributes.  An attribute is a brace expression that stands
alone, a name, or a name with a value; a value is quoted, a brace expression or bare.  Brace
expressions may stand inside a quoted value, where quotes do not end it.

Every reader takes the text from where it starts and the byte offset of that place, and answers with
the rest of the text.
-/

namespace SvelteStories.Markup

open Text

/-- Whether a character may stand in the name of a tag. -/
def isTagNameChar (c : Char) : Bool :=
  c.isAlphanum || c == '-' || c == '_' || c == ':' || c == '.'

/-- Whether a character may stand in the name of an attribute. -/
def isAttributeNameChar (c : Char) : Bool :=
  !isTagBlank c &&
    !(c == '=' || c == '>' || c == '/' || c == '"' || c == '\'' || c == '<' || c == '{')

/-- The text without white space at both ends, as a string. -/
def trimmed (cs : List Char) : String :=
  String.ofList (trim cs)

/-- Passes over a quoted value and answers with the text from its closing quote on.  `opened` is the
    byte offset of the opening quote. -/
def seekQuote (quote : Char) (opened : Nat) (cs : List Char) (here : Nat) :
    Except LocatedFault (List Char) :=
  match cs with
  | [] => Fault.unterminatedValue.raise opened
  | c :: rest =>
    if c = quote then .ok (c :: rest)
    else if c = '{' then
      match _h : Braces.after? (c :: rest) with
      | none => Fault.unbalancedAttributeBrace.raise here
      | some after =>
        seekQuote quote opened after (here + byteLength (consumed (c :: rest) after))
    else seekQuote quote opened rest (here + c.utf8Size)
termination_by cs.length
decreasing_by
  · exact Braces.length_lt_of_after? (by assumption)
  · simp

/-- The value written between quotes: an expression if it is one brace expression and nothing
    else. -/
def quotedValue (raw : List Char) : AttributeValue :=
  match raw with
  | '{' :: _ =>
    match Braces.split? raw with
    | some (inside, []) => .expression (trimmed inside)
    | _ => .static (String.ofList raw)
  | _ => .static (String.ofList raw)

/-- Whether a bare value ends at the start of the text. -/
def endsBareValue : List Char → Bool
  | [] => true
  | '>' :: _ => true
  | '/' :: '>' :: _ => true
  | c :: _ => isTagBlank c

/-- What follows the bare value that the text starts with. -/
def afterBareValue (cs : List Char) : List Char :=
  (seek? endsBareValue cs).getD []

/-- Reads the value after an equals sign and the white space behind it. -/
def readValue (cs : List Char) (here : Nat) : Except LocatedFault (AttributeValue × List Char) :=
  match cs with
  | [] => Fault.unterminatedValue.raise here
  | '{' :: _ =>
    match Braces.split? cs with
    | none => Fault.unbalancedAttributeBrace.raise here
    | some (inside, rest) => .ok (.expression (trimmed inside), rest)
  | c :: body =>
    if c = '"' ∨ c = '\'' then do
      let closing ← seekQuote c here body (here + 1)
      return (quotedValue (consumed body closing), closing.drop 1)
    else
      let rest := afterBareValue cs
      .ok (.static (String.ofList (consumed cs rest)), rest)

/-- Reads what follows the name of an attribute: an equals sign and a value, or nothing. -/
def readAssignment (cs : List Char) (here : Nat) :
    Except LocatedFault (AttributeValue × List Char) :=
  match cs.dropWhile isTagBlank with
  | '=' :: assigned =>
    let value := assigned.dropWhile isTagBlank
    readValue value (here + byteLength (consumed cs value))
  | _ => .ok (.boolean, cs)

/-- The name of an attribute that is a brace expression standing alone. -/
def loneName (expression : List Char) : String :=
  if startsWith ['.', '.', '.'] expression then "..." else String.ofList expression

/-- Reads the attribute that the text starts with. -/
def readAttribute (tag : String) (cs : List Char) (here : Nat) :
    Except LocatedFault (Attribute × List Char) :=
  match cs with
  | '{' :: _ =>
    match Braces.split? cs with
    | none => Fault.unbalancedAttributeBrace.raise here
    | some (inside, rest) =>
      let expression := trim inside
      .ok (⟨loneName expression, .expression (String.ofList expression),
        ⟨here, here + byteLength (consumed cs rest)⟩⟩, rest)
  | _ =>
    let name := cs.takeWhile isAttributeNameChar
    if name.isEmpty then (Fault.unexpectedCharacter tag).raise here
    else do
      let (value, rest) ← readAssignment (cs.drop name.length) (here + byteLength name)
      return (⟨String.ofList name, value, ⟨here, here + byteLength (consumed cs rest)⟩⟩, rest)

/-! ## Every attribute takes at least one character -/

/-- Passing over a quoted value leaves no more than there was. -/
theorem length_le_of_seekQuote {quote : Char} {opened here : Nat} {cs rest : List Char}
    (h : seekQuote quote opened cs here = .ok rest) : rest.length ≤ cs.length := by
  fun_induction seekQuote quote opened cs here with
  | case1 => exact nomatch h
  | case2 => cases h; exact Nat.le_refl _
  | case3 => exact nomatch h
  | case4 _ _ _ _ hs ih =>
    exact Nat.le_trans (ih h) (Nat.le_of_lt (Braces.length_lt_of_after? hs))
  | case5 _ _ _ _ _ ih => exact Nat.le_trans (ih h) (Nat.le_succ _)

theorem length_le_afterBareValue (cs : List Char) : (afterBareValue cs).length ≤ cs.length := by
  unfold afterBareValue
  cases h : seek? endsBareValue cs with
  | none => simp
  | some rest => simpa using (suffix_of_seek? h).1.length_le

/-- Reading a value leaves no more than there was. -/
theorem length_le_of_readValue {cs rest : List Char} {here : Nat} {value : AttributeValue}
    (h : readValue cs here = .ok (value, rest)) : rest.length ≤ cs.length := by
  unfold readValue at h
  split at h
  · exact nomatch h
  · split at h
    · exact nomatch h
    · rename_i hs; cases h; exact Nat.le_of_lt (Braces.length_lt_of_split? hs)
  · split at h
    · rename_i c body _ _
      cases hq : seekQuote c here body (here + 1) with
      | error e => simp [hq, bind, Except.bind] at h
      | ok closing =>
        simp only [hq, bind, Except.bind, pure, Except.pure] at h
        cases h
        -- both quotes are passed over
        have := length_le_of_seekQuote hq
        simp only [List.length_drop, List.length_cons]
        omega
    · cases h; exact length_le_afterBareValue _

theorem length_dropWhile_le (p : Char → Bool) (cs : List Char) :
    (cs.dropWhile p).length ≤ cs.length :=
  (List.dropWhile_suffix p).length_le

/-- Reading what follows the name of an attribute leaves no more than there was. -/
theorem length_le_of_readAssignment {cs rest : List Char} {here : Nat} {value : AttributeValue}
    (h : readAssignment cs here = .ok (value, rest)) : rest.length ≤ cs.length := by
  unfold readAssignment at h
  split at h
  · rename_i assigned heq
    have h₁ := length_le_of_readValue h
    have h₂ := length_dropWhile_le isTagBlank assigned
    have h₃ := length_dropWhile_le isTagBlank cs
    rw [heq] at h₃
    simp only [List.length_cons] at h₃
    omega
  · cases h; exact Nat.le_refl _

/-- Reading an attribute takes at least one character, so that reading attributes ends. -/
theorem length_lt_of_readAttribute {tag : String} {cs rest : List Char} {here : Nat}
    {attr : Attribute} (h : readAttribute tag cs here = .ok (attr, rest)) :
    rest.length < cs.length := by
  unfold readAttribute at h
  split at h
  · split at h
    · exact nomatch h
    · rename_i hs; cases h; exact Braces.length_lt_of_split? hs
  · dsimp only at h
    split at h
    · exact nomatch h
    · rename_i hne
      cases ha : readAssignment (cs.drop (cs.takeWhile isAttributeNameChar).length)
          (here + byteLength (cs.takeWhile isAttributeNameChar)) with
      | error e => simp [ha, bind, Except.bind] at h
      | ok p =>
        simp only [ha, bind, Except.bind, pure, Except.pure] at h
        cases h
        -- the name is not empty, and nothing is given back behind it
        have h₁ := length_le_of_readAssignment ha
        have h₂ : 0 < (cs.takeWhile isAttributeNameChar).length := by
          simpa [List.length_pos_iff] using hne
        have h₃ := (List.takeWhile_prefix isAttributeNameChar (l := cs)).length_le
        simp only [List.length_drop] at h₁
        omega

/-! ## The attributes of a tag -/

/-- How a tag ends: whether it closes itself, and the text that follows it. -/
structure TagEnd where
  selfClosing : Bool
  rest : List Char

/-- Reads attributes up to the end of the tag.  `opened` is the byte offset of the tag. -/
def readAttributes (tag : String) (opened : Nat) (cs : List Char) (here : Nat) :
    Except LocatedFault (List Attribute × TagEnd) :=
  match _hs : cs.dropWhile isTagBlank with
  | [] => (Fault.unterminatedTag tag).raise opened
  | '>' :: rest => .ok ([], ⟨false, rest⟩)
  | '/' :: '>' :: rest => .ok ([], ⟨true, rest⟩)
  | next =>
    match _h : readAttribute tag next (here + byteLength (consumed cs next)) with
    | .error fault => .error fault
    | .ok (attr, rest) => do
      let (others, tagEnd) ← readAttributes tag opened rest attr.span.stop
      return (attr :: others, tagEnd)
termination_by cs.length
decreasing_by
  have h₁ := length_lt_of_readAttribute (by assumption)
  have h₂ := length_dropWhile_le isTagBlank cs
  simp only [_hs] at h₂
  omega

/-- Reads the tag that the text starts with: its name, its attributes and its end. -/
def readTag (cs : List Char) (here : Nat) :
    Except LocatedFault (List Char × List Attribute × TagEnd) := do
  let name := (cs.drop 1).takeWhile isTagNameChar
  let (attributes, tagEnd) ←
    readAttributes (String.ofList name) here (cs.drop (1 + name.length)) (here + 1 + name.length)
  return (name, attributes, tagEnd)

end SvelteStories.Markup
