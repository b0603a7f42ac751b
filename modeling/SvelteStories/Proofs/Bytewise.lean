import SvelteStories.Markup.Forest
import SvelteStories.Markup.Snippet
import SvelteStories.Proofs.Bytes

/-!
# Reading the markup by byte offsets

The readers of the markup take characters off a text.  The same markup can be read in place: a
reader keeps a byte offset, looks at single bytes, and cuts out a part of the text when it needs
one.  Such a reader can go wrong in ways that the others cannot.  An offset at which it cuts may
stand inside a character or behind the end, a turn of a loop may not get ahead, and a brace may be
closed that was never opened.  Each of these is a `Halt` of its own here, so that a reader that
answers has met none of them.

## Key definitions

- `Halt`, `slice`, `run`: what can go wrong, a checked part of the text, and a checked loop
- `braceEnd?`: where a brace expression ends
- `parse`: the markup of a stories file
- `braceTags`: the brace expressions of a run of text, cut out of the markup
-/

namespace SvelteStories.Markup.Bytewise

open Text

/-- What keeps a reader from an answer. -/
inductive Halt
  /-- The text is not markup. -/
  | fault (fault : LocatedFault)
  /-- A part of the text was asked for that the span does not select. -/
  | slice (span : Span)
  /-- A turn of a loop did not get ahead. -/
  | stall (offset : Nat)
  /-- A brace is closed where none is open. -/
  | underflow (offset : Nat)
deriving Repr, DecidableEq

/-- Halts with a fault at a byte offset. -/
def refuse {α : Type} (fault : Fault) (offset : Nat) : Except Halt α :=
  .error (.fault ⟨fault, offset⟩)

/-- The part of the text between two offsets. -/
def slice (text : List Char) (start stop : Nat) : Except Halt (List Char) :=
  match Span.slice? ⟨start, stop⟩ text with
  | some part => .ok part
  | none => .error (.slice ⟨start, stop⟩)

/-- The text from an offset on. -/
def sliceFrom (text : List Char) (start : Nat) : Except Halt (List Char) :=
  slice text start (byteLength text)

/-- The offset of the first place, from `start` on, where a condition holds of the text there. -/
def find? (stop : List Char → Bool) (text : List Char) (start : Nat) :
    Except Halt (Option Nat) := do
  let tail ← sliceFrom text start
  return (seek? stop tail).map fun rest => start + byteLength (consumed tail rest)

/-! ## Loops -/

/-- What a turn of a loop comes to: the offset and the state for the next one, or an answer. -/
inductive Turn (σ β : Type)
  | next (offset : Nat) (state : σ)
  | done (answer : β)

/-- Takes turns as long as the offset is before the end, and each turn gets ahead. -/
def run {σ β : Type} (length : Nat) (turn : Nat → σ → Except Halt (Turn σ β))
    (atEnd : Nat → σ → Except Halt β) (offset : Nat) (state : σ) : Except Halt β :=
  if offset < length then
    match turn offset state with
    | .error halt => .error halt
    | .ok (.done answer) => .ok answer
    | .ok (.next next state) =>
      if offset < next then run length turn atEnd next state else .error (.stall offset)
  else atEnd offset state
termination_by length - offset

/-- Passes over bytes while a condition holds at their offsets. -/
def passWhile (condition : Nat → Bool) (text : List Char) (start : Nat) : Except Halt Nat :=
  run (byteLength text)
    (fun offset _ => .ok (if condition offset then .next (offset + 1) () else .done offset))
    (fun offset _ => .ok offset) start ()

/-- Passes over bytes of a class of characters. -/
def passClass (isMember : Char → Bool) (text : List Char) (start : Nat) : Except Halt Nat :=
  passWhile (fun offset => (byteAt? text offset).any isMember) text start

/-! ## Brace expressions -/

/-- What a reader of a brace expression knows. -/
structure BraceState where
  /-- The number of open braces. -/
  depth : Nat := 0
  /-- The quote of the string that is open. -/
  quote : Option Char := none
  inTemplate : Bool := false
  /-- The number of open interpolations of the template literal. -/
  interpolations : Nat := 0
deriving Repr, DecidableEq

/-- Reads on in a brace expression.  The answer is the offset behind it, if it ends. -/
def braceTurn (text : List Char) (i : Nat) (s : BraceState) :
    Except Halt (Turn BraceState (Option Nat)) :=
  if byteAt? text i = some '\\' ∧ i + 1 < byteLength text then
    -- perhaps into the middle of a character
    .ok (.next (i + 2) s)
  else match s.quote with
  | some quote =>
    .ok (.next (i + 1) (if byteAt? text i = some quote then { s with quote := none } else s))
  | none =>
    if s.inTemplate then
      if byteAt? text i = some '\x60' ∧ s.interpolations = 0 then
        .ok (.next (i + 1) { s with inTemplate := false })
      else if byteAt? text i = some '$' ∧ byteAt? text (i + 1) = some '{' then
        .ok (.next (i + 2) { s with interpolations := s.interpolations + 1 })
      else if byteAt? text i = some '}' ∧ 0 < s.interpolations then
        .ok (.next (i + 1) { s with interpolations := s.interpolations - 1 })
      else .ok (.next (i + 1) s)
    else if byteAt? text i = some '/' ∧ byteAt? text (i + 1) = some '/' then do
      let lineFeed ← find? (startsWith ['\n']) text i
      return .next (lineFeed.getD (byteLength text)) s
    else if byteAt? text i = some '/' ∧ byteAt? text (i + 1) = some '*' then do
      match ← find? (startsWith ['*', '/']) text (i + 2) with
      | none => return .done none
      | some closing => return .next (closing + 2) s
    else if byteAt? text i = some '"' then .ok (.next (i + 1) { s with quote := some '"' })
    else if byteAt? text i = some '\'' then .ok (.next (i + 1) { s with quote := some '\'' })
    else if byteAt? text i = some '\x60' then .ok (.next (i + 1) { s with inTemplate := true })
    else if byteAt? text i = some '{' then .ok (.next (i + 1) { s with depth := s.depth + 1 })
    else if byteAt? text i = some '}' then
      match s.depth with
      | 0 => .error (.underflow i)
      | 1 => .ok (.done (some (i + 1)))
      | depth + 2 => .ok (.next (i + 1) { s with depth := depth + 1 })
    else .ok (.next (i + 1) s)

/-- Reads a brace expression to its end. -/
def braceRun (text : List Char) : Nat → BraceState → Except Halt (Option Nat) :=
  run (byteLength text) (braceTurn text) fun _ _ => .ok none

/-- The offset behind the brace expression that starts at an offset, if it ends. -/
def braceEnd? (text : List Char) (start : Nat) : Except Halt (Option Nat) :=
  braceRun text start {}

/-- The offset behind a brace expression that has to end. -/
def braceEnd (fault : Fault) (text : List Char) (start : Nat) : Except Halt Nat := do
  match ← braceEnd? text start with
  | none => refuse fault start
  | some stop => return stop

/-! ## Tags -/

/-- Passes over a quoted value. -/
def quoteTurn (quote : Char) (text : List Char) (k : Nat) (_ : Unit) :
    Except Halt (Turn Unit Nat) :=
  if byteAt? text k = some quote then .ok (.done k)
  else if byteAt? text k = some '{' then do
    return .next (← braceEnd .unbalancedAttributeBrace text k) ()
  else .ok (.next (k + 1) ())

/-- The value written between quotes. -/
def quotedValue (raw : List Char) : Except Halt AttributeValue := do
  if raw.head? = some '{' then
    if (← braceEnd? raw 0) = some (byteLength raw) then
      return .expression (trimmed (← slice raw 1 (byteLength raw - 1)))
    else return .static (String.ofList raw)
  else return .static (String.ofList raw)

/-- Whether a bare value goes on at an offset. -/
def inBareValue (text : List Char) (i : Nat) : Bool :=
  !((byteAt? text i).any isTagBlank || byteAt? text i == some '>'
    || byteAt? text i == some '/' && byteAt? text (i + 1) == some '>')

/-- Reads the value at an offset. -/
def readValue (text : List Char) (i : Nat) : Except Halt (AttributeValue × Nat) :=
  match byteAt? text i with
  | none => refuse .unterminatedValue i
  | some c =>
    if c = '{' then do
      let stop ← braceEnd .unbalancedAttributeBrace text i
      return (.expression (trimmed (← slice text (i + 1) (stop - 1))), stop)
    else if c = '"' ∨ c = '\'' then do
      let closing ← run (byteLength text) (quoteTurn c text)
        (fun _ _ => refuse .unterminatedValue i) (i + 1) ()
      return (← quotedValue (← slice text (i + 1) closing), closing + 1)
    else do
      let stop ← passWhile (inBareValue text) text i
      return (.static (String.ofList (← slice text i stop)), stop)

/-- Reads what follows the name of an attribute. -/
def readAssignment (text : List Char) (i : Nat) : Except Halt (AttributeValue × Nat) := do
  let sign ← passClass isTagBlank text i
  if byteAt? text sign = some '=' then readValue text (← passClass isTagBlank text (sign + 1))
  else return (.boolean, i)

/-- Reads the attribute at an offset, at which the byte `c` stands. -/
def readAttribute (tag : String) (text : List Char) (i : Nat) (c : Char) :
    Except Halt (Attribute × Nat) :=
  if c = '{' then do
    let stop ← braceEnd .unbalancedAttributeBrace text i
    let expression := trim (← slice text (i + 1) (stop - 1))
    return (⟨loneName expression, .expression (String.ofList expression), ⟨i, stop⟩⟩, stop)
  else if isAttributeNameChar c then do
    let nameStop ← passClass isAttributeNameChar text i
    let name ← slice text i nameStop
    let (value, stop) ← readAssignment text nameStop
    return (⟨String.ofList name, value, ⟨i, stop⟩⟩, stop)
  else refuse (.unexpectedCharacter tag) i

/-- An opening tag: its attributes, whether it closes itself, and where it ends. -/
structure TagRead where
  attributes : List Attribute
  selfClosing : Bool
  stop : Nat

/-- Reads one more attribute, or the end of the tag. -/
def attributeTurn (tag : String) (opened : Nat) (text : List Char) (i : Nat)
    (attributes : List Attribute) : Except Halt (Turn (List Attribute) TagRead) := do
  let i ← passClass isTagBlank text i
  match byteAt? text i with
  | none => refuse (.unterminatedTag tag) opened
  | some c =>
    if c = '>' then return .done ⟨attributes, false, i + 1⟩
    else if c = '/' ∧ byteAt? text (i + 1) = some '>' then return .done ⟨attributes, true, i + 2⟩
    else
      let (attr, stop) ← readAttribute tag text i c
      return .next stop (attributes ++ [attr])

/-- Reads the attributes of a tag up to its end. -/
def readAttributes (tag : String) (opened : Nat) (text : List Char) (i : Nat) :
    Except Halt TagRead :=
  run (byteLength text) (attributeTurn tag opened text)
    (fun _ _ => refuse (.unterminatedTag tag) opened) i []

/-- Reads the opening tag at an offset: its name and the rest of it. -/
def readTag (text : List Char) (start : Nat) : Except Halt (List Char × TagRead) := do
  let nameStop ← passClass isTagNameChar text (start + 1)
  let name ← slice text (start + 1) nameStop
  return (name, ← readAttributes (String.ofList name) start text nameStop)

/-! ## Lexemes -/

/-- Reads the comment at an offset. -/
def readComment (text : List Char) (start : Nat) : Except Halt (Lexeme × Nat) := do
  match ← find? (startsWith ['-', '-', '>']) text (start + 4) with
  | none => refuse .unclosedComment start
  | some closing =>
    let data ← slice text (start + 4) closing
    return (.comment (String.ofList data) ⟨start, closing + 3⟩, closing + 3)

/-- Reads the closing tag at an offset. -/
def readClosing (text : List Char) (start : Nat) : Except Halt (Lexeme × Nat) := do
  let nameStop ← passClass isTagNameChar text (start + 2)
  let name ← slice text (start + 2) nameStop
  match ← find? endsTag text nameStop with
  | none => refuse .unterminatedClosingTag start
  | some tagEnd => return (.closing (String.ofList name) ⟨start, tagEnd + 1⟩, tagEnd + 1)

/-- Reads the content of a raw block and its closing tag, which is looked for in a copy of the text
    in lower case. -/
def readRaw (name : List Char) (attributes : List Attribute) (start : Nat) (text : List Char)
    (bodyStart : Nat) : Except Halt (Lexeme × Nat) := do
  let lower := (← sliceFrom text bodyStart).map Char.toLower
  match seek? (startsWith ('<' :: '/' :: name.map Char.toLower)) lower with
  | none => refuse (.unclosedBlock (String.ofList name)) start
  | some closing =>
    let contentStop := bodyStart + byteLength (consumed lower closing)
    match ← find? endsTag text contentStop with
    | none => refuse .unterminatedClosingTag contentStop
    | some tagEnd =>
      return (.rawBlock ⟨String.ofList name, attributes, ⟨bodyStart, contentStop⟩,
        ⟨start, tagEnd + 1⟩⟩, tagEnd + 1)

/-- Reads the opening tag at an offset, and the whole of a raw block. -/
def readOpening (text : List Char) (start : Nat) : Except Halt (Lexeme × Nat) := do
  let (name, tag) ← readTag text start
  let span : Span := ⟨start, tag.stop⟩
  if tag.selfClosing then
    return (.leaf ⟨String.ofList name, tag.attributes, span, none⟩, tag.stop)
  else if isRawName name then readRaw name tag.attributes start text tag.stop
  else if isVoidName name then
    return (.leaf ⟨String.ofList name, tag.attributes, span, none⟩, tag.stop)
  else return (.opening (String.ofList name) tag.attributes span, tag.stop)

/-! ## The markup -/

/-- What was built, and where the run of text starts that is being read. -/
structure State where
  builder : Builder
  textStart : Option Nat

/-- Starts a run of text, unless one is being read. -/
def State.mark (s : State) (i : Nat) : State :=
  { s with textStart := some (s.textStart.getD i) }

/-- Adds the run of text that ends at an offset. -/
def State.flush (text : List Char) (stop : Nat) (s : State) : Except Halt Builder :=
  match s.textStart with
  | none => .ok s.builder
  | some start =>
    if start < stop then do
      return s.builder.add (.text (String.ofList (← slice text start stop)) ⟨start, stop⟩)
    else .ok s.builder

/-- Adds the lexeme that is read at an offset, behind the run of text before it. -/
def State.addRead (text : List Char) (i : Nat) (s : State) (read : Except Halt (Lexeme × Nat)) :
    Except Halt (Turn State (List Node)) := do
  let builder ← s.flush text i
  let (lexeme, stop) ← read
  return .next stop ⟨builder.add lexeme, none⟩

/-- Whether a sign stands at the start of a run of text, or a brace. -/
def startsSign : List Char → Bool
  | '<' :: _ => true
  | '{' :: _ => true
  | _ => false

/-- Reads on in the markup: a comment, a tag, a brace expression, or text up to the next sign. -/
def markupTurn (text : List Char) (i : Nat) (s : State) : Except Halt (Turn State (List Node)) := do
  let rest ← sliceFrom text i
  if startsWith ['<', '!', '-', '-'] rest then s.addRead text i (readComment text i)
  else if startsWith ['<', '/'] rest ∧ (byteAt? text (i + 2)).any Char.isAlpha then
    s.addRead text i (readClosing text i)
  else if byteAt? text i = some '<' ∧ (byteAt? text (i + 1)).any Char.isAlpha then
    s.addRead text i (readOpening text i)
  else if byteAt? text i = some '{' then
    return .next (← braceEnd .unbalancedBrace text i) (s.mark i)
  else
    let first := (rest.head?.map Char.utf8Size).getD 1
    let sign ← find? startsSign rest first
    return .next (sign.elim (byteLength text) (i + ·)) (s.mark i)

/-- Reads the markup of a stories file. -/
def parse (text : List Char) : Except Halt (List Node) :=
  run (byteLength text) (markupTurn text)
    (fun stop s => do return (← s.flush text stop).finish stop) 0 ⟨.empty, none⟩

/-! ## Brace expressions of a run of text -/

/-- Cuts out one more brace expression of a run of text that starts at the offset `here`. -/
def tagTurn (here : Nat) (raw : List Char) (i : Nat) (tags : List BraceTag) :
    Except Halt (Turn (List BraceTag) (List BraceTag)) := do
  match ← find? (startsWith ['{']) raw i with
  | none => return .done tags
  | some start =>
    match ← braceEnd? raw start with
    | none => return .done tags
    | some stop =>
      let tag ← slice raw start stop
      return .next stop (tags ++ [⟨tag, ⟨here + start, here + stop⟩⟩])

/-- The brace expressions of a run of text, up to the first brace that nothing closes. -/
def braceTags (raw : List Char) (here : Nat) : Except Halt (List BraceTag) :=
  run (byteLength raw) (tagTurn here raw) (fun _ tags => .ok tags) 0 []

end SvelteStories.Markup.Bytewise
