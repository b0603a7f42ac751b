import SvelteStories.Script.Grammar.Basic

/-!
# Types

Types are read and dropped: nothing that is done with a script looks at them.  What stands between
brackets inside a type is passed over token by token.
-/

namespace SvelteStories.Script.Grammar

open Text Reader

/-- Passes over a template that is used as a type. -/
def templateType (g : Grammar) : Reader Unit := do
  let rec go : Nat → Reader Unit
    | 0 => failure
    | n + 1 => do
      match seekChunkEnd (← cursor).after with
      | none => failure
      | some (.template, rest) => skipTo (rest.drop 1)
      | some (.interpolation, rest) =>
        skipTo (rest.drop 2)
        let _ ← g .type
        ensure (← at? "\x7d")
        go n
  go (← read).limit

/-- The opening brackets. -/
def openings : List String :=
  ["(", "[", "\x7b"]

/-- Passes over a bracket, what it encloses and its closing bracket. -/
def balanced (g : Grammar) : Reader Unit := do
  let rec go : Nat → (depth : Nat) → Reader Unit
    | 0, _ => failure
    | n + 1, depth => do
      match (← cursor).token with
      | .punctuator text =>
        advance
        if openings.contains text then go n (depth + 1)
        else if [")", "]", "\x7d"].contains text then
          match depth with
          | 0 => failure
          | 1 => return
          | depth + 2 => go n (depth + 1)
        else go n depth
      | .backQuote =>
        templateType g
        go n depth
      | .finish | .invalid => failure
      | _ =>
        advance
        go n depth
  let token := (← cursor).token
  ensure (openings.any (token == .punctuator ·))
  go (← read).limit 0

/-- Passes over one closing angle bracket, which may be the start of a longer punctuator. -/
def closeAngle : Reader Unit := do
  match (← cursor).here with
  | '>' :: rest => skipTo rest
  | _ => failure

/-- Reads types in angle brackets. -/
def typeArguments (g : Grammar) : Reader Unit := do
  expect "<"
  let _ ← gather do
    if ((← cursor).here.head?.any (· == '>')) then return none
    let _ ← g .type
    if !((← cursor).here.head?.any (· == '>')) then expect ","
    return some ()
  closeAngle

/-- Reads types in angle brackets if they are there. -/
def typeArguments? (g : Grammar) : Reader Unit := do
  if ← at? "<" then typeArguments g

/-- Reads the parameters of a generic declaration if they are there. -/
def typeParameters? (g : Grammar) : Reader Unit := do
  if ← accept "<" then
    let _ ← gather do
      if ((← cursor).here.head?.any (· == '>')) then return none
      let _ ← gather do
        match (← cursor).token with
        | .word "extends" _ => return none
        | .word .. =>
          advance
          return some ()
        | _ => return none
      if ← acceptWord "extends" then let _ ← g .type
      if ← accept "=" then let _ ← g .type
      if !((← cursor).here.head?.any (· == '>')) then expect ","
      return some ()
    closeAngle

/-- Reads a type annotation: a colon and a type. -/
def annotation? (g : Grammar) : Reader Unit := do
  if ← isTyped then
    if ← accept ":" then let _ ← g .type

/-- Reads the further parts of a dotted name. -/
def dottedTail : Reader Unit := do
  let _ ← gather do
    if ← accept "." then
      let _ ← fixedName
      return some ()
    return none

/-- Reads a word. -/
def anyWord : Reader String := do
  match (← cursor).token with
  | .word text _ =>
    advance
    return text
  | _ => failure

/-- Reads a type that starts with a word. -/
def namedType (g : Grammar) : Reader Unit := do
  let first ← anyWord
  let subject ← if (first == "typeof" || first == "asserts") && !(← afterNewline?) then
      attempt anyWord
    else pure none
  if subject.getD first == "import" then balanced g
  dottedTail
  if !(← afterNewline?) then
    typeArguments? g
    if ← acceptWord "is" then let _ ← g .type

/-- Reads a type without operators. -/
def simpleType (g : Grammar) : Reader Unit := do
  match (← cursor).token with
  | .word .. => namedType g
  | .string .. | .number _ | .bigint _ => advance
  | .backQuote => templateType g
  | .punctuator text =>
    if text == "(" then
      balanced g
      if ← accept "=>" then let _ ← g .type
    else if text == "<" then
      typeParameters? g
      balanced g
      expect "=>"
      let _ ← g .type
    else if text == "-" then
      advance
      advance
    else balanced g
  | _ => failure

/-- Reads a type with what may follow it: brackets of arrays and of members. -/
def indexedType (g : Grammar) : Reader Unit := do
  simpleType g
  let _ ← gather do
    if (← at? "[") && !(← afterNewline?) then
      balanced g
      return some ()
    return none

/-- The words that may stand before a type. -/
def typeOperators : List String :=
  ["keyof", "unique", "readonly", "infer", "new", "abstract"]

/-- Whether a word before a type is an operator and not itself the type. -/
def atTypeOperator : Reader Bool := do
  let cursor ← cursor
  match cursor.token with
  | .word text false =>
    if typeOperators.contains text then
      match cursor.next.token with
      | .word next _ => return next != "is" && next != "extends"
      | .punctuator next => return ["(", "[", "\x7b", "<"].contains next
      | .string .. => return true
      | _ => return false
    else return false
  | _ => return false

/-- Reads a type with the operators before it. -/
def prefixedType (g : Grammar) : Reader Unit := do
  let _ ← gather do
    if ← atTypeOperator then
      advance
      return some ()
    return none
  indexedType g

/-- Reads a type: unions and intersections, perhaps with a condition. -/
def type (g : Grammar) : Reader Node := do
  let _ ← accept "|"
  let _ ← accept "&"
  prefixedType g
  let _ ← gather do
    if (← accept "|") || (← accept "&") then
      prefixedType g
      return some ()
    return none
  if (← atWord? "extends") && !(← afterNewline?) then
    advance
    let _ ← g .type
    if ← accept "?" then
      let _ ← g .type
      expect ":"
      let _ ← g .type
  return .absent

end SvelteStories.Script.Grammar
