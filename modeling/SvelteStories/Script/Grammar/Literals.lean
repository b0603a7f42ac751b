import SvelteStories.Script.Grammar.Properties

/-!
# Literals and classes

Array and object literals, templates, regular expressions, argument lists and classes.
-/

namespace SvelteStories.Script.Grammar

open Reader

/-- Reads a spread. -/
def spread (g : Grammar) : Reader Node := do
  let start ← offset
  expect "..."
  let inner ← freeAssignment g
  node .spread start [inner]

/-- Reads an argument. -/
def argument (g : Grammar) : Reader Node := do
  if ← at? "..." then spread g else freeAssignment g

/-- Reads arguments in parentheses. -/
def arguments (g : Grammar) : Reader (List Node) := do
  expect "("
  items ")" (argument g)

/-- Reads an array literal. -/
def arrayLiteral (g : Grammar) : Reader Node := do
  let start ← offset
  expect "["
  let elements ← items "]" do
    if ← at? "," then return .absent else argument g
  node .array start elements

/-- Reads a property of an object literal. -/
def property (g : Grammar) : Reader Node := do
  let start ← offset
  if ← at? "..." then spread g
  else
    let before ← methodStart
    let (computed, key) ← propertyKey g
    if before.role != .value then
      let value ← method g before
      node (.property computed false before.role) start [key, value]
    else if (← at? "(") || ((← isTyped) && (← at? "<")) then
      let value ← method g {}
      node (.property computed false .method) start [key, value]
    else if ← accept ":" then
      let value ← freeAssignment g
      node (.property computed false .value) start [key, value]
    else
      match key with
      | .mk (.name text) span _ =>
        ensure (isVariableName (← read) text)
        let value ← withDefault g start (.mk (.reference text) span [])
        node (.property computed true .value) start [key, value]
      | _ => failure

/-- Reads an object literal. -/
def objectLiteral (g : Grammar) : Reader Node := do
  let start ← offset
  expect "\x7b"
  let properties ← items "\x7d" (property g)
  node .object start properties

/-- Reads the pieces and the interpolations of a template from the text behind its back quote or
    behind the brace that closes an interpolation. -/
def templateRest (g : Grammar) (tagged : Bool) : Reader (List Chunk × List Node) := do
  let rec go : Nat → Reader (List Chunk × List Node)
    | 0 => failure
    | n + 1 => do
      let after := (← cursor).after
      let (ending, rest) ← given (seekChunkEnd after)
      let raw := Text.consumed after rest
      let cooked := cook raw
      ensure (tagged || cooked.isSome)
      let raw := if cooked.isSome then unifyLineBreaks raw else raw
      let chunk : Chunk := ⟨String.ofList raw, cooked⟩
      match ending with
      | .template =>
        skipTo (rest.drop 1)
        return ([chunk], [])
      | .interpolation =>
        skipTo (rest.drop 2)
        let inner ← freeExpression g
        ensure (← at? "\x7d")
        let (chunks, others) ← go n
        return (chunk :: chunks, inner :: others)
  go (← read).limit

/-- Reads a template. -/
def template (g : Grammar) (tagged : Bool) : Reader Node := do
  let start ← offset
  ensure ((← cursor).token == .backQuote)
  let (chunks, inner) ← templateRest g tagged
  node (.template chunks) start inner

/-- Whether every character is one of the flags of regular expressions and none is there twice. -/
def validFlags (flags : List Char) : Bool :=
  flags.all ("dgimsuvy".toList.contains ·) && flags.eraseDups.length == flags.length

/-- Reads a regular expression from its slash on. -/
def regexLiteral : Reader Node := do
  let start ← offset
  match (← cursor).here with
  | '/' :: body =>
    let after ← given (afterPattern false body)
    let pattern := (Text.consumed body after).dropLast
    let flags := after.takeWhile Text.isIdentifierPart
    ensure (validFlags flags)
    skipTo (after.drop flags.length)
    node (.regex (String.ofList pattern) (String.ofList flags)) start []
  | _ => failure

/-- The words that may stand before a member of a class with types. -/
def memberModifiers : List String :=
  ["public", "private", "protected", "readonly", "override", "abstract", "declare", "accessor"]

/-- Reads the value of a field and the end of the field. -/
def fieldRest (g : Grammar) (isStatic computed : Bool) (start : Nat) (key : Node) :
    Reader Node := do
  if ← isTyped then
    let _ ← (accept "?") <||> (accept "!")
  annotation? g
  let value ← within (fun c => { c with
    inOperator := true, beforeColon := false, awaits := false, yields := false }) do
    if ← accept "=" then g .assignment else return .absent
  semicolon
  node (.field isStatic computed) start [key, value]

/-- Whether the types of all members of a kind are given here. -/
def atIndexSignature : Reader Bool := do
  let place ← cursor
  let key := place.next
  return (← isTyped) && place.token == .punctuator "[" && key.token matches .word ..
    && key.next.token == .punctuator ":"

/-- Reads a member of a class; nothing is there at the closing brace. -/
def classMember (g : Grammar) : Reader (Option Node) := do
  let _ ← gather do
    if ← accept ";" then return some () else return none
  if ← at? "\x7d" then return none
  let start ← offset
  modifiers memberModifiers
  let cursor ← cursor
  let isStatic ← if cursor.token == .word "static" false && !endsKey cursor.next.token then do
      advance
      pure true
    else pure false
  if isStatic && (← at? "\x7b") then
    advance
    let statements ← within (fun c => { inFunction false false c with returns := false })
      (gather do if ← at? "\x7d" then return none else return some (← g .statement))
    expect "\x7d"
    return some (← node .staticBlock start statements)
  modifiers memberModifiers
  if ← atIndexSignature then
    balanced g
    annotation? g
    semicolon
    return some (← node .typeDeclaration start [])
  let before ← methodStart
  let (computed, key) ← propertyKey g
  if before.role != .value then
    let value ← method g before
    return some (← node (.method isStatic computed before.role) start [key, value])
  if ← isTyped then
    let _ ← accept "?"
  if (← at? "(") || ((← isTyped) && (← at? "<")) then
    let value ← method g {}
    return some (← node (.method isStatic computed .method) start [key, value])
  return some (← fieldRest g isStatic computed start key)

/-- Reads a class from the word `class` on. -/
def classLiteral (g : Grammar) (start : Nat) : Reader Node := do
  expectWord "class"
  let named := match (← cursor).token with
    | .word text _ => text != "extends" && text != "implements"
    | _ => false
  let name ← if named then binding else pure .absent
  if ← isTyped then typeParameters? g
  let parent ← if ← acceptWord "extends" then g .heritage else pure .absent
  if ← isTyped then
    typeArguments? g
    if ← acceptWord "implements" then
      let _ ← gather do
        if ← at? "\x7b" then return none
        let _ ← g .type
        let _ ← accept ","
        return some ()
  expect "\x7b"
  let members ← gather (classMember g)
  expect "\x7d"
  node .class start (name :: parent :: members)

end SvelteStories.Script.Grammar
