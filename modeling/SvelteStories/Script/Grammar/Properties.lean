import SvelteStories.Script.Grammar.Types
import SvelteStories.Script.Target

/-!
# Patterns, parameters and bodies

The parts that functions, classes and object literals have in common: property keys, the patterns
that bind variables, parameter lists and function bodies.
-/

namespace SvelteStories.Script.Grammar

open Reader

/-- Reads a comma expression. -/
def expression (g : Grammar) : Reader Node := do
  let start ← offset
  let first ← g .assignment
  if ← at? "," then
    let others ← gather do
      if ← accept "," then return some (← g .assignment)
      return none
    node .sequence start (first :: others)
  else return first

/-- Reads a comma expression in which every operator is allowed. -/
def freeExpression (g : Grammar) : Reader Node :=
  within (fun c => { c with inOperator := true, beforeColon := false }) (expression g)

/-- Reads an assignment in which every operator is allowed. -/
def freeAssignment (g : Grammar) : Reader Node :=
  within (fun c => { c with inOperator := true, beforeColon := false }) (g .assignment)

/-- Reads the key of a property and tells whether it is computed. -/
def propertyKey (g : Grammar) : Reader (Bool × Node) := do
  let start ← offset
  match (← cursor).token with
  | .word .. => return (false, ← fixedName)
  | .string .. => return (false, ← stringLiteral)
  | .number text =>
    advance
    return (false, ← node (.number text) start [])
  | .bigint text =>
    advance
    return (false, ← node (.bigint text) start [])
  | .privateName text =>
    advance
    return (false, ← node (.privateName text) start [])
  | _ =>
    expect "["
    let key ← freeAssignment g
    expect "]"
    return (true, key)

/-- Adds the default that may follow a pattern. -/
def withDefault (g : Grammar) (start : Nat) (pattern : Node) : Reader Node := do
  if ← accept "=" then
    let value ← freeAssignment g
    node .defaulted start [pattern, value]
  else return pattern

/-- Reads a pattern and the default that may follow it. -/
def patternWithDefault (g : Grammar) : Reader Node := do
  let start ← offset
  withDefault g start (← g .pattern)

/-- Reads a rest of a pattern. -/
def restPattern (g : Grammar) : Reader Node := do
  let start ← offset
  expect "..."
  let pattern ← g .pattern
  node .rest start [pattern]

/-- Reads an element of an array pattern. -/
def patternElement (g : Grammar) : Reader Node := do
  if ← at? "," then return .absent
  else if ← at? "..." then restPattern g
  else patternWithDefault g

/-- Reads a property of an object pattern. -/
def patternProperty (g : Grammar) : Reader Node := do
  let start ← offset
  if ← at? "..." then restPattern g
  else
    let (computed, key) ← propertyKey g
    if ← accept ":" then
      let value ← patternWithDefault g
      node (.boundProperty computed) start [key, value]
    else
      match key with
      | .mk (.name text) span _ =>
        ensure (isVariableName (← read) text)
        let value ← withDefault g start (.mk (.binding text) span [])
        node (.boundProperty computed) start [key, value]
      | _ => failure

/-- Whether only the last of some patterns is a rest. -/
def restIsLast (patterns : List Node) : Bool :=
  patterns.dropLast.all (·.kind != .rest)

/-- Reads a pattern that binds variables. -/
def pattern (g : Grammar) : Reader Node := do
  let start ← offset
  if ← accept "[" then
    let elements ← items "]" (patternElement g)
    ensure (restIsLast elements)
    node .arrayPattern start elements
  else if ← accept "\x7b" then
    let properties ← items "\x7d" (patternProperty g)
    ensure (restIsLast properties)
    node .objectPattern start properties
  else binding

/-- The words that may stand before a parameter of a constructor with types. -/
def parameterModifiers : List String :=
  ["public", "private", "protected", "readonly", "override"]

/-- Passes over the given words where another word or a pattern follows them. -/
def modifiers (words : List String) : Reader Unit := do
  if ← isTyped then
    let _ ← gather do
      let cursor ← cursor
      match cursor.token with
      | .word text false =>
        let follows := match cursor.next.token with
          | .word .. | .string .. | .privateName _ => true
          | .punctuator p => ["[", "\x7b", "*"].contains p
          | _ => false
        if words.contains text && follows then
          advance
          return some ()
        return none
      | _ => return none

/-- Reads a parameter; `this` with a type is no parameter. -/
def parameter (g : Grammar) : Reader (Option Node) := do
  let start ← offset
  if (← isTyped) && (← acceptWord "this") then
    annotation? g
    return none
  else if ← at? "..." then
    let rest ← restPattern g
    annotation? g
    return some rest
  else
    modifiers parameterModifiers
    let pattern ← g .pattern
    if ← isTyped then let _ ← accept "?"
    annotation? g
    return some (← withDefault g start pattern)

/-- Reads parameters in parentheses. -/
def parameters (g : Grammar) : Reader Node := do
  let start ← offset
  expect "("
  let list ← items ")" (parameter g)
  let patterns := list.filterMap id
  ensure (restIsLast patterns)
  node .parameters start patterns

/-- The text of a directive: a string without its quotes, as it is written. -/
def directive? : Reader (Option String) := do
  let cursor ← cursor
  match cursor.token with
  | .string .. =>
    let written := Text.consumed cursor.here cursor.after
    return some (String.ofList (written.drop 1).dropLast)
  | _ => return none

/-- Reads directives and statements until `done` holds. -/
def statementsUntil (done : Reader Bool) (statement : Reader Node) :
    Reader (List String × List Node) := do
  let directives ← gather do
    match ← directive? with
    | none => return none
    | some text =>
      let start ← cursor
      match ← statement with
      | .mk .expression _ [.mk (.string ..) _ _] => return some text
      | _ =>
        set start
        return none
  let statements ← gather do
    if ← done then return none
    return some (← statement)
  return (directives, statements)

/-- Reads the body of a function. -/
def functionBody (g : Grammar) : Reader Node := do
  let start ← offset
  expect "\x7b"
  let (directives, statements) ← statementsUntil (at? "\x7d") (g .statement)
  expect "\x7d"
  node (.body directives) start statements

/-- What is allowed in the parameters and the body of a function. -/
def inFunction (async generator : Bool) (context : Context) : Context :=
  { context with
    inOperator := true, beforeColon := false, awaits := async, yields := generator,
      returns := true }

/-- Reads the parameters and the body of a function whose node starts at `start`. -/
def functionRest (g : Grammar) (async generator : Bool) (start : Nat) (name : Node) :
    Reader Node := do
  within (inFunction async generator) do
    if ← isTyped then typeParameters? g
    let params ← parameters g
    annotation? g
    if (← isTyped) && !(← at? "\x7b") then
      semicolon
      node (.function async generator) start [name, params, .absent]
    else
      let body ← functionBody g
      node (.function async generator) start [name, params, body]

/-- Reads a function from the word `function` on. -/
def function (g : Grammar) (async : Bool) (start : Nat) : Reader Node := do
  expectWord "function"
  let generator ← accept "*"
  let named := match (← cursor).token with
    | .word .. => true
    | _ => false
  let name ← if named then binding else pure .absent
  functionRest g async generator start name

/-- What is written before the key of a method or accessor. -/
structure MethodStart where
  role : Role := .value
  async : Bool := false
  generator : Bool := false

/-- Whether a function has the number of parameters that its role asks for: a getter has none, and a
    setter has one that is no rest. -/
def fitsRole (role : Role) (function : Node) : Bool :=
  match role, function.parts with
  | .getter, [_, params, _] => params.parts.isEmpty
  | .setter, [_, params, _] =>
    match params.parts with
    | [param] => param.kind != .rest
    | _ => false
  | _, _ => true

/-- Reads the parameters and the body of a method or accessor. -/
def method (g : Grammar) (before : MethodStart) : Reader Node := do
  let method ← functionRest g before.async before.generator (← offset) .absent
  ensure (fitsRole before.role method)
  return method

/-- Whether the token behind a word shows that the word is itself a key: it ends the key. -/
def endsKey : Token → Bool
  | .punctuator text => ["(", ",", ":", "\x7d", "=", ";", "?", "!", "<"].contains text
  | .finish => true
  | _ => false

/-- Reads the words and the star before the key of a method or accessor. -/
def methodStart : Reader MethodStart := do
  let cursor ← cursor
  let next := cursor.next
  if ← accept "*" then return { role := .method, generator := true }
  if endsKey next.token then return {}
  if ← acceptWord "get" then return { role := .getter }
  if ← acceptWord "set" then return { role := .setter }
  if (← atWord? "async") && !next.newline then
    advance
    let generator ← accept "*"
    return { role := .method, async := true, generator }
  return {}

end SvelteStories.Script.Grammar
