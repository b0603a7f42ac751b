import SvelteStories.Script.Grammar.Expressions

/-!
# Statements

Blocks, declarations of variables, loops and the other statements that every script may hold.
Statements that start with a word of their own are listed in `wordStatements`; all others are
expressions, labels and declarations of types.
-/

namespace SvelteStories.Script.Grammar

open Reader

/-- Reads an expression in parentheses that belong to a statement. -/
def enclosed (g : Grammar) : Reader Node := do
  expect "("
  let inner ← freeExpression g
  expect ")"
  return inner

/-- Reads statements up to a closing brace. -/
def statements (g : Grammar) : Reader (List Node) := do
  let list ← gather do
    if ← at? "\x7d" then return none
    return some (← g .statement)
  expect "\x7d"
  return list

/-- Reads a block. -/
def block (g : Grammar) : Reader Node := do
  let start ← offset
  expect "\x7b"
  let list ← statements g
  node .block start list

/-! ## Variables -/

/-- Reads one declarator. -/
def declarator (g : Grammar) : Reader Node := do
  let start ← offset
  let pattern ← g .pattern
  if ← isTyped then let _ ← accept "!"
  annotation? g
  let value ← if ← accept "=" then g .assignment else pure .absent
  node .declarator start [pattern, value]

/-- Reads declarators with commas between them. -/
def declarators (g : Grammar) : Reader (List Node) := do
  let first ← declarator g
  let others ← gather do
    if ← accept "," then return some (← declarator g)
    return none
  return first :: others

/-- Whether a declarator has a value, or declares a variable that needs none. -/
def hasNeededValue (word : DeclarationWord) (declarator : Node) : Bool :=
  match declarator.parts with
  | [pattern, value] => !value.isAbsent || (word != .const && pattern.kind matches .binding _)
  | _ => false

/-- The word of a declaration of variables that starts here. -/
def declarationWord? : Reader (Option DeclarationWord) := do
  let place ← cursor
  let next := place.next.token
  match place.token with
  | .word "var" false => return some .var
  | .word "const" false => return if next == .word "enum" false then none else some .const
  | .word "let" false =>
    match next with
    | .word text _ => return if isReserved text then none else some .let
    | .punctuator text => return if text == "[" || text == "\x7b" then some .let else none
    | _ => return none
  | _ => return none

/-- Reads a declaration of variables from its word on. -/
def variableDeclaration (g : Grammar) (word : DeclarationWord) (start : Nat) : Reader Node := do
  advance
  let list ← declarators g
  ensure ((← read).ambient || list.all (hasNeededValue word))
  semicolon
  node (.declaration word) start list

/-- Whether a statement declares a name for the statements around it; a plain function counts as one
    that need not be known there. -/
def needsSurroundings (statement : Node) : Bool :=
  match statement.kind with
  | .declaration word => word != .var
  | .function async generator => async || generator
  | .class => true
  | _ => false

/-- Reads a statement that is the whole body of another one. -/
def substatement (g : Grammar) : Reader Node := do
  let statement ← g .statement
  ensure (!needsSurroundings statement)
  return statement

/-! ## Loops -/

/-- Reads the second part of the head of a loop over an object, and the body. -/
def loopOver (g : Grammar) (awaited : Bool) (start : Nat) (target : Node) : Reader Node := do
  if (← atWord? "in") && !awaited then
    advance
    let object ← freeExpression g
    expect ")"
    let body ← substatement g
    node .forIn start [target, object, body]
  else
    expectWord "of"
    let object ← freeAssignment g
    expect ")"
    let body ← substatement g
    node (.forOf awaited) start [target, object, body]

/-- Reads an expression that may be left out before a closing punctuator. -/
def optionalExpression (g : Grammar) (close : String) : Reader Node := do
  if ← accept close then return .absent
  let inner ← freeExpression g
  expect close
  return inner

/-- Reads the rest of a counting loop from the semicolon behind its start on. -/
def countingLoop (g : Grammar) (start : Nat) (first : Node) : Reader Node := do
  expect ";"
  let test ← optionalExpression g ";"
  let step ← optionalExpression g ")"
  let body ← substatement g
  node .loop start [first, test, step, body]

/-- Reads a loop that starts with the word `for`. -/
def forLoop (g : Grammar) (start : Nat) : Reader Node := do
  advance
  let awaited ← if ← atWord? "await" then
      advance
      pure true
    else pure false
  expect "("
  let head ← offset
  let overObject : Reader Bool := return (← atWord? "of") || (← atWord? "in")
  match ← declarationWord? with
  | some word =>
    advance
    let list ← within (fun c => { c with inOperator := false }) (declarators g)
    let first ← node (.declaration word) head list
    if list.length == 1 && (← overObject) then loopOver g awaited start first
    else
      ensure (!awaited && list.all (hasNeededValue word))
      countingLoop g start first
  | none =>
    if (← at? ";") && !awaited then countingLoop g start .absent
    else
      let first ← within (fun c => { c with inOperator := false }) (expression g)
      if ← overObject then loopOver g awaited start (← given first.target?)
      else
        ensure (!awaited)
        countingLoop g start first

/-- Reads a loop that starts with its test. -/
def whileLoop (g : Grammar) (start : Nat) : Reader Node := do
  advance
  let test ← enclosed g
  let body ← substatement g
  node .while start [test, body]

/-- Reads a loop that ends with its test; the semicolon behind it may always be left out. -/
def doLoop (g : Grammar) (start : Nat) : Reader Node := do
  advance
  let body ← substatement g
  expectWord "while"
  let test ← enclosed g
  let _ ← accept ";"
  node .doWhile start [body, test]

/-! ## Branches -/

/-- Reads a branch. -/
def branch (g : Grammar) (start : Nat) : Reader Node := do
  advance
  let test ← enclosed g
  let first ← substatement g
  let second ← if ← acceptWord "else" then substatement g else pure .absent
  node .branch start [test, first, second]

/-- Reads a case of a switch. -/
def switchCase (g : Grammar) : Reader Node := do
  let start ← offset
  let test ← if ← acceptWord "default" then pure .absent
    else do
      expectWord "case"
      freeExpression g
  expect ":"
  let list ← gather do
    if (← at? "\x7d") || (← atWord? "case") || (← atWord? "default") then return none
    return some (← g .statement)
  node .case start (test :: list)

/-- Reads a switch. -/
def switch (g : Grammar) (start : Nat) : Reader Node := do
  advance
  let subject ← enclosed g
  expect "\x7b"
  let cases ← gather do
    if ← at? "\x7d" then return none
    return some (← switchCase g)
  expect "\x7d"
  node .switch start (subject :: cases)

/-- Reads a handler of failures, if one is there. -/
def handler? (g : Grammar) : Reader Node := do
  let start ← offset
  if !(← acceptWord "catch") then return .absent
  let caught ← if ← accept "(" then do
      let pattern ← g .pattern
      annotation? g
      expect ")"
      pure pattern
    else pure .absent
  let body ← block g
  node .handler start [caught, body]

/-- Reads a block with a handler, a final block or both. -/
def tryStatement (g : Grammar) (start : Nat) : Reader Node := do
  advance
  let body ← block g
  let handler ← handler? g
  let last ← if ← acceptWord "finally" then block g else pure .absent
  ensure (!(handler.isAbsent && last.isAbsent))
  node .try start [body, handler, last]

/-! ## Jumps -/

/-- Reads a return statement. -/
def returnStatement (g : Grammar) (start : Nat) : Reader Node := do
  ensure (← read).returns
  advance
  let place ← cursor
  let ends := place.newline || match place.token with
    | .punctuator text => text == ";" || text == "\x7d"
    | .finish => true
    | _ => false
  let value ← if ends then pure .absent else freeExpression g
  semicolon
  node .return start [value]

/-- Reads a throw statement, whose value stands on the line of its word. -/
def throwStatement (g : Grammar) (start : Nat) : Reader Node := do
  advance
  ensure (!(← afterNewline?))
  let value ← freeExpression g
  semicolon
  node .throw start [value]

/-- Reads a jump out of a loop, which may name its label. -/
def jump (kind : Option String → Kind) (start : Nat) : Reader Node := do
  advance
  let named := match (← cursor).token with
    | .word .. => true
    | _ => false
  let label ← if named && !(← afterNewline?) then some <$> variableName else pure none
  semicolon
  node (kind label) start []

/-! ## Other statements -/

/-- Reads a statement inside the scope of an object. -/
def withStatement (g : Grammar) (start : Nat) : Reader Node := do
  advance
  let object ← enclosed g
  let body ← substatement g
  node .with start [object, body]

/-- Reads a debugger statement. -/
def debuggerStatement (start : Nat) : Reader Node := do
  advance
  semicolon
  node .debugger start []

/-- Reads a function that is declared, so that it has a name. -/
def functionDeclaration (g : Grammar) (async : Bool) (start : Nat) : Reader Node := do
  let function ← function g async start
  ensure (!function.parts.head?.any (·.isAbsent))
  return function

/-- Reads a class that is declared, so that it has a name. -/
def classDeclaration (g : Grammar) (start : Nat) : Reader Node := do
  let declared ← classLiteral g start
  ensure (!declared.parts.head?.any (·.isAbsent))
  return declared

/-- The statements that start with a word of their own. -/
def wordStatements (g : Grammar) : List (String × (Nat → Reader Node)) :=
  [("if", branch g), ("for", forLoop g), ("while", whileLoop g), ("do", doLoop g),
    ("switch", switch g), ("try", tryStatement g), ("return", returnStatement g),
    ("throw", throwStatement g), ("break", jump .break), ("continue", jump .continue),
    ("with", withStatement g), ("debugger", debuggerStatement),
    ("function", functionDeclaration g false), ("class", classDeclaration g)]

/-- Reads an expression that is a statement, or a labelled statement. -/
def expressionStatement (g : Grammar) (start : Nat) : Reader Node := do
  let inner ← freeExpression g
  match inner.kind with
  | .reference label =>
    if ← accept ":" then
      let body ← substatement g
      node (.labeled label) start [body]
    else
      semicolon
      node .expression start [inner]
  | _ =>
    semicolon
    node .expression start [inner]

/-! ## Declarations of types -/

/-- Reads the members of an enumeration. -/
def enumeration (g : Grammar) (start : Nat) : Reader Node := do
  let _ ← acceptWord "const"
  expectWord "enum"
  let _ ← binding
  expect "\x7b"
  let _ ← items "\x7d" do
    let _ ← propertyKey g
    if ← accept "=" then let _ ← freeAssignment g
  node .typeDeclaration start []

/-- Reads an interface. -/
def interface (g : Grammar) (start : Nat) : Reader Node := do
  advance
  let _ ← binding
  typeParameters? g
  if ← acceptWord "extends" then
    let _ ← gather do
      if ← at? "\x7b" then return none
      let _ ← g .type
      let _ ← accept ","
      return some ()
  ensure (← at? "\x7b")
  balanced g
  node .typeDeclaration start []

/-- Reads a name for a type. -/
def typeAlias (g : Grammar) (start : Nat) : Reader Node := do
  advance
  let _ ← binding
  typeParameters? g
  expect "="
  let _ ← g .type
  semicolon
  node .typeDeclaration start []

/-- Reads a namespace; what it holds is passed over. -/
def nameSpace (g : Grammar) (start : Nat) : Reader Node := do
  advance
  if (← cursor).token matches .string .. then advance
  else
    let _ ← binding
    dottedTail
  if ← at? "\x7b" then balanced g else semicolon
  node .typeDeclaration start []

/-- Reads the declaration behind the word `declare`. -/
def ambientDeclaration (g : Grammar) (start : Nat) : Reader Node := do
  advance
  let inner ← within (fun c => { c with ambient := true }) do
    if (← atWord? "global") then
      advance
      balanced g
      node .typeDeclaration start []
    else g .statement
  return .mk inner.kind ⟨start, inner.span.stop⟩ inner.parts

/-- Reads a class that may leave members to other classes. -/
def abstractClass (g : Grammar) (start : Nat) : Reader Node := do
  advance
  classLiteral g start

/-- Reads a declaration that only types allow, if one starts here. -/
def typeDeclaration? (g : Grammar) (start : Nat) : Reader (Option Node) := do
  let place ← cursor
  let next := place.next
  let named := !next.newline && match next.token with
    | .word text _ => !isReserved text
    | _ => false
  match place.token with
  | .word text false =>
    if text == "enum" || (text == "const" && next.token == .word "enum" false) then
      some <$> enumeration g start
    else if text == "interface" && named then some <$> interface g start
    else if text == "type" && named then some <$> typeAlias g start
    else if (text == "namespace" || text == "module")
        && (named || (!next.newline && next.token matches .string ..)) then
      some <$> nameSpace g start
    else if text == "declare" && !next.newline && next.token matches .word .. then
      if next.token == .word "in" false || next.token == .word "instanceof" false then return none
      some <$> ambientDeclaration g start
    else if text == "abstract" && next.token == .word "class" false then
      some <$> abstractClass g start
    else return none
  | _ => return none

/-- Reads a statement. -/
def statement (g : Grammar) : Reader Node := do
  let place ← cursor
  let start := place.span.start
  match place.token with
  | .punctuator "\x7b" => block g
  | .punctuator ";" =>
    advance
    node .empty start []
  | .word text false =>
    if ← isTyped then
      if let some declared ← typeDeclaration? g start then return declared
    if let some word ← declarationWord? then variableDeclaration g word start
    else if text == "async" && place.next.token == .word "function" false
        && !place.next.newline then
      advance
      functionDeclaration g true start
    else match (wordStatements g).lookup text with
      | some reader => reader start
      | none => expressionStatement g start
  | _ => expressionStatement g start

end SvelteStories.Script.Grammar
