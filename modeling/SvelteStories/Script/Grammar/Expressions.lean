import SvelteStories.Script.Grammar.Literals

/-!
# Expressions

Expressions from the innermost to the outermost: primary expressions, members and calls, operators,
conditionals and assignments.

An arrow may only stand where a whole assignment may start, but its parameters look like a primary
expression.  Readers for the start of an assignment are therefore told that they are `leading`; only
then do they read an arrow, and an arrow that they read is not continued by anything.
-/

namespace SvelteStories.Script.Grammar

open Reader

/-- Whether a node is an arrow, which nothing continues. -/
def isArrow (node : Node) : Bool :=
  node.kind matches .arrow _

/-- Whether an arrow sign stands here. -/
def atArrow : Reader Bool := do
  return (← at? "=>") && !(← afterNewline?)

/-- Reads an arrow from its sign on. -/
def arrowRest (g : Grammar) (async : Bool) (start : Nat) (params : Node) : Reader Node := do
  ensure (← atArrow)
  expect "=>"
  let outer ← read
  if ← at? "\x7b" then
    let body ← within (inFunction async false) (functionBody g)
    node (.arrow async) start [params, body]
  else
    let value ← within (fun c => { c with awaits := async, yields := false })  do
      let inner ← within (fun c => { c with inOperator := outer.inOperator }) (g .assignment)
      return inner
    node (.arrow async) start [params, .mk .expression value.span [value]]

/-- Reads an arrow whose only parameter is a name. -/
def namedArrow (g : Grammar) (async : Bool) (start : Nat) : Reader Node := do
  let param ← binding
  arrowRest g async start (.mk .parameters param.span [param])

/-- Reads an arrow whose parameters and result have types. -/
def typedArrow (g : Grammar) (async : Bool) (start : Nat) : Reader Node := do
  let params ← within (inFunction async false) do
    typeParameters? g
    let params ← parameters g
    if (← at? ":") then annotation? g
    return params
  arrowRest g async start params

/-- What stands between parentheses: expressions, and whether only parameters may look like that. -/
structure Parenthesized where
  parts : List Node
  onlyParameters : Bool

/-- Reads expressions between parentheses, some of which only make sense as parameters. -/
def parenthesizedParts (g : Grammar) : Reader Parenthesized := do
  expect "("
  let parts ← gather do
    if ← at? ")" then return none
    let (part, last) ← if ← at? "..." then
        pure (← restPattern g, true)
      else pure (← freeAssignment g, false)
    let comma ← if last then pure false else accept ","
    if !comma then ensure (← at? ")")
    return some (part, comma)
  expect ")"
  let nodes := parts.map Prod.fst
  let last := parts.getLast?
  return ⟨nodes, nodes.isEmpty || last.any (·.2) || nodes.any (·.kind == .rest)⟩

/-- Reads parentheses around an expression. -/
def parenthesized (start : Nat) (inside : Parenthesized) : Reader Node := do
  ensure (!inside.onlyParameters)
  match inside.parts with
  | [inner] => node .parenthesized start [inner]
  | parts =>
    let first := (parts.head?.map (·.span.start)).getD 0
    let last := (parts.getLast?.map (·.span.stop)).getD 0
    node .parenthesized start [.mk .sequence ⟨first, last⟩ parts]

/-- Reads an arrow or an expression in parentheses. -/
def parenthesizedOrArrow (g : Grammar) (leading : Bool) : Reader Node := do
  let start ← offset
  let place ← cursor
  let context ← read
  let inside ← attempt (parenthesizedParts g)
  let behind ← cursor
  let asArrow : Reader Node := do
    let inside ← given inside
    let params ← given (Node.patterns? inside.parts)
    arrowRest g false start (.mk .parameters ⟨start, behind.previousStop⟩ params)
  let asTypedArrow : Reader Node := do
    ensure (leading && context.typed)
    set place
    let arrow ← typedArrow g false start
    if context.beforeColon then ensure (← at? ":")
    return arrow
  let asParentheses : Reader Node := do
    set behind
    parenthesized start (← given inside)
  if inside.isSome && (← atArrow) then
    if leading then asArrow else asParentheses
  else if inside.isNone || (← at? ":") then asTypedArrow <|> asParentheses
  else asParentheses

/-- Reads what starts with the word `async`: a function, an arrow or a variable. -/
def asyncStart (g : Grammar) (leading : Bool) : Reader Node := do
  let start ← offset
  let place ← cursor
  let next := place.next
  let asName : Reader Node := do
    set place
    node (.reference (← variableName)) start []
  if next.newline then asName
  else if next.token == .word "function" false then
    advance
    function g true start
  else
    let named : Reader Node := do
      ensure leading
      advance
      namedArrow g true start
    let listed : Reader Node := do
      ensure (leading && next.token == .punctuator "(")
      advance
      let inside ← parenthesizedParts g
      let stop ← previousStop
      ensure (← atArrow)
      let params ← given (Node.patterns? inside.parts)
      arrowRest g true start (.mk .parameters ⟨next.span.start, stop⟩ params)
    let typed : Reader Node := do
      ensure (leading && (← isTyped)
        && (next.token == .punctuator "(" || next.token == .punctuator "<"))
      advance
      typedArrow g true start
    if next.token == .punctuator "(" || next.token == .punctuator "<" then
      listed <|> typed <|> (do
        ensure (!((← cursor).next.token == .punctuator "=>"))
        asName)
    else
      match next.token with
      | .word text _ =>
        if isReserved text then asName else named <|> asName
      | _ => asName

/-- Reads a variable or an arrow that starts with one. -/
def variableOrArrow (g : Grammar) (leading : Bool) : Reader Node := do
  let start ← offset
  let place ← cursor
  let name ← variableName
  if leading && (← atArrow) then
    set place
    namedArrow g false start
  else node (.reference name) start []

/-- Reads a primary expression. -/
def primary (g : Grammar) (leading : Bool) : Reader Node := do
  let place ← cursor
  let start := place.span.start
  let literal (kind : Kind) : Reader Node := do
    advance
    node kind start []
  match place.token with
  | .string .. => stringLiteral
  | .number text => literal (.number text)
  | .bigint text => literal (.bigint text)
  | .backQuote => template g false
  | .privateName text =>
    ensure (place.next.token == .word "in" false)
    literal (.privateName text)
  | .punctuator text =>
    if text == "(" then parenthesizedOrArrow g leading
    else if text == "[" then arrayLiteral g
    else if text == "\x7b" then objectLiteral g
    else if text == "/" || text == "/=" then regexLiteral
    else failure
  | .word text false =>
    match text with
    | "this" => literal .this
    | "null" => literal .null
    | "true" => literal (.boolean true)
    | "false" => literal (.boolean false)
    | "function" => function g false start
    | "class" => classLiteral g start
    | "async" => asyncStart g leading
    | _ => variableOrArrow g leading
  | .word _ true => variableOrArrow g leading
  | _ => failure

/-- Reads `super` with the step that has to follow it. -/
def superStart : Reader Node := do
  let start ← offset
  advance
  ensure ((← at? "(") || (← at? ".") || (← at? "["))
  node .super start []

/-- Reads what starts with the word `import` inside an expression. -/
def importStart (g : Grammar) : Reader Node := do
  let start ← offset
  advance
  if ← accept "." then
    expectWord "meta"
    node .importMeta start []
  else
    expect "("
    let parts ← items ")" (freeAssignment g)
    ensure (parts.length == 1 || parts.length == 2)
    node .importCall start parts

/-- Whether types in angle brackets may end before a place; where they may not, the brackets are
    comparisons. -/
def mayFollowTypeArguments (place : Cursor) : Bool :=
  let continues : List String := ["<", ">", "+", "-"]
  let starts : List String := ["[", "\x7b", "!", "~", "++", "--", "@"]
  match place.token with
  | .punctuator text => !continues.contains text && (place.newline || !starts.contains text)
  | .word text false => place.newline || ["in", "instanceof", "as", "satisfies"].contains text
  | .backQuote | .finish => true
  | _ => place.newline

/-- Reads what starts with the word `new`. -/
def newStart (g : Grammar) : Reader Node := do
  let start ← offset
  advance
  if ← accept "." then
    expectWord "target"
    node .newTarget start []
  else
    let callee ← g .constructor
    if ← isTyped then
      let _ ← attempt do
        typeArguments g
        ensure (mayFollowTypeArguments (← cursor))
    let arguments ← if ← at? "(" then arguments g else pure []
    node .new start (callee :: arguments)

/-- Reads an expression to which members and calls can be added. -/
def base (g : Grammar) (leading : Bool) : Reader Node := do
  match (← cursor).token with
  | .word "new" false => newStart g
  | .word "super" false => superStart
  | .word "import" false => importStart g
  | _ => primary g leading

/-- The name of a member. -/
def memberName : Reader Node := do
  let start ← offset
  match (← cursor).token with
  | .privateName text =>
    advance
    node (.privateName text) start []
  | _ => fixedName

/-- An expression in the course of being extended, and whether it has an optional step. -/
structure Chain where
  node : Node
  optional : Bool := false

/-- Reads one more step of a chain of members and calls; `calls` tells that calls may be steps. -/
def chainStep (g : Grammar) (start : Nat) (calls : Bool) (chain : Chain) :
    Reader (Option Chain) := do
  let place ← cursor
  match place.token with
  | .punctuator "." =>
    advance
    let name ← memberName
    return some { chain with node := ← node (.member false) start [chain.node, name] }
  | .punctuator "?." =>
    ensure calls
    advance
    if ← isTyped then typeArguments? g
    if ← at? "(" then
      let arguments ← arguments g
      return some ⟨← node (.call true) start (chain.node :: arguments), true⟩
    else if ← accept "[" then
      let inner ← freeExpression g
      expect "]"
      return some ⟨← node (.index true) start [chain.node, inner], true⟩
    else
      let name ← memberName
      return some ⟨← node (.member true) start [chain.node, name], true⟩
  | .punctuator "[" =>
    advance
    let inner ← freeExpression g
    expect "]"
    return some { chain with node := ← node (.index false) start [chain.node, inner] }
  | .punctuator "(" =>
    if calls then
      let arguments ← arguments g
      return some { chain with node := ← node (.call false) start (chain.node :: arguments) }
    else return none
  | .backQuote =>
    ensure (!chain.optional)
    let quasi ← template g true
    return some { chain with node := ← node .tagged start [chain.node, quasi] }
  | .punctuator "!" =>
    if (← isTyped) && !place.newline then
      advance
      return some { chain with node := ← node .typed start [chain.node] }
    else return none
  | .punctuator "<" | .punctuator "<<" =>
    if (← isTyped) && calls then
      let behind ← attempt do
        typeArguments g
        ensure (mayFollowTypeArguments (← cursor))
      if behind.isNone then return none
      if (← at? "(") || (← cursor).token == .backQuote then return some chain
      return some { chain with node := ← node .typed start [chain.node] }
    else return none
  | _ => return none

/-- Reads the callee of a `new` expression. -/
def constructor (g : Grammar) : Reader Node := do
  let start ← offset
  let base ← base g false
  return (← extend (chainStep g start false) ⟨base, false⟩).node

/-- Reads an expression made of members and calls. -/
def leftHand (g : Grammar) (leading : Bool) : Reader Node := do
  let start ← offset
  let base ← base g leading
  if isArrow base then return base
  let chain ← extend (chainStep g start true) ⟨base, false⟩
  if chain.optional then node .chain start [chain.node] else return chain.node

/-- Whether an expression can be counted up and down, and combined with a value. -/
def isSimpleTarget (node : Node) : Bool :=
  node.simpleTarget?.isSome

/-- Reads an expression with the update operator that may stand behind it. -/
def updated (g : Grammar) (leading : Bool) : Reader Node := do
  let start ← offset
  let target ← leftHand g leading
  if isArrow target || (← afterNewline?) then return target
  let token := (← cursor).token
  match [UpdateOperator.increment, .decrement].find? (token == .punctuator ·.text) with
  | some operator =>
    ensure (isSimpleTarget target)
    advance
    node (.update operator false) start [target]
  | none => return target

/-- The unary operator that a token is. -/
def unaryOperator? (token : Token) : Option UnaryOperator :=
  UnaryOperator.all.find? fun operator =>
    token == (if operator.isWord then .word operator.text false else .punctuator operator.text)

/-- Reads an expression with the unary operators before it. -/
def unary (g : Grammar) (leading : Bool) : Reader Node := do
  let place ← cursor
  let start := place.span.start
  match unaryOperator? place.token with
  | some operator =>
    advance
    let operand ← g .unary
    node (.unary operator) start [operand]
  | none =>
    match place.token with
    | .punctuator "++" =>
      advance
      let operand ← g .unary
      ensure (isSimpleTarget operand)
      node (.update .increment true) start [operand]
    | .punctuator "--" =>
      advance
      let operand ← g .unary
      ensure (isSimpleTarget operand)
      node (.update .decrement true) start [operand]
    | .word "await" false =>
      ensure (← read).awaits
      advance
      let operand ← g .unary
      node .await start [operand]
    | .punctuator "<" =>
      ensure (← isTyped)
      let asArrow : Reader Node := do
        ensure leading
        typedArrow g false start
      asArrow <|> (do
        typeArguments g
        let operand ← g .unary
        node .typed start [operand])
    | _ => updated g leading

/-- The binary operator that a token is. -/
def binaryOperator? (context : Context) (token : Token) : Option BinaryOperator :=
  match token with
  | .word "in" false => if context.inOperator then some .isIn else none
  | .word "instanceof" false => some .instanceof
  | .punctuator text =>
    BinaryOperator.all.find? fun operator => operator.text == text
  | _ => none

/-- Whether two operands may be joined by an operator: a power has no unary operator on its left,
    and `??` does not mix with the other junctions. -/
def mayJoin (operator : BinaryOperator) (left right : Node) : Bool :=
  let isUnary := match left.kind with
    | .unary _ | .await => true
    | _ => false
  let mixes (side : Node) : Bool := match side.kind with
    | .binary inner =>
      (operator == .coalesce && inner.isJunction) || (operator.isJunction && inner == .coalesce)
    | _ => false
  !(operator == .power && isUnary) && !mixes left && !mixes right

/-- Reads one more operator of at least the given level and its right operand. -/
def binaryStep (g : Grammar) (start : Nat) (least : Level) (left : Node) :
    Reader (Option Node) := do
  let place ← cursor
  let context ← read
  match binaryOperator? context place.token with
  | some operator =>
    if operator.level < least then return none
    advance
    let right ← g (.operand (if operator == .power then operator.level else operator.level + 1))
    ensure (mayJoin operator left right)
    return some (← node (.binary operator) start [left, right])
  | none =>
    let ascribes := match place.token with
      | .word text false => text == "as" || text == "satisfies"
      | _ => false
    if context.typed && ascribes && !place.newline && least ≤ Level.comparison then
      advance
      if !(← acceptWord "const") then let _ ← g .type
      return some (← node .typed start [left])
    return none

/-- Reads an expression made with binary operators of at least the given level. -/
def operand (g : Grammar) (least : Level) (leading : Bool) : Reader Node := do
  let start ← offset
  let left ← unary g leading
  if isArrow left then return left
  extend (binaryStep g start least) left

/-- Reads a conditional expression. -/
def conditional (g : Grammar) : Reader Node := do
  let start ← offset
  let test ← operand g .coalesce true
  if isArrow test then return test
  if ← accept "?" then
    let first ← within (fun c => { c with inOperator := true, beforeColon := true }) (g .assignment)
    expect ":"
    let second ← g .assignment
    node .conditional start [test, first, second]
  else return test

/-- Reads a `yield` expression. -/
def yieldExpression (g : Grammar) : Reader Node := do
  let start ← offset
  advance
  let place ← cursor
  let ends := match place.token with
    | .punctuator text => [")", "]", "\x7d", ",", ";", ":"].contains text
    | .word text false => text == "in" || text == "of"
    | .finish => true
    | _ => false
  if place.newline || ends then node (.yield false) start [.absent]
  else
    let delegate ← accept "*"
    let value ← g .assignment
    node (.yield delegate) start [value]

/-- The assignment operator that a token is. -/
def assignmentOperator? (token : Token) : Option AssignmentOperator :=
  match token with
  | .punctuator text => AssignmentOperator.all.find? (·.text == text)
  | _ => none

/-- Reads an assignment, or an expression that is none. -/
def assignment (g : Grammar) : Reader Node := do
  let start ← offset
  if (← read).yields && (← atWord? "yield") then yieldExpression g
  else
    let left ← conditional g
    if isArrow left then return left
    match assignmentOperator? (← cursor).token with
    | none => return left
    | some operator =>
      let target ← match operator with
        | .plain => given left.target?
        | .combined _ => given left.simpleTarget?
      advance
      let value ← g .assignment
      node (.assignment operator) start [target, value]

end SvelteStories.Script.Grammar
