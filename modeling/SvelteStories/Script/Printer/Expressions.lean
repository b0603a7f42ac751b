import SvelteStories.Script.Printer.Part

/-!
# Printing expressions and patterns

Parentheses are printed where levels ask for them, around an object literal, a function or a class
that would start a statement, and around an object literal that would start the body of an arrow.
The parentheses of the source are dropped, except those right around a function or an arrow.
-/

namespace SvelteStories.Script.Printer

/-! ## Names and literals -/

/-- Prints the key of a property. -/
def propertyKey (computed : Bool) (key : Part) : Printer Unit := do
  if computed then
    put "["
    key.item
    put "]"
  else key.free

/-- Prints the pieces and the interpolations of a template. -/
def templateInside : List Chunk → List Part → Printer Unit
  | chunk :: chunks, parts => do
    put (String.ofList (breakScriptEnds chunk.raw.toList))
    match parts with
    | [] => return
    | part :: parts => do
      put "$\x7b"
      part.free
      put "\x7d"
      templateInside chunks parts
  | [], _ => return

/-- Prints a template. -/
def template (chunks : List Chunk) (parts : List Part) : Printer Unit := do
  put "\x60"
  templateInside chunks parts
  put "\x60"

/-- Prints a regular expression; its flags are put in order. -/
def regex (pattern flags : String) : Printer Unit := do
  put "/"
  put (String.ofList (breakScriptEnds pattern.toList))
  put "/"
  put (String.ofList (flags.toList.mergeSort (· ≤ ·)))

/-! ## Lists -/

/-- Prints the elements of an array in brackets; behind a last one that is left out stands a
    comma. -/
def elements (parts : List Part) (spread : List (Printer Unit) → Printer Unit) : Printer Unit := do
  put "["
  let actions := parts.map Part.item
  let closing : Printer Unit := if parts.getLast?.any (·.isAbsent) then put "," else return
  spread (actions.dropLast ++ actions.getLast?.toList.map fun last => do
    last
    closing)
  put "]"

/-- Prints an array literal; from three elements on each stands on a line of its own. -/
def array (parts : List Part) : Printer Unit :=
  elements parts (if parts.length > 2 then column else list)

/-- Prints an object literal; from two properties on each stands on a line of its own. -/
def object (parts : List Part) : Printer Unit := do
  parenthesizedIf ((← atStatementStart) || (← atArrowStart)) do
    match parts with
    | [] => put "\x7b\x7d"
    | [only] =>
      put "\x7b "
      only.item
      put " \x7d"
    | parts =>
      put "\x7b"
      column (parts.map Part.item)
      put "\x7d"

/-- Prints an object pattern. -/
def objectPattern (parts : List Part) : Printer Unit := do
  if parts.isEmpty then put "\x7b\x7d"
  else
    put "\x7b "
    list (parts.map Part.item)
    put " \x7d"

/-- Prints arguments in parentheses. -/
def arguments (parts : List Part) : Printer Unit := do
  put "("
  list (parts.map Part.item)
  put ")"

/-! ## Properties -/

/-- Whether a value is the variable with the name that a key has. -/
def repeatsKey (key value : Node) : Bool :=
  match key.kind, value.unparenthesized.kind with
  | .name k, .reference v => k == v
  | _, _ => false

/-- Whether a pattern binds a variable with the name that a key has. -/
def bindsKey (key pattern : Node) : Bool :=
  match key.kind, pattern with
  | .name k, .mk (.binding v) _ _ => k == v
  | .name k, .mk .defaulted _ (.mk (.binding v) _ _ :: _) => k == v
  | _, _ => false

/-- Prints what stands before the key of a method, and the key. -/
def methodHead (computed : Bool) (role : Role) (key value : Part) : Printer Unit := do
  match role with
  | .getter => put "get "
  | .setter => put "set "
  | _ =>
    match value.node.kind with
    | .function async generator =>
      if async then put "async "
      if generator then put "*"
    | _ => pure ()
  propertyKey computed key

/-- Prints a property of an object literal. -/
def property (computed shorthand : Bool) (role : Role) (key value : Part) : Printer Unit := do
  if role != .value then
    methodHead computed role key value
    value.print .behindKey
  else
    let short := if key.node.kind == .name "__proto__" then shorthand
      else !computed && repeatsKey key.node value.node
    if !short then
      propertyKey computed key
      put ": "
    value.item

/-- Prints a property of a pattern or target, whose key is left out where `short`. -/
def boundProperty (computed short : Bool) (key value : Part) : Printer Unit := do
  if !short then
    propertyKey computed key
    put ": "
  value.item

/-! ## Functions and classes -/

/-- Prints parameters and a body. -/
def functionRest (params body : Part) : Printer Unit := do
  params.item
  if body.isAbsent then put ";"
  else
    put " "
    body.print .inLine

/-- Prints a function. -/
def function (async generator : Bool) (place : Place) (name params body : Part) :
    Printer Unit := do
  if place == .behindKey then functionRest params body
  else
    let starts := (← atStatementStart) || (← atDefaultStart)
    parenthesizedIf (place.isExpression && starts) do
      if async then put "async "
      put "function"
      if generator then put "* "
      if !name.isAbsent then
        if !generator then put " "
        name.item
      functionRest params body

/-- Prints an arrow. -/
def arrow (async : Bool) (place : Place) (params body : Part) : Printer Unit := do
  parenthesizedIf (place.level ≥ .assignment) do
    if async then put "async "
    params.item
    put " => "
    if body.node.kind == .expression then
      markArrow
      body.print (place.operand .comma)
    else body.print .inLine

/-- Prints the members of a class, each on a line of its own. -/
def members (parts : List Part) : Printer Unit := do
  if parts.isEmpty then put "\x7b\x7d"
  else braces do
    for member in parts do
      commentsAt member.node.span.start
      indent
      member.item
      newline

/-- Prints a class. -/
def classLiteral (place : Place) (name parent : Part) (parts : List Part) : Printer Unit := do
  let starts := (← atStatementStart) || (← atDefaultStart)
  parenthesizedIf (place.isExpression && starts) do
    put "class"
    name.after " "
    if !parent.isAbsent then
      put " extends "
      parent.print (.above .update)
    put " "
    members parts

/-- Prints a method of a class. -/
def method (isStatic computed : Bool) (role : Role) (key value : Part) : Printer Unit := do
  if isStatic then put "static "
  methodHead computed role key value
  value.print .behindKey

/-- Prints a field of a class. -/
def field (isStatic computed : Bool) (key value : Part) : Printer Unit := do
  if isStatic then put "static "
  propertyKey computed key
  if !value.isAbsent then
    put " = "
    value.item
  put ";"

/-! ## Operators -/

/-- Prints a unary operator and its operand. -/
def unary (operator : UnaryOperator) (place : Place) (operand : Part) : Printer Unit := do
  parenthesizedIf (place.level ≥ .unary) do
    if operator.isWord then
      put operator.text
      put " "
    else putSign operator.text
    operand.print (place.operand .power)

/-- Prints an update operator and its operand. -/
def update (operator : UpdateOperator) (before : Bool) (place : Place) (operand : Part) :
    Printer Unit := do
  if before then
    parenthesizedIf (place.level ≥ .unary) do
      putSign operator.text
      operand.print (place.operand .unary)
  else
    parenthesizedIf (place.level ≥ .update) do
      operand.print (place.operand .update)
      putSign operator.text

/-- The level around an operand of a binary operator, given the one that its side asks for. -/
def operandLevel (operator : BinaryOperator) (level : Level) (operand : Node) : Level :=
  match operator, operand.unparenthesized.kind with
  | .coalesce, .binary inner => if inner.isJunction then .unary else level
  | _, _ => level

/-- The level around the left operand: an operator that groups to the left takes one like itself,
    and a power takes no unary operator. -/
def leftLevel (operator : BinaryOperator) (operand : Node) : Level :=
  match operator, operand.unparenthesized.kind with
  | .power, .unary _ | .power, .await => .call
  | .power, _ => operator.level
  | _, _ => operandLevel operator (operator.level - 1) operand

/-- The level around the right operand. -/
def rightLevel (operator : BinaryOperator) (operand : Node) : Level :=
  match operator with
  | .power => operator.level - 1
  | _ => operandLevel operator operator.level operand

/-- Prints a binary operator between its operands. -/
def binary (operator : BinaryOperator) (place : Place) (left right : Part) : Printer Unit := do
  let wrap := place.level ≥ operator.level || (operator == .isIn && place.noIn)
  let noIn := place.noIn && !wrap
  parenthesizedIf wrap do
    left.print (.inside (leftLevel operator left.node) false noIn)
    put (" " ++ operator.text ++ " ")
    right.print (.inside (rightLevel operator right.node) false noIn)

/-- Prints an assignment. One to an object target may not start a statement or the body of an
    arrow. -/
def assignment (operator : AssignmentOperator) (place : Place) (target value : Part) :
    Printer Unit := do
  let starts := (← atStatementStart) || (← atArrowStart)
  let wrap := place.level ≥ .assignment || (starts && target.node.kind == .objectTarget)
  parenthesizedIf wrap do
    target.item
    put (" " ++ operator.text ++ " ")
    value.print (place.operand .comma)

/-- Prints a conditional. -/
def conditional (place : Place) (test first second : Part) : Printer Unit := do
  let wrap := place.level ≥ .conditional
  let noIn := place.noIn && !wrap
  parenthesizedIf wrap do
    test.print (.inside .conditional false noIn)
    put " ? "
    first.print (.above .yield)
    put " : "
    second.print (.inside .yield false noIn)

/-- Prints expressions with commas between them. -/
def sequence (place : Place) (parts : List Part) : Printer Unit := do
  let wrap := place.level ≥ .comma
  parenthesizedIf wrap do
    list (parts.map (·.print (.inside .lowest false (place.noIn && !wrap))))

/-- Prints an `await` expression. -/
def await (place : Place) (operand : Part) : Printer Unit := do
  parenthesizedIf (place.level ≥ .unary) do
    put "await "
    operand.print (place.operand .power)

/-- Prints a `yield` expression. -/
def yield (delegate : Bool) (place : Place) (operand : Part) : Printer Unit := do
  parenthesizedIf (place.level ≥ .yield) do
    put "yield"
    if delegate then put "*"
    if !operand.isAbsent then
      put " "
      operand.print (.above .yield)

/-! ## Members and calls -/

/-- Whether a number is written with digits alone, so that a dot behind it would belong to it. -/
def isBareNumber (node : Node) : Bool :=
  match node.unparenthesized.kind with
  | .number text => text.toList.all Char.isDigit
  | _ => false

/-- The place of the object of a member, or of a tag. -/
def objectPlace (place : Place) : Place := .inside .update place.noCall false

/-- Prints a member with a fixed name. -/
def member (optional : Bool) (place : Place) (object name : Part) : Printer Unit := do
  object.print (objectPlace place)
  if optional then put "?"
  else if isBareNumber object.node then put " "
  put "."
  name.item

/-- Prints a member with a computed name. -/
def index (optional : Bool) (place : Place) (object name : Part) : Printer Unit := do
  object.print (objectPlace place)
  if optional then put "?."
  put "["
  name.free
  put "]"

/-- Prints a call. -/
def call (optional : Bool) (place : Place) (callee : Part) (args : List Part) : Printer Unit := do
  parenthesizedIf (place.level ≥ .new || place.noCall) do
    callee.print (.above .update)
    if optional then put "?."
    arguments args

/-- Prints a construction, always with parentheses for the arguments. -/
def construction (place : Place) (callee : Part) (args : List Part) : Printer Unit := do
  parenthesizedIf (place.level ≥ .new) do
    put "new "
    callee.print (.inside .new true false)
    arguments args

/-- Prints an import that is an expression. -/
def importCall (place : Place) (args : List Part) : Printer Unit := do
  parenthesizedIf (place.level ≥ .new || place.noCall) do
    put "import"
    arguments args

/-- Prints what stands in parentheses in the source. -/
def inParentheses (place : Place) (inner : Part) : Printer Unit :=
  match inner.node.kind with
  | .function .. | .arrow _ => parenthesizedIf true (inner.print (place.operand .lowest))
  | _ => inner.print place

/-- Prints a name, a literal or a pattern. -/
def literal (kind : Kind) (parts : List Part) (place : Place) : Printer Unit :=
  match kind, parts with
  | .reference name, _ | .binding name, _ | .name name, _ => put name
  | .privateName name, _ => put ("#" ++ name)
  | .string value halves, _ => put (quoted value halves)
  | .number text, _ => put text
  | .bigint text, _ => put (text ++ "n")
  | .regex pattern flags, _ => regex pattern flags
  | .boolean value, _ => put (if value then "true" else "false")
  | .null, _ => put "null"
  | .template chunks, parts => template chunks parts
  | .this, _ => put "this"
  | .super, _ => put "super"
  | .importMeta, _ => put "import.meta"
  | .newTarget, _ => put "new.target"
  | .array, parts => array parts
  | .object, parts => object parts
  | .property computed shorthand role, [key, value] => property computed shorthand role key value
  | .spread, [inner] | .rest, [inner] => do
    put "..."
    inner.item
  | .objectPattern, parts => objectPattern parts
  | .boundProperty computed, [key, value] =>
    boundProperty computed (!computed && bindsKey key.node value.node) key value
  | .arrayPattern, parts | .arrayTarget, parts => elements parts list
  | .defaulted, [target, value] => do
    target.item
    put " = "
    value.item
  | .objectTarget, parts => do
    put "\x7b"
    list (parts.map Part.item)
    put "\x7d"
  | .assignedProperty computed shorthand, [key, value] => boundProperty computed shorthand key value
  | .typed, [inner] => inner.print place
  | _, _ => return

/-- Prints an expression. -/
def expression (kind : Kind) (parts : List Part) (place : Place) : Printer Unit :=
  match kind, parts with
  | .function async generator, [name, params, body] =>
    function async generator place name params body
  | .parameters, parts => arguments parts
  | .arrow async, [params, body] => arrow async place params body
  | .class, name :: parent :: members => classLiteral place name parent members
  | .method isStatic computed role, [key, value] => method isStatic computed role key value
  | .field isStatic computed, [key, value] => field isStatic computed key value
  | .unary operator, [operand] => unary operator place operand
  | .update operator before, [operand] => update operator before place operand
  | .binary operator, [left, right] => binary operator place left right
  | .assignment operator, [target, value] => assignment operator place target value
  | .conditional, [test, first, second] => conditional place test first second
  | .sequence, parts => sequence place parts
  | .await, [operand] => await place operand
  | .yield delegate, [operand] => yield delegate place operand
  | .call optional, callee :: args => call optional place callee args
  | .new, callee :: args => construction place callee args
  | .member optional, [object, name] => member optional place object name
  | .index optional, [object, name] => index optional place object name
  | .chain, [inner] => parenthesizedIf (place.level ≥ .update) (inner.print place)
  | .parenthesized, [inner] => inParentheses place inner
  | .tagged, [tag, quasi] => do
    tag.print (.above .update)
    quasi.item
  | .importCall, args => importCall place args
  | kind, parts => literal kind parts place

end SvelteStories.Script.Printer
