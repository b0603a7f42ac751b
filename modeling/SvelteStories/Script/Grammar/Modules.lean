import SvelteStories.Script.Grammar.Statements

/-!
# Imports and exports

The statements that only the top level of a module may hold.
-/

namespace SvelteStories.Script.Grammar

open Reader

/-- Reads a name that a module exports: a fixed name or a string. -/
def exportedName : Reader Node := do
  match (← cursor).token with
  | .string .. => stringLiteral
  | _ => fixedName

/-- Reads the attributes behind the source of an import or export. -/
def attributes : Reader (List ImportAttribute) := do
  if (← atWord? "with") then
    advance
    expect "\x7b"
    items "\x7d" do
      let key ← exportedName
      expect ":"
      let value ← stringValue
      match key.kind with
      | .string text _ => return ⟨text, true, value⟩
      | .name text => return ⟨text, false, value⟩
      | _ => failure
  else return []

/-- Reads the source of an import or export with its attributes. -/
def moduleSource : Reader (String × List ImportAttribute) := do
  let source ← stringValue
  return (source, ← attributes)

/-- Passes over the word `type` where it marks an import or export of types. -/
def typeMark : Reader Unit := do
  if (← isTyped) && (← atWord? "type") then
    match (← cursor).next.token with
    | .word text _ => if text != "from" && text != "as" then advance
    | .string .. => advance
    | .punctuator text => if text == "\x7b" || text == "*" then advance
    | _ => return

/-! ## Imports -/

/-- Reads one imported name. -/
def importSpecifier : Reader Node := do
  let start ← offset
  typeMark
  let name ← exportedName
  if ← acceptWord "as" then
    let bound ← binding
    node .importNamed start [name, bound]
  else
    match name with
    | .mk (.name text) span _ =>
      ensure (isVariableName (← read) text)
      node .importNamed start [name, .mk (.binding text) span []]
    | _ => failure

/-- Reads what is imported besides the default. -/
def importedNames : Reader (List Node) := do
  let start ← offset
  if ← accept "*" then
    expectWord "as"
    let bound ← binding
    return [← node .importNamespace start [bound]]
  else
    expect "\x7b"
    items "\x7d" importSpecifier

/-- Reads the specifiers of an import. -/
def importSpecifiers : Reader (List Node) := do
  if (← cursor).token matches .word .. then
    let bound ← binding
    let named ← if ← accept "," then importedNames else pure []
    return .mk .importDefault bound.span [bound] :: named
  else importedNames

/-- Reads an import. -/
def importDeclaration : Reader Node := do
  let start ← offset
  expectWord "import"
  if (← cursor).token matches .string .. then
    let (source, attributes) ← moduleSource
    semicolon
    node (.import source true attributes) start []
  else
    typeMark
    let specifiers ← importSpecifiers
    expectWord "from"
    let (source, attributes) ← moduleSource
    semicolon
    node (.import source false attributes) start specifiers

/-! ## Exports -/

/-- Reads one exported name. -/
def exportSpecifier : Reader Node := do
  let start ← offset
  typeMark
  let inner ← exportedName
  let outer ← if ← acceptWord "as" then exportedName else pure inner
  node .exportName start [inner, outer]

/-- Whether an exported name is the name of a variable. -/
def exportsVariable (specifier : Node) : Bool :=
  match specifier.parts with
  | .mk (.name text) _ _ :: _ => !isReserved text
  | _ => false

/-- Reads the export of a list of names. -/
def exportNames (start : Nat) : Reader Node := do
  expect "\x7b"
  let names ← items "\x7d" exportSpecifier
  if ← acceptWord "from" then
    let (source, attributes) ← moduleSource
    semicolon
    node (.exportNames (some source) attributes) start names
  else
    ensure (names.all exportsVariable)
    semicolon
    node (.exportNames none []) start names

/-- Reads the export of all names of another module. -/
def exportAll (start : Nat) : Reader Node := do
  expect "*"
  let name ← if ← acceptWord "as" then exportedName else pure .absent
  expectWord "from"
  let (source, attributes) ← moduleSource
  semicolon
  node (.exportAll source attributes) start [name]

/-- Reads what stands behind `export default`. -/
def defaultValue (g : Grammar) : Reader Node := do
  let place ← cursor
  let start := place.span.start
  let next := place.next
  match place.token with
  | .word "function" false => function g false start
  | .word "class" false => classLiteral g start
  | .word "async" false =>
    if next.token == .word "function" false && !next.newline then
      advance
      function g true start
    else expressionValue
  | .word text false =>
    if (← isTyped) && text == "abstract" && next.token == .word "class" false then
      abstractClass g start
    else if (← isTyped) && text == "interface" && next.token matches .word .. then
      interface g start
    else expressionValue
  | _ => expressionValue
where
  /-- Reads an exported expression. -/
  expressionValue : Reader Node := do
    let value ← freeAssignment g
    semicolon
    return value

/-- Reads an exported declaration. -/
def exportedDeclaration (g : Grammar) : Reader Node := do
  let declaration ← g .statement
  let declares := match declaration.kind with
    | .declaration _ | .function .. | .class | .typeDeclaration => true
    | _ => false
  ensure declares
  return declaration

/-- Reads an export. -/
def exportDeclaration (g : Grammar) : Reader Node := do
  let start ← offset
  expectWord "export"
  let behind := (← cursor).next.token
  if behind == .punctuator "\x7b" || behind == .punctuator "*" then typeMark
  if ← acceptWord "default" then
    let value ← defaultValue g
    node .exportDefault start [value]
  else if ← at? "*" then exportAll start
  else if ← at? "\x7b" then exportNames start
  else
    let declaration ← exportedDeclaration g
    node .exportDeclaration start [declaration]

/-- Reads a statement of the top level. -/
def moduleItem (g : Grammar) : Reader Node := do
  let place ← cursor
  match place.token with
  | .word "export" false => exportDeclaration g
  | .word "import" false =>
    match place.next.token with
    | .punctuator "(" | .punctuator "." => g .statement
    | _ => importDeclaration
  | _ => g .statement

end SvelteStories.Script.Grammar
