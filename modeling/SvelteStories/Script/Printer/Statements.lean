import SvelteStories.Script.Printer.Expressions

/-!
# Printing statements

A statement is printed on lines of its own, behind the comments that lead it.  A block, a
declaration and the head of a loop are also printed within a line, behind what introduces them.
-/

namespace SvelteStories.Script

/-- Whether a statement ends with a branch that an `else` behind it would be read into. -/
def Node.takesElse : Node → Bool
  | .mk .branch _ [_, _, second] => second.isAbsent || second.takesElse
  | .mk .loop _ [_, _, _, body] => body.takesElse
  | .mk .forIn _ [_, _, body] => body.takesElse
  | .mk (.forOf _) _ [_, _, body] => body.takesElse
  | .mk .while _ [_, body] => body.takesElse
  | .mk .with _ [_, body] => body.takesElse
  | .mk (.labeled _) _ [body] => body.takesElse
  | _ => false

namespace Printer

/-- Prints the braces of a block and its statements. -/
def block (parts : List Part) : Printer Unit := do
  if parts.isEmpty then put "\x7b\x7d" else braces (parts.forM Part.line)

/-- Prints a statement that belongs to the head printed before it. -/
def body (part : Part) : Printer Unit := do
  match part.node.kind with
  | .block =>
    put " "
    part.print .inLine
    newline
  | .empty => endStatement
  | _ =>
    modify fun page => { page with spaceNext := true }
    part.line

/-! ## Starts of scripts and functions -/

/-- Prints a directive. -/
def directive (text : String) : Printer Unit := do
  let quote := directiveQuote text.toList
  indent
  put (quote ++ text ++ quote)
  endStatement

/-- The string that a statement consists of. -/
def onlyString? (node : Node) : Option String :=
  match node with
  | .mk .expression _ [inner] =>
    match inner.unparenthesized.kind with
    | .string value halves => some (quoted value halves)
    | _ => none
  | _ => none

/-- Prints directives and the statements behind them.  A string that is the first statement is put
    in parentheses, so that it does not become a directive. -/
def opening (directives : List String) (parts : List Part) : Printer Unit := do
  directives.forM directive
  match directives, parts with
  | [], first :: rest =>
    match onlyString? first.node with
    | some text =>
      put ("(" ++ text ++ ")")
      endStatement
    | none => first.line
    rest.forM Part.line
  | _, parts => parts.forM Part.line

/-- Prints the body of a function with the comments at its end. -/
def functionBody (span : Text.Span) (directives : List String) (parts : List Part) :
    Printer Unit := do
  let last ← takeComments (span.stop - 1)
  let inside : Printer Unit := do
    opening directives parts
    comments last
  if directives.isEmpty && parts.isEmpty && !last.any (·.isApart) then
    put "\x7b"
    inside
    put "\x7d"
  else braces inside

/-! ## Statements with a head -/

/-- Prints a branch.  The statement behind the test is put in a block if it would take an `else`. -/
def branch (test first second : Part) : Printer Unit := do
  put "if ("
  test.free
  put ")"
  let closing : Printer Unit := if second.isAbsent then newline else put " "
  if first.node.kind == .block then
    put " "
    first.print .inLine
    closing
  else if first.node.takesElse then
    put " "
    braces first.line
    closing
  else
    body first
    if !second.isAbsent then indent
  if !second.isAbsent then
    put "else"
    if second.node.kind == .branch then
      put " "
      second.print .inLine
    else body second

/-- Prints a counting loop. -/
def loop (first test step statement : Part) : Printer Unit := do
  put "for ("
  if !first.isAbsent then
    if first.node.kind matches .declaration _ then first.print .loopHead
    else first.print (.inside .lowest false true)
  put ";"
  test.after " "
  put ";"
  step.after " "
  put ")"
  body statement

/-- Prints the target of a loop over an object. -/
def loopTarget (target : Part) : Printer Unit := do
  if target.node.kind matches .declaration _ then target.print .loopHead else target.item

/-- Prints a loop that ends with its test. -/
def doWhile (statement test : Part) : Printer Unit := do
  put "do"
  if statement.node.kind == .block then
    put " "
    statement.print .inLine
    put " "
  else
    newline
    deeper statement.line
    indent
  put "while ("
  test.free
  put ")"
  endStatement

/-- Prints a case of a switch; a single statement stays on its line. -/
def switchCase (test : Part) (parts : List Part) : Printer Unit := do
  indent
  if test.isAbsent then put "default"
  else
    put "case "
    test.free
  put ":"
  match parts with
  | [only] => body only
  | parts =>
    newline
    deeper (parts.forM Part.line)

/-- Prints a switch. -/
def switch (subject : Part) (cases : List Part) : Printer Unit := do
  put "switch ("
  subject.free
  put ") "
  if cases.isEmpty then put "\x7b\x7d" else braces (cases.forM Part.line)
  newline

/-- Prints a block with its handlers. -/
def tryStatement (inner handler last : Part) : Printer Unit := do
  put "try "
  inner.print .inLine
  if !handler.isAbsent then
    put " catch"
    handler.print .inLine
  if !last.isAbsent then
    put " finally "
    last.print .inLine
  newline

/-- Prints the handler of failures behind its word. -/
def handler (caught inner : Part) : Printer Unit := do
  if !caught.isAbsent then
    put " ("
    caught.item
    put ")"
  put " "
  inner.print .inLine

/-- Prints a word with the label that may follow it. -/
def jump (word : String) (label : Option String) : Printer Unit := do
  put word
  label.forM fun label => put (" " ++ label)
  endStatement

/-! ## Declarations -/

/-- Prints declarators behind their word. -/
def variableDeclaration (word : DeclarationWord) (place : Place) (parts : List Part) :
    Printer Unit := do
  put word.text
  put " "
  list (parts.map (·.print (.inside .comma false place.noIn)))

/-- Prints a declarator. -/
def declarator (place : Place) (pattern value : Part) : Printer Unit := do
  pattern.item
  if !value.isAbsent then
    put " = "
    value.print (.inside .comma false place.noIn)

/-! ## All statements -/

/-- Prints a statement behind its comments and its indentation. -/
def statementText (kind : Kind) (parts : List Part) : Printer Unit :=
  match kind, parts with
  | .expression, [inner] => do
    markStatement
    inner.free
    endStatement
  | .declaration word, parts => do
    variableDeclaration word .line parts
    endStatement
  | .block, parts => do
    block parts
    newline
  | .empty, _ => endStatement
  | .debugger, _ => do
    put "debugger"
    endStatement
  | .return, [value] => do
    put "return"
    value.after " "
    endStatement
  | .throw, [value] => do
    put "throw "
    value.free
    endStatement
  | .branch, [test, first, second] => branch test first second
  | .loop, [first, test, step, inner] => loop first test step inner
  | .forIn, [target, object, inner] => do
    put "for ("
    loopTarget target
    put " in "
    object.free
    put ")"
    body inner
  | .forOf awaited, [target, object, inner] => do
    put (if awaited then "for await (" else "for (")
    loopTarget target
    put " of "
    object.item
    put ")"
    body inner
  | .while, [test, inner] => do
    put "while ("
    test.free
    put ")"
    body inner
  | .doWhile, [inner, test] => doWhile inner test
  | .break label, _ => jump "break" label
  | .continue label, _ => jump "continue" label
  | .labeled label, [inner] => do
    put (label ++ ":")
    body inner
  | .switch, subject :: cases => switch subject cases
  | .try, [inner, handler, last] => tryStatement inner handler last
  | .with, [object, inner] => do
    put "with ("
    object.free
    put ")"
    body inner
  | _, _ => return

end Printer

end SvelteStories.Script
