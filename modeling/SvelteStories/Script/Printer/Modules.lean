import SvelteStories.Script.Printer.Statements

/-!
# Printing modules

Imports and exports, and the whole page: `Module.print` prints a module as it now is.
-/

namespace SvelteStories.Script

namespace Printer

/-! ## Imports -/

/-- Prints the attributes of an import or export. -/
def attributes (list : List ImportAttribute) : Printer Unit := do
  if !list.isEmpty then
    put " with \x7b "
    Printer.list (list.map fun entry => do
      put (if entry.quotedKey then quoted entry.key false else entry.key)
      put ": "
      put (quoted entry.value false))
    put " \x7d"

/-- Prints the source of an import or export and ends the statement. -/
def fromSource (written : String) (list : List ImportAttribute) : Printer Unit := do
  put written
  attributes list
  endStatement

/-- Whether an imported name is the only one in braces that opens or closes them. -/
def isNamed (part : Part) : Bool :=
  part.node.kind == .importNamed

/-- Prints an imported name with the name it is bound to, if that is another one. -/
def importNamed (name bound : Part) : Printer Unit := do
  name.free
  let same := match name.node.kind, bound.node.kind with
    | .name a, .binding b | .string a _, .binding b => a == b
    | _, _ => false
  if !same then bound.after " as "

/-- Prints the specifiers of an import. -/
def importSpecifiers (parts : List Part) : Printer Unit := do
  let (named, others) := parts.partition isNamed
  list (others.map Part.item)
  if !named.isEmpty then
    if !others.isEmpty then put ", "
    put "\x7b "
    list (named.map Part.item)
    put " \x7d"

/-- Prints an import. -/
def importDeclaration (source : String) (bare : Bool) (list : List ImportAttribute)
    (parts : List Part) : Printer Unit := do
  put "import "
  if bare then fromSource (quoted source false) list
  else if parts.isEmpty then fromSource ("\x7b\x7d from \"" ++ source ++ "\"") list
  else
    importSpecifiers parts
    fromSource (" from " ++ quoted source false) list

/-! ## Exports -/

/-- Prints the export of a list of names. -/
def exportNames (source : Option String) (list : List ImportAttribute) (parts : List Part) :
    Printer Unit := do
  put "export "
  if parts.isEmpty then put "\x7b\x7d"
  else
    put "\x7b "
    Printer.list (parts.map Part.item)
    put " \x7d"
  match source with
  | some source => fromSource (" from " ++ quoted source false) list
  | none => endStatement

/-- Prints the export of one name. -/
def exportName (inner outer : Part) : Printer Unit := do
  inner.free
  let same := match inner.node.kind, outer.node.kind with
    | .name a, .name b | .string a _, .string b _ => a == b
    | .name a, .string b _ | .string a _, .name b => a == b
    | _, _ => false
  if !same then outer.after " as "

/-- Prints an exported declaration behind `export`. -/
def exportDeclaration (declaration : Part) : Printer Unit := do
  put "export "
  declaration.print .inLine
  if declaration.node.kind matches .declaration _ then endStatement else newline

/-- Prints an exported default. -/
def exportDefault (value : Part) : Printer Unit := do
  put "export default "
  match value.node.kind with
  | .function .. | .class =>
    value.print .inLine
    newline
  | _ =>
    markDefault
    value.item
    endStatement

/-- Prints a statement of a module behind its comments and its indentation. -/
def moduleStatement (kind : Kind) (parts : List Part) : Printer Unit :=
  match kind, parts with
  | .import source bare list, parts => importDeclaration source bare list parts
  | .exportDeclaration, [declaration] => exportDeclaration declaration
  | .exportNames source list, parts => exportNames source list parts
  | .exportAll source list, [name] => do
    put "export *"
    name.after " as "
    fromSource (" from " ++ quoted source false) list
  | .exportDefault, [value] => exportDefault value
  | kind, parts => statementText kind parts

/-! ## The rule for all nodes -/

/-- Prints a node on lines of its own. -/
def lineOf (node : Node) (parts : List Part) : Printer Unit := do
  match node.kind, parts with
  | .case, test :: statements => switchCase test statements
  | .typeDeclaration, _ => return
  | .function .., _ | .class, _ =>
    commentsAt node.span.start
    indent
    expression node.kind parts .line
    newline
  | kind, parts =>
    commentsAt node.span.start
    indent
    moduleStatement kind parts

/-- Prints a node within a line. -/
def inLineOf (node : Node) (parts : List Part) (place : Place) : Printer Unit :=
  match node.kind, parts with
  | .block, parts => block parts
  | .body directives, parts => functionBody node.span directives parts
  | .branch, [test, first, second] => branch test first second
  | .handler, [caught, inner] => handler caught inner
  | .declaration word, parts => variableDeclaration word place parts
  | .declarator, [pattern, value] => declarator place pattern value
  | .staticBlock, parts => do
    put "static "
    block parts
  | .expression, [inner] => inner.print place
  | .importNamed, [name, bound] => importNamed name bound
  | .importDefault, [bound] => bound.free
  | .importNamespace, [bound] => do
    put "* as "
    bound.free
  | .exportName, [inner, outer] => exportName inner outer
  | kind, parts => expression kind parts place

/-- How every node is printed. -/
def rule : PrintRule := fun node parts place =>
  match place with
  | .line => lineOf node parts
  | place => inLineOf node parts place

end Printer

namespace Module

/-- Prints a module. -/
def printer (module : Module) : Printer Unit := do
  module.hashbang.forM fun line => .put ("#!" ++ line ++ "\n")
  Printer.opening module.directives (Node.partsInPrint Printer.rule module.statements)
  Printer.commentsAt (Text.byteLength module.source)

/-- The text of a module as it is printed. -/
def print (module : Module) : String :=
  (module.printer.run { comments := module.comments }).2.text

end Module

end SvelteStories.Script
