import SvelteStories.Diagnostic.Problem
import SvelteStories.Script.Tree

/-!
# The meta declaration

A stories file and its compiled module both import `defineMeta` from the same package and declare
their metadata with it:

    const { Story } = defineMeta({ title: "Button" });

This module finds the import and the declaration, the object literal that `defineMeta` is called
with — the *meta object* — and the name that the story component is bound to.  What is missing is
reported of the stories file that is worked on.
-/

namespace SvelteStories.Script

open Text Diagnostic

/-- The exported name of the function that declares metadata. -/
def metaFunction : String := "defineMeta"

/-- The exported name of the story component. -/
def storyComponent : String := "Story"

namespace Node

/-- The value of a name of the interface of a module, which may be written as a string. -/
def exportedName? : Node → Option String
  | mk (.name text) _ _ => some text
  | mk (.string value _) _ _ => some value
  | _ => none

/-- The local name of an imported name, if the imported name is the given one. -/
def importedAs? (imported : String) : Node → Option String
  | mk .importNamed _ [name, mk (.binding bound) _ _] =>
    if name.exportedName? == some imported then some bound else none
  | _ => none

/-- The specifiers of an import from the given source. -/
def specifiersFrom (source : String) : Node → List Node
  | mk (.import origin _ _) _ specifiers => if origin == source then specifiers else []
  | _ => []

/-- Whether a node is the variable with the given name. -/
def isReference (name : String) : Node → Bool
  | mk (.reference text) _ _ => text == name
  | _ => false

/-- The first declarator of a declaration of variables: its pattern and its value. -/
def firstDeclarator? : Node → Option (Node × Node)
  | mk (.declaration _) _ (mk .declarator _ [pattern, value] :: _) => some (pattern, value)
  | _ => none

/-- Whether a node is a declaration of variables. -/
def isVariables (node : Node) : Bool :=
  node.kind matches .declaration _

/-- Whether a statement declares variables whose first value is a call of `defineMeta`, by the given
    local name or by the exported one. -/
def declaresMeta (bound : String) (statement : Node) : Bool :=
  match statement.firstDeclarator? with
  | some (_, mk (.call _) _ (callee :: _)) =>
    callee.isReference bound || callee.isReference metaFunction
  | _ => false

/-! ## The meta object -/

/-- The properties of the meta object of a declaration: the one argument of a call by the local
    name. -/
def metaObject? (bound : String) (declaration : Node) : Option Properties :=
  match declaration.firstDeclarator? with
  | some (_, mk (.call _) _ [callee, argument]) =>
    if callee.isReference bound then argument.properties? else none
  | _ => none

/-- The span of the call in a meta declaration. -/
def metaCallSpan (declaration : Node) : Span :=
  match declaration.firstDeclarator? with
  | some (_, value) => if value.isAbsent then declaration.span else value.span
  | none => declaration.span

/-- A meta declaration with other properties in its meta object. -/
def withMetaObject (properties : Properties) : Node → Node
  | mk kind span (mk .declarator inner [pattern, mk call callSpan [callee, mk .object object _]]
      :: rest) =>
    mk kind span (mk .declarator inner [pattern,
      mk call callSpan [callee, mk .object object properties]]
      :: rest)
  | node => node

/-! ## The story binding -/

/-- The name that a pattern binds, perhaps with a default. -/
def boundName? : Node → Option String
  | mk (.binding name) _ _ => some name
  | mk .defaulted _ [mk (.binding name) _ _, _] => some name
  | _ => none

/-- The pattern that a property of an object pattern binds under the given plain name. -/
def boundUnder? (key : String) : Node → Option Node
  | mk (.boundProperty false) _ [mk (.name name) _ _, pattern] =>
    if name == key then some pattern else none
  | _ => none

/-- The name that the story component is bound to by a declaration of variables. -/
def storyBinding? (declaration : Node) : Option String :=
  match declaration.firstDeclarator? with
  | some (mk .objectPattern _ properties, _) =>
    (properties.findSome? (·.boundUnder? storyComponent)).bind (·.boundName?)
  | _ => none

end Node

namespace Module

/-- The local name that `defineMeta` is imported under from the given package. -/
def metaImport? (module : Module) (package : String) : Option String :=
  module.statements.findSome? fun statement =>
    (statement.specifiersFrom package).findSome? (·.importedAs? metaFunction)

/-- The indices of the meta declarations. -/
def metaDeclarations (module : Module) (bound : String) : List Nat :=
  module.statements.zipIdx.filterMap fun (statement, index) =>
    if statement.declaresMeta bound then some index else none

/-- The part of the source that a span selects. -/
def sourceAt (module : Module) (span : Span) : String :=
  String.ofList (span.slice module.source)

/-- The index of the only meta declaration, and the declaration. -/
def metaDeclaration (module : Module) (filename bound : String) : Except Report (Nat × Node) :=
  match module.statements.zipIdx.filter (·.1.declaresMeta bound) with
  | [] => .error (Problem.metaMissing.report filename)
  | [(declaration, index)] => .ok (index, declaration)
  | _ :: (second, _) :: _ =>
    .error ((Problem.metaRepeated (module.sourceAt second.span)).report filename)

end Module

/-- The meta object of a declaration. -/
def Node.metaObject (declaration : Node) (filename bound : String) : Except Report Properties :=
  match declaration.metaObject? bound with
  | some properties => .ok properties
  | none => .error (Problem.metaArgument.report filename)

/-- The name that the story component is bound to. -/
def Node.storyBinding (declaration : Node) (filename : String) : Except Report String :=
  match declaration.storyBinding? with
  | some name => .ok name
  | none => .error (Problem.storyBinding.report filename)

end SvelteStories.Script
