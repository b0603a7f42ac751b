import SvelteStories.Script.Operator
import SvelteStories.Text.Span

/-!
# The tree of a script

A script is a tree of nodes.  A `Node` has a kind, the span of bytes that it takes, and its parts in
the order in which they are written; a walk that follows the parts therefore meets the nodes in
source order.  The comment at each kind lists the parts of a node of that kind.  Parts that may be
left out are nodes of kind `absent` where they are.

The tree keeps what is written: parentheses, optional chains and type annotations are nodes around
the expression they belong to.  Variables, fixed names (property keys, members, exported names) and
the names that a pattern binds are of different kinds.
-/

namespace SvelteStories.Script

open Text (Span)

/-- The words that declare variables. -/
inductive DeclarationWord
  | var | «let» | const
deriving Repr, DecidableEq

/-- The written form of a declaration word. -/
def DeclarationWord.text : DeclarationWord → String
  | var => "var"
  | .let => "let"
  | const => "const"

/-- What a member of an object literal or class is for. -/
inductive Role
  | value | method | getter | setter
deriving Repr, DecidableEq

/-- A piece of a template literal between interpolations. -/
structure Chunk where
  /-- As written, with every line break written as a line feed. -/
  raw : String
  /-- With its escapes resolved, if all of them are valid. -/
  cooked : Option String
deriving Repr, DecidableEq

/-- One entry of the attributes of an import or export. -/
structure ImportAttribute where
  key : String
  quotedKey : Bool
  value : String
deriving Repr, DecidableEq

/-- The kinds of nodes. -/
inductive Kind
  /-- A part that is left out. -/
  | absent
  -- Names
  /-- The use of a variable. -/
  | reference (name : String)
  /-- The name of a variable where it is bound. -/
  | binding (name : String)
  /-- A fixed name. -/
  | name (text : String)
  /-- The name of a private member, without its number sign. -/
  | privateName (text : String)
  -- Literals
  /-- A string. `halves` tells that halves of surrogate pairs are spelled out in the value. -/
  | string (value : String) (halves : Bool)
  | number (text : String)
  | bigint (text : String)
  | regex (pattern flags : String)
  | boolean (value : Bool)
  | null
  /-- The parts are the interpolated expressions. -/
  | template (chunks : List Chunk)
  -- Expressions
  | this
  | super
  | importMeta
  | newTarget
  /-- The parts are the elements: expressions, spreads and absent ones. -/
  | array
  /-- The parts are properties and spreads. -/
  | object
  /-- The parts are the key and the value. -/
  | property (computed shorthand : Bool) (role : Role)
  /-- The part is an expression. -/
  | spread
  /-- The parts are the name, the parameters and the body; name and body may be absent. -/
  | function (async generator : Bool)
  /-- The parts are patterns. -/
  | parameters
  /-- The parts are statements; the directives stand before them. -/
  | body (directives : List String)
  /-- The parts are the parameters and a body; a body that is an expression is an expression
      statement. -/
  | arrow (async : Bool)
  /-- The parts are the name, the superclass and the members; the first two may be absent. -/
  | «class»
  /-- The parts are the key and a function. -/
  | method (isStatic computed : Bool) (role : Role)
  /-- The parts are the key and the value, which may be absent. -/
  | field (isStatic computed : Bool)
  /-- The parts are statements. -/
  | staticBlock
  | unary (operator : UnaryOperator)
  | update (operator : UpdateOperator) (before : Bool)
  | binary (operator : BinaryOperator)
  /-- The parts are the target and the value. -/
  | assignment (operator : AssignmentOperator)
  /-- The parts are the test and the two outcomes. -/
  | conditional
  | sequence
  | await
  /-- The part may be absent. -/
  | yield (delegate : Bool)
  /-- The parts are the callee and the arguments. -/
  | call (optional : Bool)
  /-- The parts are the callee and the arguments. -/
  | new
  /-- The parts are the object and a name. -/
  | member (optional : Bool)
  /-- The parts are the object and an expression. -/
  | index (optional : Bool)
  /-- The extent of the optional steps inside the part. -/
  | chain
  /-- An expression in parentheses. -/
  | parenthesized
  /-- The parts are the tag and a template. -/
  | tagged
  /-- The parts are the source and, if there are any, the options. -/
  | importCall
  /-- An expression with a type. -/
  | typed
  -- Patterns
  /-- The parts are bound properties and at most one rest. -/
  | objectPattern
  /-- The parts are the key and a pattern. -/
  | boundProperty (computed : Bool)
  /-- The parts are patterns, absent ones and at most one rest. -/
  | arrayPattern
  /-- The parts are a pattern or target and its default. -/
  | defaulted
  /-- The part is a pattern or target. -/
  | rest
  /-- The parts are assigned properties and at most one rest. -/
  | objectTarget
  /-- The parts are the key and the target. -/
  | assignedProperty (computed shorthand : Bool)
  /-- The parts are targets, absent ones and at most one rest. -/
  | arrayTarget
  -- Statements
  /-- The part is an expression. -/
  | expression
  /-- The parts are declarators. -/
  | declaration (word : DeclarationWord)
  /-- The parts are the pattern and the initial value, which may be absent. -/
  | declarator
  | block
  | empty
  | debugger
  /-- The part may be absent. -/
  | «return»
  | throw
  /-- The parts are the test and the two branches, the second of which may be absent. -/
  | branch
  /-- The parts are the start, the test, the step, each of which may be absent, and the body. -/
  | loop
  /-- The parts are the target, the object and the body. -/
  | forIn
  /-- The parts are the target, the object and the body. -/
  | forOf (awaited : Bool)
  /-- The parts are the test and the body. -/
  | «while»
  /-- The parts are the body and the test. -/
  | doWhile
  | «break» (label : Option String)
  | «continue» (label : Option String)
  /-- The part is a statement. -/
  | labeled (label : String)
  /-- The parts are the discriminant and the cases. -/
  | switch
  /-- The parts are the test, which is absent for the default case, and statements. -/
  | case
  /-- The parts are the block, the handler and the final block; one of the last two may be
      absent. -/
  | «try»
  /-- The parts are the pattern, which may be absent, and a block. -/
  | handler
  /-- The parts are the object and the body. -/
  | «with»
  -- Modules
  /-- The parts are specifiers. `bare` tells that not even their braces are written. -/
  | «import» (source : String) (bare : Bool) (attributes : List ImportAttribute)
  /-- The parts are the imported name and the local binding. -/
  | importNamed
  /-- The part is the local binding. -/
  | importDefault
  /-- The part is the local binding. -/
  | importNamespace
  /-- The part is a declaration. -/
  | exportDeclaration
  /-- The parts are exported names. -/
  | exportNames (source : Option String) (attributes : List ImportAttribute)
  /-- The parts are the local and the exported name. -/
  | exportName
  /-- The part is the exported name, which may be absent. -/
  | exportAll (source : String) (attributes : List ImportAttribute)
  /-- The part is an expression, a function or a class. -/
  | exportDefault
  /-- A declaration that declares types only. -/
  | typeDeclaration
deriving Repr, DecidableEq

/-- A node of the tree of a script. -/
inductive Node
  | mk (kind : Kind) (span : Span) (parts : List Node)
deriving Repr

namespace Node

mutual

/-- Decides whether two nodes are the same. -/
def decEq : (node other : Node) → Decidable (node = other)
  | mk kind span parts, mk kind' span' parts' =>
    if hkind : kind = kind' then
      if hspan : span = span' then
        match decEqAmong parts parts' with
        | isTrue hparts => isTrue (hkind ▸ hspan ▸ hparts ▸ rfl)
        | isFalse hparts => isFalse fun h => hparts (mk.inj h).2.2
      else isFalse fun h => hspan (mk.inj h).2.1
    else isFalse fun h => hkind (mk.inj h).1

/-- Decides whether two lists of nodes are the same. -/
def decEqAmong : (nodes others : List Node) → Decidable (nodes = others)
  | [], [] => isTrue rfl
  | [], _ :: _ => isFalse fun h => nomatch h
  | _ :: _, [] => isFalse fun h => nomatch h
  | node :: rest, other :: others =>
    match decEq node other, decEqAmong rest others with
    | isTrue hnode, isTrue hrest => isTrue (hnode ▸ hrest ▸ rfl)
    | isFalse hnode, _ => isFalse fun h => hnode (List.cons.inj h).1
    | _, isFalse hrest => isFalse fun h => hrest (List.cons.inj h).2

end

instance : DecidableEq Node := decEq

/-- The kind of a node. -/
def kind : Node → Kind
  | mk kind _ _ => kind

/-- The span of bytes that a node takes. -/
def span : Node → Span
  | mk _ span _ => span

/-- The parts of a node. -/
def parts : Node → List Node
  | mk _ _ parts => parts

/-- A part that is left out. -/
def absent : Node := mk .absent ⟨0, 0⟩ []

instance : Inhabited Node := ⟨absent⟩

/-- Whether a part is left out. -/
def isAbsent (node : Node) : Bool :=
  node.kind == .absent

/-- The expression inside any parentheses. -/
def unparenthesized : Node → Node
  | mk .parenthesized _ [inner] => inner.unparenthesized
  | node => node

/-- A node that was not written in the source and therefore has an empty span at its start. -/
def made (kind : Kind) (parts : List Node) : Node :=
  mk kind ⟨0, 0⟩ parts

end Node

/-- A comment of a script. -/
structure Comment where
  /-- From the start to the end of the delimiters. -/
  span : Span
  /-- The comment with its delimiters. -/
  raw : List Char
  /-- The offset of the token that the comment leads; a comment on the line of the token before it
      trails that token and leads none. -/
  leads : Option Nat
  /-- Whether a line break stands between the comment and the token or comment before it. -/
  newlineBefore : Bool
  /-- Whether a line break follows the comment at once. -/
  newlineAfter : Bool
deriving Repr, DecidableEq

/-- A module as it was read. -/
structure Module where
  /-- The text that was read, to which all spans refer. -/
  source : List Char
  /-- The first line without its two first characters, if they make it a hashbang. -/
  hashbang : Option String
  directives : List String
  /-- The top-level statements. -/
  statements : List Node
  /-- All comments in source order. -/
  comments : List Comment

end SvelteStories.Script
