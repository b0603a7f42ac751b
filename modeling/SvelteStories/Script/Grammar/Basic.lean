import SvelteStories.Script.Cursor

/-!
# Reading by grammar

A reader takes a place in a script and either gives a result and the place behind what it read, or
fails.  Which constructs are allowed at a place is told by a `Context`.

The grammar is written as an open recursion.  The constructs that contain each other without bound
are named by `Phrase`; a production reads one of them and is given a `Grammar`, which reads phrases,
for the parts.  The module that reads whole scripts closes the recursion.
-/

namespace SvelteStories.Script

open Text

/-- What the place of a construct allows. -/
structure Context where
  /-- Types may be written. -/
  typed : Bool
  /-- A bound for the length of every list in the script. -/
  limit : Nat
  /-- The operator `in` may be used. -/
  inOperator : Bool := true
  /-- `await` is an operator. -/
  awaits : Bool := true
  /-- `yield` is an operator. -/
  yields : Bool := false
  /-- A return statement may stand here. -/
  returns : Bool := false
  /-- Declarations need no values and no bodies. -/
  ambient : Bool := false
  /-- A colon follows, so that one behind closing parentheses need not start a result type. -/
  beforeColon : Bool := false

/-- A reader of a construct. -/
abbrev Reader := ReaderT Context (StateT Cursor Option)

/-- The constructs that contain each other. -/
inductive Phrase
  | statement
  | assignment
  /-- An operand of a binary operator, itself made with operators of at least the given level. -/
  | operand (least : Level)
  | unary
  /-- What may stand after `new`. -/
  | constructor
  /-- What may stand after `extends`. -/
  | heritage
  | pattern
  | type
deriving Repr, DecidableEq

/-- A reader for every phrase. -/
abbrev Grammar := Phrase → Reader Node

namespace Reader

/-- Reads under a changed context. -/
def within {α : Type} (change : Context → Context) (reader : Reader α) : Reader α :=
  ReaderT.adapt change reader

/-- The place that is read. -/
def cursor : Reader Cursor := get

/-- The offset of the token that is read. -/
def offset : Reader Nat := return (← cursor).span.start

/-- The offset at which the last token ended. -/
def previousStop : Reader Nat := return (← cursor).previousStop

/-- Whether types may be written. -/
def isTyped : Reader Bool := return (← read).typed

/-- Moves on to the next token. -/
def advance : Reader Unit := modify Cursor.next

/-- Moves on to the given rest of the script. -/
def skipTo (rest : List Char) : Reader Unit := modify (·.skip rest)

/-- Goes on if the condition holds. -/
def ensure (condition : Bool) : Reader Unit :=
  if condition then return () else failure

/-- Takes the result if there is one. -/
def given {α : Type} (result : Option α) : Reader α :=
  match result with
  | some a => return a
  | none => failure

/-- Whether the token is the given punctuator. -/
def at? (text : String) : Reader Bool := return (← cursor).token == .punctuator text

/-- Whether the token is the given word. -/
def atWord? (text : String) : Reader Bool := return (← cursor).token == .word text false

/-- Whether a line break stands before the token. -/
def afterNewline? : Reader Bool := return (← cursor).newline

/-- Reads the given punctuator if it is there. -/
def accept (text : String) : Reader Bool := do
  if ← at? text then
    advance
    return true
  return false

/-- Reads the given word if it is there. -/
def acceptWord (text : String) : Reader Bool := do
  if ← atWord? text then
    advance
    return true
  return false

/-- Reads the given punctuator. -/
def expect (text : String) : Reader Unit := do ensure (← accept text)

/-- Reads the given word. -/
def expectWord (text : String) : Reader Unit := do ensure (← acceptWord text)

/-- The node of the given kind and parts that starts at an offset and ends with the last token. -/
def node (kind : Kind) (start : Nat) (parts : List Node) : Reader Node := do
  return .mk kind ⟨start, ← previousStop⟩ parts

/-- Repeats a step until it gives nothing. -/
def gather {α : Type} (step : Reader (Option α)) : Reader (List α) := do
  let rec go : Nat → Reader (List α)
    | 0 => failure
    | n + 1 => do
      match ← step with
      | none => return []
      | some a => return a :: (← go n)
  go (← read).limit

/-- Extends a result step by step until a step gives nothing. -/
def extend {α : Type} (step : α → Reader (Option α)) (a : α) : Reader α := do
  let rec go : Nat → α → Reader α
    | 0, _ => failure
    | n + 1, a => do
      match ← step a with
      | none => return a
      | some a => go n a
  go (← read).limit a

/-- Reads items up to the closing punctuator, with commas between them and perhaps behind the last.
    The closing punctuator is read too. -/
def items {α : Type} (close : String) (item : Reader α) : Reader (List α) := do
  let list ← gather do
    if ← at? close then return none
    let a ← item
    if !(← at? close) then expect ","
    return some a
  expect close
  return list

/-- Gives a reader's result, or nothing without moving if it fails. -/
def attempt {α : Type} (reader : Reader α) : Reader (Option α) :=
  (some <$> reader) <|> return none

/-- Reads the end of a statement: a semicolon, or nothing before a closing brace, at the end of the
    script and where a line ends. -/
def semicolon : Reader Unit := do
  if ← accept ";" then return
  let cursor ← cursor
  ensure (cursor.token == .punctuator "\x7d" || cursor.token == .finish || cursor.newline)

/-- Whether a word is the name of a variable here. -/
def isVariableName (context : Context) (word : String) : Bool :=
  !isReserved word && word != "await" && !(word == "yield" && context.yields)

/-- Reads the name of a variable. -/
def variableName : Reader String := do
  match (← cursor).token with
  | .word text _ =>
    ensure (isVariableName (← read) text)
    advance
    return text
  | _ => failure

/-- Reads the name that a declaration binds. -/
def binding : Reader Node := do
  let start ← offset
  node (.binding (← variableName)) start []

/-- Reads a fixed name, which may be any word. -/
def fixedName : Reader Node := do
  let start ← offset
  match (← cursor).token with
  | .word text _ =>
    advance
    node (.name text) start []
  | _ => failure

/-- Reads a string. -/
def stringLiteral : Reader Node := do
  let start ← offset
  match (← cursor).token with
  | .string value halves =>
    advance
    node (.string value halves) start []
  | _ => failure

/-- Reads the value of a string. -/
def stringValue : Reader String := do
  match (← cursor).token with
  | .string value _ =>
    advance
    return value
  | _ => failure

end Reader

end SvelteStories.Script
