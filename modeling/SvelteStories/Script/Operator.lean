/-!
# Operators of a script

The operators, their written forms, and how tightly they bind.  A `Level` is the strength of a
surrounding construct: an expression is written in parentheses where the level around it is at least
its own.
-/

namespace SvelteStories.Script

/-- How tightly a construct holds its parts; a higher level holds tighter. -/
abbrev Level := Nat

namespace Level

def lowest : Level := 0
def comma : Level := 1
def yield : Level := 3
def assignment : Level := 4
def conditional : Level := 5
def coalesce : Level := 6
def or : Level := 7
def and : Level := 8
def bitOr : Level := 9
def bitXor : Level := 10
def bitAnd : Level := 11
def equality : Level := 12
def comparison : Level := 13
def shift : Level := 14
def sum : Level := 15
def product : Level := 16
def power : Level := 17
def unary : Level := 18
def update : Level := 19
def new : Level := 20
def call : Level := 21
def member : Level := 22

end Level

/-- The operators written before one operand. -/
inductive UnaryOperator
  | minus | plus | not | complement | typeof | void | delete
deriving Repr, DecidableEq

/-- The written form of a unary operator. -/
def UnaryOperator.text : UnaryOperator → String
  | minus => "-"
  | plus => "+"
  | not => "!"
  | complement => "~"
  | typeof => "typeof"
  | void => "void"
  | delete => "delete"

/-- Whether a unary operator is written as a word. -/
def UnaryOperator.isWord : UnaryOperator → Bool
  | typeof | void | delete => true
  | _ => false

/-- All unary operators. -/
def UnaryOperator.all : List UnaryOperator :=
  [minus, plus, not, complement, typeof, void, delete]

/-- The operators that count up and down. -/
inductive UpdateOperator
  | increment | decrement
deriving Repr, DecidableEq

/-- The written form of an update operator. -/
def UpdateOperator.text : UpdateOperator → String
  | increment => "++"
  | decrement => "--"

/-- The operators between two operands. -/
inductive BinaryOperator
  | coalesce | or | and | bitOr | bitXor | bitAnd
  | equal | unequal | identical | distinct
  | less | lessEqual | greater | greaterEqual | isIn | instanceof
  | shiftLeft | shiftRight | shiftRightZero
  | add | subtract | multiply | divide | remainder | power
deriving Repr, DecidableEq

namespace BinaryOperator

/-- The written form of a binary operator. -/
def text : BinaryOperator → String
  | coalesce => "??"
  | or => "||"
  | and => "&&"
  | bitOr => "|"
  | bitXor => "^"
  | bitAnd => "&"
  | equal => "=="
  | unequal => "!="
  | identical => "==="
  | distinct => "!=="
  | less => "<"
  | lessEqual => "<="
  | greater => ">"
  | greaterEqual => ">="
  | isIn => "in"
  | instanceof => "instanceof"
  | shiftLeft => "<<"
  | shiftRight => ">>"
  | shiftRightZero => ">>>"
  | add => "+"
  | subtract => "-"
  | multiply => "*"
  | divide => "/"
  | remainder => "%"
  | power => "**"

/-- The level of an expression with the operator. -/
def level : BinaryOperator → Level
  | coalesce => .coalesce
  | or => .or
  | and => .and
  | bitOr => .bitOr
  | bitXor => .bitXor
  | bitAnd => .bitAnd
  | equal | unequal | identical | distinct => .equality
  | less | lessEqual | greater | greaterEqual | isIn | instanceof => .comparison
  | shiftLeft | shiftRight | shiftRightZero => .shift
  | add | subtract => .sum
  | multiply | divide | remainder => .product
  | power => .power

/-- All binary operators. -/
def all : List BinaryOperator :=
  [coalesce, or, and, bitOr, bitXor, bitAnd, equal, unequal, identical, distinct, less, lessEqual,
    greater, greaterEqual, isIn, instanceof, shiftLeft, shiftRight, shiftRightZero, add, subtract,
    multiply, divide, remainder, power]

/-- Whether the operator takes truth values, so that it may not stand next to `??` unprotected. -/
def isJunction : BinaryOperator → Bool
  | or | and => true
  | _ => false

/-- Whether the operator can be joined with an equals sign. -/
def isAssignable : BinaryOperator → Bool
  | coalesce | or | and | bitOr | bitXor | bitAnd | shiftLeft | shiftRight | shiftRightZero
  | add | subtract | multiply | divide | remainder | power => true
  | _ => false

end BinaryOperator

/-- The operators that assign: the plain one, or one that first combines with the old value. -/
inductive AssignmentOperator
  | plain
  | combined (operator : BinaryOperator)
deriving Repr, DecidableEq

/-- The written form of an assignment operator. -/
def AssignmentOperator.text : AssignmentOperator → String
  | plain => "="
  | combined operator => operator.text ++ "="

/-- All assignment operators. -/
def AssignmentOperator.all : List AssignmentOperator :=
  .plain :: (BinaryOperator.all.filter (·.isAssignable)).map .combined

end SvelteStories.Script
