import SvelteStories.Script.Escape
import SvelteStories.Text.Identifier

/-!
# Tokens

The smallest pieces of a script.  `readToken` reads the token that a text starts with; a `Lexeme` is
a token as it is written.  A regular expression and the inside of a template are not tokens: where
they may stand depends on the grammar, so the grammar reads them from the slash or the back quote
on.
-/

namespace SvelteStories.Script

open Text

/-- A token. -/
inductive Token
  /-- A name or a keyword. `escaped` tells that it is written with escapes, so that it is no
      keyword. -/
  | word (text : String) (escaped : Bool)
  | privateName (text : String)
  | punctuator (text : String)
  | string (value : String) (halves : Bool)
  | number (text : String)
  | bigint (text : String)
  | backQuote
  /-- The end of the script. -/
  | finish
  /-- Characters that start no token. -/
  | invalid
deriving Repr, DecidableEq

/-- A token as it is written, and the text behind it. -/
structure Lexeme where
  token : Token
  written : List Char
  rest : List Char

/-- The punctuators, the longer ones first. -/
def punctuators : List String :=
  [">>>=", "...", "===", "!==", "**=", "<<=", ">>=", ">>>", "&&=", "||=", "??=", "=>", "==", "!=",
    "<=", ">=", "&&", "||", "??", "?.", "++", "--", "+=", "-=", "*=", "/=", "%=", "&=", "|=", "^=",
    "**", "<<", ">>", "\x7b", "\x7d", "(", ")", "[", "]", ";", ",", "<", ">", "+", "-", "*", "/",
    "%", "&", "|", "^", "!", "~", "?", ":", "=", ".", "@"]

/-- Whether a punctuator may be read where a text starts: a question mark with a dot is not read
    before a digit. -/
def startsPunctuator (punctuator : String) (cs : List Char) : Bool :=
  startsWith punctuator.toList cs &&
    !(punctuator == "?." && (cs.drop 2).head?.any Char.isDigit)

/-- Reads the longest punctuator that a text starts with. -/
def readPunctuator (cs : List Char) : Option Lexeme :=
  (punctuators.find? (startsPunctuator · cs)).map fun p =>
    ⟨.punctuator p, p.toList, cs.drop p.length⟩

/-- Reads a string whose opening quote was read. -/
def readString (quote : Char) (cs : List Char) : Option Lexeme := do
  let (inside, rest) ← splitString quote cs
  let (value, halves) ← stringValue? inside
  some ⟨.string value halves, quote :: inside ++ [quote], rest⟩

/-- Reads the characters of a name, escaped ones included, and tells whether there was an escape.
    The first argument bounds their number. -/
def readNameChars : Nat → List Char → Option (List Char × Bool × List Char)
  | 0, _ => none
  | _ + 1, [] => some ([], false, [])
  | fuel + 1, '\\' :: cs => do
    let .cons 'u' rest := cs | none
    let (n, rest) ← readCodePoint rest
    if isIdentifierPart (Char.ofNat n) then do
      let (more, _, rest) ← readNameChars fuel rest
      some (Char.ofNat n :: more, true, rest)
    else none
  | fuel + 1, c :: cs =>
    if isIdentifierPart c then do
      let (more, escaped, rest) ← readNameChars fuel cs
      some (c :: more, escaped, rest)
    else some ([], false, c :: cs)

/-- A name as it is written. -/
structure WrittenName where
  name : String
  escaped : Bool
  written : List Char
  rest : List Char

/-- Reads a name. -/
def readName (cs : List Char) : Option WrittenName := do
  let plain := cs.takeWhile isIdentifierPart
  let rest := cs.drop plain.length
  let name ← match rest with
    | '\\' :: _ => do
      let (chars, escaped, rest) ← readNameChars (cs.length + 1) cs
      some ⟨String.ofList chars, escaped, consumed cs rest, rest⟩
    | rest => some ⟨String.ofList plain, false, plain, rest⟩
  if name.name.toList.head?.any isIdentifierStart then some name else none

/-- Whether a character may stand in a row of digits. -/
def isDigitOrGap (c : Char) : Bool :=
  c.isDigit || c == '_'

/-- The written form of a whole number: small ones in decimal digits, others as they are written. -/
def numberText (base : Nat) (digits written : List Char) : String :=
  match digits? base (digits.filter (· != '_')) with
  | some n => if n < 1000 then toString n else String.ofList (written.filter (· != '_'))
  | none => String.ofList (written.filter (· != '_'))

/-- The fraction that a text starts with, which may be empty. -/
def fraction (cs : List Char) : List Char :=
  match cs with
  | '.' :: digits => '.' :: digits.takeWhile isDigitOrGap
  | _ => []

/-- The exponent that a text starts with, which may be empty; its digits may not be missing. -/
def exponent? (cs : List Char) : Option (List Char) :=
  match cs with
  | c :: rest =>
    if c == 'e' || c == 'E' then
      let sign := (rest.take 1).filter fun s => s == '+' || s == '-'
      let digits := (rest.drop sign.length).takeWhile isDigitOrGap
      if digits.head?.any Char.isDigit then some (c :: sign ++ digits) else none
    else some []
  | [] => some []

/-- Reads the rest of a number in the given base, whose first two characters were read. -/
def readBased (base : Nat) (start cs : List Char) : Option Lexeme := do
  let digits := cs.takeWhile fun c => (hexDigit? c).any (· < base) || c == '_'
  let rest := cs.drop digits.length
  let written := start ++ digits
  let _ ← digits? base (digits.filter (· != '_'))
  match rest with
  | 'n' :: rest => some ⟨.bigint (String.ofList written), written ++ ['n'], rest⟩
  | rest => some ⟨.number (numberText base digits written), written, rest⟩

/-- Reads a decimal number. -/
def readDecimal (cs : List Char) : Option Lexeme :=
  let whole := cs.takeWhile isDigitOrGap
  match cs.drop whole.length with
  | 'n' :: rest =>
    some ⟨.bigint (String.ofList (whole.filter (· != '_'))), whole ++ ['n'], rest⟩
  | rest => do
    let fraction := fraction rest
    let exponent ← exponent? (rest.drop fraction.length)
    let written := whole ++ fraction ++ exponent
    let digits := if fraction.isEmpty && exponent.isEmpty then whole else []
    some ⟨.number (numberText 10 digits written), written,
      rest.drop (fraction.length + exponent.length)⟩

/-- The base that the second character of a number stands for. -/
def base? (c : Char) : Option Nat :=
  match c.toLower with
  | 'x' => some 16
  | 'o' => some 8
  | 'b' => some 2
  | _ => none

/-- Reads a number.  No name and no digit may follow it at once. -/
def readNumber (cs : List Char) : Option Lexeme := do
  let number ← match cs with
    | '0' :: b :: digits =>
      match base? b with
      | some base => readBased base ['0', b] digits
      | none => readDecimal cs
    | _ => readDecimal cs
  if number.rest.head?.any fun c => isIdentifierStart c || c.isDigit || c == '\\' then none
  else some number

/-- Reads the token that a text starts with; the text does not start with white space. -/
def readToken (cs : List Char) : Lexeme :=
  match cs with
  | [] => ⟨.finish, [], []⟩
  | c :: rest =>
    let read : Option Lexeme :=
      if c == '"' || c == '\'' then readString c rest
      else if c == '\x60' then some ⟨.backQuote, [c], rest⟩
      else if c == '#' then
        (readName rest).map fun name => ⟨.privateName name.name, c :: name.written, name.rest⟩
      else if c.isDigit || (c == '.' && rest.head?.any Char.isDigit) then readNumber cs
      else if isIdentifierStart c || c == '\\' then
        (readName cs).map fun name => ⟨.word name.name name.escaped, name.written, name.rest⟩
      else readPunctuator cs
    read.getD ⟨.invalid, [], cs⟩

/-- The words that are no names. -/
def reservedWords : List String :=
  ["break", "case", "catch", "class", "const", "continue", "debugger", "default", "delete", "do",
    "else", "enum", "export", "extends", "false", "finally", "for", "function",
    "if", "import", "in", "instanceof", "new", "null", "return", "super", "switch", "this",
    "throw", "true", "try", "typeof", "var", "void", "while", "with"]

/-- Whether a word is no name. -/
def isReserved (word : String) : Bool :=
  reservedWords.contains word

end SvelteStories.Script
