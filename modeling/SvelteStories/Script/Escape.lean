import SvelteStories.Text.Search

/-!
# Escapes

How the characters of strings, templates and names are written with a backslash.  What an escape
stands for is a code unit, which may be one half of a surrogate pair.  `decode` joins the halves
that belong together.  A half that stays alone is no character; a text with such a half spells every
one of them as the replacement character and four hexadecimal digits, and the replacement character
itself in the same way.
-/

namespace SvelteStories.Script

/-- Whether a character breaks lines. -/
def isLineBreak (c : Char) : Bool :=
  c == '\n' || c == '\r' || c.toNat == 0x2028 || c.toNat == 0x2029

/-- The value of a hexadecimal digit. -/
def hexDigit? (c : Char) : Option Nat :=
  if c.isDigit then some (c.toNat - '0'.toNat)
  else if 'a' ≤ c ∧ c ≤ 'f' then some (c.toNat - 'a'.toNat + 10)
  else if 'A' ≤ c ∧ c ≤ 'F' then some (c.toNat - 'A'.toNat + 10)
  else none

/-- The value of a row of digits in the given base; nothing if there is no digit or a wrong one. -/
def digits? (base : Nat) (cs : List Char) : Option Nat :=
  if cs.isEmpty then none
  else cs.foldlM (fun n c => do
    let d ← hexDigit? c
    if d < base then some (n * base + d) else none) 0

/-- Whether a character is a digit that octal numbers have. -/
def isOctalDigit (c : Char) : Bool :=
  '0' ≤ c && c ≤ '7'

/-- Reads the hexadecimal part of a `\u` escape: four digits, or any number of them in braces. -/
def readCodePoint (cs : List Char) : Option (Nat × List Char) :=
  match cs with
  | '{' :: rest =>
    let digits := rest.takeWhile (· != '}')
    match rest.drop digits.length with
    | '}' :: after => do
      let n ← digits? 16 digits
      if n ≤ 0x10FFFF then some (n, after) else none
    | _ => none
  | a :: b :: c :: d :: after => do
    let n ← digits? 16 [a, b, c, d]
    some (n, after)
  | _ => none

/-- Reads an octal escape, whose first digit is there: up to three digits below 256. -/
def readOctal (cs : List Char) : Nat × List Char :=
  let most := match cs with
    | c :: _ => if c ≤ '3' then 3 else 2
    | [] => 0
  let digits := (cs.take most).takeWhile isOctalDigit
  ((digits? 8 digits).getD 0, cs.drop digits.length)

/-- Reads what follows a backslash: the code units it stands for and the rest.  Templates have no
    octal escapes. -/
def readEscape (inTemplate : Bool) (cs : List Char) : Option (List Nat × List Char) :=
  match cs with
  | [] => none
  | '\r' :: '\n' :: rest => some ([], rest)
  | 'x' :: a :: b :: rest => do
    let n ← digits? 16 [a, b]
    some ([n], rest)
  | 'x' :: _ => none
  | 'u' :: rest => do
    let (n, rest) ← readCodePoint rest
    some ([n], rest)
  | c :: rest =>
    if isLineBreak c then some ([], rest)
    else if c.isDigit then
      if c == '0' && !rest.head?.any Char.isDigit then some ([0], rest)
      else if inTemplate then none
      else if isOctalDigit c then
        let (n, rest) := readOctal (c :: rest)
        some ([n], rest)
      else some ([c.toNat], rest)
    else
      let unit := match c with
        | 'n' => 0x0A
        | 'r' => 0x0D
        | 't' => 0x09
        | 'b' => 0x08
        | 'v' => 0x0B
        | 'f' => 0x0C
        | c => c.toNat
      some ([unit], rest)

/-- Whether a code unit is the first half of a surrogate pair. -/
def isFirstHalf (n : Nat) : Bool := 0xD800 ≤ n && n ≤ 0xDBFF

/-- Whether a code unit is the second half of a surrogate pair. -/
def isSecondHalf (n : Nat) : Bool := 0xDC00 ≤ n && n ≤ 0xDFFF

/-- Joins the halves of surrogate pairs that stand next to each other. -/
def joinHalves : List Nat → List Nat
  | [] => []
  | a :: b :: rest =>
    if isFirstHalf a && isSecondHalf b then
      (0x10000 + (a - 0xD800) * 0x400 + (b - 0xDC00)) :: joinHalves rest
    else a :: joinHalves (b :: rest)
  | [a] => [a]

/-- The four hexadecimal digits of a code unit. -/
def fourDigits (n : Nat) : List Char :=
  [n / 0x1000 % 16, n / 0x100 % 16, n / 0x10 % 16, n % 16].map Nat.digitChar

/-- The code point that spells out what is no character. -/
def replacement : Char := '\ufffd'

/-- The text of code units, and whether halves of surrogate pairs are spelled out in it. -/
def decode (units : List Nat) : String × Bool :=
  let units := joinHalves units
  if units.any fun n => isFirstHalf n || isSecondHalf n then
    (String.ofList (units.flatMap fun n =>
      if isFirstHalf n || isSecondHalf n || n == replacement.toNat then
        replacement :: fourDigits n
      else [Char.ofNat n]), true)
  else (String.ofList (units.map Char.ofNat), false)

/-- Splits a text at the closing quote of a string: what stands before it, and what behind it.  A
    line break ends no string unless a backslash stands before it. -/
def splitString (quote : Char) : List Char → Option (List Char × List Char)
  | [] => none
  | '\\' :: c :: cs => (splitString quote cs).map fun (inside, rest) => ('\\' :: c :: inside, rest)
  | c :: cs =>
    if c == quote then some ([], cs)
    else if c == '\n' || c == '\r' then none
    else (splitString quote cs).map fun (inside, rest) => (c :: inside, rest)

/-- The code units of the inside of a string or of a piece of a template, if all its escapes are
    valid.  The first argument bounds their number. -/
def unitsOf (inTemplate : Bool) : Nat → List Char → Option (List Nat)
  | 0, _ => none
  | _ + 1, [] => some []
  | fuel + 1, c :: cs => do
    let (units, rest) ← if c == '\\' then readEscape inTemplate cs else some ([c.toNat], cs)
    let more ← unitsOf inTemplate fuel rest
    some (units ++ more)

/-- The value of a string between its quotes, and whether halves are spelled out in it. -/
def stringValue? (inside : List Char) : Option (String × Bool) :=
  if inside.contains '\\' then (unitsOf false (inside.length + 1) inside).map decode
  else some (String.ofList inside, false)

/-- A text in which every line break of a template is a line feed. -/
def unifyLineBreaks : List Char → List Char
  | '\r' :: '\n' :: cs => '\n' :: unifyLineBreaks cs
  | '\r' :: cs => '\n' :: unifyLineBreaks cs
  | c :: cs => c :: unifyLineBreaks cs
  | [] => []

/-- The text of a piece of a template, if all its escapes are valid. -/
def cook (raw : List Char) : Option String :=
  (unitsOf true (raw.length + 1) (unifyLineBreaks raw)).map fun units => (decode units).1

/-- How a piece of a template ends. -/
inductive ChunkEnd
  | template
  | interpolation
deriving Repr, DecidableEq

/-- Passes over a piece of a template and answers with how it ends and the text from there on. -/
def seekChunkEnd : List Char → Option (ChunkEnd × List Char)
  | [] => none
  | '\x60' :: cs => some (.template, '\x60' :: cs)
  | '$' :: '{' :: cs => some (.interpolation, '$' :: '{' :: cs)
  | '\\' :: _ :: cs => seekChunkEnd cs
  | _ :: cs => seekChunkEnd cs

/-- Passes over the pattern of a regular expression and answers with the text behind its closing
    slash. -/
def afterPattern : (inClass : Bool) → List Char → Option (List Char)
  | _, [] => none
  | inClass, '\\' :: c :: cs => if isLineBreak c then none else afterPattern inClass cs
  | inClass, c :: cs =>
    if isLineBreak c then none
    else if c == '/' && !inClass then some cs
    else afterPattern (if c == '[' then true else if c == ']' then false else inClass) cs

end SvelteStories.Script
