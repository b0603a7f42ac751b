import SvelteStories.Script.Escape

/-!
# Written forms of text

How a script writes the value of a string: in double quotes, with a backslash before what cannot
stand there as it is.  A text must not hold the end tag of a script element, so the slash of such a
tag is written with a backslash, in strings and in every text that is written as it is.
-/

namespace SvelteStories.Script

/-- Whether a text starts with the name of a script element, in any case. -/
def startsScriptName (cs : List Char) : Bool :=
  (cs.take 6).map Char.toLower == "script".toList

/-- A text with a backslash in every end tag of a script element. -/
def breakScriptEnds : List Char → List Char
  | '<' :: '/' :: cs =>
    if startsScriptName cs then '<' :: '\\' :: '/' :: breakScriptEnds cs
    else '<' :: '/' :: breakScriptEnds cs
  | c :: cs => c :: breakScriptEnds cs
  | [] => []

/-- The written form of a character that a string cannot hold as it is. -/
def escapeOf? (c : Char) (next : Option Char) : Option String :=
  match c.toNat with
  | 0x00 => some (if next.any Char.isDigit then "\\x00" else "\\0")
  | 0x07 => some "\\x07"
  | 0x08 => some "\\b"
  | 0x0A => some "\\n"
  | 0x0B => some "\\v"
  | 0x0C => some "\\f"
  | 0x0D => some "\\r"
  | 0x1B => some "\\x1B"
  | 0x22 => some "\\\""
  | 0x5C => some "\\\\"
  | 0xA0 => some "\\xA0"
  | 0x2028 => some "\\u2028"
  | 0x2029 => some "\\u2029"
  | _ => none

/-- The characters of a string as they are written between its quotes. -/
def escaped : List Char → List Char
  | '<' :: '/' :: cs =>
    if startsScriptName cs then '<' :: '\\' :: '/' :: escaped cs else '<' :: '/' :: escaped cs
  | c :: cs =>
    match escapeOf? c cs.head? with
    | some text => text.toList ++ escaped cs
    | none => c :: escaped cs
  | [] => []

/-- The characters of a string in which halves of surrogate pairs are spelled out, as they are
    written between its quotes. -/
def escapedWithHalves : List Char → List Char
  | '\ufffd' :: a :: b :: c :: d :: cs =>
    if [a, b, c, d] == fourDigits replacement.toNat then replacement :: escapedWithHalves cs
    else '\\' :: 'u' :: a :: b :: c :: d :: escapedWithHalves cs
  | c :: cs =>
    match escapeOf? c cs.head? with
    | some text => text.toList ++ escapedWithHalves cs
    | none => c :: escapedWithHalves cs
  | [] => []

/-- A string in double quotes. -/
def quoted (value : String) (halves : Bool) : String :=
  let inside := if halves then escapedWithHalves value.toList else escaped value.toList
  "\"" ++ String.ofList inside ++ "\""

/-- The quote around a directive, which is written as it was: a double one, unless the first quote
    inside is one. -/
def directiveQuote : List Char → String
  | '\\' :: _ :: cs => directiveQuote cs
  | '"' :: _ => "'"
  | '\'' :: _ => "\""
  | _ :: cs => directiveQuote cs
  | [] => "\""

end SvelteStories.Script
