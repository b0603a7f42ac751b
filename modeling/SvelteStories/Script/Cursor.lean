import SvelteStories.Script.Token
import SvelteStories.Script.Tree

/-!
# Reading places

A `Cursor` is a place in a script: the token there, the text from the token on and behind it, and
the comments met so far.  Moving on passes over white space and comments.

Between two tokens stand comments and line breaks.  A comment *leads* the token behind it, unless it
starts on the line of the token before it and a line break or a line comment follows in the gap;
such a comment *trails* the token before it.  At the start of the script every comment leads.
-/

namespace SvelteStories.Script

open Text

/-- Whether a character is white space of a script and breaks no line. -/
def isScriptBlank (c : Char) : Bool :=
  let n := c.toNat
  c == ' ' || c == '\t' || n == 0xB || n == 0xC || n == 0xA0 || n == 0xFEFF || n == 0x1680
    || (0x2000 ≤ n && n ≤ 0x200A) || n == 0x202F || n == 0x205F || n == 0x3000

/-- The white space and the comments between two tokens, as far as they were read. -/
structure Gap where
  /-- The comments of the gap, the last one first. -/
  comments : List Comment
  /-- Whether a line comment or a line break outside of comments was met. -/
  broken : Bool
  /-- Whether one of them was met behind the last comment. -/
  fresh : Bool
  /-- Whether a line break was met, also one inside a comment. -/
  newline : Bool

namespace Gap

/-- Marks the comments that stand on the line of the token before the gap. -/
def trailing (gap : Gap) : List Comment :=
  if gap.broken then gap.comments else gap.comments.map fun c => { c with leads := none }

/-- Meets a line break. -/
def breakLine (gap : Gap) : Gap :=
  let comments := match gap.trailing with
    | [] => []
    | last :: before => { last with newlineAfter := true } :: before
  ⟨comments, true, true, true⟩

/-- Meets a line comment. -/
def lineComment (gap : Gap) (span : Span) (raw : List Char) : Gap :=
  let comment := ⟨span, raw, some 0, gap.fresh, true⟩
  ⟨({ gap with comments := comment :: gap.comments } : Gap).trailing, true, true, true⟩

/-- Meets a block comment. -/
def blockComment (gap : Gap) (span : Span) (raw : List Char) : Gap :=
  let comment := ⟨span, raw, some 0, gap.fresh, false⟩
  { gap with
    comments := comment :: gap.comments
    fresh := false
    newline := gap.newline || raw.any isLineBreak }

/-- The comments of the gap, those that lead the token at the given offset marked with it. -/
def close (gap : Gap) (offset : Nat) : List Comment :=
  gap.comments.map fun c => { c with leads := c.leads.map fun _ => offset }

end Gap

/-- What the reading of a gap is inside of. The characters of an open comment are held backwards. -/
inductive GapMode
  | between
  | lineComment (start : Nat) (raw : List Char)
  | blockComment (start : Nat) (raw : List Char)

/-- Passes over white space and comments from the byte offset `here`.  The answer is the gap, the
    text behind it and its offset, or nothing if a comment is not closed. -/
def readGap : List Char → (here : Nat) → GapMode → Gap → Option (Gap × List Char × Nat)
  | [], here, .between, gap => some (gap, [], here)
  | [], here, .lineComment start raw, gap =>
    some (gap.lineComment ⟨start, here⟩ raw.reverse, [], here)
  | [], _, .blockComment _ _, _ => none
  | '/' :: '/' :: cs, here, .between, gap =>
    readGap cs (here + 2) (.lineComment here ['/', '/']) gap
  | '/' :: '*' :: cs, here, .between, gap =>
    readGap cs (here + 2) (.blockComment here ['*', '/']) gap
  | c :: cs, here, .between, gap =>
    if isLineBreak c then readGap cs (here + c.utf8Size) .between gap.breakLine
    else if isScriptBlank c then readGap cs (here + c.utf8Size) .between gap
    else some (gap, c :: cs, here)
  | c :: cs, here, .lineComment start raw, gap =>
    if isLineBreak c then
      readGap cs (here + c.utf8Size) .between (gap.lineComment ⟨start, here⟩ raw.reverse).breakLine
    else readGap cs (here + c.utf8Size) (.lineComment start (c :: raw)) gap
  | '*' :: '/' :: cs, here, .blockComment start raw, gap =>
    readGap cs (here + 2) .between
      (gap.blockComment ⟨start, here + 2⟩ ('/' :: '*' :: raw).reverse)
  | c :: cs, here, .blockComment start raw, gap =>
    readGap cs (here + c.utf8Size) (.blockComment start (c :: raw)) gap

/-- A place in a script. -/
structure Cursor where
  token : Token
  /-- The span of the token. -/
  span : Span
  /-- The text from the token on. -/
  here : List Char
  /-- The text behind the token. -/
  after : List Char
  /-- Whether a line break stands before the token. -/
  newline : Bool
  /-- Where the token before this one ends. -/
  previousStop : Nat
  /-- The comments before the token, the last one first. -/
  comments : List Comment

namespace Cursor

/-- The place of the first token of a text that starts at an offset.  `broken` tells that the text
    starts a line. -/
def enter (cs : List Char) (offset : Nat) (broken : Bool) (comments : List Comment) : Cursor :=
  match readGap cs offset .between ⟨[], broken, broken, broken⟩ with
  | none => ⟨.invalid, ⟨offset, offset⟩, cs, cs, false, offset, comments⟩
  | some (gap, here, start) =>
    let lexeme := readToken here
    ⟨lexeme.token, ⟨start, start + byteLength lexeme.written⟩, here, lexeme.rest,
      gap.newline, offset, gap.close start ++ comments⟩

/-- The place behind a stretch of text that starts at the token of a place. -/
def skip (cursor : Cursor) (after : List Char) : Cursor :=
  enter after (cursor.span.start + byteLength (consumed cursor.here after)) false cursor.comments

/-- The place of the next token. -/
def next (cursor : Cursor) : Cursor :=
  enter cursor.after cursor.span.stop false cursor.comments

end Cursor

/-- The first line of a script without its two first characters, if they make it a hashbang, and
    what follows it. -/
def splitHashbang (cs : List Char) : Option String × List Char :=
  match cs with
  | '#' :: '!' :: rest =>
    let line := rest.takeWhile (!isLineBreak ·)
    (some (String.ofList line), rest.drop line.length)
  | cs => (none, cs)

end SvelteStories.Script
