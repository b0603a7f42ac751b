import SvelteStories.Text.Span

/-!
# Lines and columns

`position` turns a byte offset into the line and column that diagnostics show.  Both count from 1,
columns count bytes, and an offset past the end stands for the end.  The counts are 32-bit words.
-/

namespace SvelteStories.Text

/-- A line and a column of a text, both counted from 1. -/
structure Position where
  line : UInt32
  column : UInt32
deriving Repr, DecidableEq, Inhabited

/-- The position of a diagnostic that has none. -/
def Position.unknown : Position := ⟨0, 0⟩

/-- Scans the characters before `offset`, knowing the offset `here` of the first of them, the number
    of line feeds passed and the offset at which the current line starts. -/
def scanLines (offset : Nat) : (cs : List Char) → (here lineFeeds lineStart : Nat) → Nat × Nat
  | [], here, lineFeeds, lineStart => (lineFeeds, min offset here - lineStart)
  | c :: cs, here, lineFeeds, lineStart =>
    if offset ≤ here then (lineFeeds, offset - lineStart)
    else if c = '\n' then scanLines offset cs (here + 1) (lineFeeds + 1) (here + 1)
    else scanLines offset cs (here + c.utf8Size) lineFeeds lineStart

/-- The line and column of a byte offset. -/
def position (text : List Char) (offset : Nat) : Position :=
  let (lineFeeds, bytes) := scanLines offset text 0 0 0
  ⟨lineFeeds.toUInt32 + 1, bytes.toUInt32 + 1⟩

end SvelteStories.Text
