/-!
# Byte offsets and spans

Every position of a stories file and of a compiled module is a byte offset into its UTF-8 text.  The
text itself is held as a list of characters, so this module says how the two views meet: the byte
length of a list of characters, and the part of a list that a span of byte offsets selects.  A span
that starts or ends inside a character, that ends before it starts or that leaves the text selects
nothing.
-/

namespace SvelteStories.Text

/-- A range of byte offsets, from `start` up to but not including `stop`. -/
structure Span where
  start : Nat
  stop : Nat
deriving Repr, DecidableEq, Inhabited

/-- The number of bytes that a list of characters takes in UTF-8. -/
def byteLength : List Char → Nat
  | [] => 0
  | c :: cs => c.utf8Size + byteLength cs

@[simp] theorem byteLength_nil : byteLength [] = 0 := rfl

@[simp] theorem byteLength_cons (c : Char) (cs : List Char) :
    byteLength (c :: cs) = c.utf8Size + byteLength cs := rfl

@[simp] theorem byteLength_append (a b : List Char) :
    byteLength (a ++ b) = byteLength a + byteLength b := by
  induction a with
  | nil => simp
  | cons c cs ih => simp [ih, Nat.add_assoc]

/-- Splits a text at a byte offset; nothing if the offset is inside a character or past the end. -/
def splitAtByte? : List Char → Nat → Option (List Char × List Char)
  | cs, 0 => some ([], cs)
  | [], _ + 1 => none
  | c :: cs, n + 1 =>
    if c.utf8Size ≤ n + 1 then
      (splitAtByte? cs (n + 1 - c.utf8Size)).map fun (before, after) => (c :: before, after)
    else none

/-- The characters before and after an offset are the whole text, and the offset is the byte length
    of the part before it. -/
theorem eq_append_of_splitAtByte? {text before after : List Char} {n : Nat}
    (h : splitAtByte? text n = some (before, after)) :
    text = before ++ after ∧ byteLength before = n := by
  induction text generalizing n before with
  | nil =>
    cases n <;> simp [splitAtByte?] at h
    simp [h]
  | cons c cs ih =>
    cases n with
    | zero => simp [splitAtByte?] at h; simp [h]
    | succ n =>
      -- the first character is before the offset if all of its bytes are
      simp only [splitAtByte?] at h
      split at h
      · rename_i hle
        simp only [Option.map_eq_some_iff, Prod.mk.injEq, Prod.exists] at h
        obtain ⟨b, a, hs, rfl, rfl⟩ := h
        obtain ⟨rfl, hb⟩ := ih hs
        exact ⟨rfl, by simp [hb]; omega⟩
      · exact nomatch h

/-- The part of a text that a span selects, if the span lies in the text and on its character
    boundaries. -/
def Span.slice? (span : Span) (text : List Char) : Option (List Char) :=
  if span.start ≤ span.stop then do
    let (_, after) ← splitAtByte? text span.start
    let (inside, _) ← splitAtByte? after (span.stop - span.start)
    return inside
  else none

/-- The part of a text that a span selects, empty where `Span.slice?` selects nothing. -/
def Span.slice (span : Span) (text : List Char) : List Char :=
  (span.slice? text).getD []

end SvelteStories.Text
