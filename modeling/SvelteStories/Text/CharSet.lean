/-!
# Sets of characters given by ranges

A `CharSet` is a short list of ranges of code points, each with a step, so that a table of
alternating upper and lower case letters stays small.  Membership is decided range by range.
-/

namespace SvelteStories.Text

/-- The code points `first`, `first + step`, … up to `last`. -/
structure CharRange where
  first : Nat
  last : Nat
  step : Nat
deriving Repr, DecidableEq

/-- Whether a code point belongs to the range. -/
def CharRange.contains (r : CharRange) (n : Nat) : Bool :=
  r.first ≤ n && n ≤ r.last && (n - r.first) % r.step == 0

/-- A set of characters, as the union of its ranges. -/
structure CharSet where
  ranges : List CharRange
deriving Repr, DecidableEq

/-- Whether a character belongs to one of the ranges. -/
def CharSet.contains (s : CharSet) (c : Char) : Bool :=
  s.ranges.any (·.contains c.toNat)

end SvelteStories.Text
