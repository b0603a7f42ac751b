import SvelteStories.Text.Search

/-!
# Brace expressions

An expression in the markup stands between braces.  It ends at the brace that matches the opening
one, where braces inside strings, template literals and comments do not count.  A backslash takes
the character after it out of consideration, everywhere but in comments.

The scanner is a machine that reads one character after the other.  It knows in which kind of text
it is and how many braces are open.
-/

namespace SvelteStories.Markup.Braces

/-- The kind of text that the scanner is in. -/
inductive Mode
  | code
  /-- In a string, up to the given quote. -/
  | quoted (quote : Char)
  /-- In a template literal, with the given number of interpolations open. -/
  | template (interpolations : Nat)
  | lineComment
  | blockComment
deriving Repr, DecidableEq

/-- Reads on with `depth` braces open.  The answer is what follows the brace that closes the last of
    them, or nothing if there is no such brace. -/
def scan : (cs : List Char) → (mode : Mode) → (depth : Nat) → Option (List Char)
  | [], _, _ => none
  | c :: cs, .lineComment, depth => scan cs (if c = '\n' then .code else .lineComment) depth
  | '*' :: '/' :: cs, .blockComment, depth => scan cs .code depth
  | _ :: cs, .blockComment, depth => scan cs .blockComment depth
  | '\\' :: _ :: cs, mode, depth => scan cs mode depth
  | c :: cs, .quoted quote, depth => scan cs (if c = quote then .code else .quoted quote) depth
  | '\x60' :: cs, .template 0, depth => scan cs .code depth
  | '$' :: '{' :: cs, .template k, depth => scan cs (.template (k + 1)) depth
  | '}' :: cs, .template (k + 1), depth => scan cs (.template k) depth
  | _ :: cs, .template k, depth => scan cs (.template k) depth
  | '/' :: '/' :: cs, .code, depth => scan cs .lineComment depth
  | '/' :: '*' :: cs, .code, depth => scan cs .blockComment depth
  | '"' :: cs, .code, depth => scan cs (.quoted '"') depth
  | '\'' :: cs, .code, depth => scan cs (.quoted '\'') depth
  | '\x60' :: cs, .code, depth => scan cs (.template 0) depth
  | '{' :: cs, .code, depth => scan cs .code (depth + 1)
  | '}' :: cs, .code, 1 => some cs
  | '}' :: _, .code, 0 => none
  | '}' :: cs, .code, depth + 2 => scan cs .code (depth + 1)
  | _ :: cs, .code, depth => scan cs .code depth

/-- The scanner stops at a proper rest of what it reads. -/
theorem length_lt_of_scan {cs rest : List Char} {mode : Mode} {depth : Nat}
    (h : scan cs mode depth = some rest) : rest.length < cs.length := by
  fun_induction scan cs mode depth with
  | case1 => exact nomatch h
  | case17 cs => cases h; simp
  | case18 => exact nomatch h
  | _ => rename_i ih; have := ih h; simp only [List.length_cons]; omega

/-- What follows the brace expression that the text starts with. -/
def after? (cs : List Char) : Option (List Char) :=
  scan cs .code 0

/-- What follows a brace expression is shorter than the text. -/
theorem length_lt_of_after? {cs rest : List Char} (h : after? cs = some rest) :
    rest.length < cs.length :=
  length_lt_of_scan h

/-- The inside of the brace expression that the text starts with, without its braces, and what
    follows the expression. -/
def split? (cs : List Char) : Option (List Char × List Char) :=
  (after? cs).map fun rest => (((Text.consumed cs rest).drop 1).dropLast, rest)

/-- What follows a brace expression is shorter than the text. -/
theorem length_lt_of_split? {cs inside rest : List Char} (h : split? cs = some (inside, rest)) :
    rest.length < cs.length := by
  simp only [split?, Option.map_eq_some_iff, Prod.mk.injEq] at h
  obtain ⟨r, hr, -, rfl⟩ := h
  exact length_lt_of_after? hr

end SvelteStories.Markup.Braces
