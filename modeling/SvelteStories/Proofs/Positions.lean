import Mathlib.Algebra.Group.Nat.Defs
import Mathlib.Data.List.DropRight
import SvelteStories.Proofs.Bytes
import SvelteStories.Proofs.Lines
import SvelteStories.Text.Position

/-!
# Positions and offsets

`position` scans a text once and keeps two counts, of the line feeds before the offset and of the
bytes between the last of them and the offset.  Here each count is what a search of its own finds in
the bytes before the offset: one for the line feeds, and one from the right for the last of them.
So it is known what either becomes when bytes are added in front or behind, and the two agree at
line feeds, at the end of the text and past it.

An offset is a place in a line, named by where the line starts and by the bytes of the line before
the place.  The numbers of a position are these two, as long as the text is short enough for their
words.

## Key results

- `scanLines_eq`, `position_eq`: the scan and the two searches
- `lineFeeds_lineStart_add`: what they find at a place in a line
- `exists_lineStart_add`: each offset is a place in a line
- `position_faithful`: positions increase with the offsets, the offset is found again, and a text in
  front shifts them
-/

namespace SvelteStories.Text

variable {text line front back : List Char} {ls : List (List Char)} {c : Char} {offset n k : Nat}

/-- The byte of a line feed. -/
def lineFeed : UInt8 := 10

/-- The bytes before an offset, which are all bytes if the text ends before it. -/
def bytesBefore (text : List Char) (offset : Nat) : List UInt8 :=
  (utf8 text).take offset

/-- The bytes behind the last line feed. -/
def lastLine (bytes : List UInt8) : List UInt8 :=
  bytes.rtakeWhile (· != lineFeed)

/-! ## Line feeds among the bytes -/

/-- A line feed is one byte. -/
theorem utf8EncodeChar_newline : String.utf8EncodeChar '\n' = [lineFeed] := by
  decide

/-- The byte of a line feed is part of no other character. -/
theorem eq_newline_of_mem_utf8EncodeChar (h : lineFeed ∈ String.utf8EncodeChar c) : c = '\n' := by
  obtain ⟨i, hi, hbyte⟩ := List.mem_iff_getElem.mp h
  have hat : byteAt? [c] i = some '\n' := by
    rw [byteAt?, utf8_cons, List.getElem?_append_left hi, List.getElem?_eq_getElem hi, hbyte]
    rfl
  rw [String.length_utf8EncodeChar] at hi
  exact (eq_of_byteAt?_cons (by decide) hi hat).1

/-- A text has as many line feeds among its bytes as among its characters. -/
theorem count_utf8 (text : List Char) : (utf8 text).count lineFeed = text.count '\n' := by
  induction text with
  | nil => rfl
  | cons c cs ih =>
    rw [utf8_cons, List.count_append, ih]
    by_cases hc : c = '\n'
    · subst hc
      rw [utf8EncodeChar_newline, List.count_singleton_self, List.count_cons_self, Nat.add_comm]
    · rw [List.count_eq_zero.mpr fun h => hc (eq_newline_of_mem_utf8EncodeChar h),
        List.count_cons_of_ne hc, Nat.zero_add]

/-- A text without line feeds has no byte of one. -/
theorem lineFeed_notMem_utf8 (h : '\n' ∉ line) : lineFeed ∉ utf8 line := by
  rw [← List.count_eq_zero, count_utf8]
  exact List.count_eq_zero.mpr h

/-- Behind a line feed the last line is empty. -/
theorem lastLine_concat_lineFeed (bytes : List UInt8) : lastLine (bytes ++ [lineFeed]) = [] :=
  List.rtakeWhile_concat_neg _ _ _ (by decide)

/-- Any other byte belongs to the last line. -/
theorem lastLine_concat {byte : UInt8} (h : byte ≠ lineFeed) (bytes : List UInt8) :
    lastLine (bytes ++ [byte]) = lastLine bytes ++ [byte] :=
  List.rtakeWhile_concat_pos _ _ _ (bne_iff_ne.mpr h)

/-- The last line starts in the bytes that are appended, or before them if they have no line
    feed. -/
theorem lastLine_append (bytes more : List UInt8) :
    lastLine (bytes ++ more) = if lineFeed ∈ more then lastLine more
      else lastLine bytes ++ more := by
  induction more using List.reverseRecOn with
  | nil => rw [List.append_nil, List.append_nil, if_neg List.not_mem_nil]
  | append_singleton more byte ih =>
    rw [← List.append_assoc]
    by_cases hbyte : byte = lineFeed
    · -- the last of the new bytes is a line feed, and the last line is empty
      subst hbyte
      rw [lastLine_concat_lineFeed, if_pos (List.mem_append_right _ List.mem_cons_self),
        lastLine_concat_lineFeed]
    · -- otherwise it belongs to the last line of what stands before it
      have hmem : lineFeed ∈ more ++ [byte] ↔ lineFeed ∈ more := by
        simp [Ne.symm hbyte]
      rw [lastLine_concat hbyte, ih, lastLine_concat hbyte]
      simp only [hmem]
      split
      · rfl
      · exact List.append_assoc _ _ _

theorem lastLine_eq_self {bytes : List UInt8} (h : lineFeed ∉ bytes) : lastLine bytes = bytes := by
  have happend := lastLine_append [] bytes
  rwa [if_neg h] at happend

/-- The last line is no longer than all lines. -/
theorem length_lastLine_le (bytes : List UInt8) : (lastLine bytes).length ≤ bytes.length :=
  (List.rtakeWhile_suffix _ _).length_le

/-! ## The bytes before an offset -/

theorem bytesBefore_nil (offset : Nat) : bytesBefore [] offset = [] :=
  List.take_nil

/-- As many bytes stand before an offset as it counts, and not more than there are. -/
theorem length_bytesBefore (text : List Char) (offset : Nat) :
    (bytesBefore text offset).length = min offset (byteLength text) := by
  rw [bytesBefore, List.length_take, length_utf8]

/-- All bytes stand before an offset at the end of the text or behind it. -/
theorem bytesBefore_of_le (h : byteLength text ≤ offset) : bytesBefore text offset = utf8 text :=
  List.take_of_length_le (by rwa [length_utf8])

/-- Before an offset behind a first part of the text stands that part. -/
theorem bytesBefore_append_add (front back : List Char) (offset : Nat) :
    bytesBefore (front ++ back) (byteLength front + offset) =
      utf8 front ++ bytesBefore back offset := by
  rw [bytesBefore, utf8_append, ← length_utf8, List.take_length_add_append, bytesBefore]

/-- What stands before an offset in the first of two texts does not depend on the second. -/
theorem bytesBefore_append_of_le (h : offset ≤ byteLength front) (back : List Char) :
    bytesBefore (front ++ back) offset = bytesBefore front offset := by
  rw [bytesBefore, utf8_append, List.take_append_of_le_length (by rwa [length_utf8]), bytesBefore]

/-- More bytes stand before a later offset of the text. -/
theorem exists_bytesBefore_eq_append {later : Nat} (h : offset < later)
    (hlater : later ≤ byteLength text) :
    ∃ more, more ≠ [] ∧ bytesBefore text later = bytesBefore text offset ++ more := by
  obtain ⟨more, hmore⟩ : bytesBefore text offset <+: bytesBefore text later :=
    List.take_prefix_take_left (Nat.le_of_lt h)
  refine ⟨more, ?_, hmore.symm⟩
  rintro rfl
  have hlength := congrArg List.length hmore
  rw [List.append_nil, length_bytesBefore, length_bytesBefore] at hlength
  omega

/-- More bytes end on a later line, or farther to the right on the same line. -/
theorem lineFeeds_lt_or_lastLine_lt {more : List UInt8} (h : more ≠ []) (bytes : List UInt8) :
    bytes.count lineFeed < (bytes ++ more).count lineFeed ∨
      bytes.count lineFeed = (bytes ++ more).count lineFeed ∧
        (lastLine bytes).length < (lastLine (bytes ++ more)).length := by
  rw [List.count_append, lastLine_append]
  by_cases hmem : lineFeed ∈ more
  · exact .inl (Nat.lt_add_of_pos_right (List.count_pos_iff.mpr hmem))
  · refine .inr ⟨?_, ?_⟩
    · rw [List.count_eq_zero.mpr hmem, Nat.add_zero]
    · rw [if_neg hmem, List.length_append]
      exact Nat.lt_add_of_pos_right (List.length_pos_iff.mpr h)

/-! ## The scan -/

/-- Behind a first line feed, the offset counts one less. -/
theorem bytesBefore_newline_cons (hn : 0 < n) (cs : List Char) :
    bytesBefore ('\n' :: cs) n = lineFeed :: bytesBefore cs (n - 1) := by
  obtain ⟨m, rfl⟩ := Nat.exists_eq_add_of_lt hn
  rw [bytesBefore, utf8_cons, utf8EncodeChar_newline]
  simp [bytesBefore]

/-- The bytes that another character adds are no line feeds. -/
theorem exists_bytesBefore_cons (hc : c ≠ '\n') (cs : List Char) (n : Nat) :
    ∃ inside, lineFeed ∉ inside ∧ bytesBefore (c :: cs) n =
      inside ++ bytesBefore cs (n - c.utf8Size) := by
  refine ⟨(String.utf8EncodeChar c).take n, fun h => ?_, ?_⟩
  · exact hc (eq_newline_of_mem_utf8EncodeChar (List.mem_of_mem_take h))
  · rw [bytesBefore, utf8_cons, List.take_append, String.length_utf8EncodeChar, bytesBefore]

/-- The scan counts the line feeds before the offset and finds where the line of the offset
    starts. -/
theorem scanLines_eq (offset : Nat) (cs : List Char) (here lineFeeds lineStart : Nat) :
    scanLines offset cs here lineFeeds lineStart =
      (lineFeeds + (bytesBefore cs (offset - here)).count lineFeed,
        if lineFeed ∈ bytesBefore cs (offset - here) then
          (lastLine (bytesBefore cs (offset - here))).length
        else min offset (here + byteLength cs) - lineStart) := by
  induction cs generalizing here lineFeeds lineStart with
  | nil => simp [scanLines, bytesBefore_nil]
  | cons c cs ih =>
    rw [scanLines]
    -- the scan stops at the offset; before it, a line feed starts a new line
    by_cases hstop : offset ≤ here
    · have hnone : bytesBefore (c :: cs) (offset - here) = [] := by
        rw [Nat.sub_eq_zero_of_le hstop]
        rfl
      rw [if_pos hstop, hnone, if_neg List.not_mem_nil, Nat.min_eq_left (by omega)]
      rfl
    · rw [if_neg hstop]
      by_cases hc : c = '\n'
      · -- the line of the offset starts behind this line feed, or behind a later one
        subst hc
        rw [if_pos rfl, ih, bytesBefore_newline_cons (by omega), Nat.sub_add_eq]
        generalize hrest : bytesBefore cs (offset - here - 1) = rest
        have hlength := congrArg List.length hrest
        rw [length_bytesBefore] at hlength
        rw [← List.singleton_append, List.count_append, List.count_singleton_self, lastLine_append,
          if_pos (List.mem_append_left _ List.mem_cons_self), Nat.add_assoc]
        congr 1
        split
        · rfl
        · rw [← List.nil_append [lineFeed], lastLine_concat_lineFeed, List.nil_append]
          omega
      · -- the line goes on
        obtain ⟨inside, hinside, hread⟩ := exists_bytesBefore_cons hc cs (offset - here)
        rw [if_neg hc, ih, hread, ← Nat.sub_sub, List.count_append, List.count_eq_zero.mpr hinside,
          Nat.zero_add, lastLine_append, byteLength_cons, Nat.add_assoc]
        simp only [List.mem_append, hinside, false_or]
        split <;> rfl

/-- A position counts the line feeds before the offset, and the bytes between the last of them and
    the offset. -/
theorem position_eq (text : List Char) (offset : Nat) :
    position text offset =
      ⟨((bytesBefore text offset).count lineFeed).toUInt32 + 1,
        (lastLine (bytesBefore text offset)).length.toUInt32 + 1⟩ := by
  have hscan := scanLines_eq offset text 0 0 0
  rw [Nat.sub_zero, Nat.sub_zero, Nat.zero_add, Nat.zero_add] at hscan
  -- without a line feed, the last line is all that stands before the offset
  have hlength :
    (if lineFeed ∈ bytesBefore text offset then (lastLine (bytesBefore text offset)).length
      else min offset (byteLength text)) = (lastLine (bytesBefore text offset)).length := by
    split
    · rfl
    · rename_i hmem
      rw [lastLine_eq_self hmem, length_bytesBefore]
  rw [position, hscan, hlength]

/-- Behind the end of the text, every offset has the position of the end. -/
theorem position_of_le (h : byteLength text ≤ offset) :
    position text offset = position text (byteLength text) := by
  rw [position_eq, position_eq, bytesBefore_of_le h, bytesBefore_of_le (Nat.le_refl _)]

/-! ## Lines and their starts -/

/-- Lines with a line feed behind each of them. -/
def terminated (ls : List (List Char)) : List Char :=
  ls.flatMap (· ++ ['\n'])

/-- The offset at which a line starts, where the first line has the index 0. -/
def lineStart (text : List Char) (index : Nat) : Nat :=
  byteLength (terminated ((lines text).take index))

theorem unlines_singleton (line : List Char) : unlines [line] = line :=
  List.intercalate_singleton

theorem terminated_cons (line : List Char) (ls : List (List Char)) :
    terminated (line :: ls) = line ++ '\n' :: terminated ls := by
  rw [terminated, List.flatMap_cons, List.append_assoc]
  rfl

theorem terminated_concat (ls : List (List Char)) (line : List Char) :
    terminated (ls ++ [line]) = terminated ls ++ line ++ ['\n'] := by
  rw [terminated, List.flatMap_append, List.flatMap_singleton, ← List.append_assoc]
  rfl

/-- There are as many line feeds as lines. -/
theorem count_terminated (h : ∀ line ∈ ls, '\n' ∉ line) :
    (terminated ls).count '\n' = ls.length := by
  induction ls with
  | nil => rfl
  | cons line ls ih =>
    obtain ⟨hline, hls⟩ := List.forall_mem_cons.mp h
    rw [terminated_cons, List.count_append, List.count_eq_zero.mpr hline,
      List.count_cons_self, ih hls, Nat.zero_add, List.length_cons]

/-- Behind a line feed another line starts. -/
theorem lastLine_terminated (ls : List (List Char)) : lastLine (utf8 (terminated ls)) = [] := by
  rcases List.eq_nil_or_concat ls with rfl | ⟨init, last, rfl⟩
  · rfl
  · rw [List.concat_eq_append, terminated_concat, utf8_append]
    exact lastLine_concat_lineFeed _

/-- The first lines of a text stand with their line feeds before the others. -/
theorem unlines_append (front : List (List Char)) {back : List (List Char)} (hback : back ≠ []) :
    unlines (front ++ back) = terminated front ++ unlines back := by
  induction front with
  | nil => rfl
  | cons line front ih =>
    rw [List.cons_append, unlines_cons,
      ← newline_cons_unlines (List.append_ne_nil_of_right_ne_nil front hback), ih, terminated_cons,
      List.append_assoc]
    rfl

/-- Before a line stand the lines with smaller indices, and behind it the rest of the text. -/
theorem exists_eq_terminated_append (h : (lines text)[n]? = some line) :
    ∃ rest, text = terminated ((lines text).take n) ++ (line ++ rest) := by
  obtain ⟨hn, hline⟩ := List.getElem?_eq_some_iff.mp h
  refine ⟨((lines text).drop (n + 1)).flatMap ('\n' :: ·), ?_⟩
  rw [← unlines_cons, ← unlines_append _ (List.cons_ne_nil _ _), ← hline,
    ← List.drop_eq_getElem_cons, List.take_append_drop, unlines_lines]

/-- Before a place in a line stand the lines with smaller indices and the start of the line. -/
theorem bytesBefore_lineStart_add (h : (lines text)[n]? = some line) (hk : k ≤ byteLength line) :
    bytesBefore text (lineStart text n + k) =
      utf8 (terminated ((lines text).take n)) ++ bytesBefore line k := by
  obtain ⟨rest, htext⟩ := exists_eq_terminated_append h
  calc bytesBefore text (lineStart text n + k)
      = bytesBefore (terminated ((lines text).take n) ++ (line ++ rest))
        (lineStart text n + k) := by
        rw [← htext]
    _ = utf8 (terminated ((lines text).take n)) ++ bytesBefore (line ++ rest) k :=
        bytesBefore_append_add _ _ _
    _ = utf8 (terminated ((lines text).take n)) ++ bytesBefore line k := by
        rw [bytesBefore_append_of_le hk]

/-- Before a place in a line stand as many line feeds as lines, and behind the last of them the
    start of the line. -/
theorem lineFeeds_lineStart_add (h : (lines text)[n]? = some line) (hk : k ≤ byteLength line) :
    (bytesBefore text (lineStart text n + k)).count lineFeed = n ∧
      (lastLine (bytesBefore text (lineStart text n + k))).length = k := by
  -- the lines before have no line feeds inside, and neither has the start of this one
  have hlines : ∀ line ∈ (lines text).take n, '\n' ∉ line := fun line hline =>
    newline_notMem_of_mem_lines (List.mem_of_mem_take hline)
  have hline : lineFeed ∉ bytesBefore line k := fun hmem =>
    lineFeed_notMem_utf8 (newline_notMem_of_mem_lines (List.mem_of_getElem? h))
      (List.mem_of_mem_take hmem)
  have hn : n ≤ (lines text).length := Nat.le_of_lt (List.getElem?_eq_some_iff.mp h).1
  rw [bytesBefore_lineStart_add h hk]
  constructor
  · rw [List.count_append, count_utf8, count_terminated hlines, List.length_take_of_le hn,
      List.count_eq_zero.mpr hline, Nat.add_zero]
  · rw [lastLine_append, if_neg hline, lastLine_terminated, List.nil_append, length_bytesBefore,
      Nat.min_eq_left hk]

/-- Every offset of a text is a place in one of its lines, by induction on the lines. -/
theorem exists_of_le_unlines (hls : ls ≠ []) (h : offset ≤ byteLength (unlines ls)) :
    ∃ n line k, ls[n]? = some line ∧ k ≤ byteLength line ∧
      offset = byteLength (terminated (ls.take n)) + k := by
  induction ls generalizing offset with
  | nil => exact absurd rfl hls
  | cons first rest ih =>
    by_cases hfirst : offset ≤ byteLength first
    · exact ⟨0, first, offset, rfl, hfirst, (Nat.zero_add _).symm⟩
    · -- the offset is behind the first line feed
      have hrest : rest ≠ [] := by
        rintro rfl
        rw [unlines_singleton] at h
        exact hfirst h
      rw [unlines_cons, ← newline_cons_unlines hrest, byteLength_append, byteLength_cons,
        show ('\n').utf8Size = 1 from rfl] at h
      -- it is counted from there in the lines behind the first one
      obtain ⟨n, line, k, hline, hk, hoffset⟩ :=
        ih hrest (show offset - (byteLength first + 1) ≤ _ by omega)
      refine ⟨n + 1, line, k, by rwa [List.getElem?_cons_succ], hk, ?_⟩
      rw [List.take_succ_cons, terminated_cons, byteLength_append, byteLength_cons,
        show ('\n').utf8Size = 1 from rfl]
      omega

/-- Each offset of a text is a place in one of its lines. -/
theorem exists_lineStart_add (h : offset ≤ byteLength text) :
    ∃ n line k, (lines text)[n]? = some line ∧ k ≤ byteLength line ∧
      offset = lineStart text n + k :=
  exists_of_le_unlines (lines_ne_nil text) (by rwa [unlines_lines])

/-- A place in a line is one in the text. -/
theorem lineStart_add_le (h : (lines text)[n]? = some line) (hk : k ≤ byteLength line) :
    lineStart text n + k ≤ byteLength text := by
  obtain ⟨rest, htext⟩ := exists_eq_terminated_append h
  -- the text is the lines before, the line and what is behind it
  have hlength := congrArg byteLength htext
  rw [byteLength_append, byteLength_append, ← lineStart] at hlength
  omega

/-- What stands behind the last line feed of a text is its last line. -/
theorem lastLine_utf8 (text : List Char) :
    lastLine (utf8 text) = utf8 ((lines text).getLast (lines_ne_nil text)) := by
  have htext := unlines_lines text
  rw [← List.dropLast_concat_getLast (lines_ne_nil text),
    unlines_append _ (List.cons_ne_nil _ _)] at htext
  have hlast : '\n' ∉ (lines text).getLast (lines_ne_nil text) :=
    newline_notMem_of_mem_lines (List.getLast_mem _)
  generalize (lines text).getLast (lines_ne_nil text) = last at htext hlast
  rw [← htext, utf8_append, unlines_singleton, lastLine_append,
    if_neg (lineFeed_notMem_utf8 hlast), lastLine_terminated, List.nil_append]

/-! ## Positions -/

namespace Position

/-- Positions in the order of a text: by the line, and by the column in the same line. -/
def Before (first second : Position) : Prop :=
  first.line < second.line ∨ first.line = second.line ∧ first.column < second.column

/-- A position is in a text if its line is one of the text's, and its column is at a byte of the
    line or right behind the last one. -/
structure IsIn (text : List Char) (place : Position) : Prop where
  line_pos : 1 ≤ place.line.toNat
  column_pos : 1 ≤ place.column.toNat
  column_le : ∃ line, (lines text)[place.line.toNat - 1]? = some line ∧
    place.column.toNat - 1 ≤ byteLength line

/-- The offset that a position stands for: where its line starts, and the columns before its own. -/
def toOffset (text : List Char) (place : Position) : Nat :=
  lineStart text (place.line.toNat - 1) + (place.column.toNat - 1)

/-- Positions with the same line and the same column are one. -/
theorem eq_of_toNat_eq {first second : Position} (hline : first.line.toNat = second.line.toNat)
    (hcolumn : first.column.toNat = second.column.toNat) : first = second :=
  congrArg₂ Position.mk (UInt32.toNat_inj.mp hline) (UInt32.toNat_inj.mp hcolumn)

end Position

/-- One more than a count that is below the greatest word does not wrap. -/
theorem toNat_toUInt32_add_one (hn : n < 2 ^ 32 - 1) : (n.toUInt32 + 1).toNat = n + 1 := by
  have hword : n.toUInt32.toNat = n := UInt32.toNat_ofNat_of_lt' (Nat.lt_trans hn (by decide))
  rw [UInt32.toNat_add, hword, UInt32.toNat_one, Nat.mod_eq_of_lt (by omega)]

section Words

-- no count of bytes or line feeds reaches the greatest word, so that 1 can be added to each of them
variable (h : byteLength text < 2 ^ 32 - 1)
include h

/-- The line counts the line feeds before the offset, as long as these can be counted. -/
theorem toNat_line (offset : Nat) :
    (position text offset).line.toNat = (bytesBefore text offset).count lineFeed + 1 := by
  have hcount := (bytesBefore text offset).count_le_length (a := lineFeed)
  rw [length_bytesBefore] at hcount
  rw [position_eq]
  exact toNat_toUInt32_add_one (by omega)

/-- The column counts the bytes of the last line before the offset, as long as these can be
    counted. -/
theorem toNat_column (offset : Nat) :
    (position text offset).column.toNat = (lastLine (bytesBefore text offset)).length + 1 := by
  have hlength := length_lastLine_le (bytesBefore text offset)
  rw [length_bytesBefore] at hlength
  rw [position_eq]
  exact toNat_toUInt32_add_one (by omega)

/-- The first line ends with the first line feed. -/
theorem line_eq_one_iff (offset : Nat) :
    (position text offset).line = 1 ↔ lineFeed ∉ bytesBefore text offset := by
  rw [← UInt32.toNat_inj, toNat_line h, UInt32.toNat_one, Nat.add_eq_right, List.count_eq_zero]

/-- A later offset has a later position: more line feeds stand before it, or more bytes in the same
    line. -/
theorem position_before {later : Nat} (hlt : offset < later) (hlater : later ≤ byteLength text) :
    (position text offset).Before (position text later) := by
  obtain ⟨more, hmore, hbytes⟩ := exists_bytesBefore_eq_append hlt hlater
  simp only [Position.Before, UInt32.lt_iff_toNat_lt, ← UInt32.toNat_inj, toNat_line h,
    toNat_column h, hbytes, Nat.add_lt_add_iff_right, Nat.add_right_cancel_iff]
  exact lineFeeds_lt_or_lastLine_lt hmore _

/-- The position of a place in a line. -/
theorem toNat_position_lineStart_add (hline : (lines text)[n]? = some line)
    (hk : k ≤ byteLength line) :
    (position text (lineStart text n + k)).line.toNat = n + 1 ∧
      (position text (lineStart text n + k)).column.toNat = k + 1 := by
  obtain ⟨hlines, hbytes⟩ := lineFeeds_lineStart_add hline hk
  rw [toNat_line h, toNat_column h, hlines, hbytes]
  exact ⟨rfl, rfl⟩

/-- A position in the text is that of the offset that it stands for. -/
theorem position_toOffset {place : Position} (hplace : place.IsIn text) :
    place.toOffset text ≤ byteLength text ∧ position text (place.toOffset text) = place := by
  obtain ⟨line, hline, hcolumn⟩ := hplace.column_le
  obtain ⟨hlineNat, hcolumnNat⟩ := toNat_position_lineStart_add h hline hcolumn
  rw [Nat.sub_add_cancel hplace.line_pos] at hlineNat
  rw [Nat.sub_add_cancel hplace.column_pos] at hcolumnNat
  exact ⟨lineStart_add_le hline hcolumn, Position.eq_of_toNat_eq hlineNat hcolumnNat⟩

/-- The position of an offset of the text is in the text and stands for the offset. -/
theorem toOffset_position (hoffset : offset ≤ byteLength text) :
    (position text offset).IsIn text ∧ (position text offset).toOffset text = offset := by
  obtain ⟨n, line, k, hline, hk, rfl⟩ := exists_lineStart_add hoffset
  obtain ⟨hlineNat, hcolumnNat⟩ := toNat_position_lineStart_add h hline hk
  rw [Position.toOffset, hlineNat, hcolumnNat]
  refine ⟨⟨?_, ?_, line, ?_, ?_⟩, rfl⟩
  · exact hlineNat ▸ Nat.le_add_left 1 n
  · exact hcolumnNat ▸ Nat.le_add_left 1 k
  · rwa [hlineNat]
  · rwa [hcolumnNat]

end Words

/-- Behind a first part of a text, the lines are counted on from those of the part, and the columns
    of the first line from the end of the part's last line. -/
theorem position_append (h : byteLength (front ++ back) < 2 ^ 32 - 1) (offset : Nat) :
    (position (front ++ back) (byteLength front + offset)).line.toNat =
        front.count '\n' + (position back offset).line.toNat ∧
      (position (front ++ back) (byteLength front + offset)).column.toNat =
        (if (position back offset).line = 1 then
            byteLength ((lines front).getLast (lines_ne_nil front)) else 0) +
          (position back offset).column.toNat := by
  have hback : byteLength back < 2 ^ 32 - 1 := by
    rw [byteLength_append] at h
    omega
  rw [toNat_line h, toNat_column h, toNat_line hback, toNat_column hback, bytesBefore_append_add]
  constructor
  · rw [List.count_append, count_utf8, Nat.add_assoc]
  · rw [lastLine_append]
    -- in the first line of the back, the column goes on from the end of the front
    simp only [line_eq_one_iff hback, ite_not]
    split
    · rw [Nat.zero_add]
    · rename_i hmem
      rw [lastLine_eq_self hmem, List.length_append, lastLine_utf8, length_utf8, Nat.add_assoc]

/-- What the positions of a text say of its offsets. -/
structure FaithfulPositions (text : List Char) : Prop where
  /-- The line is one more than the number of line feeds before the offset, and the column one more
      than the number of bytes between the last of them and the offset, so both are at least 1. -/
  counted : ∀ offset, (position text offset).line.toNat =
    (bytesBefore text offset).count lineFeed + 1 ∧
    (position text offset).column.toNat = (lastLine (bytesBefore text offset)).length + 1
  /-- A later offset has a later position. -/
  increasing : ∀ offset later, offset < later → later ≤ byteLength text →
    (position text offset).Before (position text later)
  /-- Different offsets have different positions. -/
  distinct : ∀ offset other, offset ≤ byteLength text → other ≤ byteLength text →
    position text offset = position text other → offset = other
  /-- All offsets behind the end have the position of the end. -/
  constant : ∀ offset, byteLength text ≤ offset →
    position text offset = position text (byteLength text)
  /-- The position of an offset is in the text, and the offset is found again from it. -/
  inverted : ∀ offset, offset ≤ byteLength text →
    (position text offset).IsIn text ∧ (position text offset).toOffset text = offset
  /-- Every position in the text is that of an offset. -/
  reached : ∀ place : Position, place.IsIn text →
    place.toOffset text ≤ byteLength text ∧ position text (place.toOffset text) = place
  /-- Behind a first part of the text, the lines are counted on from those of the part, and the
      columns of the first line from the end of the part's last line. -/
  shifted : ∀ front back, text = front ++ back → ∀ offset,
    (position text (byteLength front + offset)).line.toNat =
        front.count '\n' + (position back offset).line.toNat ∧
      (position text (byteLength front + offset)).column.toNat =
        (if (position back offset).line = 1 then
            byteLength ((lines front).getLast (lines_ne_nil front)) else 0) +
          (position back offset).column.toNat

/-- The positions of a text of fewer than `2 ^ 32 - 1` bytes can be trusted. -/
theorem position_faithful (h : byteLength text < 2 ^ 32 - 1) : FaithfulPositions text where
  counted := fun offset => ⟨toNat_line h offset, toNat_column h offset⟩
  increasing := fun _ _ => position_before h
  distinct := fun offset other hoffset hother hsame => by
    rw [← (toOffset_position h hoffset).2, hsame, (toOffset_position h hother).2]
  constant := fun _ => position_of_le
  inverted := fun _ => toOffset_position h
  reached := fun _ => position_toOffset h
  shifted := by
    rintro front back rfl
    exact position_append h

/-- A source whose second line has a character of two bytes, whose third line is empty and whose
    last line ends with no line feed. -/
def sampleSource : List Char :=
  "a\né\n\nbc".toList

/-- Its positions, with those of two offsets behind its end. -/
theorem position_faithful_sampleSource :
    byteLength sampleSource < 2 ^ 32 - 1 ∧ FaithfulPositions sampleSource ∧
      (List.range 11).map (position sampleSource) =
        [⟨1, 1⟩, ⟨1, 2⟩, ⟨2, 1⟩, ⟨2, 2⟩, ⟨2, 3⟩, ⟨3, 1⟩, ⟨4, 1⟩, ⟨4, 2⟩, ⟨4, 3⟩, ⟨4, 3⟩, ⟨4, 3⟩] :=
  ⟨by decide, position_faithful (by decide), by decide⟩

end SvelteStories.Text
