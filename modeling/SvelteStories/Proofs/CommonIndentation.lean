import Mathlib.Data.List.Forall2
import SvelteStories.Proofs.Lines

/-!
# Common indentation

`dedent` removes spaces and tabs from the start of the lines, and then white space at both ends of
the text.  Nothing else is lost.  If every line that is not blank is indented, then the least of the
indentations goes from each of them, and the text may be moved to the right as a whole.

The white space at the start goes with the blank lines, and the indentation that the first of the
other lines has beyond the common one goes with it.

## Key results

- `isUnindented_dedent`: what is removed
- `dedent_indented`: a text that is moved to the right
- `dedent_keeps_text`: both, and the text that is kept
- `lines_dedent`: line by line, and when the lines keep their indentation relative to each other
-/

namespace SvelteStories.Text

variable {text line indent : List Char} {ls : List (List Char)} {n : Nat}

/-! ## The indentation of a line -/

/-- Spaces and tabs are white space. -/
theorem isBlank_of_isIndent {c : Char} (h : isIndent c = true) : isBlank c = true := by
  simp only [isIndent, Bool.or_eq_true, beq_iff_eq] at h
  rcases h with rfl | rfl <;> rfl

/-- An indentation is blank. -/
theorem isBlankText_of_isIndent (h : indent.all isIndent = true) : isBlankText indent = true :=
  List.all_eq_true.mpr fun c hc => isBlank_of_isIndent (List.all_eq_true.mp h c hc)

/-- A line that does not start with white space is not indented. -/
theorem indentation_eq_zero {c : Char} (h : c ∈ line.head?) (hc : isBlank c = false) :
    indentation line = 0 := by
  obtain ⟨rest, rfl⟩ := List.head?_eq_some_iff.mp h
  rw [indentation, List.takeWhile_cons_of_neg fun hindent => ?_]
  · rfl
  · exact Bool.eq_false_iff.mp hc (isBlank_of_isIndent hindent)

/-- The indentation of a line is all the spaces and tabs that it starts with. -/
theorem take_indentation (line : List Char) :
    line.take (indentation line) = line.takeWhile isIndent :=
  List.prefix_iff_eq_take.mp (List.takeWhile_prefix _) |>.symm

/-- Spaces and tabs in front of a line indent it as much more. -/
theorem indentation_append (h : indent.all isIndent = true) (line : List Char) :
    indentation (indent ++ line) = indent.length + indentation line := by
  rw [indentation, List.takeWhile_append_of_pos (List.all_eq_true.mp h), List.length_append]
  rfl

/-- A line is indented if it starts with a space or a tab. -/
theorem indentation_pos_iff : 0 < indentation line ↔ line.head?.any isIndent = true := by
  cases line with
  | nil => simp [indentation]
  | cons c cs => cases hc : isIndent c <;> simp [indentation, hc]

/-- Only spaces and tabs at the start of a line are removed from it. -/
theorem exists_eq_append_unindent (n : Nat) (line : List Char) :
    ∃ indent, indent.all isIndent = true ∧ line = indent ++ unindent n line := by
  refine ⟨line.take (min (indentation line) n), ?_, (List.take_append_drop _ _).symm⟩
  rw [Nat.min_comm, ← List.take_take, take_indentation, List.all_eq_true]
  exact fun c hc => List.mem_takeWhile_imp (List.mem_of_mem_take hc)

/-- From a line that is indented that much, all of it is removed. -/
theorem unindent_eq_drop (h : n ≤ indentation line) : unindent n line = line.drop n := by
  rw [unindent, Nat.min_eq_right h]

theorem unindent_zero (line : List Char) : unindent 0 line = line :=
  unindent_eq_drop (Nat.zero_le _)

/-- Spaces and tabs in front of a line are removed with as much more. -/
theorem unindent_append (h : indent.all isIndent = true) (n : Nat) (line : List Char) :
    unindent (indent.length + n) (indent ++ line) = unindent n line := by
  rw [unindent, indentation_append h, Nat.add_min_add_left, List.drop_length_add_append, unindent]

/-- A line stays blank, and stays not blank. -/
theorem isBlankText_unindent (n : Nat) (line : List Char) :
    isBlankText (unindent n line) = isBlankText line := by
  obtain ⟨indent, hindent, hline⟩ := exists_eq_append_unindent n line
  conv_rhs => rw [hline, isBlankText_append, isBlankText_of_isIndent hindent, Bool.true_and]

/-! ## The common indentation of lines -/

/-- A line asks for its own indentation, if it has one and is not blank. -/
theorem indentation?_eq_some_iff :
    indentation? line = some n ↔ isBlankText line = false ∧ indentation line = n ∧ 0 < n := by
  have hblank : isBlankText (line.drop (indentation line)) = isBlankText line := by
    rw [← unindent_eq_drop (Nat.le_refl _), isBlankText_unindent]
  rw [indentation?, hblank]
  cases isBlankText line <;> grind

/-- The common indentation is that of some line, and no line asks for less. -/
theorem commonIndentation?_eq_some_iff : commonIndentation? ls = some n ↔
    (∃ line ∈ ls, indentation? line = some n) ∧ ∀ line ∈ ls, ∀ k ∈ indentation? line, n ≤ k := by
  rw [commonIndentation?, List.min?_eq_some_iff, List.mem_filterMap]
  refine and_congr_right fun _ => ?_
  simp only [List.mem_filterMap]
  exact ⟨fun h line hline k hk => h k ⟨line, hline, hk⟩, fun h k ⟨line, hline, hk⟩ =>
    h line hline k hk⟩

/-- Some line is not blank, and all such lines are indented; the least of their indentations is the
    given one. -/
structure LeastIndentation (n : Nat) (ls : List (List Char)) : Prop where
  pos : 0 < n
  reached : ∃ line ∈ ls, isBlankText line = false ∧ indentation line = n
  least : ∀ line ∈ ls, isBlankText line = false → n ≤ indentation line

/-- That is then the common indentation. -/
theorem LeastIndentation.commonIndentation? (h : LeastIndentation n ls) :
    commonIndentation? ls = some n := by
  obtain ⟨line, hline, hfull, hn⟩ := h.reached
  refine commonIndentation?_eq_some_iff.mpr
    ⟨⟨line, hline, indentation?_eq_some_iff.mpr ⟨hfull, hn, h.pos⟩⟩, fun line hline k hk => ?_⟩
  obtain ⟨hfull, rfl, -⟩ := indentation?_eq_some_iff.mp hk
  exact h.least line hline hfull

/-- Lines of which all that are not blank are indented have a least indentation, or they are all
    blank. -/
theorem leastIndentation_or_isBlankText
    (h : ∀ line ∈ ls, isBlankText line = false → 0 < indentation line) :
    (∃ n, LeastIndentation n ls) ∨ ∀ line ∈ ls, isBlankText line = true := by
  cases hcommon : Text.commonIndentation? ls with
  | none =>
    -- a line that is not blank would ask for its indentation, and none did
    refine .inr fun line hline => ?_
    rw [Text.commonIndentation?, List.min?_eq_none_iff, List.filterMap_eq_nil_iff] at hcommon
    by_contra hfull
    have hfull := Bool.eq_false_iff.mpr hfull
    cases (hcommon line hline).symm.trans (indentation?_eq_some_iff.mpr ⟨hfull, rfl,
      h line hline hfull⟩)
  | some n =>
    obtain ⟨⟨line, hline, hasks⟩, hleast⟩ := commonIndentation?_eq_some_iff.mp hcommon
    obtain ⟨hfull, hn, hpos⟩ := indentation?_eq_some_iff.mp hasks
    exact .inl ⟨n, hpos, ⟨line, hline, hfull, hn⟩, fun line hline hfull =>
      hleast line hline _ (indentation?_eq_some_iff.mpr ⟨hfull, rfl, h line hline hfull⟩)⟩

/-! ## What is removed -/

/-- The text with the common indentation removed from every line, if there is one, and then white
    space at both ends. -/
theorem dedent_eq (text : List Char) :
    dedent text =
      trim (unlines ((lines text).map (unindent ((commonIndentation? (lines text)).getD 0)))) := by
  unfold dedent
  cases commonIndentation? (lines text) with
  | none =>
    have hsame : unindent 0 = id := funext unindent_zero
    rw [Option.getD_none, hsame, List.map_id, unlines_lines]
  | some n => rfl

/-- What is left of a text when spaces and tabs are removed from the start of its lines, and then
    white space at both ends. -/
def IsUnindented (text result : List Char) : Prop :=
  ∃ ls front back,
    List.Forall₂ (fun line kept => ∃ indent, indent.all isIndent = true ∧
      line = indent ++ kept) (lines text) ls ∧
      isBlankText front = true ∧ isBlankText back = true ∧ unlines ls = front ++ (result ++ back)

/-- White space at both ends is all that is removed there. -/
theorem exists_eq_append_trim (cs : List Char) :
    ∃ front back, isBlankText front = true ∧ isBlankText back = true ∧
      cs = front ++ (trim cs ++ back) := by
  refine ⟨cs.takeWhile isBlank, (trimStart cs).rtakeWhile isBlank, List.all_takeWhile,
    List.all_eq_true.mpr fun _ => List.mem_rtakeWhile_imp, ?_⟩
  rw [trim, trimEnd, ← List.rdropWhile, List.rdropWhile_append_rtakeWhile, trimStart,
    List.takeWhile_append_dropWhile]

/-- What is left after dedenting is the text without some indentation, and without white space at
    both ends. -/
theorem isUnindented_dedent (text : List Char) : IsUnindented text (dedent text) := by
  rw [dedent_eq]
  generalize (commonIndentation? (lines text)).getD 0 = n
  obtain ⟨front, back, hfront, hback, heq⟩ :=
    exists_eq_append_trim (unlines ((lines text).map (unindent n)))
  refine ⟨_, front, back, ?_, hfront, hback, heq⟩
  rw [List.forall₂_map_right_iff, List.forall₂_same]
  exact fun line _ => exists_eq_append_unindent n line

/-- The characters of a text that are no white space. -/
def inked (text : List Char) : List Char :=
  text.filter (!isBlank ·)

theorem inked_append (cs ds : List Char) : inked (cs ++ ds) = inked cs ++ inked ds :=
  List.filter_append _ _

/-- A blank text is all white space. -/
theorem inked_of_isBlankText {cs : List Char} (h : isBlankText cs = true) : inked cs = [] := by
  rw [inked, List.filter_eq_nil_iff]
  exact fun c hc => by rw [List.all_eq_true.mp h c hc]; decide

/-- What is no white space in a text is that of its lines, as line feeds are white space. -/
theorem inked_unlines (ls : List (List Char)) : inked (unlines ls) = ls.flatMap inked := by
  cases ls with
  | nil => rfl
  | cons line ls =>
    rw [unlines_cons, inked_append, inked, inked, List.filter_flatMap, List.flatMap_cons]
    rfl

/-- Text that is left when white space is removed has all that was none. -/
theorem IsUnindented.inked {result : List Char} (h : IsUnindented text result) :
    inked result = inked text := by
  obtain ⟨ls, front, back, hlines, hfront, hback, heq⟩ := h
  -- neither the white space at the ends nor the indentation of the lines is counted
  have hresult : Text.inked (unlines ls) = Text.inked result := by
    rw [heq, inked_append, inked_append, inked_of_isBlankText hfront, inked_of_isBlankText hback,
      List.nil_append, List.append_nil]
  have hsame : (lines text).map Text.inked = ls.map Text.inked := by
    rw [← List.forall₂_eq_eq_eq, List.forall₂_map_left_iff, List.forall₂_map_right_iff]
    refine hlines.imp fun line kept ⟨indent, hindent, hline⟩ => ?_
    rw [hline, inked_append, inked_of_isBlankText (isBlankText_of_isIndent hindent),
      List.nil_append]
  rw [← hresult, inked_unlines, List.flatMap_def, ← hsame, ← List.flatMap_def, ← inked_unlines,
    unlines_lines]

/-! ## Text that is moved to the right -/

/-- The text with the same spaces and tabs in front of every line. -/
def indented (indent text : List Char) : List Char :=
  unlines ((lines text).map (indent ++ ·))

/-- To move a text is to move each of its lines. -/
theorem lines_indented (h : indent.all isIndent = true) (text : List Char) :
    lines (indented indent text) = (lines text).map (indent ++ ·) := by
  refine lines_unlines (by simp [lines_ne_nil]) fun line hline => ?_
  obtain ⟨line, hmem, rfl⟩ := List.mem_map.mp hline
  rw [List.mem_append, not_or]
  exact ⟨fun hchar => absurd (List.all_eq_true.mp h _ hchar) (by decide),
    newline_notMem_of_mem_lines hmem⟩

/-- The least indentation grows with the lines. -/
theorem LeastIndentation.map_append (h : indent.all isIndent = true)
    (hleast : LeastIndentation n ls) :
    LeastIndentation (indent.length + n) (ls.map (indent ++ ·)) := by
  have hblank : ∀ line, isBlankText (indent ++ line) = isBlankText line := fun line => by
    rw [isBlankText_append, isBlankText_of_isIndent h, Bool.true_and]
  refine ⟨Nat.add_pos_right _ hleast.pos, ?_, fun line hline hfull => ?_⟩
  · obtain ⟨line, hline, hfull, hn⟩ := hleast.reached
    exact ⟨indent ++ line, List.mem_map_of_mem hline,
      by rw [hblank, hfull], by rw [indentation_append h, hn]⟩
  · obtain ⟨line, hmem, rfl⟩ := List.mem_map.mp hline
    rw [indentation_append h]
    exact Nat.add_le_add_left (hleast.least line hmem (by rw [← hblank, hfull])) _

/-- Nothing is left of blank lines. -/
theorem dedent_of_isBlankText (h : ∀ line ∈ lines text, isBlankText line = true) :
    dedent text = [] := by
  rw [dedent_eq, trim_unlines]
  generalize (commonIndentation? (lines text)).getD 0 = n
  have hblank : ∀ line ∈ (lines text).map (unindent n), isBlankText line = true := by
    intro line hline
    obtain ⟨line, hmem, rfl⟩ := List.mem_map.mp hline
    rw [isBlankText_unindent, h line hmem]
  rw [contentLines_eq_nil hblank]
  rfl

/-- Where a text stands does not matter, if all of its lines are indented or blank. -/
theorem dedent_indented (hlines : ∀ line ∈ lines text, isBlankText line = false →
    0 < indentation line)
    (h : indent.all isIndent = true) : dedent (indented indent text) = dedent text := by
  obtain ⟨n, hleast⟩ | hblank := leastIndentation_or_isBlankText hlines
  · -- the common indentation grows by what the text is moved by, and goes again with it
    have hmoved := (hleast.map_append h).commonIndentation?
    rw [dedent_eq, dedent_eq, lines_indented h, hmoved, hleast.commonIndentation?, List.map_map]
    exact congrArg (trim <| unlines <| List.map · (lines text)) (funext fun line =>
      unindent_append h n line)
  · -- a blank text stays blank, and nothing is left of either
    rw [dedent_of_isBlankText hblank, dedent_of_isBlankText]
    intro line hline
    rw [lines_indented h] at hline
    obtain ⟨line, hmem, rfl⟩ := List.mem_map.mp hline
    rw [isBlankText_append, isBlankText_of_isIndent h, hblank line hmem]
    rfl

/-- All characters of a text that are no white space are kept, and nothing goes but spaces and tabs
    at the start of its lines and white space at its two ends.  Where the text stands does not
    matter, if all of its lines are blank or start with a space or a tab. -/
theorem dedent_keeps_text (text : List Char) :
    inked (dedent text) = inked text ∧ IsUnindented text (dedent text) ∧
      ((∀ line ∈ lines text, isBlankText line = false → line.head?.any isIndent = true) →
        ∀ indent, indent.all isIndent = true → dedent (indented indent text) = dedent text) :=
  ⟨(isUnindented_dedent text).inked, isUnindented_dedent text, fun hlines _ h =>
    dedent_indented (fun line hmem hfull => indentation_pos_iff.mpr (hlines line hmem hfull)) h⟩

/-- A list with two levels, between blank lines. -/
def sampleComment : List Char :=
  "\n  - a\n\n \t- b\n     \n".toList

/-- A list keeps its levels and loses the blank lines around it, wherever it stands. -/
theorem dedent_sampleComment :
    dedent sampleComment = "- a\n\n- b".toList ∧
      dedent (indented "\t ".toList sampleComment) = "- a\n\n- b".toList := by
  have hdedent : dedent sampleComment = "- a\n\n- b".toList := by decide
  obtain ⟨-, -, hindented⟩ := dedent_keeps_text sampleComment
  exact ⟨hdedent, (hindented (by decide) "\t ".toList (by decide)).trans hdedent⟩

/-! ## Line by line -/

/-- The lines that are left, if the text is not blank. -/
theorem lines_dedent_eq (hmem : line ∈ lines text) (hfull : isBlankText line = false) :
    lines (dedent text) = (((contentLines (lines text)).map
      (unindent ((commonIndentation? (lines text)).getD 0))).modifyHead trimStart).modifyLast
        trimEnd := by
  rw [dedent_eq]
  generalize (commonIndentation? (lines text)).getD 0 = n
  rw [lines_trim_unlines, contentLines_map (isBlankText_unindent n)]
  · rw [contentLines_map (isBlankText_unindent n)]
    exact fun hnil => contentLines_ne_nil hmem hfull (List.map_eq_nil_iff.mp hnil)
  · intro kept hkept hchar
    obtain ⟨line, hline, rfl⟩ := List.mem_map.mp hkept
    exact newline_notMem_of_mem_lines hline (List.mem_of_mem_drop hchar)

/-- The lines from the first that is not blank to the last that is not are left, one for one, and
    those that are not blank are without the given number of spaces or tabs; the white space at the
    end of the last one is not looked at. -/
def KeepsIndentation (n : Nat) (text : List Char) : Prop :=
  (lines (dedent text)).length = (contentLines (lines text)).length ∧
    ∀ i line, (contentLines (lines text))[i]? = some line → isBlankText line = false →
      (lines (dedent text))[i]? =
        some (if i + 1 = (contentLines (lines text)).length then trimEnd
          (line.drop n) else line.drop n)

/-- If the lines that are not blank are all indented, the least indentation goes from each of them,
    and the lines are left one for one.  But of the first of them all white space goes that it
    starts with.  So the lines keep their indentation relative to each other exactly if the first
    has the least one. -/
theorem lines_dedent (h : LeastIndentation n (lines text)) :
    lines (dedent text) =
        (((contentLines (lines text)).map (unindent n)).modifyHead trimStart).modifyLast trimEnd ∧
      (∀ line ∈ contentLines (lines text), isBlankText line = false →
        unindent n line = line.drop n) ∧
      (KeepsIndentation n text ↔
        ∀ first ∈ (contentLines (lines text)).head?, ∀ c ∈ (first.drop n).head?,
          isBlank c = false) := by
  obtain ⟨line, hmem, hfull, -⟩ := h.reached
  have hlines := lines_dedent_eq hmem hfull
  rw [h.commonIndentation?, Option.getD_some] at hlines
  have hcontent : ∀ line ∈ contentLines (lines text), line ∈ lines text := by
    obtain ⟨front, back, -, -, heq⟩ := exists_eq_append_contentLines (lines text)
    exact fun line hline => heq ▸ List.mem_append_right _ (List.mem_append_left _ hline)
  have hdrop : ∀ line ∈ contentLines (lines text), isBlankText line = false →
      unindent n line = line.drop n :=
    fun line hline hfull => unindent_eq_drop (h.least line (hcontent line hline) hfull)
  -- each line of the content loses the indentation, the first and the last one white space beside
  have hentry : ∀ i line, (contentLines (lines text))[i]? = some line → isBlankText line = false →
      (lines (dedent text))[i]? = some (if i + 1 = (contentLines (lines text)).length
        then trimEnd (if i = 0 then trimStart (line.drop n) else line.drop n)
        else if i = 0 then trimStart (line.drop n) else line.drop n) := by
    intro i line hi hfull
    rw [hlines, getElem?_modifyLast, List.getElem?_modifyHead, List.length_modifyHead,
      List.length_map, List.getElem?_map, hi, Option.map_some,
      hdrop line (List.mem_of_getElem? hi) hfull]
    split <;> split <;> rfl
  refine ⟨hlines, hdrop, fun hkeeps first hfirst => ?_,
    fun hfirst => ⟨?_, fun i line hi hline => ?_⟩⟩
  · -- if the first line is kept, there is no white space behind the indentation
    have hfullFirst := not_isBlankText_of_head?_contentLines hfirst
    rw [List.head?_eq_getElem?] at hfirst
    have hsame := (hentry 0 first hfirst hfullFirst).symm.trans (hkeeps.2 0 first hfirst hfullFirst)
    refine trimStart_eq_self_iff.mp ?_
    rw [if_pos rfl] at hsame
    split at hsame
    · refine trimStart_eq_self_of_trimEnd ?_ (Option.some.inj hsame)
      rw [← hdrop first (List.mem_of_getElem? hfirst) hfullFirst, isBlankText_unindent, hfullFirst]
    · exact Option.some.inj hsame
  · rw [hlines, length_modifyLast, List.length_modifyHead, List.length_map]
  · rw [hentry i line hi hline]
    -- only of the first line is something removed in front
    by_cases hi0 : i = 0
    · subst hi0
      rw [← List.head?_eq_getElem?] at hi
      rw [if_pos rfl, trimStart_eq_self_iff.mpr (hfirst line hi)]
    · rw [if_neg hi0]

/-- The list keeps its levels, as its first line has the least indentation. -/
theorem lines_sampleComment : LeastIndentation 2 (lines sampleComment) ∧
    lines (dedent sampleComment) = ["- a".toList, [], "- b".toList] ∧
    KeepsIndentation 2 sampleComment := by
  have hleast : LeastIndentation 2 (lines sampleComment) :=
    ⟨by decide, ⟨"  - a".toList, by decide, by decide⟩, by decide⟩
  obtain ⟨-, -, hkeeps⟩ := lines_dedent hleast
  refine ⟨hleast, by decide, hkeeps.mpr fun first hfirst c hc => ?_⟩
  have hcontent : (contentLines (lines sampleComment)).head? = some "  - a".toList := by decide
  obtain rfl := Option.some.inj (hcontent.symm.trans hfirst)
  have hdrop : ("  - a".toList.drop 2).head? = some '-' := by decide
  obtain rfl := Option.some.inj (hdrop.symm.trans hc)
  rfl

/-- Two lines of which the first is indented more. -/
def hangingComment : List Char :=
  "    a\n  b".toList

/-- The first line does not keep its indentation relative to the second. -/
theorem lines_hangingComment : LeastIndentation 2 (lines hangingComment) ∧
    lines (dedent hangingComment) = ["a".toList, "b".toList] ∧
    ¬ KeepsIndentation 2 hangingComment := by
  refine ⟨⟨by decide, ⟨"  b".toList, by decide, by decide⟩, by decide⟩, by decide, fun hkeeps => ?_⟩
  have hfirst := hkeeps.2 0 "    a".toList (by decide) (by decide)
  revert hfirst
  decide

end SvelteStories.Text
