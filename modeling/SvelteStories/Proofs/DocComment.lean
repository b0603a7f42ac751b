import SvelteStories.Proofs.CommonIndentation
import SvelteStories.Text.Comment

/-!
# Doc comments

A description that is written as a doc comment is read back as it was: its lines stand behind a
gutter of spaces, tabs and a star, the gutter goes from each of them, and then the space behind the
star is their common indentation.  What a line has beyond that space is its own, be it indentation,
a star or a slash.

## Key results

- `commentText_docComment`: the text of a doc comment
- `dedent_commentText_docComment`: the description that is read from it
-/

namespace SvelteStories.Text

variable {gutter line : List Char} {ls : List (List Char)}

/-! ## Delimiters -/

/-- An opening is taken away from what it stands in front of. -/
theorem after?_append_rest (opening rest : List Char) :
    after? opening (opening ++ rest) = some rest := by
  induction opening with
  | nil => rfl
  | cons c opening ih => rw [List.cons_append, after?, if_pos rfl, ih]

theorem before?_append (ending text : List Char) : before? ending (text ++ ending) = some text := by
  rw [before?, List.reverse_append, after?_append_rest, Option.map_some, List.reverse_reverse]

/-- The inside of a block comment is what stands between its delimiters. -/
theorem blockInside_append (inside : List Char) :
    blockInside (['/', '*'] ++ (inside ++ ['*', '/'])) = inside := by
  rw [blockInside, after?_append_rest, Option.bind_some, before?_append]
  rfl

/-! ## Gutters -/

/-- Spaces, tabs and a star are the gutter of a line, unless the star ends the comment. -/
theorem dropGutter_append (hgutter : gutter.all isIndent = true) (hline : line.head? ≠ some '/') :
    dropGutter (gutter ++ '*' :: line) = line := by
  have hstar : (gutter ++ '*' :: line).dropWhile isIndent = '*' :: line := by
    rw [List.dropWhile_append_of_pos (List.all_eq_true.mp hgutter),
      List.dropWhile_cons_of_neg (by decide)]
  rw [dropGutter, hstar]
  -- behind the gutter there is a star, which is dropped unless a slash follows
  split
  · rename_i heq
    rw [(List.cons.inj heq).2] at hline
    exact absurd rfl hline
  · rename_i heq
    exact (List.cons.inj heq).2.symm
  · rename_i hno
    exact absurd rfl (hno line)

/-- A line of spaces and tabs has no gutter. -/
theorem dropGutter_of_isIndent (h : line.all isIndent = true) : dropGutter line = line := by
  rw [dropGutter, List.dropWhile_eq_nil_iff.mpr (List.all_eq_true.mp h)]

/-! ## Doc comments -/

/-- A doc comment of the given lines, each of which stands behind the same indentation, a space, a
    star and a space. -/
def docComment (gutter : List Char) (ls : List (List Char)) : List Char :=
  "/**".toList ++ (ls.flatMap (fun line => '\n' :: (gutter ++ (" * ".toList ++ line))) ++
    '\n' :: (gutter ++ " */".toList))

/-- Lines that as a whole neither start nor end with white space. -/
structure IsDescription (ls : List (List Char)) : Prop where
  ne_nil : ls ≠ []
  newlines : ∀ line ∈ ls, '\n' ∉ line
  start : ∀ first ∈ ls.head?, ∃ c ∈ first.head?, isBlank c = false
  stop : ∀ last ∈ ls.getLast?, ∃ c ∈ last.getLast?, isBlank c = false

/-- The lines between the delimiters, each behind the same text: nothing follows the opening, and
    the ending stands behind spaces and tabs. -/
def linesBetween (front side : List Char) (ls : List (List Char)) : List (List Char) :=
  [] :: (ls.map (front ++ ·) ++ [side])

/-- The lines between the delimiters are read as lines, since none of them has a line feed. -/
theorem lines_unlines_linesBetween {front side : List Char} (hfront : '\n' ∉ front)
    (hside : side.all isIndent = true) (hls : ∀ line ∈ ls, '\n' ∉ line) :
    lines (unlines (linesBetween front side ls)) = linesBetween front side ls := by
  refine lines_unlines (List.cons_ne_nil _ _) ?_
  rw [linesBetween, List.forall_mem_cons, List.forall_mem_append, List.forall_mem_singleton,
    List.forall_mem_map]
  refine ⟨List.not_mem_nil, fun line hline => ?_,
    fun hmem => absurd (List.all_eq_true.mp hside _ hmem) (by decide)⟩
  rw [List.mem_append, not_or]
  exact ⟨hfront, hls line hline⟩

/-- In the text of a doc comment, the lines stand behind a space. -/
theorem commentText_docComment (hgutter : gutter.all isIndent = true)
    (hls : ∀ line ∈ ls, '\n' ∉ line) :
    commentText (docComment gutter ls) = unlines (linesBetween [' '] (gutter ++ [' ']) ls) := by
  -- inside the delimiters, each line stands behind the gutter, a space, a star and a space
  have hraw : docComment gutter ls = ['/', '*'] ++
      ('*' :: unlines (linesBetween (gutter ++ [' '] ++ ['*', ' ']) (gutter ++ [' ']) ls) ++
        ['*', '/']) := by
    rw [linesBetween, unlines_cons, List.flatMap_append, List.flatMap_map]
    simp [docComment]
  have hside : (gutter ++ [' ']).all isIndent = true := by
    rw [List.all_append, hgutter]
    rfl
  rw [hraw]
  generalize gutter ++ [' '] = side at hside
  have hfront : '\n' ∉ side ++ ['*', ' '] := by
    rw [List.mem_append, not_or]
    exact ⟨fun hmem => absurd (List.all_eq_true.mp hside _ hmem) (by decide), by decide⟩
  have hline : dropGutter ∘ (side ++ ['*', ' '] ++ ·) = ([' '] ++ ·) := funext fun line => by
    rw [Function.comp_apply, List.append_assoc]
    exact dropGutter_append hside (by simp)
  -- dropping the gutters leaves the space behind each star
  have hgutters : (linesBetween (side ++ ['*', ' ']) side ls).map dropGutter =
      linesBetween [' '] side ls := by
    rw [linesBetween, List.map_cons, List.map_append, List.map_map, List.map_singleton,
      dropGutter_of_isIndent hside, hline]
    rfl
  rw [commentText, blockInside_append]
  change unlines ((lines (unlines (linesBetween (side ++ ['*', ' ']) side ls))).map dropGutter) = _
  rw [lines_unlines_linesBetween hfront hside hls, hgutters]

/-! ## Descriptions -/

/-- The first line of a description is not blank. -/
theorem IsDescription.isBlankText_start (h : IsDescription ls) :
    ∀ first ∈ ls.head?, isBlankText first = false :=
  fun first hfirst => by
    obtain ⟨c, hc, hblank⟩ := h.start first hfirst
    exact not_isBlankText_of_mem (List.mem_of_mem_head? hc) hblank

/-- The last line of a description is not blank. -/
theorem IsDescription.isBlankText_stop (h : IsDescription ls) :
    ∀ last ∈ ls.getLast?, isBlankText last = false :=
  fun last hlast => by
    obtain ⟨c, hc, hblank⟩ := h.stop last hlast
    exact not_isBlankText_of_mem (List.mem_of_mem_getLast? hc) hblank

/-- There is nothing to trim at the ends of a description. -/
theorem IsDescription.modifyEnds (h : IsDescription ls) :
    (ls.modifyHead trimStart).modifyLast trimEnd = ls := by
  refine modifyEnds_eq_self ?_ ?_
  · intro first hfirst
    obtain ⟨c, hc, hblank⟩ := h.start first hfirst
    exact trimStart_eq_self_iff.mpr fun d hd => Option.mem_unique hc hd ▸ hblank
  · intro last hlast
    obtain ⟨c, hc, hblank⟩ := h.stop last hlast
    exact trimEnd_eq_self fun d hd => Option.mem_unique hc hd ▸ hblank

/-- A space is an indentation. -/
theorem all_isIndent_space : [' '].all isIndent = true := rfl

/-- The space behind the star is the common indentation: the first line has no other. -/
theorem leastIndentation_linesBetween {side : List Char} (hside : side.all isIndent = true)
    (h : IsDescription ls) :
    LeastIndentation 1 (linesBetween [' '] side ls) := by
  have hspace : ∀ line, indentation ([' '] ++ line) = 1 + indentation line :=
    indentation_append all_isIndent_space
  refine ⟨Nat.one_pos, ?_, ?_⟩
  · -- the first line has the indentation, and no line has less; the text around is blank
    obtain ⟨first, rest, rfl⟩ := List.exists_cons_of_ne_nil h.ne_nil
    obtain ⟨c, hc, hblank⟩ := h.start first rfl
    refine ⟨[' '] ++ first, by simp [linesBetween], ?_, ?_⟩
    · rw [isBlankText_append, h.isBlankText_start first rfl, Bool.and_false]
    · rw [hspace, indentation_eq_zero hc hblank]
  · rw [linesBetween, List.forall_mem_cons, List.forall_mem_append, List.forall_mem_singleton,
      List.forall_mem_map, isBlankText_of_isIndent hside]
    exact ⟨nofun, fun line _ _ => by rw [hspace]; exact Nat.le_add_right _ _, nofun⟩

/-- Without that space the lines are what they were, between two that are blank. -/
theorem contentLines_unindent_linesBetween {side : List Char} (hside : side.all isIndent = true)
    (h : IsDescription ls) : contentLines ((linesBetween [' '] side ls).map (unindent 1)) = ls := by
  have hline : unindent 1 ∘ ([' '] ++ ·) = id := funext fun line =>
    (unindent_append all_isIndent_space 0 line).trans (unindent_zero line)
  have hunindent : (linesBetween [' '] side ls).map (unindent 1) =
      [[]] ++ (ls ++ [unindent 1 side]) := by
    rw [linesBetween, List.map_cons, List.map_append, List.map_map, hline, List.map_id]
    rfl
  rw [hunindent]
  refine contentLines_append (by simp [isBlankText]) ?_ h.isBlankText_start h.isBlankText_stop
  rw [List.forall_mem_singleton, isBlankText_unindent, isBlankText_of_isIndent hside]

/-- A description that is written as a doc comment is what is read from it, wherever the comment
    stands. -/
theorem dedent_commentText_docComment (hgutter : gutter.all isIndent = true)
    (hls : IsDescription ls) :
    dedent (commentText (docComment gutter ls)) = unlines ls := by
  have hside : (gutter ++ [' ']).all isIndent = true := by
    rw [List.all_append, hgutter]
    rfl
  rw [commentText_docComment hgutter hls.newlines, dedent_eq,
    lines_unlines_linesBetween (by decide) hside hls.newlines,
    (leastIndentation_linesBetween hside hls).commonIndentation?, Option.getD_some, trim_unlines,
    contentLines_unindent_linesBetween hside hls, hls.modifyEnds]

/-- A description with a list, a blank line and a line that starts with a slash. -/
def sampleDescription : List (List Char) :=
  ["Shows a button.".toList, "  * disabled".toList, [], "/ end".toList]

/-- A slash at the start of a line is kept, as it stands behind the space. -/
theorem dedent_docComment_sampleDescription :
    dedent (commentText (docComment "\t ".toList sampleDescription)) =
      "Shows a button.\n  * disabled\n\n/ end".toList := by
  have hsample : IsDescription sampleDescription := by
    refine ⟨by decide, by decide, ?_, ?_⟩
    · rintro first ⟨⟩
      exact ⟨'S', rfl, rfl⟩
    · rintro last ⟨⟩
      exact ⟨'d', rfl, rfl⟩
  rw [dedent_commentText_docComment (by decide) hsample]
  rfl

end SvelteStories.Text
