import Mathlib.Data.List.DropRight
import Mathlib.Data.List.ModifyLast
import SvelteStories.Text.Dedent

/-!
# The lines of a text

A text is its lines with line feeds between them.  When white space is removed at both ends of a
text, the blank lines at its ends go, and what is left of the first and the last of the others is
their inside.

## Key results

- `unlines_lines`, `lines_unlines`: a text and its lines
- `trimStart_unlines`, `trimEnd_unlines`: white space at one end of a text, line by line
- `trim_unlines`: white space at both ends
-/

namespace SvelteStories.Text

variable {text line : List Char} {ls : List (List Char)}

/-! ## Lines -/

/-- The lines of a text are what stands between its line feeds. -/
theorem lines_eq_splitOn (text : List Char) : lines text = text.splitOn '\n' := by
  induction text with
  | nil => rfl
  | cons c cs ih =>
    rw [List.splitOn_cons_eq_if_modifyHead, ← ih]
    -- a line feed ends the first line, any other character goes on with it
    by_cases hc : c = '\n'
    · subst hc
      rfl
    · obtain ⟨first, rest, hlines⟩ := List.exists_cons_of_ne_nil (ih ▸ List.splitOn_ne_nil '\n' cs)
      rw [if_neg (by simpa using hc), lines, hlines]
      · rfl
      · exact hc

theorem lines_ne_nil (text : List Char) : lines text ≠ [] :=
  lines_eq_splitOn text ▸ List.splitOn_ne_nil _ _

/-- A text is its lines with line feeds between them. -/
theorem unlines_lines (text : List Char) : unlines (lines text) = text := by
  rw [unlines, lines_eq_splitOn, List.intercalate_splitOn]

/-- Lines without line feeds are the lines of the text that they make. -/
theorem lines_unlines (hls : ls ≠ []) (h : ∀ line ∈ ls, '\n' ∉ line) : lines (unlines ls) = ls := by
  rw [unlines, lines_eq_splitOn, List.splitOn_intercalate _ h hls]

/-- A line has no line feeds. -/
theorem newline_notMem_of_mem_lines (h : line ∈ lines text) : '\n' ∉ line := by
  induction text generalizing line with
  | nil =>
    rw [lines, List.mem_singleton] at h
    subst h
    exact List.not_mem_nil
  | cons c cs ih =>
    rw [lines_eq_splitOn, List.splitOn_cons_eq_if_modifyHead, ← lines_eq_splitOn] at h
    split at h
    · rcases List.mem_cons.mp h with rfl | h
      · exact List.not_mem_nil
      · exact ih h
    · -- the character goes on with the first line, and is no line feed itself
      rename_i hc
      obtain ⟨first, rest, hlines⟩ := List.exists_cons_of_ne_nil (lines_ne_nil cs)
      rw [hlines, List.modifyHead_cons] at h
      rw [hlines] at ih
      rcases List.mem_cons.mp h with rfl | h
      · rw [List.mem_cons, not_or]
        exact ⟨fun heq => hc (by simp [← heq]), ih List.mem_cons_self⟩
      · exact ih (List.mem_cons_of_mem _ h)

/-- A text starts with its first line; every other line stands behind a line feed. -/
theorem unlines_cons (line : List Char) (ls : List (List Char)) :
    unlines (line :: ls) = line ++ ls.flatMap ('\n' :: ·) := by
  induction ls generalizing line with
  | nil => simp [unlines]
  | cons next ls ih =>
    rw [unlines, List.intercalate_cons_cons, ← unlines, ih, List.flatMap_cons]
    simp

/-- Lines behind a line feed are lines with a line feed in front of each. -/
theorem newline_cons_unlines (hls : ls ≠ []) : '\n' :: unlines ls = ls.flatMap ('\n' :: ·) := by
  obtain ⟨first, rest, rfl⟩ := List.exists_cons_of_ne_nil hls
  rw [unlines_cons, List.flatMap_cons, List.cons_append]

/-! ## White space at the ends -/

theorem isBlankText_append (cs ds : List Char) :
    isBlankText (cs ++ ds) = (isBlankText cs && isBlankText ds) :=
  List.all_append

/-- A text with a character that is no white space is not blank. -/
theorem not_isBlankText_of_mem {c : Char} {cs : List Char} (hmem : c ∈ cs)
    (hc : isBlank c = false) :
    isBlankText cs = false :=
  List.all_eq_false.mpr ⟨c, hmem, Bool.eq_false_iff.mp hc⟩

/-- White space in front is removed with what follows it. -/
theorem trimStart_append_of_isBlankText {front : List Char} (h : isBlankText front = true)
    (cs : List Char) :
    trimStart (front ++ cs) = trimStart cs := by
  rw [trimStart, List.dropWhile_append_of_pos (List.all_eq_true.mp h)]
  rfl

/-- Of a text that is not blank, white space is removed in front whatever follows. -/
theorem trimStart_append {cs : List Char} (h : isBlankText cs = false) (rest : List Char) :
    trimStart (cs ++ rest) = trimStart cs ++ rest := by
  have hleft : (cs.dropWhile isBlank).isEmpty = false := by
    rw [← Bool.not_eq_true, List.isEmpty_iff, List.dropWhile_eq_nil_iff, ← List.all_eq_true]
    exact Bool.eq_false_iff.mp h
  rw [trimStart, List.dropWhile_append, hleft]
  rfl

/-- White space at the end is removed with what stands before it. -/
theorem trimEnd_append_of_isBlankText {back : List Char} (h : isBlankText back = true)
    (cs : List Char) :
    trimEnd (cs ++ back) = trimEnd cs := by
  have hback : isBlankText back.reverse = true := List.all_reverse.trans h
  rw [trimEnd, List.reverse_append, ← trimStart, trimStart_append_of_isBlankText hback]
  rfl

/-- Of a text that is not blank, white space is removed at the end whatever stands before. -/
theorem trimEnd_append {cs : List Char} (h : isBlankText cs = false) (front : List Char) :
    trimEnd (front ++ cs) = front ++ trimEnd cs := by
  have hcs : isBlankText cs.reverse = false := List.all_reverse.trans h
  rw [trimEnd, List.reverse_append, ← trimStart, trimStart_append hcs, List.reverse_append,
    List.reverse_reverse]
  rfl

/-- Text that is not blank has something left when the white space at its start is removed. -/
theorem isBlankText_trimStart (cs : List Char) : isBlankText (trimStart cs) = isBlankText cs := by
  rw [isBlankText, trimStart, Bool.eq_iff_iff]
  constructor
  · intro h
    rw [isBlankText, ← List.takeWhile_append_dropWhile (p := isBlank) (l := cs), List.all_append, h,
      List.all_takeWhile]
    rfl
  · intro h
    rw [List.dropWhile_eq_nil_iff.mpr (List.all_eq_true.mp h)]
    rfl

/-- A text loses nothing at its start if it does not start with white space, and only then. -/
theorem trimStart_eq_self_iff {cs : List Char} :
    trimStart cs = cs ↔ ∀ c ∈ cs.head?, isBlank c = false := by
  constructor
  · intro h c hc
    have hhead := List.head?_dropWhile_not isBlank cs
    rw [← trimStart, h, hc] at hhead
    exact hhead
  · intro h
    cases cs with
    | nil => rfl
    | cons c cs => rw [trimStart, List.dropWhile_cons_of_neg (by rw [h c rfl]; decide)]

/-- What a text loses at its start is seen also when it is without the white space at its end. -/
theorem trimStart_eq_self_of_trimEnd {cs : List Char} (hcs : isBlankText cs = false)
    (h : trimEnd (trimStart cs) = trimEnd cs) : trimStart cs = cs := by
  have hsplit : cs.takeWhile isBlank ++ trimStart cs = cs := List.takeWhile_append_dropWhile
  have hend := trimEnd_append ((isBlankText_trimStart cs).trans hcs) (cs.takeWhile isBlank)
  rw [hsplit, h, List.self_eq_append_left] at hend
  rw [hend] at hsplit
  exact hsplit

/-- Text that ends with no white space loses nothing at its end. -/
theorem trimEnd_eq_self {cs : List Char} (h : ∀ c ∈ cs.getLast?, isBlank c = false) :
    trimEnd cs = cs := by
  rw [← List.head?_reverse] at h
  rw [trimEnd, ← trimStart, trimStart_eq_self_iff.mpr h, List.reverse_reverse]

/-! ## White space at the ends, line by line -/

/-- A text is blank if its lines are. -/
theorem isBlankText_unlines (ls : List (List Char)) :
    isBlankText (unlines ls) = ls.all isBlankText := by
  cases ls with
  | nil => rfl
  | cons line ls =>
    rw [unlines_cons, isBlankText_append, isBlankText, isBlankText, List.all_flatMap, List.all_cons]
    rfl

/-- Blank lines at the start go, and the white space that the next line starts with. -/
theorem trimStart_unlines {front : List (List Char)}
    (hfront : ∀ line ∈ front, isBlankText line = true)
    (hline : isBlankText line = false) (rest : List (List Char)) :
    trimStart (unlines (front ++ line :: rest)) = unlines (trimStart line :: rest) := by
  induction front with
  | nil => rw [List.nil_append, unlines_cons, trimStart_append hline, ← unlines_cons]
  | cons blank front ih =>
    obtain ⟨hblank, hfront⟩ := List.forall_mem_cons.mp hfront
    have hline' : isBlankText ['\n'] = true := rfl
    rw [List.cons_append, unlines_cons, ← newline_cons_unlines (by simp),
      trimStart_append_of_isBlankText hblank, ← List.singleton_append,
      trimStart_append_of_isBlankText hline', ih hfront]

/-- Blank lines at the end go, and the white space that the line before them ends with. -/
theorem trimEnd_unlines {back : List (List Char)} (hback : ∀ line ∈ back, isBlankText line = true)
    (hline : isBlankText line = false) (front : List (List Char)) :
    trimEnd (unlines (front ++ line :: back)) = unlines (front ++ [trimEnd line]) := by
  have hblank : isBlankText (back.flatMap ('\n' :: ·)) = true := by
    rw [isBlankText, List.all_flatMap, List.all_eq_true]
    exact fun line hmem => hback line hmem
  have hfull : isBlankText (unlines (front ++ line :: back)) = false := by
    rw [isBlankText_unlines, List.all_append, List.all_cons, hline, Bool.false_and, Bool.and_false]
  -- with a line feed in front, all lines have the same form
  have hends : '\n' :: unlines (front ++ line :: back) =
      (front.flatMap ('\n' :: ·) ++ ['\n']) ++ line ++ back.flatMap ('\n' :: ·) := by
    rw [newline_cons_unlines (by simp)]
    simp
  have htrim := congrArg trimEnd hends
  rw [← List.singleton_append, trimEnd_append hfull, trimEnd_append_of_isBlankText hblank,
    trimEnd_append hline] at htrim
  refine List.append_cancel_left (htrim.trans ?_)
  rw [List.singleton_append, newline_cons_unlines (by simp)]
  simp

/-- The lines from the first that is not blank to the last that is not. -/
def contentLines (ls : List (List Char)) : List (List Char) :=
  (ls.dropWhile isBlankText).rdropWhile isBlankText

/-- Around the content there are blank lines only. -/
theorem exists_eq_append_contentLines (ls : List (List Char)) :
    ∃ front back, (∀ line ∈ front, isBlankText line = true) ∧
      (∀ line ∈ back, isBlankText line = true) ∧
      ls = front ++ (contentLines ls ++ back) := by
  refine ⟨ls.takeWhile isBlankText, (ls.dropWhile isBlankText).rtakeWhile isBlankText,
    fun _ => List.mem_takeWhile_imp, fun _ => List.mem_rtakeWhile_imp, ?_⟩
  rw [contentLines, List.rdropWhile_append_rtakeWhile, List.takeWhile_append_dropWhile]

/-- The content ends with a line that is not blank. -/
theorem not_isBlankText_of_getLast?_contentLines (h : line ∈ (contentLines ls).getLast?) :
    isBlankText line = false := by
  obtain ⟨hne, rfl⟩ := List.mem_getLast?_eq_getLast h
  exact Bool.eq_false_iff.mpr (List.rdropWhile_last_not _ _ hne)

/-- The content starts with a line that is not blank. -/
theorem not_isBlankText_of_head?_contentLines (h : line ∈ (contentLines ls).head?) :
    isBlankText line = false := by
  obtain ⟨rest, hcontent⟩ : ∃ rest, contentLines ls = line :: rest := List.head?_eq_some_iff.mp h
  -- the blank lines at the end are behind the first line
  obtain ⟨back, hback⟩ := List.rdropWhile_prefix (p := isBlankText) (l := ls.dropWhile isBlankText)
  rw [← contentLines, hcontent, List.cons_append] at hback
  have hhead := List.head?_dropWhile_not isBlankText ls
  rw [← hback] at hhead
  exact hhead

/-- The content is what stands between blank lines and neither starts nor ends with one. -/
theorem contentLines_append {front content back : List (List Char)}
    (hfront : ∀ line ∈ front, isBlankText line = true)
    (hback : ∀ line ∈ back, isBlankText line = true)
    (hhead : ∀ line ∈ content.head?, isBlankText line = false)
    (hlast : ∀ line ∈ content.getLast?, isBlankText line = false) :
    contentLines (front ++ (content ++ back)) = content := by
  rw [contentLines, List.dropWhile_append_of_pos hfront]
  cases hcontent : content.reverse with
  | nil =>
    rw [List.reverse_eq_nil_iff.mp hcontent, List.nil_append, List.dropWhile_eq_nil_iff.mpr hback]
    rfl
  | cons last rest =>
    have hlast : isBlankText last = false :=
      hlast last (by rw [← List.head?_reverse, hcontent]; rfl)
    have hne : content ≠ [] := fun h => by simp [h] at hcontent
    -- nothing is dropped in front, where a line is not blank, and nothing but the blank lines
    -- behind
    have hstart : (content ++ back).dropWhile isBlankText = content ++ back := by
      obtain ⟨first, rest, rfl⟩ := List.exists_cons_of_ne_nil hne
      rw [List.cons_append, List.dropWhile_cons_of_neg (Bool.eq_false_iff.mp (hhead first rfl))]
    have hback : ∀ line ∈ back.reverse, isBlankText line = true := fun line hmem =>
      hback line (List.mem_reverse.mp hmem)
    rw [hstart, List.rdropWhile, List.reverse_append, List.dropWhile_append_of_pos hback, hcontent,
      List.dropWhile_cons_of_neg (Bool.eq_false_iff.mp hlast), ← hcontent, List.reverse_reverse]

/-- Of the lines of a text, white space at both ends leaves those from the first that is not blank
    to the last that is not, without the white space in front of the first and behind the last. -/
theorem trim_unlines (ls : List (List Char)) :
    trim (unlines ls) = unlines (((contentLines ls).modifyHead trimStart).modifyLast trimEnd) := by
  obtain ⟨front, back, hfront, hback, hls⟩ := exists_eq_append_contentLines ls
  cases hcontent : contentLines ls with
  | nil =>
    -- without content all lines are blank, and nothing is left
    have hblank : isBlankText (unlines ls) = true := by
      rw [isBlankText_unlines, hls, hcontent, List.nil_append, List.all_append,
        List.all_eq_true.mpr hfront, List.all_eq_true.mpr hback]
      rfl
    rw [trim, ← List.append_nil (unlines ls), trimStart_append_of_isBlankText hblank]
    rfl
  | cons first rest =>
    -- the white space in front ends in the first line of the content, that at the end in its last
    -- one
    have hfirst : isBlankText first = false :=
      not_isBlankText_of_head?_contentLines (by rw [hcontent]; rfl)
    have hlast : ∀ last ∈ (trimStart first :: rest).getLast?, isBlankText last = false := by
      intro last hmem
      cases rest with
      | nil =>
        obtain rfl := Option.some.inj hmem
        exact (isBlankText_trimStart first).trans hfirst
      | cons next rest =>
        rw [List.getLast?_cons_cons] at hmem
        have hlast : last ∈ (contentLines ls).getLast? := by rwa [hcontent, List.getLast?_cons_cons]
        exact not_isBlankText_of_getLast?_contentLines hlast
    rw [hls, hcontent, List.cons_append, trim, trimStart_unlines hfront hfirst,
      List.modifyHead_cons]
    -- the last line may be the first one, of which the start is gone already
    obtain hnil | ⟨init, last, hinit⟩ := List.eq_nil_or_concat (trimStart first :: rest)
    · cases hnil
    · rw [List.concat_eq_append] at hinit
      have hlast : isBlankText last = false := hlast last (by rw [hinit, List.getLast?_concat]; rfl)
      rw [← List.cons_append, hinit, List.append_assoc, List.singleton_append,
        trimEnd_unlines hback hlast, List.modifyLast_concat]

theorem contentLines_eq_nil (h : ∀ line ∈ ls, isBlankText line = true) : contentLines ls = [] := by
  rw [contentLines, List.dropWhile_eq_nil_iff.mpr h]
  rfl

/-- Lines that are not all blank have content. -/
theorem contentLines_ne_nil (hmem : line ∈ ls) (hline : isBlankText line = false) :
    contentLines ls ≠ [] := by
  obtain ⟨front, back, hfront, hback, hls⟩ := exists_eq_append_contentLines ls
  intro hnil
  rw [hls, hnil, List.nil_append, List.mem_append] at hmem
  exact Bool.eq_false_iff.mp hline (hmem.elim (hfront line) (hback line))

/-- A change of the lines that leaves the blank ones blank, and no others, leaves the content in its
    place. -/
theorem contentLines_map {f : List Char → List Char}
    (h : ∀ line, isBlankText (f line) = isBlankText line)
    (ls : List (List Char)) : contentLines (ls.map f) = (contentLines ls).map f := by
  have hf : isBlankText ∘ f = isBlankText := funext h
  simp only [contentLines, List.rdropWhile, List.dropWhile_map, ← List.map_reverse, hf]

/-- A change of the last member keeps the length. -/
theorem length_modifyLast {α : Type} (f : α → α) (l : List α) :
    (l.modifyLast f).length = l.length := by
  rcases List.eq_nil_or_concat l with rfl | ⟨init, last, rfl⟩
  · rfl
  · rw [List.concat_eq_append, List.modifyLast_concat, List.length_append, List.length_append]
    rfl

/-- A change of the last member changes it alone. -/
theorem getElem?_modifyLast {α : Type} (f : α → α) (l : List α) (i : Nat) :
    (l.modifyLast f)[i]? = if i + 1 = l.length then l[i]?.map f else l[i]? := by
  rcases List.eq_nil_or_concat l with rfl | ⟨init, last, rfl⟩
  · rfl
  · rw [List.concat_eq_append, List.modifyLast_concat, List.length_append, List.length_singleton,
      List.getElem?_append, List.getElem?_append]
    grind

/-- Changes that keep the first and the last line keep all lines. -/
theorem modifyEnds_eq_self {f g : List Char → List Char} (hf : ∀ first ∈ ls.head?, f first = first)
    (hg : ∀ last ∈ ls.getLast?, g last = last) : (ls.modifyHead f).modifyLast g = ls := by
  have hhead : ls.modifyHead f = ls := by
    cases ls with
    | nil => rfl
    | cons first rest => rw [List.modifyHead_cons, hf first rfl]
  rw [hhead]
  rcases List.eq_nil_or_concat ls with rfl | ⟨init, last, rfl⟩
  · rfl
  · rw [List.concat_eq_append] at hg ⊢
    rw [List.modifyLast_concat, hg last (by rw [List.getLast?_concat]; rfl)]

/-- What a change of the first line and one of the last keep holds of all lines afterwards. -/
theorem forall_mem_modifyEnds {p : List Char → Prop} {f g : List Char → List Char}
    (hf : ∀ line, p line → p (f line)) (hg : ∀ line, p line → p (g line))
    (h : ∀ line ∈ ls, p line) :
    ∀ line ∈ (ls.modifyHead f).modifyLast g, p line := by
  intro line hline
  obtain ⟨i, hi⟩ := List.mem_iff_getElem?.mp hline
  rw [getElem?_modifyLast, List.getElem?_modifyHead] at hi
  cases hold : ls[i]? with
  | none => simp [hold] at hi
  | some old =>
    have hpold : p old := h old (List.mem_of_getElem? hold)
    rw [hold, List.length_modifyHead] at hi
    -- the line is changed as the first and as the last one, as one of them, or not at all
    split at hi <;> split at hi <;> obtain rfl := Option.some.inj hi
    · exact hg _ (hf old hpold)
    · exact hg old hpold
    · exact hf old hpold
    · exact hpold

/-- The lines of a text without the white space at both ends. -/
theorem lines_trim_unlines (hls : contentLines ls ≠ []) (h : ∀ line ∈ ls, '\n' ∉ line) :
    lines (trim (unlines ls)) = ((contentLines ls).modifyHead trimStart).modifyLast trimEnd := by
  -- removing white space puts no line feeds into the lines
  have hcontent : ∀ line ∈ contentLines ls, '\n' ∉ line := by
    obtain ⟨front, back, -, -, heq⟩ := exists_eq_append_contentLines ls
    intro line hline
    exact h line (heq ▸ List.mem_append_right _ (List.mem_append_left _ hline))
  rw [trim_unlines]
  refine lines_unlines ?_ (forall_mem_modifyEnds (fun line hline hmem =>
    ?_) (fun line hline hmem => ?_) hcontent)
  · rw [← List.length_pos_iff, length_modifyLast, List.length_modifyHead]
    exact List.length_pos_iff.mpr hls
  · exact hline ((List.dropWhile_suffix isBlank).mem hmem)
  · exact hline ((List.rdropWhile_prefix isBlank line).mem hmem)

end SvelteStories.Text
