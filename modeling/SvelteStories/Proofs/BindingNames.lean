import SvelteStories.Proofs.RawBlocks
import SvelteStories.Proofs.RawChildren
import SvelteStories.Proofs.StoryReport

/-!
# Names of scripts in the markup

The name of the story component is a name of the module script, and so is the name of a snippet.
The markup has notions of its own of what a name is.  The name of a tag is a letter and ASCII
letters, digits and the signs `-`, `_`, `:` and `.`, and two names in any case of their letters are
those of raw blocks.  The name of a snippet starts with an ASCII letter, a dollar sign or an
underscore.

A tag is read where it is written unless another lexeme takes it for its own: a comment, a raw
block, another tag, or a brace expression in a run of text.

## Key results

- `isTagName_iff_of_isIdentifier`: which names of a script are names of tags
- `exists_readLexeme_of_not_covers`: where markup is read
- `findsStories`: the stories of a forest
- `childrenBody?_of_isWrittenFor`: a snippet inside a snippet
- `names_in_markup`: these for a stories file
-/

namespace SvelteStories

open Text Markup

variable {text cs rest before after name : List Char} {nodes : List Node} {lexemes : List Lexeme}
  {lexeme : Lexeme}

/-! ## Names -/

/-- A name of a script. -/
structure IsIdentifier (name : List Char) : Prop where
  start : name.head?.any isIdentifierStart = true
  parts : name.all isIdentifierPart = true

/-- An ASCII character that may start a name is a letter, a dollar sign or an underscore. -/
theorem isIdentifierStart_of_ascii {c : Char} (hc : c.toNat < 128) :
    isIdentifierStart c = isSnippetNameStart c := by
  rw [isIdentifierStart, if_pos hc, isSnippetNameStart, Bool.or_right_comm]
  simp only [beq_eq_decide]

/-- A character that may start a name may start the name of a snippet if it is an ASCII
    character. -/
theorem isSnippetNameStart_of_isIdentifierStart {c : Char} (h : isIdentifierStart c = true) :
    isSnippetNameStart c = decide (c.toNat < 128) := by
  rcases Nat.lt_or_ge c.toNat 128 with hc | hc
  · rw [← isIdentifierStart_of_ascii hc, h, decide_eq_true hc]
  · rw [decide_eq_false (Nat.not_lt_of_le hc), ← Bool.not_eq_true]
    exact fun hstart => absurd (toNat_of_isSnippetNameStart hstart).2 (Nat.not_lt_of_le hc)

/-- White space does not start a name. -/
theorem not_isBlank_of_isIdentifierStart {c : Char} (h : isIdentifierStart c = true) :
    isBlank c = false := by
  rcases Nat.lt_or_ge c.toNat 128 with hc | hc
  · rw [isIdentifierStart_of_ascii hc] at h
    exact not_isBlank_of_isSnippetNameStart h
  · -- no white space beyond ASCII is among the characters that start a name
    have hnone : ∀ n ∈ [0x85, 0xA0, 0x1680, 0x2000, 0x2001, 0x2002, 0x2003, 0x2004,
      0x2005, 0x2006, 0x2007,
        0x2008, 0x2009, 0x200A, 0x2028, 0x2029, 0x202F, 0x205F, 0x3000],
        (idStart.ranges.any (·.contains n)) = false := by decide +kernel
    rw [isIdentifierStart, if_neg (Nat.not_lt_of_le hc)] at h
    rw [← Bool.not_eq_true]
    intro hblank
    refine Bool.eq_false_iff.mp (hnone c.toNat ?_) h
    simp only [isBlank, Bool.or_eq_true, Bool.and_eq_true, decide_eq_true_eq, beq_iff_eq] at hblank
    simp only [List.mem_cons, List.not_mem_nil, or_false]
    omega

/-- The characters of a tag name are in ASCII. -/
theorem toNat_of_isTagNameChar {c : Char} (h : isTagNameChar c = true) : c.toNat < 128 := by
  have hsize := utf8Size_of_isTagNameChar h
  rw [Char.utf8Size_eq_one_iff] at hsize
  exact Nat.lt_succ_of_le (UInt32.le_iff_toNat_le.mp hsize)

/-- A capitalised name of a script is the name of a tag if it is made of ASCII letters, digits and
    underscores. -/
theorem isTagName_iff_of_isIdentifier (h : IsIdentifier name)
    (hcapital : name.head?.any isUppercase = true) :
    IsTagName name ↔ ∀ c ∈ name, c.toNat < 128 ∧ c ≠ '$' := by
  constructor
  · intro htag c hc
    have hchar := List.all_eq_true.mp htag.chars c hc
    refine ⟨toNat_of_isTagNameChar hchar, ?_⟩
    rintro rfl
    exact absurd hchar (by decide)
  · intro hascii
    constructor
    · -- a capital letter of ASCII is a letter
      cases name with
      | nil => cases hcapital
      | cons c others =>
        simp only [List.head?_cons, Option.any_some, isUppercase,
          (hascii c List.mem_cons_self).1, if_true]
          at hcapital ⊢
        exact Bool.or_eq_true_iff.mpr (.inl hcapital)
    · refine List.all_eq_true.mpr fun c hc => ?_
      -- a part of a name is a letter, a digit, an underscore or a dollar sign
      have hpart := List.all_eq_true.mp h.parts c hc
      obtain ⟨hlt, hdollar⟩ := hascii c hc
      simp only [isIdentifierPart, hlt, if_true, hdollar, decide_false, Bool.or_false,
        Bool.or_eq_true, decide_eq_true_eq] at hpart
      rw [isTagNameChar]
      rcases hpart with hpart | rfl
      · simp only [hpart, Bool.true_or]
      · rfl

/-! ## Places of the markup -/

namespace Markup

/-- A lexeme takes what stands at a place: a run of text if the place is in a brace expression of
    it, any other lexeme if the place is behind its start. -/
def Lexeme.Covers (place : Nat) : Lexeme → Prop
  | .text raw span =>
    ∃ tag ∈ braceTags raw.toList span.start, tag.span.start ≤ place ∧ place < tag.span.stop
  | lexeme => lexeme.span.start < place ∧ place < lexeme.span.stop

instance (place : Nat) : (lexeme : Lexeme) → Decidable (lexeme.Covers place)
  | .text raw span => inferInstanceAs
      (Decidable (∃ tag ∈ braceTags raw.toList span.start, tag.span.start ≤ place ∧
        place < tag.span.stop))
  | .comment _ span | .closing _ span | .opening _ _ span =>
    inferInstanceAs (Decidable (span.start < place ∧ place < span.stop))
  | .rawBlock block =>
    inferInstanceAs (Decidable (block.span.start < place ∧ place < block.span.stop))
  | .leaf head => inferInstanceAs (Decidable (head.span.start < place ∧ place < head.span.stop))

/-- Markup inside a run of text stands in a brace expression. -/
theorem covers_of_afterText {place : List Char} {here : Nat} (h : afterText cs here = .ok rest)
    (hsplit : cs = before ++ place) (hlength : rest.length < place.length)
    (hmarkup : startsMarkup place = true) :
    ∃ tag ∈ braceTags (consumed cs rest) here,
      tag.span.start ≤ here + byteLength before ∧ here + byteLength before < tag.span.stop := by
  obtain ⟨regions, hpasses⟩ := afterText_eq_ok_iff.mp h
  obtain ⟨span, hspan, hinside⟩ := hpasses.exists_region_of_append hsplit hlength (.inl hmarkup)
  obtain ⟨raw, rfl, hraw⟩ := hpasses.cut
  rw [consumed_append_self]
  rw [← hraw.map_span_braceTags] at hspan
  obtain ⟨tag, htag, rfl⟩ := List.mem_map.mp hspan
  exact ⟨tag, htag, hinside⟩

/-- A lexeme that was read takes the markup that stands inside it. -/
theorem covers_of_readLexeme {place : List Char} (hcs : cs <:+ text) (hne : cs ≠ [])
    (h : readLexeme cs (offsetOf text cs) = .ok (lexeme, rest)) (hplace : place <:+ cs)
    (hnot : place ≠ cs)
    (hlength : rest.length < place.length) (hmarkup : startsMarkup place = true) :
    lexeme.Covers (offsetOf text place) := by
  have hrest : rest <:+ place := by
    obtain ⟨⟨piece, hpiece⟩, -⟩ := piece_of_readLexeme hne h
    exact List.suffix_of_suffix_length_le ⟨piece, hpiece.split.symm⟩ hplace (Nat.le_of_lt hlength)
  have hspan : lexeme.span = ⟨offsetOf text cs, offsetOf text rest⟩ := by
    obtain ⟨⟨piece, hpiece⟩, -⟩ := piece_of_readLexeme hne h
    rw [offsetOf_suffix (hrest.trans hplace) hcs, hpiece.span, hpiece.split, consumed_append_self]
  have hshorter : place.length < cs.length :=
    Nat.lt_of_le_of_ne hplace.length_le fun hlen => hnot (hplace.eq_of_length hlen)
  -- the place is behind the start of the lexeme and before its stop
  have hinside : lexeme.span.start < offsetOf text place ∧
      offsetOf text place < lexeme.span.stop := by
    rw [hspan]
    exact ⟨offsetOf_lt_of_length hplace hshorter hcs,
      offsetOf_lt_of_length hrest hlength (hplace.trans hcs)⟩
  cases lexeme with
  | text raw span =>
    -- markup inside a run of text stands in a brace expression
    obtain ⟨hafter, hraw, -⟩ := afterText_of_readLexeme hne h
    obtain ⟨before, rfl⟩ := hplace
    rw [offsetOf_suffix (List.suffix_append before place) hcs, consumed_append_self]
    rw [Lexeme.span] at hspan
    rw [Lexeme.Covers, hraw, hspan]
    exact covers_of_afterText hafter rfl hlength hmarkup
  | comment data span => exact hinside
  | rawBlock block => exact hinside
  | leaf head => exact hinside
  | opening name attributes span => exact hinside
  | closing name span => exact hinside

/-- Markup that no lexeme takes for its own is read. -/
theorem exists_readLexeme_of_not_covers {place : List Char} (hcs : cs <:+ text)
    (h : lexemesFrom cs (offsetOf text cs) = .ok lexemes) (hplace : place <:+ cs)
    (hmarkup : startsMarkup place = true)
    (hfree : ∀ lexeme ∈ lexemes, ¬ lexeme.Covers (offsetOf text place)) :
    ∃ lexeme ∈ lexemes, ∃ rest, readLexeme place (offsetOf text place) = .ok (lexeme, rest) := by
  generalize hhere : offsetOf text cs = here at h
  fun_induction lexemesFrom cs here generalizing lexemes with
  | case1 =>
    rw [List.suffix_nil.mp hplace] at hmarkup
    cases hmarkup
  | case2 => cases h
  | case3 here c cs lexeme rest hread ih =>
    have hne : c :: cs ≠ [] := List.cons_ne_nil c cs
    obtain ⟨others, hothers, h⟩ := exists_of_bind_eq_ok h
    obtain rfl := Except.ok.inj h
    obtain ⟨⟨piece, hpiece⟩, -⟩ := piece_of_readLexeme hne hread
    have hsuffix : rest <:+ c :: cs := ⟨piece, hpiece.split.symm⟩
    have hstop : offsetOf text rest = lexeme.span.stop := by
      rw [offsetOf_suffix hsuffix hcs, hhere, hpiece.span, hpiece.split, consumed_append_self]
    obtain ⟨hfirst, hrest⟩ := List.forall_mem_cons.mp hfree
    -- the place is where this lexeme starts, inside it or behind it
    by_cases hsame : place = c :: cs
    · subst hsame
      exact ⟨lexeme, List.mem_cons_self, rest, by rw [hhere]; exact hread⟩
    · by_cases hlength : rest.length < place.length
      · rw [← hhere] at hread
        exact absurd (covers_of_readLexeme hcs hne hread hplace hsame hlength hmarkup) hfirst
      · have hbehind := List.suffix_of_suffix_length_le hplace hsuffix (Nat.le_of_not_lt hlength)
        obtain ⟨other, hother, rest', hread'⟩ := ih (hsuffix.trans hcs) hbehind hrest hstop hothers
        exact ⟨other, List.mem_cons_of_mem _ hother, rest', hread'⟩

/-! ## Opening tags at a place -/

/-- The name of a tag that is read is the one that is written. -/
theorem name_of_readTag {here : Nat} {found : List Char} {attributes : List Attribute}
    {tagEnd : TagEnd} (hname : IsTagName name) (hafter : after.head?.all (!isTagNameChar ·) = true)
    (h : readTag ('<' :: (name ++ after)) here = .ok (found, attributes, tagEnd)) :
    found = name := by
  obtain ⟨⟨others, tagEnd⟩, -, h⟩ := exists_of_bind_eq_ok h
  obtain ⟨rfl, -⟩ := Prod.mk.inj (Except.ok.inj h)
  exact takeWhile_append_stop hname.chars hafter

/-- A tag that is written where no lexeme takes it for its own is read. -/
theorem exists_tag_of_not_covers (h : Markup.lexemes text = .ok lexemes) (hname : IsTagName name)
    (hafter : after.head?.all (!isTagNameChar ·) = true)
    (hsplit : text = before ++ '<' :: (name ++ after))
    (hfree : ∀ lexeme ∈ lexemes, ¬ lexeme.Covers (byteLength before)) :
    ∃ tag, openingTag? ('<' :: (name ++ after)) (byteLength before) = some tag ∧ tag.name = name ∧
      tag.span.start = byteLength before ∧ ∃ lexeme ∈ lexemes, lexeme.GoesWith text (some tag) := by
  obtain ⟨c, others, hc, rfl⟩ := hname.exists_cons
  have hplace : '<' :: (c :: others ++ after) <:+ text := ⟨before, hsplit.symm⟩
  have hoffset : offsetOf text ('<' :: (c :: others ++ after)) = byteLength before := by
    rw [hsplit, offsetOf_append]
  have hmarkup : startsMarkup ('<' :: (c :: others ++ after)) = true :=
    startsMarkup_iff.mpr (.inr (.inr ⟨c, hc, others ++ after, rfl⟩))
  rw [Markup.lexemes, ← offsetOf_self text] at h
  obtain ⟨lexeme, hlexeme, rest, hread⟩ :=
    exists_readLexeme_of_not_covers (List.suffix_refl text) h hplace hmarkup (hoffset.symm ▸ hfree)
  -- the lexeme that is read there is made of the tag
  have hgoes := goesWith_of_readLexeme (List.cons_ne_nil _ _) hplace hread
  rw [List.cons_append, readLexeme_of_isAlpha hc] at hread
  obtain ⟨⟨found, attributes, tagEnd⟩, htag, -⟩ := exists_of_bind_eq_ok hread
  have htag? := openingTag?_of_isAlpha hc htag
  rw [← List.cons_append] at htag htag?
  rw [htag?] at hgoes
  rw [hoffset] at htag? hgoes
  exact ⟨_, htag?, name_of_readTag hname hafter htag, rfl, lexeme, hlexeme, hgoes⟩

/-- What a tag makes stands in the forest. -/
theorem among_of_goesWith {tag : OpeningTag} (h : parse text = .ok nodes)
    (hlexemes : Markup.lexemes text = .ok lexemes) (hlexeme : lexeme ∈ lexemes)
    (hgoes : lexeme.GoesWith text (some tag)) :
    (tag.isRaw = true ∧ ∃ block, Among (.rawBlock block) nodes ∧ tag.Delimits text block) ∨
      (tag.isRaw = false ∧ ∃ head children, Among (.element head children) nodes ∧
        head.mark = tag.mark) := by
  cases hgoes with
  | @raw tag block hraw hblock =>
    obtain ⟨node, hamong, hmark⟩ := exists_among_of_mark? h hlexemes hlexeme rfl
    cases node with
    | rawBlock other =>
      obtain rfl := Mark.rawBlock.inj hmark
      exact .inl ⟨hraw, other, hamong, hblock⟩
    | _ => cases hmark
  | element hraw hmark =>
    obtain ⟨node, hamong, hmark⟩ := exists_among_of_mark? h hlexemes hlexeme hmark
    cases node with
    | element head children => exact .inr ⟨hraw, head, children, hamong, hmark⟩
    | _ => cases hmark

/-- An element has the name of a tag. -/
theorem isTagName_of_among {head : Element} {children : List Node} (h : parse text = .ok nodes)
    (hnode : Among (.element head children) nodes) : IsTagName head.name.toList := by
  obtain ⟨lexemes, hlexemes, -⟩ := marks_of_parse h
  obtain ⟨lexeme, hlexeme, hmark⟩ := exists_lexeme_of_among h hlexemes hnode
  have hgoes := goesWith_of_lexemes hlexemes hlexeme
  generalize htag : lexeme.tag? text = tag? at hgoes
  cases hgoes with
  | raw hraw hblock => cases hmark
  | @element lexeme tag hraw hmark' =>
    -- the element has the name of the tag that made it
    obtain ⟨hname, -, -⟩ := Mark.element.inj (Option.some.inj (hmark.symm.trans hmark'))
    obtain ⟨cs, -, -, htag⟩ := exists_of_tag? htag
    obtain ⟨c, body, tagEnd, rfl, hc, hread, -, -⟩ := exists_of_openingTag? htag
    obtain ⟨⟨others, tagEnd⟩, -, hread⟩ := exists_of_bind_eq_ok hread
    obtain ⟨hfound, -⟩ := Prod.mk.inj (Except.ok.inj hread)
    have hchar : isTagNameChar c = true := by simp [isTagNameChar, Char.isAlphanum, hc]
    rw [hname, String.toList_ofList, ← hfound, List.drop_succ_cons, List.drop_zero]
    refine ⟨?_, List.all_takeWhile⟩
    rw [List.takeWhile_cons_of_pos hchar]
    exact hc
  | other helement hblock =>
    rw [hmark] at helement
    cases helement

end Markup

namespace Story

variable {component : String} {head : Element} {children : List Node}

/-- A node of an ordered forest is not empty, and its children are ordered and inside it. -/
theorem IsOrdered.of_mem {node : Node} (h : IsOrdered nodes) (hnode : node ∈ nodes) :
    node.span.start < node.span.stop ∧ IsOrdered node.children ∧
      ∀ child ∈ node.children, node.span.start ≤ child.span.start ∧
      child.span.stop ≤ node.span.stop := by
  induction h with
  | nil => exact absurd hnode List.not_mem_nil
  | cons hnonempty hbehind hinside hchildren hrest _ ihRest =>
    rcases List.mem_cons.mp hnode with rfl | hnode
    · exact ⟨hnonempty, hchildren, hinside⟩
    · exact ihRest hnode

/-- A node stands inside one of the roots. -/
theorem IsOrdered.exists_root {node : Node} (h : IsOrdered nodes) (hnode : Among node nodes) :
    node.span.start < node.span.stop ∧
      ∃ root ∈ nodes, root.span.start ≤ node.span.start ∧ node.span.stop ≤ root.span.stop := by
  induction hnode with
  | here hmem => exact ⟨(h.of_mem hmem).1, node, hmem, Nat.le_refl _, Nat.le_refl _⟩
  | @inside nodes children head hmem _ ih =>
    obtain ⟨-, hchildren, hinside⟩ := h.of_mem hmem
    obtain ⟨hnonempty, child, hchild, hstart, hstop⟩ := ih hchildren
    have hbounds := hinside child hchild
    exact ⟨hnonempty, _, hmem, by omega, by omega⟩

/-- An element of the story component is a story or stands inside one. -/
theorem IsOrdered.exists_story (source : List Char) (h : IsOrdered nodes)
    (hname : head.name = component)
    (hnode : Among (.element head children) nodes) (pending : Option String) :
    ∃ story ∈ Story.collectAmong source component nodes pending,
      story.span.start ≤ head.span.start ∧ head.span.stop ≤ story.span.stop := by
  induction h generalizing pending with
  | nil => exact absurd hnode not_among_nil
  | @cons node rest _ _ hinside hchildren _ ihChildren ihRest =>
    have hthis : IsStory component (.element head children) := ⟨head, children, rfl, hname⟩
    by_cases hstory : IsStory component node
    · obtain ⟨head', children', rfl, hname'⟩ := hstory
      rw [collectAmong_of_isStory hname']
      -- the element is the story, inside of it or behind it
      rcases among_cons.mp hnode with heq | hbelow | hrest
      · obtain ⟨rfl, -⟩ := Node.element.inj heq
        exact ⟨_, List.mem_cons_self, Nat.le_refl _, Nat.le_refl _⟩
      · obtain ⟨-, child, hchild, hstart, hstop⟩ := hchildren.exists_root hbelow
        have hbounds := hinside child hchild
        exact ⟨_, List.mem_cons_self, Nat.le_trans hbounds.1 hstart, Nat.le_trans hstop hbounds.2⟩
      · obtain ⟨story, hmem, hbounds⟩ := ihRest hrest none
        exact ⟨story, List.mem_cons_of_mem _ hmem, hbounds⟩
    · rw [collectAmong_of_not_isStory hstory]
      -- the node is no story, so that it is looked into
      rcases among_cons.mp hnode with rfl | hbelow | hrest
      · exact absurd hthis hstory
      · obtain ⟨story, hmem, hbounds⟩ := ihChildren hbelow none
        exact ⟨story, List.mem_append_left _ hmem, hbounds⟩
      · obtain ⟨story, hmem, hbounds⟩ := ihRest hrest (waiting node pending)
        exact ⟨story, List.mem_append_right _ hmem, hbounds⟩

end Story

/-! ## The elements of a name -/

/-- How the elements of the story component are found.  If the name of the component is not the name
    of a tag there are no stories.  Otherwise a tag of this name is read wherever it is written
    outside other lexemes, brace expressions and stories, and it is a story unless it makes a raw
    block. -/
structure FindsStories (text : List Char) (nodes : List Node) (lexemes : List Lexeme)
    (component : String)
    (stories : List Story) : Prop where
  unread : ¬ IsTagName component.toList → stories = []
  read : IsTagName component.toList → ∀ before after,
    text = before ++ '<' :: (component.toList ++ after) →
      after.head?.all (!isTagNameChar ·) = true →
    (∀ lexeme ∈ lexemes, ¬ lexeme.Covers (byteLength before)) →
    (∀ story ∈ stories, ¬ (story.span.start < byteLength before ∧
      byteLength before < story.span.stop)) →
    ∃ tag, openingTag? ('<' :: (component.toList ++ after)) (byteLength before) = some tag ∧
      tag.name = component.toList ∧
      (tag.isRaw = false → ∃ story ∈ stories, story.span.start = byteLength before) ∧
      (tag.isRaw = true → ∃ block, Among (.rawBlock block) nodes ∧ tag.Delimits text block)

/-- How the elements of the story component are found in a text that was read. -/
theorem findsStories (h : parse text = .ok nodes) (hlexemes : Markup.lexemes text = .ok lexemes)
    (component : String) :
    FindsStories text nodes lexemes component (Story.collect text component nodes) := by
  constructor
  · intro hname
    refine List.eq_nil_iff_forall_not_mem.mpr fun story hstory => hname ?_
    obtain ⟨path, houtermost, -⟩ := Story.exists_of_mem_collect hstory
    obtain ⟨head, children, hhead, rfl⟩ := houtermost.here
    exact isTagName_of_among h (among_of_nodeAt? hhead)
  · intro hname before after hsplit hafter hfree houtside
    -- the tag is read, as no lexeme takes it for its own
    obtain ⟨tag, htag, htagName, hstart, lexeme, hlexeme, hgoes⟩ :=
      exists_tag_of_not_covers hlexemes hname hafter hsplit hfree
    refine ⟨tag, htag, htagName, ?_⟩
    rcases among_of_goesWith h hlexemes hlexeme hgoes with
      ⟨hraw, block, hblock⟩ | ⟨hraw, head, children, hnode, hmark⟩
    · exact ⟨fun hnot => absurd (hraw.symm.trans hnot) (by decide), fun _ => ⟨block, hblock⟩⟩
    · refine ⟨fun _ => ?_, fun hnot => absurd (hraw.symm.trans hnot) (by decide)⟩
      obtain ⟨hhead, -, hplace⟩ := Mark.element.inj hmark
      rw [htagName, String.ofList_toList] at hhead
      rw [hstart] at hplace
      -- the element stands in a story, and in none that starts before it
      have hordered := Story.isOrdered_of_laidOut (laidOut_of_parse h)
      obtain ⟨story, hstory, hbefore, hbehind⟩ := hordered.exists_story text hhead hnode none
      have hnonempty : head.span.start < head.span.stop := (hordered.exists_root hnode).1
      have houtside := houtside story hstory
      exact ⟨story, hstory, by omega⟩

/-! ## The names of snippets -/

namespace Markup

variable {tag closing : BraceTag}

/-- A brace tag is written as one that opens the snippet of a name. -/
def BraceTag.IsWrittenFor (name : List Char) (tag : BraceTag) : Prop :=
  ∃ blank behind, tag.text = "\x7b#snippet".toList ++ (blank ++ (name ++ behind)) ∧ blank ≠ [] ∧
    blank.all isBlank = true

/-- A tag opens the snippet of a name if the name starts with an ASCII character. -/
theorem isSome_opens?_of_isWrittenFor (hname : IsIdentifier name) (h : tag.IsWrittenFor name) :
    tag.opens?.isSome = name.head?.any (·.toNat < 128) := by
  obtain ⟨blank, behind, htext, hne, hblank⟩ := h
  obtain ⟨c, others, rfl⟩ : ∃ c others, name = c :: others := by
    refine List.exists_cons_of_ne_nil ?_
    rintro rfl
    cases hname.start
  have hstart : isIdentifierStart c = true := hname.start
  have hc : ¬ isBlank c = true := Bool.eq_false_iff.mp (not_isBlank_of_isIdentifierStart hstart)
  -- the white space is passed over up to the name
  have hfound : (blank ++ (c :: others ++ behind)).dropWhile isBlank = c :: (others ++ behind) := by
    rw [List.dropWhile_append_of_pos (List.all_eq_true.mp hblank), List.cons_append,
      List.dropWhile_cons_of_neg hc]
  have hlength : (c :: (others ++ behind)).length < (blank ++ (c :: others ++ behind)).length := by
    have hblankPos := List.length_pos_iff.mpr hne
    simp only [List.length_append, List.length_cons]
    omega
  rw [BraceTag.opens?, afterOpening?_eq_some_iff.mpr htext]
  simp only [Option.bind_eq_bind, Option.bind_some, hfound, hlength, decide_true, Bool.true_and,
    List.head?_cons, Option.any_some, isSnippetNameStart_of_isIdentifierStart hstart,
    Option.pure_def]
  split
  · rename_i hascii
    rw [hascii, Option.isSome_some]
  · rename_i hascii
    rw [Option.isSome_none, Bool.eq_false_iff.mpr hascii]

/-- The signs of the two kinds of snippet tag differ behind the brace. -/
theorem snippetSigns_ne (tail tail' : List Char) :
    "\x7b/snippet".toList ++ tail ≠ "\x7b#snippet".toList ++ tail' := by
  intro h
  have htake := congrArg (List.take 2) h
  rw [List.take_append_of_le_length (by decide), List.take_append_of_le_length (by decide)] at htake
  exact absurd htake (by decide)

/-- A tag that closes a snippet opens none. -/
theorem opens?_of_closes (h : tag.closes = true) : tag.opens? = none := by
  obtain ⟨blank, htext, -⟩ := closes_iff.mp h
  cases hopens : tag.opens? with
  | none => rfl
  | some name =>
    obtain ⟨blank', tail, htext', -⟩ := opens?_eq_some_iff.mp hopens
    exact absurd (htext.symm.trans htext') (snippetSigns_ne _ _)

/-- Inside a snippet, a snippet that is opened does not end it, and a snippet that is not opened
    does. -/
theorem childrenBody?_of_isWrittenFor {inner rest : List BraceTag} {snippets : List Snippet}
    (hname : IsIdentifier name) (htag : tag.IsWrittenFor name)
    (hinner : Nested (inner.filterMap BraceTag.snippetTag?) snippets)
    (hclosing : closing.closes = true) :
    (name.head?.any (·.toNat < 128) = true → ∀ depth start,
      childrenBody? (tag :: (inner ++ closing :: rest)) (depth + 1) start =
        childrenBody? rest (depth + 1) start) ∧
    (name.head?.any (·.toNat < 128) = false → ∀ start,
      childrenBody? (tag :: (inner ++ closing :: rest)) 1 (some start) =
        some ⟨start, closing.span.start⟩) := by
  -- a tag that closes opens nothing
  have hclosingTag : closing.snippetTag? = some (.closing closing.span) := by
    rw [BraceTag.snippetTag?, opens?_of_closes hclosing, hclosing]
    rfl
  have hopens := isSome_opens?_of_isWrittenFor hname htag
  constructor
  · intro hascii depth start
    rw [hascii, Option.isSome_iff_exists] at hopens
    obtain ⟨opened, hopens⟩ := hopens
    have hopeningTag : tag.snippetTag? = some (.opening opened tag.span) := by
      rw [BraceTag.snippetTag?, hopens]
    rw [childrenBody?_eq, childrenBody?_eq, List.filterMap_cons_some hopeningTag,
      List.filterMap_append, List.filterMap_cons_some hclosingTag, bodyFrom, if_neg (by simp),
      hinner.bodyFrom_append, bodyFrom, if_neg (by omega), Nat.add_sub_cancel]
  · intro hascii start
    rw [hascii, Option.isSome_eq_false_iff, Option.isNone_iff_eq_none] at hopens
    have hnoClosing : tag.closes = false := by
      refine Bool.eq_false_iff.mpr fun hcloses => ?_
      obtain ⟨blank, behind, htext, -⟩ := htag
      obtain ⟨blank', htext', -⟩ := closes_iff.mp hcloses
      exact snippetSigns_ne _ _ (htext'.symm.trans htext)
    -- the tag is none for a snippet, so that the closing tag ends the other snippet
    have hnoTag : tag.snippetTag? = none := by
      rw [BraceTag.snippetTag?, hopens, hnoClosing]
      rfl
    rw [childrenBody?_eq, List.filterMap_cons_none hnoTag, List.filterMap_append,
      List.filterMap_cons_some hclosingTag, hinner.bodyFrom_append, bodyFrom, if_pos (by simp)]
    rfl

end Markup

/-! ## Names of scripts -/

/-- Which names of a script are found in the markup.

    The stories of a file are found if the name of the component is the name of a tag, and there are
    none if it is not.  A capitalised name is the name of a tag if it has ASCII letters, digits and
    underscores only.  The end of a snippet inside another one is passed over if the name of the
    snippet starts with an ASCII character, and it ends the other snippet if the name does not. -/
theorem names_in_markup (filename source package : String) (name : List Char) :
    (∀ declared, StoriesFile.read filename source package = .ok declared →
      ∃ nodes lexemes, parse source.toList = .ok nodes ∧
        Markup.lexemes source.toList = .ok lexemes ∧
        FindsStories source.toList nodes lexemes declared.component declared.stories) ∧
    (IsIdentifier name → name.head?.any isUppercase = true →
      (IsTagName name ↔ ∀ c ∈ name, c.toNat < 128 ∧ c ≠ '$')) ∧
    ∀ (tag closing : BraceTag) (inner rest : List BraceTag) (snippets : List Snippet),
      IsIdentifier name → tag.IsWrittenFor name →
      Nested (inner.filterMap BraceTag.snippetTag?) snippets → closing.closes = true →
      (name.head?.any (·.toNat < 128) = true → ∀ depth start,
        childrenBody? (tag :: (inner ++ closing :: rest)) (depth + 1) start =
          childrenBody? rest (depth + 1) start) ∧
      (name.head?.any (·.toNat < 128) = false → ∀ start,
        childrenBody? (tag :: (inner ++ closing :: rest)) 1 (some start) =
          some ⟨start, closing.span.start⟩) := by
  refine ⟨fun declared h => ?_, isTagName_iff_of_isIdentifier,
    fun tag closing inner rest snippets => childrenBody?_of_isWrittenFor⟩
  obtain ⟨nodes, hparse, hstories⟩ := stories_of_read h
  obtain ⟨lexemes, hlexemes, -⟩ := marks_of_parse hparse
  rw [hstories]
  exact ⟨nodes, lexemes, hparse, hlexemes, findsStories hparse hlexemes declared.component⟩

/-- The module script of a stories file, in which the story component has the given name. -/
def scriptBinding (component : String) : String :=
  "<script module>import \x7bdefineMeta\x7d from \"csf\";const \x7bStory: " ++ component ++
    "\x7d = defineMeta(\x7b\x7d);</script>"

/-- A stories file with one story. -/
def fileBinding (component : String) : String :=
  scriptBinding component ++ "<" ++ component ++ " name=\"A\" />"

/-- The tags of a snippet inside another one that was opened before. -/
def snippetInside (name : String) : List BraceTag :=
  [⟨("\x7b#snippet " ++ name ++ "()\x7d").toList, ⟨20, 40⟩⟩, ⟨"\x7b/snippet\x7d".toList, ⟨40, 50⟩⟩,
    ⟨"\x7b/snippet\x7d".toList, ⟨50, 60⟩⟩]

/-- The story is found where it is written, and the end of the snippet inside is passed over. -/
theorem names_in_fileBinding :
    (∃ declared,
      StoriesFile.read "A.stories.svelte" (fileBinding "Story") "csf" = .ok declared ∧
      ∃ story ∈ declared.stories, story.span.start = byteLength (scriptBinding "Story").toList) ∧
    IsTagName "Story".toList ∧
    childrenBody? (snippetInside "row") 1 (some 10) = some ⟨10, 50⟩ := by
  obtain ⟨hstories, hnames, -⟩ :=
    names_in_markup "A.stories.svelte" (fileBinding "Story") "csf" "Story".toList
  have hname : IsTagName "Story".toList :=
    (hnames ⟨by decide, by decide⟩ (by decide)).mpr (by simp)
  refine ⟨?_, hname, ?_⟩
  · have hread : (StoriesFile.read "A.stories.svelte" (fileBinding "Story") "csf").toOption.any
        (fun declared => declared.component == "Story" && declared.stories.all fun story =>
          byteLength (scriptBinding "Story").toList ≤ story.span.start) = true := by decide +kernel
    have hlexemes : (Markup.lexemes (fileBinding "Story").toList).toOption.any (fun lexemes =>
        decide (∀ lexeme ∈ lexemes,
          ¬ lexeme.Covers (byteLength (scriptBinding "Story").toList))) = true := by decide +kernel
    obtain ⟨declared, hread, hdeclared⟩ := exists_ok_of_any hread
    obtain ⟨lexemes, hlexemes, hfree⟩ := exists_ok_of_any hlexemes
    obtain ⟨hcomponent, hplaces⟩ := Bool.and_eq_true_iff.mp hdeclared
    obtain ⟨nodes, lexemes', -, hlexemes', hfinds⟩ := hstories _ hread
    obtain rfl := Except.ok.inj (hlexemes.symm.trans hlexemes')
    rw [beq_iff_eq.mp hcomponent] at hfinds
    -- the story starts at the tag or behind it
    have houtside : ∀ story ∈ declared.stories,
        ¬ (story.span.start < byteLength (scriptBinding "Story").toList ∧
          byteLength (scriptBinding "Story").toList < story.span.stop) := by
      intro story hstory hinside
      have hplace := of_decide_eq_true (List.all_eq_true.mp hplaces story hstory)
      omega
    obtain ⟨tag, -, htag, hfound, -⟩ := hfinds.read hname (scriptBinding "Story").toList
      " name=\"A\" />".toList (by decide +kernel) (by decide) (of_decide_eq_true hfree) houtside
    refine ⟨declared, hread, hfound ?_⟩
    rw [OpeningTag.isRaw, htag]
    rfl
  · -- the tag is written for the snippet
    have hwritten :
        BraceTag.IsWrittenFor "row".toList ⟨"\x7b#snippet row()\x7d".toList, ⟨20, 40⟩⟩ :=
      ⟨[' '], "()\x7d".toList, by decide, by decide, by decide⟩
    obtain ⟨-, -, hsnippets⟩ :=
      names_in_markup "A.stories.svelte" (fileBinding "Story") "csf" "row".toList
    have hpassed := (hsnippets _ ⟨"\x7b/snippet\x7d".toList, ⟨40, 50⟩⟩ []
      [⟨"\x7b/snippet\x7d".toList, ⟨50, 60⟩⟩] [] ⟨by decide, by decide⟩ hwritten .nil
      (by decide +kernel)).1 (by decide) 0 (some 10)
    exact hpassed.trans (by decide +kernel)

/-- The name of the component may be no name of a tag: the element stands where markup is read, and
    it is no story.  And a snippet may not be taken for one, so that its end ends the snippet around
    it. -/
theorem names_in_dollarFile :
    (∃ declared lexemes,
      StoriesFile.read "A.stories.svelte" (fileBinding "S$") "csf" = .ok declared ∧
      declared.component = "S$" ∧ declared.stories = [] ∧
      Markup.lexemes (fileBinding "S$").toList = .ok lexemes ∧
      ∀ lexeme ∈ lexemes, ¬ lexeme.Covers (byteLength (scriptBinding "S$").toList)) ∧
    IsIdentifier "S$".toList ∧ "S$".toList.head?.any isUppercase = true ∧
    IsIdentifier "été".toList ∧ childrenBody? (snippetInside "été") 1 (some 10) =
      some ⟨10, 40⟩ := by
  refine ⟨?_, ⟨by decide, by decide⟩, by decide, ⟨by decide +kernel, by decide +kernel⟩,
    by decide +kernel⟩
  -- all that is said of the file can be computed
  have hread : (StoriesFile.read "A.stories.svelte" (fileBinding "S$") "csf").toOption.any
      (fun declared => declared.component == "S$" && declared.stories == []) = true := by
    decide +kernel
  have hlexemes : (Markup.lexemes (fileBinding "S$").toList).toOption.any (fun lexemes =>
      decide (∀ lexeme ∈ lexemes, ¬ lexeme.Covers (byteLength (scriptBinding "S$").toList))) =
          true := by
    decide +kernel
  obtain ⟨declared, hread, hdeclared⟩ := exists_ok_of_any hread
  obtain ⟨lexemes, hlexemes, hfree⟩ := exists_ok_of_any hlexemes
  obtain ⟨hcomponent, hstories⟩ := Bool.and_eq_true_iff.mp hdeclared
  exact ⟨declared, lexemes, hread, beq_iff_eq.mp hcomponent, beq_iff_eq.mp hstories, hlexemes,
    of_decide_eq_true hfree⟩

end SvelteStories
