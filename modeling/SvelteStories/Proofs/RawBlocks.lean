import SvelteStories.Markup.Walk
import SvelteStories.Proofs.DocumentOrder
import SvelteStories.Proofs.RoundTrip

/-!
# Opening tags and raw blocks

Where a lexeme of the text starts with `<` and a letter, an opening tag is read.  A tag with the
name of a script or a style, in any case of its letters, that does not close itself makes a raw
block; every other tag makes an element.  So the raw blocks and the elements of a forest are, in
document order, those of the opening tags.

The content of a raw block goes up to the first `</` that the name of the block follows, in any case
of its letters.  It is not asked what follows the name, so that `</stylesheet>` ends a style; nor is
it asked whether the name is that of a component, as it is for void elements.

## Key results

- `OpeningTag.delimits_of_readRaw`: where a raw block ends
- `Lexeme.goesWith_of_lexemes`: what the tags of a text make
- `rawBlocks_of_parse`: the raw blocks and the elements of a forest
-/

namespace SvelteStories.Markup

open Text

variable {text cs rest body name : List Char} {nodes : List Node} {lexeme :
  Lexeme} {lexemes : List Lexeme}
  {here : Nat}

/-! ## Opening tags -/

/-- An opening tag and its place in the text. -/
structure OpeningTag where
  name : List Char
  attributes : List Attribute
  closesItself : Bool
  span : Span

/-- The opening tag that the text starts with. -/
def openingTag? (cs : List Char) (here : Nat) : Option OpeningTag :=
  match cs with
  | '<' :: c :: _ =>
    if c.isAlpha then
      (readTag cs here).toOption.map fun (name, attributes, tagEnd) =>
        ⟨name, attributes, tagEnd.selfClosing, spanFrom cs tagEnd.rest here⟩
    else none
  | _ => none

/-- An opening tag starts with a letter behind the angle bracket, and it is what was read. -/
theorem exists_of_openingTag? {tag : OpeningTag} (h : openingTag? cs here = some tag) :
    ∃ c body tagEnd, cs = '<' :: c :: body ∧ c.isAlpha = true ∧
      readTag cs here = .ok (tag.name, tag.attributes, tagEnd) ∧
      tag.closesItself = tagEnd.selfClosing ∧
      tag.span = spanFrom cs tagEnd.rest here := by
  unfold openingTag? at h
  split at h
  · rename_i c body
    split at h
    · rename_i hc
      cases hread : readTag ('<' :: c :: body) here with
      | error fault =>
        rw [hread] at h
        cases h
      | ok read =>
        rw [hread] at h
        cases h
        exact ⟨c, body, read.2.2, rfl, hc, rfl, rfl, rfl⟩
    · cases h
  · cases h

/-- The opening tag at the place of a lexeme. -/
def Lexeme.tag? (text : List Char) (lexeme : Lexeme) : Option OpeningTag :=
  (splitAtByte? text lexeme.span.start).bind fun (_, cs) => openingTag? cs lexeme.span.start

/-- The opening tag of a lexeme is the one that the text has at the place of the lexeme. -/
theorem exists_of_tag? {tag : OpeningTag} (h : lexeme.tag? text = some tag) :
    ∃ cs, cs <:+ text ∧ lexeme.span.start = offsetOf text cs ∧
      openingTag? cs (offsetOf text cs) = some tag := by
  obtain ⟨⟨before, cs⟩, hsplit, htag⟩ := Option.bind_eq_some_iff.mp h
  obtain ⟨rfl, hstart⟩ := eq_append_of_splitAtByte? hsplit
  have hoffset := offsetOf_append before cs
  exact ⟨cs, List.suffix_append before cs,
    by rw [hoffset, hstart], by rw [hoffset, hstart]; exact htag⟩

namespace OpeningTag

/-- Whether what follows a tag is not markup. -/
def isRaw (tag : OpeningTag) : Bool :=
  isRawName tag.name && !tag.closesItself

/-- The mark of the element that a tag makes. -/
def mark (tag : OpeningTag) : Mark :=
  .element (String.ofList tag.name) tag.attributes tag.span.start

/-- A raw block is the one that starts with a tag.  The bytes behind its content are `</`, the name
    of the tag in any case of its letters and anything else up to the first end of a tag, and there
    is no `</` with this name in the content. -/
structure Delimits (text : List Char) (tag : OpeningTag) (block : RawBlock) : Prop where
  name : block.name = String.ofList tag.name
  attributes : block.attributes = tag.attributes
  start : block.span.start = tag.span.start
  contentStart : block.content.start = tag.span.stop
  content : ∃ inside, block.content.slice? text = some inside ∧
    ¬ '<' :: '/' :: tag.name.map Char.toLower <:+: inside.map Char.toLower
  closing : ∃ again others, again.map Char.toLower = tag.name.map Char.toLower ∧ '>' ∉ others ∧
    Span.slice? ⟨block.content.stop, block.span.stop⟩ text =
      some ('<' :: '/' :: (again ++ (others ++ ['>'])))

end OpeningTag

/-! ## Raw blocks -/

/-- A sign that is no letter is the lower case of itself only. -/
theorem eq_of_toLower {c sign : Char} (h : c.toLower = sign)
    (hsign : sign.isAlpha = false) : c = sign := by
  unfold Char.toLower at h
  split at h
  · rename_i hcapital
    -- the lower case of a capital letter is a letter
    have hsmall : sign.isLower = true := by
      subst h
      delta Char.isLower
      simp only [ge_iff_le, Bool.and_eq_true, decide_eq_true_eq]
      grind
    have hletter : sign.isAlpha = true := Bool.or_eq_true_iff.mpr (.inr hsmall)
    exact absurd hletter (Bool.eq_false_iff.mp hsign)
  · exact h

/-- The end of a raw block, in front of the first end of a tag. -/
theorem exists_of_closesRaw {before : List Char} (hraw : isRawName name = true)
    (hbefore : '>' ∉ before) (h : closesRaw name (before ++ '>' :: rest) = true) :
    ∃ again others, before = '<' :: '/' :: (again ++ others) ∧
      again.map Char.toLower = name.map Char.toLower := by
  -- the closing tag ends with the first end sign, which is no part of the name
  have hend : '>' ∉ '/' :: name.map Char.toLower := by
    intro hmem
    rcases List.mem_cons.mp hmem with hslash | hmem
    · exact absurd hslash (by decide)
    · exact absurd (List.all_eq_true.mp (lower_of_isRawName hraw).1 _ hmem) (by decide)
  rw [closesRaw_iff, List.map_append, List.map_cons] at h
  have hne : before.map Char.toLower ≠ [] := by
    rw [ne_eq, List.map_eq_nil_iff]
    rintro rfl
    exact absurd (List.cons_prefix_cons.mp h).1 (by decide)
  obtain ⟨behind, hbehind⟩ := prefix_of_prefix_append hne hend h
  rw [List.cons_append, List.cons_append, eq_comm, List.map_eq_cons_iff] at hbehind
  -- each part of the closing tag has its counterpart in the text
  obtain ⟨less, tail, rfl, hless, htail⟩ := hbehind
  obtain ⟨slash, tail, rfl, hslash, htail⟩ := List.map_eq_cons_iff.mp htail
  obtain ⟨again, others, rfl, hagain, -⟩ := List.map_eq_append_iff.mp htail
  obtain rfl := eq_of_toLower hless (by decide)
  obtain rfl := eq_of_toLower hslash (by decide)
  exact ⟨again, others, rfl, hagain⟩

/-- What is read behind a raw tag is a raw block. -/
theorem OpeningTag.delimits_of_readRaw (tag : OpeningTag) (hraw : isRawName tag.name = true)
    (hbody : body <:+ text) (hstop : tag.span.stop = offsetOf text body)
    (h : readRaw tag.name tag.attributes tag.span.start body (offsetOf text body) =
      .ok (lexeme, rest)) :
    ∃ block, lexeme = .rawBlock block ∧ tag.Delimits text block := by
  unfold readRaw at h
  split at h
  · cases h
  · rename_i closing hclosing
    obtain ⟨inside, rfl, hcloses, hinside⟩ := exists_of_seek? hclosing
    have hsuffix : closing <:+ inside ++ closing := List.suffix_append inside closing
    dsimp only at h
    split at h
    · cases h
    · rename_i tagEnd htagEnd
      obtain ⟨before, after, rfl, rfl, hbefore⟩ := exists_of_seek?_endsTag htagEnd
      obtain ⟨again, others, rfl, hagain⟩ := exists_of_closesRaw hraw hbefore hcloses
      cases h
      refine ⟨_, rfl, rfl, rfl, rfl, hstop.symm, ⟨inside, ?_, ?_⟩, again, others, hagain, ?_, ?_⟩
      · rw [spanFrom_offsetOf hsuffix hbody, slice?_offsetOf hsuffix hbody, consumed_append_self]
      · -- an end inside the content would have been found before
        rintro ⟨first, second, hin⟩
        rw [List.append_assoc, eq_comm, List.map_eq_append_iff] at hin
        obtain ⟨passed, tail, rfl, -, htail⟩ := hin
        have hne : tail ≠ [] := by
          rintro rfl
          cases htail
        refine Bool.eq_false_iff.mp (hinside tail (List.suffix_append passed tail) hne) ?_
        rw [closesRaw_iff, List.map_append, htail, List.append_assoc]
        exact List.prefix_append _ _
      · exact fun hmem => hbefore (by simp [hmem])
      · -- the bytes behind the content are the closing tag
        have hafter : after <:+ '<' :: '/' :: (again ++ others) ++ '>' :: after :=
          (List.suffix_cons '>' after).trans (List.suffix_append _ _)
        have hslice := slice?_offsetOf hafter (hsuffix.trans hbody)
        rw [offsetOf_suffix hafter (hsuffix.trans hbody)] at hslice
        rw [spanFrom_offsetOf hsuffix hbody]
        refine hslice.trans ?_
        rw [List.append_cons, consumed_append_self]
        simp

/-! ## What the tags make -/

/-- Whether a mark is that of an element. -/
def Mark.isElement : Mark → Bool
  | .element _ _ _ => true
  | _ => false

/-- The raw block that a mark is of. -/
def Mark.rawBlock? : Mark → Option RawBlock
  | .rawBlock block => some block
  | _ => none

/-- A lexeme is what the opening tag at its place makes, if there is one. -/
inductive Lexeme.GoesWith (text : List Char) : Lexeme → Option OpeningTag → Prop
  | raw {tag : OpeningTag} {block : RawBlock} (hraw : tag.isRaw = true)
      (h : tag.Delimits text block) :
    GoesWith text (.rawBlock block) (some tag)
  | element {lexeme : Lexeme} {tag : OpeningTag} (hraw : tag.isRaw = false)
    (h : lexeme.mark? = some tag.mark) : GoesWith text lexeme (some tag)
  | other {lexeme : Lexeme} (helement : lexeme.mark?.all (!·.isElement) = true)
    (hblock : lexeme.mark?.bind Mark.rawBlock? = none) : GoesWith text lexeme none

/-- Behind `<` and a letter an opening tag is read. -/
theorem readLexeme_of_isAlpha {c : Char} (hc : c.isAlpha = true) (cs : List Char) (here : Nat) :
    readLexeme ('<' :: c :: cs) here = readOpening ('<' :: c :: cs) here := by
  have hmarkup : startsMarkup ('<' :: c :: cs) = true :=
    startsMarkup_iff.mpr (.inr (.inr ⟨c, hc, cs, rfl⟩))
  unfold readLexeme
  rw [if_pos hmarkup]
  -- the letter is neither an exclamation mark nor a slash
  split
  · rename_i heq
    obtain rfl : c = '!' := (List.cons.inj (List.cons.inj heq).2).1
    exact absurd hc (by decide)
  · rename_i heq
    obtain rfl : c = '/' := (List.cons.inj (List.cons.inj heq).2).1
    exact absurd hc (by decide)
  · rfl

/-- What is read behind `<` and a letter is an opening tag. -/
theorem openingTag?_of_isAlpha {c : Char} (hc : c.isAlpha = true) {attributes : List Attribute}
    {tagEnd : TagEnd} (h : readTag ('<' :: c :: cs) here = .ok (name, attributes, tagEnd)) :
    openingTag? ('<' :: c :: cs) here =
      some ⟨name, attributes, tagEnd.selfClosing, spanFrom ('<' :: c :: cs) tagEnd.rest here⟩ := by
  rw [openingTag?, if_pos hc, h]
  rfl

/-- What an opening tag starts goes with the tag. -/
theorem goesWith_of_readOpening {c : Char} (hc : c.isAlpha = true) (hcs : '<' :: c :: cs <:+ text)
    (h : readOpening ('<' :: c :: cs) (offsetOf text ('<' :: c :: cs)) = .ok (lexeme, rest)) :
    lexeme.GoesWith text (openingTag? ('<' :: c :: cs) (offsetOf text ('<' :: c :: cs))) := by
  unfold readOpening at h
  obtain ⟨⟨name, attributes, selfClosing, left⟩, htag, h⟩ := exists_of_bind_eq_ok h
  -- the tag ends inside the text
  have hleft : left <:+ '<' :: c :: cs := by
    obtain ⟨inner, hsplit⟩ := suffix_of_readTag htag
    rw [hsplit]
    exact List.suffix_append _ _
  rw [openingTag?_of_isAlpha hc htag]
  cases selfClosing with
  | true =>
    cases h
    exact .element (Bool.and_false _) rfl
  | false =>
    cases hraw : isRawName name with
    | true =>
      simp only [hraw, Bool.false_eq_true, if_false, if_true, spanFrom_offsetOf hleft hcs] at h ⊢
      obtain ⟨block, rfl, hblock⟩ := OpeningTag.delimits_of_readRaw
        ⟨name, attributes, false, ⟨_, offsetOf text left⟩⟩ hraw (hleft.trans hcs) rfl h
      exact .raw (by simp [OpeningTag.isRaw, hraw]) hblock
    | false =>
      -- a tag with another name starts no raw block
      have hnone (span : Span) : OpeningTag.isRaw ⟨name, attributes, false, span⟩ = false := by
        rw [OpeningTag.isRaw, hraw, Bool.false_and]
      simp only [hraw, Bool.false_eq_true, if_false] at h
      split at h
      · cases h
        exact .element (hnone _) rfl
      · cases h
        exact .element (hnone _) rfl

/-- What is read at a place goes with the opening tag there. -/
theorem goesWith_of_readLexeme (hne : cs ≠ []) (hcs : cs <:+ text)
    (h : readLexeme cs (offsetOf text cs) = .ok (lexeme, rest)) :
    lexeme.GoesWith text (openingTag? cs (offsetOf text cs)) := by
  cases hmarkup : startsMarkup cs with
  | true =>
    rcases exists_of_startsMarkup hmarkup with ⟨body, rfl⟩ | ⟨c, body, hc, rfl⟩ | ⟨c, body, hc, rfl⟩
    · -- neither a comment nor a closing tag makes an element or a raw block
      change readComment _ _ = _ at h
      unfold readComment at h
      dsimp only at h
      split at h
      · cases h
      · cases h
        exact .other rfl rfl
    · unfold readLexeme at h
      rw [if_pos hmarkup] at h
      change readClosing _ _ = _ at h
      unfold readClosing at h
      dsimp only at h
      split at h
      · cases h
      · cases h
        exact .other rfl rfl
    · rw [readLexeme_of_isAlpha hc] at h
      exact goesWith_of_readOpening hc hcs h
  | false =>
    -- where no markup starts there is no opening tag
    have hnone : openingTag? cs (offsetOf text cs) = none := by
      unfold openingTag?
      split
      · rename_i c body
        refine if_neg fun hc => Bool.eq_false_iff.mp hmarkup ?_
        exact startsMarkup_iff.mpr (.inr (.inr ⟨c, hc, body, rfl⟩))
      · rfl
    unfold readLexeme at h
    rw [hmarkup, if_neg Bool.false_ne_true] at h
    obtain ⟨left, -, h⟩ := exists_of_bind_eq_ok h
    cases h
    rw [hnone]
    exact .other rfl rfl

/-- Every lexeme of a text goes with the opening tag at its place. -/
theorem goesWith_of_lexemes (h : Markup.lexemes text = .ok lexemes) (hlexeme : lexeme ∈ lexemes) :
    lexeme.GoesWith text (lexeme.tag? text) := by
  have hwhole := exists_readLexeme (List.suffix_refl text) (by rwa [offsetOf_self])
  obtain ⟨start, rest, ⟨before, rfl⟩, hne, hstart, hread⟩ := hwhole lexeme hlexeme
  have htag : lexeme.tag? (before ++ start) =
      openingTag? start (offsetOf (before ++ start) start) := by
    rw [Lexeme.tag?, hstart, offsetOf_append, splitAtByte?_append, Option.bind_some]
  rw [htag]
  exact goesWith_of_readLexeme hne (List.suffix_append _ _) hread

/-! ## The raw blocks and elements of a forest -/

/-- The opening tags of a text, each at the place of a lexeme. -/
def openingTags (text : List Char) (lexemes : List Lexeme) : List OpeningTag :=
  lexemes.filterMap (Lexeme.tag? text)

/-- The raw blocks of a forest, in document order. -/
def rawBlocks (nodes : List Node) : List RawBlock :=
  (marks nodes).filterMap Mark.rawBlock?

/-- The raw blocks of a forest are those among its nodes. -/
theorem mem_rawBlocks_iff {block : RawBlock} :
    block ∈ rawBlocks nodes ↔ Among (.rawBlock block) nodes := by
  rw [rawBlocks, List.mem_filterMap, ← mem_inOrder_iff]
  simp only [marks, List.mem_map, exists_exists_and_eq_and]
  constructor
  · rintro ⟨node, hnode, hblock⟩
    cases node with
    | rawBlock other =>
      obtain rfl : other = block := Option.some.inj hblock
      exact hnode
    | element head children => cases hblock
    | comment data span => cases hblock
    | text raw span => cases hblock
  · exact fun h => ⟨_, h, rfl⟩

/-- The elements among the marks of a forest. -/
theorem filter_marks (nodes : List Node) :
    (marks nodes).filter Mark.isElement = (elementsOf nodes).map fun (head, _) => head.mark := by
  induction nodes using forest_induction with
  | nil => rfl
  | cons node rest ihChildren ihRest =>
    -- a node comes first, then what is inside, then the others
    have hmarks : marks (node :: rest) = node.mark :: (marks node.children ++ marks rest) := by
      rw [marks, inOrder_cons, List.map_cons, List.map_append, marks, marks]
    rw [hmarks, List.filter_cons, List.filter_append, ihRest, elementsOf, List.map_append]
    cases node with
    | element head children =>
      simp only [Node.children] at ihChildren
      simp [Node.mark, Element.mark, Mark.isElement, Node.elements, Node.children, ihChildren]
    | comment data span => rfl
    | text raw span => rfl
    | rawBlock block => rfl

/-- The tags of lexemes and what they make, in order. -/
theorem forall₂_of_goesWith (h : ∀ lexeme ∈ lexemes, lexeme.GoesWith text (lexeme.tag? text)) :
    List.Forall₂ (OpeningTag.Delimits text) ((openingTags text lexemes).filter OpeningTag.isRaw)
        ((lexemes.filterMap Lexeme.mark?).filterMap Mark.rawBlock?) ∧
      (lexemes.filterMap Lexeme.mark?).filter Mark.isElement =
        ((openingTags text lexemes).filter (!·.isRaw)).map OpeningTag.mark := by
  induction lexemes with
  | nil => exact ⟨.nil, rfl⟩
  | cons lexeme lexemes ih =>
    obtain ⟨hlexeme, hothers⟩ := List.forall_mem_cons.mp h
    obtain ⟨hblocks, helements⟩ := ih hothers
    -- each lexeme adds to one of the lists, or to none
    generalize htag : lexeme.tag? text = tag? at hlexeme
    rw [openingTags, List.filterMap_cons, htag]
    cases hlexeme with
    | raw hraw hblock =>
      rw [List.filterMap_cons]
      simp only [Lexeme.mark?, List.filterMap_cons, List.filter_cons, hraw,
        Mark.rawBlock?, Mark.isElement, if_true, Bool.not_true, Bool.false_eq_true, if_false]
      exact ⟨.cons hblock hblocks, helements⟩
    | element hraw hmark =>
      rw [List.filterMap_cons, hmark]
      simp only [List.filterMap_cons, List.filter_cons, hraw, OpeningTag.mark,
        Mark.rawBlock?, Mark.isElement, if_true, Bool.not_false, Bool.false_eq_true, if_false,
        List.map_cons, List.cons.injEq, true_and]
      exact ⟨hblocks, helements⟩
    | other helement hblock =>
      rw [List.filterMap_cons]
      cases hmark : lexeme.mark? with
      | none => exact ⟨hblocks, helements⟩
      | some mark =>
        rw [hmark, Option.bind_some] at hblock
        rw [hmark, Option.all_some, Bool.not_eq_true'] at helement
        simp only [List.filterMap_cons, List.filter_cons, hblock, helement,
          Bool.false_eq_true, if_false]
        exact ⟨hblocks, helements⟩

/-- Two characters have the lower case `s`. -/
theorem eq_of_toLower_s {c : Char} (h : c.toLower = 's') : c = 's' ∨ c = 'S' := by
  unfold Char.toLower at h
  split at h
  · have hval : c.val + ('a'.val - 'A'.val) = 's'.val := congrArg Char.val h
    exact .inr (Char.ext (by grind))
  · exact .inl h

/-- A raw block is named like a component if its name starts with a capital letter, which is an `S`
    then. -/
theorem isComponentName_of_isRawName (h : isRawName name = true) :
    isComponentName name = true ↔ name.head? = some 'S' := by
  -- a raw name has only letters, so that it is no member of anything
  have hdot : name.contains '.' = false := by
    rw [List.contains_eq_mem, decide_eq_false_iff_not]
    intro hmem
    have hletter := List.all_eq_true.mp (lower_of_isRawName h).1 _ (List.mem_map_of_mem hmem)
    exact absurd hletter (by decide)
  -- both names start with this letter
  have hfirst : ∃ c others, c.toLower = 's' ∧ name = c :: others := by
    simp only [isRawName, Bool.or_eq_true, beq_iff_eq, ← String.toList_inj,
      String.toList_ofList] at h
    rcases h with h | h
    · obtain ⟨c, others, rfl, hc, -⟩ := List.map_eq_cons_iff.mp h
      exact ⟨c, others, hc, rfl⟩
    · obtain ⟨c, others, rfl, hc, -⟩ := List.map_eq_cons_iff.mp h
      exact ⟨c, others, hc, rfl⟩
  obtain ⟨c, others, hc, rfl⟩ := hfirst
  rw [isComponentName, hdot, Bool.or_false, List.head?_cons, Option.any_some, Option.some_inj]
  rcases eq_of_toLower_s hc with rfl | rfl <;> decide

/-- The raw blocks of a forest are, in document order, those of the opening tags with a raw name
    that do not close themselves, and the elements are those of all other opening tags.  A raw block
    may have the name of a component. -/
theorem rawBlocks_of_parse (h : parse text = .ok nodes) :
    ∃ lexemes, Markup.lexemes text = .ok lexemes ∧
    List.Forall₂ (OpeningTag.Delimits text) ((openingTags text lexemes).filter OpeningTag.isRaw)
      (rawBlocks nodes) ∧
    (elementsOf nodes).map (fun (head, _) => head.mark) =
      ((openingTags text lexemes).filter (!·.isRaw)).map OpeningTag.mark ∧
    ∀ block, Among (.rawBlock block) nodes → isRawName block.name.toList = true ∧
      (isComponentName block.name.toList = true ↔ block.name.toList.head? = some 'S') := by
  obtain ⟨lexemes, hlexemes, hmarks⟩ := marks_of_parse h
  have hmade := forall₂_of_goesWith fun lexeme hlexeme => goesWith_of_lexemes hlexemes hlexeme
  rw [← hmarks, filter_marks] at hmade
  refine ⟨lexemes, hlexemes, hmade.1, hmade.2, fun block hblock => ?_⟩
  -- the block is the one of a raw tag, and it has the name of the tag
  have hraw : isRawName block.name.toList = true := by
    obtain ⟨index, hindex, rfl⟩ := List.mem_iff_getElem.mp (mem_rawBlocks_iff.mpr hblock)
    have hlength : index < ((openingTags text lexemes).filter OpeningTag.isRaw).length := by
      rwa [hmade.1.length_eq]
    have htag := List.of_mem_filter (List.getElem_mem hlength)
    have hname : (rawBlocks nodes)[index].name = _ := (hmade.1.get hlength hindex).name
    rw [hname, String.toList_ofList]
    exact (Bool.and_eq_true_iff.mp htag).1
  exact ⟨hraw, isComponentName_of_isRawName hraw⟩

/-- A script and a style in other cases of their letters, and a script that closes itself. -/
def rawMarkup : List Char :=
  "<Script>a < b</scripT ><script /><p><style>c</style></p>".toList

/-- The script that closes itself is an element, and the two other tags make raw blocks. -/
theorem rawBlocks_rawMarkup : ∃ nodes lexemes, parse rawMarkup = .ok nodes ∧
    Markup.lexemes rawMarkup = .ok lexemes ∧ (rawBlocks nodes).map RawBlock.name =
      ["Script", "style"] ∧
    List.Forall₂ (OpeningTag.Delimits rawMarkup)
      ((openingTags rawMarkup lexemes).filter OpeningTag.isRaw)
      (rawBlocks nodes) ∧
    (elementsOf nodes).map (fun (head, _) => head.mark) =
      ((openingTags rawMarkup lexemes).filter (!·.isRaw)).map OpeningTag.mark := by
  have hnames : (parse rawMarkup).toOption.any
      (fun nodes => (rawBlocks nodes).map RawBlock.name == ["Script", "style"]) = true := by
        decide +kernel
  obtain ⟨nodes, hparse, hnames⟩ := exists_ok_of_any hnames
  obtain ⟨lexemes, hlexemes, hblocks, helements, -⟩ := rawBlocks_of_parse hparse
  exact ⟨nodes, lexemes, hparse, hlexemes, beq_iff_eq.mp hnames, hblocks, helements⟩

/-- A component named like a style, and a style with the closing tag of another name in its
    content. -/
def styledMarkup : List Char :=
  "<Style><p>a</p></Style><style>a</stylesheet>b</style>".toList

/-- The component is a raw block, and the style ends at the closing tag of the other name. -/
theorem rawBlocks_styledMarkup : ∃ nodes component style, parse styledMarkup = .ok nodes ∧
    rawBlocks nodes = [component, style] ∧ isComponentName component.name.toList = true ∧
    Span.slice? component.content styledMarkup = some "<p>a</p>".toList ∧
    Span.slice? ⟨style.content.stop, style.span.stop⟩ styledMarkup =
      some "</stylesheet>".toList := by
  have hblocks : (parse styledMarkup).toOption.any (fun nodes => rawBlocks nodes ==
      [⟨"Style", [], ⟨7, 15⟩, ⟨0, 23⟩⟩, ⟨"style", [], ⟨30, 31⟩, ⟨23, 44⟩⟩]) = true := by
        decide +kernel
  obtain ⟨nodes, hparse, hblocks⟩ := exists_ok_of_any hblocks
  exact ⟨nodes, _, _, hparse, beq_iff_eq.mp hblocks,
    by decide, by decide +kernel, by decide +kernel⟩

end SvelteStories.Markup
