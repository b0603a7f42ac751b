import SvelteStories.Proofs.BraceRegions
import SvelteStories.Proofs.TagRoundTrip

/-!
# The raw code of children

The raw code of an element is a part of its content.  If the snippet tags in the runs of text
directly inside the element are well nested, it is the body of the first outermost snippet
`children`, or the whole content if there is no such snippet.

A reader of the tags counts how many snippets are open.  Over a well nested part of the tags it
comes back to the number that it started with, so what stands inside a snippet never decides.

## Key results

- `opens?_eq_some_iff`, `closes_iff`: the snippet tags
- `Nested.bodyFrom_append`, `Nested.bodyFrom_eq`: what is read of well nested tags
- `rawCodeSpan_within`: the raw code is a part of the content
- `rawCode_of_parse`: the raw code of the elements of a text
-/

namespace SvelteStories.Markup

open Text

variable {text : List Char} {nodes children : List Node} {tag : BraceTag} {tags : List BraceTag}
  {name : String} {content : Span}

/-! ## Snippet tags -/

/-- A tag that opens a snippet: white space and a name stand behind the sign. -/
def IsSnippetOpening (name : String) (tag : List Char) : Prop :=
  ∃ blank tail, tag = "\x7b#snippet".toList ++ (blank ++ (name.toList ++ tail)) ∧
    blank ≠ [] ∧ blank.all isBlank = true ∧ name.toList.head?.any isSnippetNameStart = true ∧
    name.toList.all isSnippetNamePart = true ∧ tail.head?.all (!isSnippetNamePart ·) = true

/-- A tag that closes a snippet. -/
def IsSnippetClosing (tag : List Char) : Prop :=
  ∃ blank, tag = "\x7b/snippet".toList ++ (blank ++ ['}']) ∧ blank.all isBlank = true

/-- What is behind the sign of a tag is the rest of the text. -/
theorem afterOpening?_eq_some_iff {opening : String} {text rest : List Char} :
    afterOpening? opening text = some rest ↔ text = opening.toList ++ rest := by
  rw [afterOpening?]
  constructor
  · intro h
    split at h
    · rename_i hstart
      obtain ⟨tail, rfl⟩ := (startsWith_iff _ _).mp hstart
      obtain rfl := Option.some.inj h
      rw [← String.length_toList, List.drop_left]
    · cases h
  · rintro rfl
    rw [if_pos ((startsWith_iff _ _).mpr (List.prefix_append _ _)),
      ← String.length_toList, List.drop_left]

/-- A tag is taken for the end of a snippet exactly if it is one. -/
theorem closes_iff : tag.closes = true ↔ IsSnippetClosing tag.text := by
  constructor
  · intro h
    unfold BraceTag.closes at h
    split at h
    · rename_i blank hblank
      rw [beq_iff_eq] at h
      refine ⟨blank.takeWhile isBlank, ?_, List.all_takeWhile⟩
      rw [← h, List.takeWhile_append_dropWhile]
      exact afterOpening?_eq_some_iff.mp hblank
    · cases h
  · rintro ⟨blank, htext, hblank⟩
    -- the white space is passed over, and the brace is left
    rw [BraceTag.closes, afterOpening?_eq_some_iff.mpr htext]
    dsimp only
    rw [List.dropWhile_append_of_pos (List.all_eq_true.mp hblank)]
    rfl

/-- The name of a snippet starts with an ASCII character. -/
theorem toNat_of_isSnippetNameStart {c : Char} (h : isSnippetNameStart c = true) :
    0x20 < c.toNat ∧ c.toNat < 0x80 := by
  have hlast (last : Char) (hle : c.val ≤ last.val) : c.toNat ≤ last.toNat :=
    UInt32.le_iff_toNat_le.mp hle
  have hfirst (first : Char) (hle : first.val ≤ c.val) : first.toNat ≤ c.toNat :=
    UInt32.le_iff_toNat_le.mp hle
  delta isSnippetNameStart Char.isAlpha Char.isUpper Char.isLower at h
  simp only [Bool.or_eq_true, Bool.and_eq_true, decide_eq_true_eq, beq_iff_eq, ge_iff_le] at h
  rcases h with ((⟨hge, hle⟩ | ⟨hge, hle⟩) | rfl) | rfl
  · exact ⟨Nat.lt_of_lt_of_le (by decide) (hfirst _ hge),
      Nat.lt_of_le_of_lt (hlast _ hle) (by decide)⟩
  · exact ⟨Nat.lt_of_lt_of_le (by decide) (hfirst _ hge),
      Nat.lt_of_le_of_lt (hlast _ hle) (by decide)⟩
  · decide
  · decide

/-- The name of a snippet does not start with white space. -/
theorem not_isBlank_of_isSnippetNameStart {c : Char} (h : isSnippetNameStart c = true) :
    isBlank c = false := by
  obtain ⟨hfirst, hlast⟩ := toNat_of_isSnippetNameStart h
  rw [← Bool.not_eq_true]
  intro hblank
  simp only [isBlank, Bool.or_eq_true, Bool.and_eq_true, decide_eq_true_eq, beq_iff_eq] at hblank
  omega

/-- What starts the name of a snippet may stand in it. -/
theorem isSnippetNamePart_of_isSnippetNameStart {c : Char} (h : isSnippetNameStart c = true) :
    isSnippetNamePart c = true := by
  have hlast := (toNat_of_isSnippetNameStart h).2
  simp only [isSnippetNameStart, Bool.or_eq_true, beq_iff_eq] at h
  simp only [isSnippetNamePart, isWord, hlast, if_true, Char.isAlphanum,
    Bool.or_eq_true, beq_iff_eq, decide_eq_true_eq]
  rcases h with (h | h) | h
  · exact .inl (.inl (.inl h))
  · exact .inl (.inr h)
  · exact .inr h

/-- White space is skipped up to the name of a snippet. -/
theorem dropWhile_append_name {blank found : List Char} (hblank : blank.all isBlank = true)
    (hfound : found.head?.any isSnippetNameStart = true) :
    (blank ++ found).dropWhile isBlank = found := by
  rw [List.dropWhile_append_of_pos (List.all_eq_true.mp hblank)]
  cases found with
  | nil => cases hfound
  | cons c found =>
    have hc : ¬ isBlank c = true := by
      rw [not_isBlank_of_isSnippetNameStart hfound]
      exact Bool.false_ne_true
    rw [List.dropWhile_cons_of_neg hc]

/-- What starts like the name of a snippet goes on with the whole name. -/
theorem head?_takeWhile_name {found : List Char} (h : found.head?.any isSnippetNameStart = true) :
    (found.takeWhile isSnippetNamePart).head?.any isSnippetNameStart = true := by
  cases found with
  | nil => cases h
  | cons c found =>
    rw [List.takeWhile_cons_of_pos (isSnippetNamePart_of_isSnippetNameStart h)]
    exact h

/-- A tag that is taken for the start of a snippet is one. -/
theorem isSnippetOpening_of_opens? (h : tag.opens? = some name) :
    IsSnippetOpening name tag.text := by
  obtain ⟨blank, hblank, h⟩ := Option.bind_eq_some_iff.mp h
  dsimp only at h
  split at h
  · rename_i hcond
    obtain ⟨hlength, hstart⟩ := Bool.and_eq_true_iff.mp hcond
    rw [decide_eq_true_eq] at hlength
    obtain rfl := Option.some.inj h
    -- the text is the sign, white space, the name and what is behind the name
    have hsplit := List.takeWhile_append_dropWhile (p := isBlank) (l := blank)
    generalize blank.dropWhile isBlank = found at hlength hstart hsplit ⊢
    have hname : (String.ofList (found.takeWhile isSnippetNamePart)).toList =
        found.takeWhile isSnippetNamePart := String.toList_ofList
    refine ⟨blank.takeWhile isBlank, found.dropWhile isSnippetNamePart, ?_, ?_,
      List.all_takeWhile, ?_, ?_, ?_⟩
    · rw [hname, List.takeWhile_append_dropWhile, hsplit]
      exact afterOpening?_eq_some_iff.mp hblank
    · -- without white space nothing would have been passed over
      intro hnil
      rw [hnil, List.nil_append] at hsplit
      exact absurd (congrArg List.length hsplit) (Nat.ne_of_lt hlength)
    · rw [hname]
      exact head?_takeWhile_name hstart
    · rw [hname]
      exact List.all_takeWhile
    · -- the name ends where it cannot go on
      have hhead := List.head?_dropWhile_not isSnippetNamePart found
      cases hfound : (found.dropWhile isSnippetNamePart).head? with
      | none => rfl
      | some c =>
        rw [hfound] at hhead
        simpa using hhead
  · cases h

/-- The start of a snippet is taken for one, with its name. -/
theorem opens?_of_isSnippetOpening (h : IsSnippetOpening name tag.text) :
    tag.opens? = some name := by
  obtain ⟨blank, tail, htext, hblankNe, hblank, hstart, hpart, htail⟩ := h
  have hhead : (name.toList ++ tail).head?.any isSnippetNameStart = true := by
    cases hname : name.toList with
    | nil => rw [hname] at hstart; cases hstart
    | cons c more => rw [hname] at hstart; exact hstart
  -- white space was passed over
  have hlength : (name.toList ++ tail).length < (blank ++ (name.toList ++ tail)).length := by
    have hblankPos := List.length_pos_iff.mpr hblankNe
    simp only [List.length_append]
    omega
  rw [BraceTag.opens?, afterOpening?_eq_some_iff.mpr htext]
  simp only [Option.bind_eq_bind, Option.bind_some,
    dropWhile_append_name hblank hhead, hlength, hhead, takeWhile_append_stop hpart htail,
    String.ofList_toList, decide_true, Bool.and_self, if_true]
  rfl

/-- A tag is taken for the start of a snippet exactly if it is one with that name. -/
theorem opens?_eq_some_iff : tag.opens? = some name ↔ IsSnippetOpening name tag.text :=
  ⟨isSnippetOpening_of_opens?, opens?_of_isSnippetOpening⟩

/-- What a snippet tag does, with its span. -/
inductive SnippetTag
  | opening (name : String) (span : Span)
  | closing (span : Span)
deriving DecidableEq

/-- The snippet tag that a brace tag is. -/
def BraceTag.snippetTag? (tag : BraceTag) : Option SnippetTag :=
  match tag.opens? with
  | some name => some (.opening name tag.span)
  | none => if tag.closes then some (.closing tag.span) else none

/-- The snippet tags in the runs of text among the children of an element. -/
def snippetTags (children : List Node) : List SnippetTag :=
  (children.flatMap Node.braceTags).filterMap BraceTag.snippetTag?

/-! ## Well nested tags -/

/-- A snippet, by its tags. -/
structure Snippet where
  name : String
  opening : Span
  closing : Span
deriving DecidableEq

/-- What stands between the tags of a snippet. -/
def Snippet.body (snippet : Snippet) : Span :=
  ⟨snippet.opening.stop, snippet.closing.start⟩

/-- Tags are well nested, and these are the outermost snippets. -/
inductive Nested : List SnippetTag → List Snippet → Prop
  | nil : Nested [] []
  | cons {name : String} {opening closing : Span} {inner rest : List SnippetTag}
    {innerSnippets snippets : List Snippet} (hinner : Nested inner innerSnippets)
    (hrest : Nested rest snippets) :
    Nested (.opening name opening :: (inner ++ .closing closing :: rest))
      (⟨name, opening, closing⟩ :: snippets)

/-- The body of the first snippet `children` that is closed, read from snippet tags alone. -/
def bodyFrom : List SnippetTag → (depth : Nat) → (start : Option Nat) → Option Span
  | [], _, _ => none
  | .opening name span :: tags, depth, start =>
    bodyFrom tags (depth + 1) (if depth = 0 ∧ name = "children" then some span.stop else start)
  | .closing span :: tags, depth, start =>
    if depth ≤ 1 ∧ start.isSome then start.map (⟨·, span.start⟩)
      else bodyFrom tags (depth - 1) start

/-- Only the snippet tags are read. -/
theorem childrenBody?_eq (tags : List BraceTag) (depth : Nat) (start : Option Nat) :
    childrenBody? tags depth start = bodyFrom (tags.filterMap BraceTag.snippetTag?)
      depth start := by
  induction tags generalizing depth start with
  | nil => rfl
  | cons tag tags ih =>
    conv_lhs => unfold childrenBody?
    rw [List.filterMap_cons, BraceTag.snippetTag?]
    -- a tag that neither opens nor closes a snippet changes nothing
    cases hopens : tag.opens? with
    | some name => simp only [ih, bodyFrom, Bool.and_eq_true, beq_iff_eq]
    | none =>
      cases hcloses : tag.closes with
      | false => exact ih depth start
      | true =>
        simp only [ih, bodyFrom, if_true]
        match depth, start with
        | 0, some start | 1, some start => rfl
        | 0, none | 1, none => rfl
        | depth + 2, start => simp

section Nested

variable {inner rest : List SnippetTag} {snippets : List Snippet}

/-- Inside an open snippet, well nested tags are passed over. -/
theorem Nested.bodyFrom_append (h : Nested inner snippets) (depth : Nat) (start : Option Nat)
    (rest : List SnippetTag) :
    bodyFrom (inner ++ rest) (depth + 1) start = bodyFrom rest (depth + 1) start := by
  induction h generalizing depth start rest with
  | nil => rfl
  | cons _ _ ihInner ihRest =>
    rw [List.cons_append, List.append_assoc, List.cons_append, bodyFrom, if_neg (by simp),
      ihInner, bodyFrom, if_neg (by omega), Nat.add_sub_cancel, ihRest]

/-- Of well nested tags, the body of the first outermost snippet `children` is read. -/
theorem Nested.bodyFrom_eq (h : Nested inner snippets) :
    bodyFrom inner 0 none = (snippets.find? (·.name == "children")).map Snippet.body := by
  induction h with
  | nil => rfl
  | @cons name opening closing inner rest _ snippets hinner _ _ ih =>
    rw [bodyFrom, hinner.bodyFrom_append, bodyFrom]
    by_cases hname : name = "children"
    · subst hname
      rfl
    · rw [List.find?_cons_of_neg (by simpa using hname), ← ih,
        if_neg (c := _ ∧ _) (fun hboth => hname hboth.2)]
      rfl

end Nested

/-! ## The place of the raw code -/

/-- A body runs from the end of a tag to the start of a tag behind it, or it was started before. -/
theorem exists_of_childrenBody? {depth : Nat} {start : Option Nat} {body : Span}
    (h : childrenBody? tags depth start = some body) :
    ∃ closing ∈ tags, body.stop = closing.span.start ∧
      (start = some body.start ∨ ∃ opening, [opening, closing].Sublist tags ∧
        body.start = opening.span.stop) := by
  induction tags generalizing depth start with
  | nil => cases h
  | cons tag tags ih =>
    unfold childrenBody? at h
    split at h
    · rename_i name hopens
      obtain ⟨closing, hmem, hstop, hstart⟩ := ih h
      refine ⟨closing, List.mem_cons_of_mem tag hmem, hstop, ?_⟩
      rcases hstart with hstart | ⟨opening, hsublist, hstart⟩
      · split at hstart
        · -- the body starts behind this tag
          exact .inr ⟨tag, .cons_cons tag (List.singleton_sublist.mpr hmem),
            (Option.some.inj hstart).symm⟩
        · exact .inl hstart
      · exact .inr ⟨opening, hsublist.cons tag, hstart⟩
    · -- the body is found behind this tag
      have hbehind {depth : Nat} (h : childrenBody? tags depth start = some body) :
          ∃ closing ∈ tag :: tags, body.stop = closing.span.start ∧
            (start = some body.start ∨ ∃ opening, [opening, closing].Sublist (tag :: tags) ∧
              body.start = opening.span.stop) := by
        obtain ⟨closing, hmem, hstop, hstart⟩ := ih h
        refine ⟨closing, List.mem_cons_of_mem tag hmem, hstop, hstart.imp_right ?_⟩
        rintro ⟨opening, hsublist, hstart⟩
        exact ⟨opening, hsublist.cons tag, hstart⟩
      split at h
      · split at h
        · obtain rfl := Option.some.inj h
          exact ⟨tag, List.mem_cons_self, rfl, .inl rfl⟩
        · exact hbehind h
      · exact hbehind h

/-- The brace tags of a node stand in it. -/
theorem Node.Stands.mem_braceTags {node : Node} {limit : Nat} (h : node.Stands text limit)
    (htag : tag ∈ node.braceTags) :
    node.span.start ≤ tag.span.start ∧ tag.span.stop ≤ node.span.stop ∧
      tag.span.slice? text = some tag.text := by
  cases node with
  | text raw span =>
    have hslice : span.slice? text = some raw.toList := h
    obtain ⟨hstart, hstop⟩ := bounds_of_mem_braceTags htag
    exact ⟨hstart, stop_of_slice? hslice ▸ hstop, slice?_of_mem_braceTags hslice htag⟩
  | element head children => exact absurd htag List.not_mem_nil
  | comment data span => exact absurd htag List.not_mem_nil
  | rawBlock block => exact absurd htag List.not_mem_nil

/-- The brace tags of a node stand one behind the other. -/
theorem Node.pairwise_braceTags (node : Node) :
    node.braceTags.Pairwise fun first second => first.span.stop ≤ second.span.start := by
  cases node with
  | text raw span => exact Markup.pairwise_braceTags raw.toList span.start
  | element head children => exact .nil
  | comment data span => exact .nil
  | rawBlock block => exact .nil

variable {enclosing : List String}

/-- The brace tags in the runs of text among siblings stand one behind the other. -/
theorem Layout.pairwise_braceTags (h : Layout text enclosing content children) :
    (children.flatMap Node.braceTags).Pairwise
      fun first second => first.span.stop ≤ second.span.start := by
  refine List.pairwise_flatMap.mpr ⟨fun node _ => node.pairwise_braceTags, ?_⟩
  refine h.ordered.2.imp_of_mem fun hfirst hsecond hle tag htag other hother => ?_
  have hstop := ((h.stands _ hfirst).mem_braceTags htag).2.1
  have hstart := ((h.stands _ hsecond).mem_braceTags hother).1
  omega

/-- The brace tags among siblings stand in the part of the text that the siblings stand in. -/
theorem Layout.mem_braceTags (h : Layout text enclosing content children)
    (htag : tag ∈ children.flatMap Node.braceTags) :
    content.start ≤ tag.span.start ∧ tag.span.stop ≤ content.stop ∧
      tag.span.slice? text = some tag.text := by
  obtain ⟨node, hnode, htag⟩ := List.mem_flatMap.mp htag
  obtain ⟨hstart, hstop, hslice⟩ := (h.stands node hnode).mem_braceTags htag
  obtain ⟨hfirst, hlast⟩ := h.ordered.1 node hnode
  exact ⟨by omega, by omega, hslice⟩

/-- The raw code of an element is a part of its content. -/
theorem Layout.rawCodeSpan_within (h : Layout text enclosing content children) :
    ∃ raw, (rawCodeSpan content children).slice? text = some raw ∧
      content.start ≤ (rawCodeSpan content children).start ∧
      (rawCodeSpan content children).stop ≤ content.stop := by
  obtain ⟨inside, hinside⟩ := h.whole
  rw [rawCodeSpan]
  -- without a body the raw code is the whole content
  cases hbody : childrenBody? (children.flatMap Node.braceTags) 0 none with
  | none => exact ⟨inside, hinside, Nat.le_refl _, Nat.le_refl _⟩
  | some body =>
    obtain ⟨closing, -, hstop, hstart | ⟨opening, hsublist, hstart⟩⟩ :=
      exists_of_childrenBody? hbody
    · cases hstart
    · obtain ⟨hopening, -, hfirst⟩ := h.mem_braceTags (hsublist.subset List.mem_cons_self)
      obtain ⟨-, hclosing, hsecond⟩ :=
        h.mem_braceTags (hsublist.subset (List.mem_cons_of_mem _ List.mem_cons_self))
      -- the two tags are in the content, one behind the other
      have hle : opening.span.stop ≤ closing.span.start :=
        List.rel_of_pairwise_cons (h.pairwise_braceTags.sublist hsublist) List.mem_cons_self
      obtain ⟨between, hbetween⟩ := exists_slice?_between hfirst hsecond hle
      -- the raw code starts behind the first tag and stops before the second
      have hlengthFirst := stop_of_slice? hfirst
      have hlengthSecond := stop_of_slice? hsecond
      refine ⟨between, ?_, ?_, ?_⟩
      · rw [Option.getD_some, ← hbetween, ← hstart, ← hstop]
      · rw [Option.getD_some]
        omega
      · rw [Option.getD_some]
        omega

/-- Only the snippet tags in the runs of text decide where the raw code is. -/
theorem rawCodeSpan_congr {others : List Node} (h : snippetTags others = snippetTags children) :
    rawCodeSpan content others = rawCodeSpan content children := by
  rw [rawCodeSpan, rawCodeSpan, childrenBody?_eq, childrenBody?_eq]
  exact congrArg (fun tags => (bodyFrom tags 0 none).getD content) h

/-- The raw code where the snippet tags are well nested. -/
theorem rawCodeSpan_of_nested {snippets : List Snippet}
    (h : Nested (snippetTags children) snippets) :
    rawCodeSpan content children =
      ((snippets.find? (·.name == "children")).map Snippet.body).getD content := by
  rw [rawCodeSpan, childrenBody?_eq]
  exact congrArg (·.getD content) h.bodyFrom_eq

/-- Only runs of text have snippet tags. -/
theorem snippetTags_filter (children : List Node) :
    snippetTags (children.filter Node.isText) = snippetTags children := by
  rw [snippetTags, snippetTags]
  congr 1
  induction children with
  | nil => rfl
  | cons node children ih =>
    cases node with
    | text raw span => rw [List.filter_cons_of_pos rfl, List.flatMap_cons, List.flatMap_cons, ih]
    | _ => exact ih

variable {path : List Nat} {head : Element}

/-- The children of an element with content are laid out in the content. -/
theorem layout_children_of_parse (h : parse text = .ok nodes)
    (hnode : nodeAt? nodes path = some (.element head children))
    (hcontent : head.content = some content) :
    ∃ enclosing, Layout text enclosing content children := by
  obtain ⟨enclosing, within, siblings, hlaidOut, hmem⟩ := layout_of_parse h (among_of_nodeAt? hnode)
  exact ⟨_, (laidOut_iff.mp ((laidOut_iff.mp hlaidOut).2 head children content hmem hcontent)).1⟩

/-- An element without content has no raw code.  The raw code of any other element is a part of its
    content.  Where the snippet tags in the runs of text directly inside the element are well
    nested, it is the body of the first outermost snippet `children`, or the whole content without
    one.  Nothing else decides: neither the other nodes inside the element nor brace tags that are
    no snippet tags as a whole.  What stands inside a brace tag is no brace tag, and the text of a
    brace tag says whether it is a snippet tag. -/
theorem rawCode_of_parse (h : parse text = .ok nodes)
    (hnode : nodeAt? nodes path = some (.element head children)) :
    (head.content = none → rawCode text head children = "") ∧
    ∀ content, head.content = some content →
      (∃ raw, (rawCodeSpan content children).slice? text = some raw ∧
        rawCode text head children = String.ofList raw ∧
        content.start ≤ (rawCodeSpan content children).start ∧
        (rawCodeSpan content children).stop ≤ content.stop) ∧
      (∀ snippets, Nested (snippetTags children) snippets →
        rawCodeSpan content children =
          ((snippets.find? (·.name == "children")).map Snippet.body).getD content) ∧
      (∀ others, others.filter Node.isText = children.filter Node.isText →
        rawCodeSpan content others = rawCodeSpan content children) ∧
      (∀ others, snippetTags others = snippetTags children →
        rawCodeSpan content others = rawCodeSpan content children) ∧
      (children.flatMap Node.braceTags).Pairwise
        (fun first second => first.span.stop ≤ second.span.start) ∧
      ∀ tag ∈ children.flatMap Node.braceTags, tag.span.slice? text = some tag.text ∧
        (∀ name, tag.opens? = some name ↔ IsSnippetOpening name tag.text) ∧
        (tag.closes = true ↔ IsSnippetClosing tag.text) := by
  refine ⟨fun hnone => by rw [rawCode, hnone], fun content hcontent => ?_⟩
  obtain ⟨enclosing, hlayout⟩ := layout_children_of_parse h hnode hcontent
  obtain ⟨raw, hraw, hwithin⟩ := hlayout.rawCodeSpan_within
  refine ⟨⟨raw, hraw, ?_, hwithin⟩, fun snippets => rawCodeSpan_of_nested, fun others hothers => ?_,
    fun others => rawCodeSpan_congr, hlayout.pairwise_braceTags, fun tag htag => ?_⟩
  · rw [rawCode, hcontent]
    dsimp only
    rw [Span.slice, hraw, Option.getD_some]
  · refine rawCodeSpan_congr ?_
    rw [← snippetTags_filter others, hothers, snippetTags_filter]
  · exact ⟨(hlayout.mem_braceTags htag).2.2, fun name => opens?_eq_some_iff, closes_iff⟩

/-- A story with a snippet before the snippet `children`, one inside it and one in an element. -/
def snippetMarkup : List Char :=
  "<S>\x7b#snippet a()\x7dx\x7b/snippet\x7d<b>\x7b#snippet children()\x7d\x7b/snippet\x7d</b>".toList ++
    "\x7b#snippet children(a)\x7d\x7b#snippet children()\x7dy\x7b/snippet\x7d<i/>\x7b/snippet\x7d</S>".toList

/-- The snippet tags directly inside the story. -/
def snippetMarkupTags : List SnippetTag :=
  [.opening "a" ⟨3, 17⟩, .closing ⟨18, 28⟩, .opening "children" ⟨66, 88⟩,
    .opening "children" ⟨88, 109⟩, .closing ⟨110, 120⟩, .closing ⟨124, 134⟩]

/-- Whether a node is an element with a content and with snippet tags directly inside. -/
def isElementWith (content : Span) (tags : List SnippetTag) : Node → Bool
  | .element head children => head.content == some content && snippetTags children == tags
  | _ => false

/-- The raw code of the story is the body of the snippet `children`. -/
theorem rawCode_snippetMarkup :
    ∃ nodes head children, parse snippetMarkup = .ok nodes ∧
      nodeAt? nodes [0] = some (.element head children) ∧ head.content = some ⟨3, 134⟩ ∧
      rawCodeSpan ⟨3, 134⟩ children = ⟨88, 124⟩ := by
  have hcheck : (parse snippetMarkup).toOption.any
      (fun nodes => (nodeAt? nodes [0]).any (isElementWith ⟨3, 134⟩ snippetMarkupTags)) = true := by
    decide +kernel
  obtain ⟨nodes, hparse, hnodes⟩ := exists_ok_of_any hcheck
  obtain ⟨node, hnode, helement⟩ := (Option.any_eq_true _ _).mp hnodes
  cases node with
  | element head children =>
    obtain ⟨hcontent, htags⟩ := Bool.and_eq_true_iff.mp helement
    rw [beq_iff_eq] at hcontent htags
    have hnested : Nested snippetMarkupTags
        [⟨"a", ⟨3, 17⟩, ⟨18, 28⟩⟩, ⟨"children", ⟨66, 88⟩, ⟨124, 134⟩⟩] :=
      .cons .nil (.cons (.cons .nil .nil) .nil)
    have hspan := ((rawCode_of_parse hparse hnode).2 _ hcontent).2.1 _ (htags ▸ hnested)
    exact ⟨nodes, head, children, hparse, hnode, hcontent, hspan⟩
  | _ => cases helement

end SvelteStories.Markup
