import SvelteStories.Proofs.TagRoundTrip
import SvelteStories.Proofs.Reading

/-!
# Reading a draft back

A well-formed draft that is written out is read back as it was, with every node at the place where
it was written.  Each lexeme of the written text takes the piece that was written for it, and what
is built from the lexemes of a draft is what was built before and the node of the draft.

## Key results

- `readLexeme_leaf`, `readLexeme_opening`, `readLexeme_closing`, `readLexeme_comment`,
  `readLexeme_rawBlock`, `readLexeme_text`: the lexemes
- `reaches_render`: reading and building one draft
- `parse_renderAll`: reading undoes writing
-/

namespace SvelteStories.Markup

open Text

variable {cs rest name : List Char} {here : Nat}

/-! ## Where markup starts -/

/-- A sign with a mark at most at its start is not completed by a rest that starts with a mark. -/
theorem prefix_of_prefix_append {mark : Char} {sign : List Char} (hcs : cs ≠ [])
    (hsign : mark ∉ sign.tail) (h : sign <+: cs ++ mark :: rest) : sign <+: cs := by
  rcases List.prefix_or_prefix_of_prefix h (List.prefix_append cs _) with hin | ⟨behind, rfl⟩
  · exact hin
  · rw [List.prefix_append_right_inj] at h
    cases behind with
    | nil => simp
    | cons c behind =>
      -- the sign would go on with the mark behind its first character
      have hc : c = mark := (List.cons_prefix_cons.mp h).1
      rw [List.tail_append_of_ne_nil hcs, hc] at hsign
      exact absurd (List.mem_append_right _ List.mem_cons_self) hsign

theorem ne_of_isAlpha {c sign : Char} (hc : c.isAlpha = true) (hsign : sign.isAlpha = false) :
    sign ≠ c := by
  rintro rfl
  rw [hc] at hsign
  exact nomatch hsign

/-- The signs that markup starts with. -/
theorem startsMarkup_iff :
    startsMarkup cs = true ↔ ['<', '!', '-', '-'] <+: cs ∨
      (∃ c, c.isAlpha = true ∧ ['<', '/', c] <+: cs) ∨ ∃ c, c.isAlpha = true ∧ ['<', c] <+: cs := by
  constructor
  · intro h
    rcases exists_of_startsMarkup h with ⟨behind, rfl⟩ | ⟨c, behind, hc, rfl⟩ | ⟨c, behind, hc, rfl⟩
    · exact .inl ⟨behind, rfl⟩
    · exact .inr (.inl ⟨c, hc, behind, rfl⟩)
    · exact .inr (.inr ⟨c, hc, behind, rfl⟩)
  · rintro (⟨behind, rfl⟩ | ⟨c, hc, behind, rfl⟩ | ⟨c, hc, behind, rfl⟩)
    · rfl
    · exact hc
    · -- a letter is neither of the other two signs
      have hcomment : '!' ≠ c := ne_of_isAlpha hc rfl
      have hclosing : '/' ≠ c := ne_of_isAlpha hc rfl
      simp [startsMarkup, hcomment.symm, hclosing.symm, hc]

/-- The rest is nothing, or markup starts there. -/
def StopsText (rest : List Char) : Prop :=
  rest = [] ∨ startsMarkup rest = true

/-- Markup starts with an angle bracket. -/
theorem head?_of_startsMarkup (h : startsMarkup cs = true) : ∃ behind, cs = '<' :: behind := by
  rcases exists_of_startsMarkup h with ⟨_, rfl⟩ | ⟨_, _, -, rfl⟩ | ⟨_, _, -, rfl⟩ <;> exact ⟨_, rfl⟩

/-- Where no markup starts, none starts because of what stands behind the run of text. -/
theorem startsMarkup_append (hcs : cs ≠ []) (hmarkup : startsMarkup cs = false)
    (hrest : StopsText rest) : startsMarkup (cs ++ rest) = false := by
  rcases hrest with rfl | hrest
  · rwa [List.append_nil]
  · obtain ⟨behind, rfl⟩ := head?_of_startsMarkup hrest
    rw [Bool.eq_false_iff, Ne, startsMarkup_iff] at hmarkup ⊢
    intro h
    apply hmarkup
    -- markup that starts here would lie in the run of text, as the next angle bracket is behind it
    rcases h with h | ⟨c, hc, h⟩ | ⟨c, hc, h⟩
    · exact .inl (prefix_of_prefix_append hcs (by decide) h)
    · have hne : '<' ≠ c := ne_of_isAlpha hc rfl
      exact .inr (.inl ⟨c, hc, prefix_of_prefix_append hcs (by simp [hne]) h⟩)
    · have hne : '<' ≠ c := ne_of_isAlpha hc rfl
      exact .inr (.inr ⟨c, hc, prefix_of_prefix_append hcs (by simp [hne]) h⟩)

/-! ## Lexemes -/

/-- Markup starts where an opening tag is written. -/
theorem startsMarkup_openingTag (hname : IsTagName name) (attrs : List DraftAttribute)
    (closesItself : Bool) : startsMarkup (openingTag name attrs closesItself ++ rest) = true := by
  obtain ⟨c, others, hc, rfl⟩ := hname.exists_cons
  exact startsMarkup_iff.mpr (.inr (.inr ⟨c, hc, _, rfl⟩))

/-- Markup starts where a closing tag is written. -/
theorem startsMarkup_closingTag (hname : IsTagName name) :
    startsMarkup (closingTag name ++ rest) = true := by
  obtain ⟨c, others, hc, rfl⟩ := hname.exists_cons
  exact startsMarkup_iff.mpr (.inr (.inl ⟨c, hc, _, rfl⟩))

/-- Where a written opening tag stands, an opening tag is read. -/
theorem readLexeme_openingTag (hname : IsTagName name) (attrs : List DraftAttribute)
    (closesItself : Bool) :
    readLexeme (openingTag name attrs closesItself ++ rest) here =
      readOpening (openingTag name attrs closesItself ++ rest) here := by
  have hmarkup : startsMarkup (openingTag name attrs closesItself ++ rest) = true :=
    startsMarkup_openingTag hname attrs closesItself
  obtain ⟨c, others, hc, rfl⟩ := hname.exists_cons
  have hcomment : '!' ≠ c := ne_of_isAlpha hc rfl
  have hclosing : '/' ≠ c := ne_of_isAlpha hc rfl
  unfold readLexeme
  rw [if_pos hmarkup]
  simp [openingTag, hcomment.symm, hclosing.symm]

/-- A written element without content is read back. -/
theorem readLexeme_leaf {attrs : List DraftAttribute} {closesItself : Bool}
    (h : (Draft.leaf name attrs closesItself).IsWellFormed) (rest : List Char) :
    readLexeme (openingTag name attrs closesItself ++ rest) here =
      .ok (.leaf ⟨String.ofList name, placedAttributes attrs (here + 1 + byteLength name),
        ⟨here, here + byteLength (openingTag name attrs closesItself)⟩, none⟩, rest) := by
  obtain ⟨hname, hraw, hattrs, hvoid⟩ := h
  rw [readLexeme_openingTag hname]
  cases closesItself <;>
    simp_all [readOpening, readTag_openingTag, spanFrom_append, bind, Except.bind,
      pure, Except.pure]

/-- The written opening tag of an element with content is read back. -/
theorem readLexeme_opening {attrs : List DraftAttribute} {children : List Draft}
    (h : (Draft.element name attrs children).IsWellFormed) (rest : List Char) :
    readLexeme (openingTag name attrs false ++ rest) here =
      .ok (.opening (String.ofList name) (placedAttributes attrs (here + 1 + byteLength name))
        ⟨here, here + byteLength (openingTag name attrs false)⟩, rest) := by
  obtain ⟨hname, hraw, hattrs, hvoid, -⟩ := h
  rw [readLexeme_openingTag hname]
  simp [readOpening, readTag_openingTag hname hattrs, spanFrom_append, hraw, hvoid,
    bind, Except.bind, pure, Except.pure]

/-- A written closing tag is read back. -/
theorem readClosing_closingTag (hname : IsTagName name) (rest : List Char) :
    readClosing (closingTag name ++ rest) here =
      .ok (.closing (String.ofList name) ⟨here, here + byteLength (closingTag name)⟩, rest) := by
  have htake : (name ++ '>' :: rest).takeWhile isTagNameChar = name :=
    takeWhile_append_stop hname.chars rfl
  have hspan := spanFrom_append (closingTag name) rest here
  simp only [closingTag, List.cons_append, List.append_assoc, List.nil_append] at hspan ⊢
  simp [readClosing, htake, Nat.add_comm 2 name.length, seek?, endsTag, hspan]

/-- A written closing tag is read back. -/
theorem readLexeme_closing (hname : IsTagName name) (rest : List Char) :
    readLexeme (closingTag name ++ rest) here =
      .ok (.closing (String.ofList name) ⟨here, here + byteLength (closingTag name)⟩, rest) := by
  unfold readLexeme
  rw [if_pos (startsMarkup_closingTag hname)]
  exact readClosing_closingTag hname rest

/-- A search for the end of a comment does not stop inside data without such an end. -/
theorem readLexeme_comment {data : List Char} (h : (Draft.comment data).IsWellFormed)
    (rest : List Char) :
    readLexeme ((Draft.comment data).render ++ rest) here =
      .ok (.comment (String.ofList data) ⟨here, here + byteLength (Draft.comment data).render⟩,
        rest) := by
  have hseek : seek? (startsWith ['-', '-', '>']) (data ++ ('-' :: '-' :: '>' :: rest)) =
      some ('-' :: '-' :: '>' :: rest) := by
    apply seek?_append
    · intro tail htail hne
      rw [Bool.eq_false_iff, Ne, startsWith_iff]
      intro hend
      -- an end that starts inside the data is inside it altogether
      match tail, hne with
      | [a], _ => simp [List.cons_prefix_cons] at hend
      | [a, b], _ => simp [List.cons_prefix_cons] at hend
      | a :: b :: c :: tail, _ =>
        simp only [List.cons_append, List.cons_prefix_cons] at hend
        obtain ⟨rfl, rfl, rfl, -⟩ := hend
        exact h ((List.prefix_append ['-', '-', '>'] tail).isInfix.trans htail.isInfix)
    · exact List.cons_ne_nil _ _
    · rfl
  -- the comment has its two signs and its text
  have hspan := spanFrom_append (Draft.comment data).render rest here
  simp only [Draft.render, List.cons_append, List.append_assoc, List.nil_append] at hspan ⊢
  have hmarkup : startsMarkup ('<' :: '!' :: '-' :: '-' :: (data ++ '-' :: '-' :: '>' :: rest)) =
      true :=
    rfl
  unfold readLexeme
  rw [if_pos hmarkup]
  simp [readComment, hseek, hspan]

/-- The end of a raw block of the given name, in any case of its letters. -/
theorem closesRaw_iff {name cs : List Char} :
    closesRaw name cs = true ↔ '<' :: '/' :: name.map Char.toLower <+: cs.map Char.toLower := by
  rw [closesRaw, startsWith_iff, List.map_take, List.prefix_take_iff]
  simp [Nat.add_comm 2]

/-- The end of a tag is the first end sign. -/
theorem seek?_endsTag {before : List Char} (h : '>' ∉ before) :
    seek? endsTag (before ++ '>' :: rest) = some ('>' :: rest) := by
  apply seek?_append
  · intro tail htail hne
    obtain ⟨c, others, rfl⟩ := List.exists_cons_of_ne_nil hne
    have hc : c ≠ '>' := by
      rintro rfl
      exact h (htail.subset List.mem_cons_self)
    simp [endsTag, hc]
  · exact List.cons_ne_nil _ _
  · rfl

/-- The content of a raw block goes up to its closing tag, if it has no such tag inside. -/
theorem seek?_closesRaw {content : List Char} (hraw : isRawName name = true)
    (h : ¬ '<' :: '/' :: name.map Char.toLower <:+: content.map Char.toLower) (rest : List Char) :
    seek? (closesRaw name) (content ++ (closingTag name ++ rest)) =
      some (closingTag name ++ rest) := by
  apply seek?_append
  · intro tail htail hne
    rw [Bool.eq_false_iff, Ne, closesRaw_iff, List.map_append]
    intro hend
    -- the name has only letters, so that a closing tag cannot start in the content and end behind
    -- it
    have hmark : '<' ∉ '/' :: name.map Char.toLower := by
      intro hmem
      rcases List.mem_cons.mp hmem with hslash | hmem
      · exact absurd hslash (by decide)
      · exact absurd (List.all_eq_true.mp (lower_of_isRawName hraw).1 _ hmem) (by decide)
    have hin := prefix_of_prefix_append (by simpa using hne) hmark hend
    exact h (hin.isInfix.trans (htail.map Char.toLower).isInfix)
  · exact List.cons_ne_nil _ _
  · rw [closesRaw_iff]
    exact ⟨'>' :: rest.map Char.toLower, by simp [closingTag]⟩

/-- A written raw block is read back. -/
theorem readLexeme_rawBlock {attrs : List DraftAttribute} {content : List Char}
    (h : (Draft.rawBlock name attrs content).IsWellFormed) (rest : List Char) :
    readLexeme ((Draft.rawBlock name attrs content).render ++ rest) here =
      .ok (.rawBlock ⟨String.ofList name, placedAttributes attrs (here + 1 + byteLength name),
        ⟨here + byteLength (openingTag name attrs false),
          here + byteLength (openingTag name attrs false) + byteLength content⟩,
        ⟨here, here + byteLength (Draft.rawBlock name attrs content).render⟩⟩, rest) := by
  obtain ⟨hraw, hattrs, hcontent⟩ := h
  have hname := isTagName_of_isRawName hraw
  -- the name has no end sign, so that the closing tag ends with its own
  have hmark : '>' ∉ '<' :: '/' :: name := by
    intro hmem
    have hchar : '>' ∈ name := by simpa using hmem
    exact absurd (List.all_eq_true.mp hname.chars _ hchar) (by decide)
  have hclosing : closingTag name ++ rest = '<' :: '/' :: name ++ '>' :: rest := by
    simp [closingTag]
  have hend : seek? endsTag (closingTag name ++ rest) = some ('>' :: rest) := by
    rw [hclosing, seek?_endsTag hmark]
  have hcontent := seek?_closesRaw hraw hcontent rest
  rw [Draft.render, List.append_assoc, List.append_assoc, readLexeme_openingTag hname]
  simp [readOpening, readTag_openingTag hname hattrs, hraw, readRaw, hcontent, hend,
    spanFrom_append, bind, Except.bind, Nat.add_assoc]

/-- A run of text is passed over up to where it stops. -/
theorem afterText_append {raw : List Char} (h : IsRun raw) (hrest : StopsText rest) :
    afterText (raw ++ rest) here = .ok rest := by
  induction h generalizing here with
  | nil =>
    rw [List.nil_append]
    rcases hrest with rfl | hmarkup
    · rw [afterText]
    · obtain ⟨behind, rfl⟩ := head?_of_startsMarkup hmarkup
      rw [afterText, if_neg (by decide), if_pos hmarkup]
  | @expression tag others hstart hwhole _ ih =>
    have hafter := after?_append hwhole (others ++ rest)
    -- a brace expression is passed over as a whole
    obtain ⟨c, inside, rfl⟩ : ∃ c inside, tag = c :: inside :=
      List.exists_cons_of_ne_nil (ne_nil_of_scan hwhole)
    obtain rfl : c = '{' := by simpa using hstart
    rw [List.append_assoc]
    rw [List.cons_append] at hafter ⊢
    unfold afterText
    rw [if_pos rfl]
    split
    · rename_i hnone
      rw [hafter] at hnone
      cases hnone
    · rename_i behind hbehind
      obtain rfl := Option.some.inj (hafter.symm.trans hbehind)
      exact ih
  | @plain c others hc hmarkup _ ih =>
    -- no markup starts at a plain character, whatever is behind the run
    have happend := startsMarkup_append (List.cons_ne_nil c others) hmarkup hrest
    rw [List.cons_append] at happend ⊢
    rw [afterText, if_neg hc, happend, if_neg Bool.false_ne_true]
    exact ih

/-- A written run of text is read back, if something that stops it is behind it. -/
theorem readLexeme_text {raw : List Char} (h : (Draft.text raw).IsWellFormed)
    (hrest : StopsText rest) :
    readLexeme (raw ++ rest) here =
      .ok (.text (String.ofList raw) ⟨here, here + byteLength raw⟩, rest) := by
  obtain ⟨hne, hrun⟩ := h
  -- a run of text does not start with markup
  have hmarkup : startsMarkup (raw ++ rest) = false := by
    cases hrun with
    | nil => exact absurd rfl hne
    | @expression tag others hstart _ _ =>
      cases tag with
      | nil => exact nomatch hstart
      | cons c inside =>
        obtain rfl : c = '{' := by simpa using hstart
        rfl
    | plain hc hstart _ => exact startsMarkup_append hne hstart hrest
  unfold readLexeme
  rw [hmarkup, if_neg Bool.false_ne_true]
  simp [afterText_append hrun hrest, spanFrom_append, bind, Except.bind, pure, Except.pure]

/-! ## Reading and building -/

/-- How far the markup has been read: the place of the reader, what is left of the text and what has
    been built so far. -/
structure Progress where
  here : Nat
  left : List Char
  built : Builder

/-- One lexeme is read and added to what has been built. -/
inductive Progress.Step : Progress → Progress → Prop
  | lexeme {here : Nat} {cs rest : List Char} {b : Builder} {lexeme : Lexeme} (hne : cs ≠ [])
    (hread : readLexeme cs here = .ok (lexeme, rest)) :
    Step ⟨here, cs, b⟩ ⟨lexeme.span.stop, rest, b.add lexeme⟩

/-- Lexemes are read and added, one after the other. -/
inductive Progress.Reaches : Progress → Progress → Prop
  | refl {p : Progress} : Reaches p p
  | head {p q r : Progress} (hstep : p.Step q) (hreach : Reaches q r) : Reaches p r

theorem Progress.Reaches.trans {p q r : Progress} (hpq : p.Reaches q) (hqr : q.Reaches r) :
    p.Reaches r := by
  induction hpq with
  | refl => exact hqr
  | head hstep _ ih => exact .head hstep (ih hqr)

/-- What is built when the text is read to its end is built from the lexemes of the text. -/
theorem Progress.Reaches.lexemesFrom {p : Progress} {stop : Nat} {b : Builder}
    (h : p.Reaches ⟨stop, [], b⟩) :
    ∃ lexemes, lexemesFrom p.left p.here = .ok lexemes ∧ lexemes.foldl Builder.add p.built = b := by
  generalize hq : (⟨stop, [], b⟩ : Progress) = q at h
  induction h with
  | refl =>
    subst hq
    exact ⟨[], by rw [Markup.lexemesFrom], rfl⟩
  | head hstep _ ih =>
    obtain ⟨lexemes, hrest, hbuilt⟩ := ih hq
    cases hstep with
    | @lexeme here cs rest b lexeme hne hread =>
      -- the lexeme of the first step is the first one of the text
      refine ⟨lexeme :: lexemes, ?_, hbuilt⟩
      obtain ⟨c, cs, rfl⟩ := List.exists_cons_of_ne_nil hne
      dsimp only at hrest ⊢
      unfold Markup.lexemesFrom
      split
      · rename_i hfault
        rw [hread] at hfault
        cases hfault
      · rename_i hread'
        obtain ⟨rfl, rfl⟩ := Prod.mk.inj (Except.ok.inj (hread.symm.trans hread'))
        simp [hrest, bind, Except.bind, pure, Except.pure]

/-- Nodes that are added inside an open element become its children. -/
theorem Builder.foldl_push_opened (nodes : List Node) (e : OpenElement) (outer : List OpenElement)
    (roots : List Node) :
    nodes.foldl Builder.push ⟨e :: outer, roots⟩ =
      ⟨{ e with children := nodes.reverse ++ e.children } :: outer, roots⟩ := by
  induction nodes generalizing e with
  | nil => rfl
  | cons node nodes ih => simp [Builder.push, ih]

/-- An element is built from its opening tag, the nodes behind it and its closing tag. -/
theorem Builder.add_closing (b : Builder) (name : String) (attrs : List Attribute)
    (tag closing : Span) (nodes : List Node) :
    (nodes.foldl Builder.push (b.add (.opening name attrs tag))).add (.closing name closing) =
      b.push (.element ⟨name, attrs, ⟨tag.start, closing.stop⟩,
        some ⟨tag.stop, closing.start⟩⟩ nodes) := by
  simp [Builder.add, foldl_push_opened, Builder.closeNamed, Builder.closeMany,
    Builder.closeInnermost, OpenElement.close, Builder.push, List.findIdx?_cons]

/-- Nodes that are added outside all elements become roots. -/
theorem Builder.foldl_push_roots (nodes roots : List Node) :
    nodes.foldl Builder.push ⟨[], roots⟩ = ⟨[], nodes.reverse ++ roots⟩ := by
  induction nodes generalizing roots with
  | nil => rfl
  | cons node nodes ih => simp [Builder.push, ih]

/-- Where a draft stands that is no run of text, markup starts. -/
theorem startsMarkup_render {draft : Draft} (h : draft.IsWellFormed)
    (htext : draft.isText = false) :
    startsMarkup (draft.render ++ rest) = true := by
  cases draft with
  | leaf name attrs closesItself => exact startsMarkup_openingTag h.1 attrs closesItself
  | element name attrs children =>
    rw [Draft.render, List.append_assoc]
    exact startsMarkup_openingTag h.1 attrs false
  | comment data => rfl
  | text raw => exact nomatch htext
  | rawBlock name attrs content =>
    rw [Draft.render, List.append_assoc]
    exact startsMarkup_openingTag (isTagName_of_isRawName h.1) attrs false

/-- Written drafts are read and their nodes are added, wherever they are written. -/
def AreReadBack (drafts : List Draft) : Prop :=
  ∀ (here : Nat) (rest : List Char) (b : Builder), StopsText rest →
    Progress.Reaches ⟨here, renderAll drafts ++ rest, b⟩
      ⟨here + byteLength (renderAll drafts), rest, (placedAll drafts here).foldl Builder.push b⟩

/-- A written draft is read back, if its children are. -/
theorem reaches_render {draft : Draft} (h : draft.IsWellFormed)
    (hrest : draft.isText = true → StopsText rest)
    (hchildren : AreWellFormed draft.children → AreReadBack draft.children) (b : Builder) :
    Progress.Reaches ⟨here, draft.render ++ rest, b⟩
      ⟨here + byteLength draft.render, rest, b.push (draft.placed here)⟩ := by
  cases draft with
  | leaf name attrs closesItself =>
    exact .head (.lexeme (by simp [Draft.render, openingTag]) (readLexeme_leaf h rest)) .refl
  | comment data =>
    exact .head (.lexeme (by simp [Draft.render]) (readLexeme_comment h rest)) .refl
  | text raw =>
    exact .head (.lexeme (by simp [Draft.render, h.1]) (readLexeme_text h (hrest rfl))) .refl
  | rawBlock name attrs content =>
    exact .head (.lexeme (by simp [Draft.render, openingTag]) (readLexeme_rawBlock h rest)) .refl
  | element name attrs children =>
    have hname : IsTagName name := h.1
    have hclosing : StopsText (closingTag name ++ rest) := .inr (startsMarkup_closingTag hname)
    -- the opening tag, the children inside it and the closing tag are read one after the other
    rw [Draft.render, List.append_assoc, List.append_assoc]
    refine .head (.lexeme (by simp [openingTag]) (readLexeme_opening h _)) ?_
    refine (hchildren h.2.2.2.2 _ _ _ hclosing).trans ?_
    refine .head (.lexeme (by simp [closingTag]) (readLexeme_closing hname rest)) ?_
    rw [Builder.add_closing]
    simp only [Lexeme.span, Draft.placed, Draft.render, byteLength_append, Nat.add_assoc]
    exact .refl

/-- Well-formed drafts are read back. -/
theorem areReadBack (drafts : List Draft) : AreWellFormed drafts → AreReadBack drafts := by
  induction drafts using drafts_induction with
  | nil =>
    intro _ here rest b _
    exact .refl
  | cons draft drafts hchildren ih =>
    rintro ⟨hdraft, halone, hdrafts⟩ here rest b hrest
    -- a run of text is followed by a draft that is none, or by what is behind the drafts
    have hbehind : draft.isText = true → StopsText (renderAll drafts ++ rest) := by
      intro htext
      cases drafts with
      | nil => exact hrest
      | cons other others =>
        have hother : other.isText = false := by simpa using halone htext
        rw [renderAll, List.append_assoc]
        exact .inr (startsMarkup_render hdrafts.1 hother)
    have hfirst := @reaches_render (renderAll drafts ++ rest) here draft hdraft hbehind hchildren b
    have hothers :=
      ih hdrafts (here + byteLength draft.render) rest (b.push (draft.placed here)) hrest
    rw [renderAll, List.append_assoc, byteLength_append, ← Nat.add_assoc]
    exact hfirst.trans hothers

/-- **Reading undoes writing.**  A well-formed draft that is written out is read back as its own
    tree, and the span of every node is the range of bytes that was written for it. -/
theorem parse_renderAll {drafts : List Draft} (h : AreWellFormed drafts) :
    parse (renderAll drafts) = .ok (placedAll drafts 0) := by
  have hreach := areReadBack drafts h 0 [] .empty (.inl rfl)
  rw [List.append_nil] at hreach
  obtain ⟨lexemes, hlexemes, hbuilt⟩ := hreach.lexemesFrom
  have hforest : forest lexemes (byteLength (renderAll drafts)) = placedAll drafts 0 := by
    rw [forest, hbuilt, Builder.empty, Builder.foldl_push_roots]
    simp [Builder.finish, Builder.closeMany]
  dsimp only at hlexemes
  rw [parse, Markup.lexemes, hlexemes]
  exact congrArg Except.ok hforest

/-- A draft with every kind of node and of attribute. -/
def sampleDrafts : List Draft :=
  [.comment " - ".toList, .text ['\n'],
    .element "Story".toList
      [.boolean "skip".toList, .quoted "name".toList "A > B".toList,
        .assigned "args".toList "f(x)".toList, .lone "...rest".toList]
      [.text "1 < \x7bx\x7d <".toList, .leaf "br".toList [] false,
        .element "p".toList [] [.element "p".toList [] []]],
    .leaf "Button".toList [.boolean "on".toList] true,
    .rawBlock "Style".toList [] "p > a".toList]

/-- What was written for the sample is read back. -/
theorem parse_sampleDrafts :
    AreWellFormed sampleDrafts ∧
      renderAll sampleDrafts =
        ("<!-- - -->\n<Story skip name=\"A > B\" args=\x7bf(x)\x7d \x7b...rest\x7d>" ++
          "1 < \x7bx\x7d <<br><p><p></p></p></Story><Button on /><Style>p > a</Style>").toList ∧
      parse (renderAll sampleDrafts) = .ok (placedAll sampleDrafts 0) := by
  -- the text has an angle bracket at which no markup starts, and a brace expression
  have hrun : IsRun "1 < \x7bx\x7d <".toList :=
    .plain (by decide) rfl (.plain (by decide) rfl (.plain (by decide) rfl (.plain (by decide) rfl
      (@IsRun.expression ['{', 'x', '}'] _ rfl (by decide) (.plain (by decide) rfl
        (.plain (by decide) rfl .nil))))))
  have h : AreWellFormed sampleDrafts := by
    have hbreak : (Draft.text ['\n']).IsWellFormed := ⟨by decide, .plain (by decide) rfl .nil⟩
    have htext : (Draft.text "1 < \x7bx\x7d <".toList).IsWellFormed := ⟨by decide, hrun⟩
    simp only [sampleDrafts, AreWellFormed, Draft.IsWellFormed] at hbreak htext ⊢
    refine ⟨by decide, by decide, hbreak, by decide, ?_⟩
    refine ⟨⟨by decide, by decide, by decide, by decide, htext, ?_⟩, ?_⟩
    all_goals decide
  exact ⟨h, by decide +kernel, parse_renderAll h⟩

end SvelteStories.Markup
