import SvelteStories.Markup.Lexeme
import SvelteStories.Proofs.Outcome
import SvelteStories.Proofs.Slices

/-!
# What the readers of the markup leave

Every reader of the markup answers with a rest of the text that it was given.  So the lexemes of a
text are spelled by pieces of it, one behind the other: each lexeme takes the bytes of its piece,
and the piece has the form that the kind of the lexeme asks for.

## Key results

- `suffix_of_readTag`: the readers of a tag leave a rest of the text
- `piece_of_readLexeme`: the piece of one lexeme
- `spelling_of_lexemesFrom`: the pieces of all lexemes
-/

namespace SvelteStories.Text

variable {stop : List Char → Bool} {text before rest : List Char}

/-- A search stops at the first place where its condition holds. -/
theorem seek?_append (hbefore : ∀ tail, tail <:+ before → tail ≠ [] → stop (tail ++ rest) = false)
    (hne : rest ≠ []) (hstop : stop rest = true) : seek? stop (before ++ rest) = some rest := by
  induction before with
  | nil =>
    obtain ⟨c, cs, rfl⟩ := List.exists_cons_of_ne_nil hne
    rw [List.nil_append, seek?, if_pos hstop]
  | cons c before ih =>
    have hhere := hbefore (c :: before) (List.suffix_refl _) (List.cons_ne_nil c before)
    rw [List.cons_append] at hhere
    rw [List.cons_append, seek?, hhere, if_neg Bool.false_ne_true]
    exact ih fun tail htail => hbefore tail (htail.trans (List.suffix_cons c before))

/-- What was passed over by a search does not have the condition of the search. -/
theorem exists_of_seek? (h : seek? stop text = some rest) :
    ∃ before, text = before ++ rest ∧ stop rest = true ∧
      ∀ tail, tail <:+ before → tail ≠ [] → stop (tail ++ rest) = false := by
  induction text with
  | nil => exact nomatch h
  | cons c cs ih =>
    rw [seek?] at h
    split at h
    · rename_i hstop
      obtain rfl := Option.some.inj h
      exact ⟨[], rfl, hstop, fun tail htail hne => absurd (List.suffix_nil.mp htail) hne⟩
    · rename_i hstop
      obtain ⟨before, rfl, hrest, hbefore⟩ := ih h
      refine ⟨c :: before, rfl, hrest, fun tail htail hne => ?_⟩
      -- a suffix is all that was passed over, or it is behind the first character
      rcases List.suffix_cons_iff.mp htail with rfl | htail
      · exact Bool.eq_false_iff.mpr hstop
      · exact hbefore tail htail hne

end SvelteStories.Text

namespace SvelteStories.Markup

open Text

variable {cs rest : List Char} {here : Nat}

/-! ## Tags -/

/-- The scanner of brace expressions leaves a rest of the text. -/
theorem suffix_of_scan {mode : Braces.Mode} {depth : Nat}
    (h : Braces.scan cs mode depth = some rest) : rest <:+ cs := by
  fun_induction Braces.scan cs mode depth with
  | case1 => cases h
  | case17 cs => cases h; exact List.suffix_cons _ _
  | case18 => cases h
  | _ =>
    -- one or two characters are passed over
    rename_i ih
    exact (ih h).trans (by simp [List.suffix_cons_iff])

theorem suffix_of_split? {inside : List Char} (h : Braces.split? cs = some (inside, rest)) :
    rest <:+ cs := by
  obtain ⟨after, hafter, heq⟩ := Option.map_eq_some_iff.mp h
  obtain ⟨-, rfl⟩ := Prod.mk.inj heq
  exact suffix_of_scan hafter

/-- What is left from a closing quote on is a suffix of the text. -/
theorem suffix_of_seekQuote {quote : Char} {opened : Nat}
    (h : seekQuote quote opened cs here = .ok rest) : rest <:+ cs := by
  fun_induction seekQuote quote opened cs here with
  | case1 => cases h
  | case2 => cases h; exact List.suffix_refl _
  | case3 => cases h
  | case4 _ _ _ _ hafter ih => exact (ih h).trans (suffix_of_scan hafter)
  | case5 _ _ _ _ _ ih => exact (ih h).trans (List.suffix_cons _ _)

theorem afterBareValue_suffix (cs : List Char) : afterBareValue cs <:+ cs := by
  unfold afterBareValue
  cases h : seek? endsBareValue cs with
  | none => exact List.nil_suffix
  | some rest => exact (suffix_of_seek? h).1

/-- What is left behind a value is a suffix of the text. -/
theorem suffix_of_readValue {value : AttributeValue} (h : readValue cs here = .ok (value, rest)) :
    rest <:+ cs := by
  unfold readValue at h
  split at h
  · exact nomatch h
  · split at h
    · exact nomatch h
    · rename_i hs
      cases h
      exact suffix_of_split? hs
  · split at h
    · rename_i c body _ _
      obtain ⟨closing, hq, h⟩ := exists_of_bind_eq_ok h
      cases h
      exact (List.drop_suffix 1 closing).trans
        ((suffix_of_seekQuote hq).trans (List.suffix_cons c body))
    · cases h
      exact afterBareValue_suffix _

/-- What is left behind an equals sign and a value is a suffix of the text. -/
theorem suffix_of_readAssignment {value : AttributeValue}
    (h : readAssignment cs here = .ok (value, rest)) : rest <:+ cs := by
  unfold readAssignment at h
  split at h
  · rename_i assigned heq
    have hassigned : assigned <:+ cs :=
      (List.suffix_cons '=' assigned).trans (heq ▸ List.dropWhile_suffix isTagBlank)
    exact (suffix_of_readValue h).trans ((List.dropWhile_suffix isTagBlank).trans hassigned)
  · cases h
    exact List.suffix_refl _

/-- What is left behind an attribute is a suffix of the text. -/
theorem suffix_of_readAttribute {tag : String} {attr : Attribute}
    (h : readAttribute tag cs here = .ok (attr, rest)) : rest <:+ cs := by
  unfold readAttribute at h
  split at h
  · split at h
    · exact nomatch h
    · rename_i hs
      cases h
      exact suffix_of_split? hs
  · dsimp only at h
    split at h
    · exact nomatch h
    · obtain ⟨⟨value, left⟩, ha, h⟩ := exists_of_bind_eq_ok h
      cases h
      exact (suffix_of_readAssignment ha).trans (List.drop_suffix _ cs)

/-- What is left behind the end of a tag is a suffix of the text. -/
theorem suffix_of_readAttributes {tag : String} {opened : Nat} {attrs : List Attribute}
    {tagEnd : TagEnd} (h : readAttributes tag opened cs here = .ok (attrs, tagEnd)) :
    tagEnd.rest <:+ cs := by
  fun_induction readAttributes tag opened cs here generalizing attrs tagEnd with
  | case1 => cases h
  | case2 cs _ rest hs =>
    cases h
    exact (List.suffix_cons '>' rest).trans (hs ▸ List.dropWhile_suffix isTagBlank)
  | case3 cs _ rest hs =>
    cases h
    exact ((List.suffix_cons '>' rest).trans (List.suffix_cons '/' _)).trans
      (hs ▸ List.dropWhile_suffix isTagBlank)
  | case4 => cases h
  | case5 cs _ _ _ _ _ _ ha ih =>
    obtain ⟨⟨others, tagEnd⟩, hothers, h⟩ := exists_of_bind_eq_ok h
    cases h
    exact (ih hothers).trans ((suffix_of_readAttribute ha).trans (List.dropWhile_suffix isTagBlank))

/-- A tag starts with its name. -/
theorem takeWhile_append_drop_name (cs : List Char) :
    cs.takeWhile isTagNameChar ++ cs.drop (cs.takeWhile isTagNameChar).length = cs :=
  List.prefix_iff_eq_append.mp (List.takeWhile_prefix isTagNameChar)

/-- A tag is its first character, its name and what the attributes take. -/
theorem suffix_of_readTag {c : Char} {name : List Char} {attrs : List Attribute}
    {tagEnd : TagEnd} (h : readTag (c :: cs) here = .ok (name, attrs, tagEnd)) :
    ∃ inner, c :: cs = c :: (name ++ inner) ++ tagEnd.rest := by
  unfold readTag at h
  obtain ⟨⟨others, tagEnd⟩, hattrs, h⟩ := exists_of_bind_eq_ok h
  cases h
  simp only [List.drop_succ_cons, List.drop_zero, Nat.add_comm 1] at hattrs ⊢
  obtain ⟨inner, hinner⟩ := suffix_of_readAttributes hattrs
  refine ⟨inner, ?_⟩
  rw [List.cons_append, List.append_assoc, hinner, takeWhile_append_drop_name]

/-! ## Lexemes -/

theorem suffix_of_afterText (h : afterText cs here = .ok rest) : rest <:+ cs := by
  fun_induction afterText cs here with
  | case1 => cases h; exact List.suffix_refl _
  | case2 => cases h
  | case3 _ _ _ hafter ih => exact (ih h).trans (suffix_of_scan hafter)
  | case4 => cases h; exact List.suffix_refl _
  | case5 _ _ _ _ _ ih => exact (ih h).trans (List.suffix_cons _ _)

/-- A run of text goes up to markup or to the end. -/
theorem startsMarkup_of_afterText (h : afterText cs here = .ok rest) :
    rest = [] ∨ startsMarkup rest = true := by
  fun_induction afterText cs here with
  | case1 => cases h; exact .inl rfl
  | case2 => cases h
  | case3 _ _ _ _ ih => exact ih h
  | case4 _ _ _ _ hmarkup => cases h; exact .inr hmarkup
  | case5 _ _ _ _ _ ih => exact ih h

/-- A closing tag: its name, which starts with a letter, and anything else up to the first end of a
    tag. -/
structure IsClosingTag (name : String) (tag : List Char) : Prop where
  letter : name.toList.head?.any Char.isAlpha = true
  chars : name.toList.all isTagNameChar = true
  spelled : ∃ others, tag = '<' :: '/' :: (name.toList ++ (others ++ ['>'])) ∧
    others.head?.all (!isTagNameChar ·) = true ∧ '>' ∉ others

/-- Whether a lexeme is a run of text. -/
def Lexeme.isText : Lexeme → Bool
  | .text _ _ => true
  | _ => false

/-- A lexeme is spelled by a piece of the text. -/
def Lexeme.Spells : Lexeme → List Char → Prop
  | .text raw _, piece => piece = raw.toList ∧ piece ≠ []
  | .comment data _, piece => piece = '<' :: '!' :: '-' :: '-' :: (data.toList ++ ['-', '-', '>'])
  | .rawBlock block, piece => '<' :: block.name.toList <+: piece
  | .leaf head, piece => head.content = none ∧ '<' :: head.name.toList <+: piece
  | .opening name _ _, piece => '<' :: name.toList <+: piece
  | .closing name _, piece => IsClosingTag name piece

/-- No lexeme is spelled by nothing. -/
theorem Lexeme.Spells.ne_nil {lexeme : Lexeme} {piece : List Char} (h : lexeme.Spells piece) :
    piece ≠ [] := by
  cases lexeme with
  | text raw span => exact h.2
  | comment data span => rw [h]; exact List.cons_ne_nil _ _
  | rawBlock block => rintro rfl; exact absurd (List.prefix_nil.mp h) (List.cons_ne_nil _ _)
  | leaf head => rintro rfl; exact absurd (List.prefix_nil.mp h.2) (List.cons_ne_nil _ _)
  | opening name attributes span =>
    rintro rfl; exact absurd (List.prefix_nil.mp h) (List.cons_ne_nil _ _)
  | closing name span =>
    obtain ⟨others, rfl, -, -⟩ := h.spelled
    exact List.cons_ne_nil _ _

/-- The span of a piece that was read has the byte length of the piece. -/
theorem spanFrom_append (piece rest : List Char) (here : Nat) :
    spanFrom (piece ++ rest) rest here = ⟨here, here + byteLength piece⟩ := by
  rw [spanFrom, consumed_append_self]

/-- The shapes of a text that starts with markup. -/
theorem exists_of_startsMarkup (h : startsMarkup cs = true) :
    (∃ rest, cs = '<' :: '!' :: '-' :: '-' :: rest) ∨
      (∃ c rest, c.isAlpha = true ∧ cs = '<' :: '/' :: c :: rest) ∨
      ∃ c rest, c.isAlpha = true ∧ cs = '<' :: c :: rest := by
  unfold startsMarkup at h
  split at h
  · exact .inl ⟨_, rfl⟩
  · exact .inr (.inl ⟨_, _, h, rfl⟩)
  · exact .inr (.inr ⟨_, _, h, rfl⟩)
  · exact nomatch h

/-- A search for the end of a tag stops at the first one. -/
theorem exists_of_seek?_endsTag (h : seek? endsTag cs = some rest) :
    ∃ before after, cs = before ++ '>' :: after ∧ rest = '>' :: after ∧ '>' ∉ before := by
  obtain ⟨before, rfl, hrest, hbefore⟩ := exists_of_seek? h
  unfold endsTag at hrest
  split at hrest
  · rename_i after
    refine ⟨before, after, rfl, rfl, fun hmem => ?_⟩
    -- the part of what was passed over from its first end of a tag on
    obtain ⟨first, second, rfl⟩ := List.append_of_mem hmem
    exact nomatch hbefore ('>' :: second) (List.suffix_append first _) (List.cons_ne_nil _ _)
  · exact nomatch hrest

variable {lexeme : Lexeme}

/-- A lexeme takes the bytes of the piece that spells it. -/
structure Piece (lexeme : Lexeme) (cs rest piece : List Char) (here : Nat) : Prop where
  split : cs = piece ++ rest
  span : lexeme.span = ⟨here, here + byteLength piece⟩
  spells : lexeme.Spells piece

/-- A comment is spelled by the text up to what is left. -/
theorem piece_of_readComment {body : List Char}
    (h : readComment ('<' :: '!' :: '-' :: '-' :: body) here = .ok (lexeme, rest)) :
    (∃ piece, Piece lexeme ('<' :: '!' :: '-' :: '-' :: body) rest piece here) ∧
      lexeme.isText = false := by
  unfold readComment at h
  dsimp only [List.drop_succ_cons, List.drop_zero] at h
  split at h
  · exact nomatch h
  · rename_i closing hclosing
    obtain ⟨data, rfl, hstop, -⟩ := exists_of_seek? hclosing
    obtain ⟨after, rfl⟩ := (startsWith_iff _ _).mp hstop
    cases h
    -- the comment's end is the first one behind its start
    have hsplit : '<' :: '!' :: '-' :: '-' :: (data ++ (['-', '-', '>'] ++ after)) =
        '<' :: '!' :: '-' :: '-' :: (data ++ ['-', '-', '>']) ++ after := by simp
    refine ⟨⟨_, hsplit, ?_, ?_⟩, rfl⟩
    · rw [Lexeme.span, hsplit]
      exact spanFrom_append _ _ here
    · rw [Lexeme.Spells, String.toList_ofList, List.drop_succ_cons, List.drop_succ_cons,
        List.drop_succ_cons, List.drop_succ_cons, List.drop_zero, consumed_append_self]

/-- A name is followed by something that cannot stand in it. -/
theorem head?_drop_takeWhile (p : Char → Bool) (cs : List Char) :
    (cs.drop (cs.takeWhile p).length).head?.all (!p ·) = true := by
  induction cs with
  | nil => rfl
  | cons c cs ih =>
    cases hc : p c with
    | true =>
      simpa only [List.takeWhile_cons_of_pos hc, List.length_cons, List.drop_succ_cons] using ih
    | false => simp [hc]

/-- A closing tag is spelled by the text up to what is left. -/
theorem piece_of_readClosing {c : Char} {body : List Char} (hc : c.isAlpha = true)
    (h : readClosing ('<' :: '/' :: c :: body) here = .ok (lexeme, rest)) :
    (∃ piece, Piece lexeme ('<' :: '/' :: c :: body) rest piece here) ∧ lexeme.isText = false := by
  -- the name takes the letter and what follows it
  have hname : isTagNameChar c = true := by simp [isTagNameChar, Char.isAlphanum, hc]
  have hsplit := takeWhile_append_drop_name (c :: body)
  have hhead := head?_drop_takeWhile isTagNameChar (c :: body)
  simp only [readClosing, Nat.add_comm 2, List.drop_succ_cons, List.drop_zero] at h
  split at h
  · exact nomatch h
  · rename_i tagEnd htagEnd
    obtain ⟨others, after, hbehind, rfl, hothers⟩ := exists_of_seek?_endsTag htagEnd
    rw [hbehind] at hsplit hhead
    cases h
    have hpiece : '<' :: '/' :: c :: body =
        '<' :: '/' :: ((c :: body).takeWhile isTagNameChar ++ (others ++ ['>'])) ++ after :=
      (congrArg ('<' :: '/' :: ·) hsplit.symm).trans
        (by simp only [List.cons_append, List.append_assoc, List.nil_append])
    refine ⟨⟨_, hpiece, ?_, ?_, ?_, others, ?_, ?_, hothers⟩, rfl⟩
    · rw [Lexeme.span, hpiece]
      exact spanFrom_append _ _ here
    · rw [String.toList_ofList, List.takeWhile_cons_of_pos hname]
      exact hc
    · rw [String.toList_ofList]
      exact List.all_takeWhile
    · rw [String.toList_ofList]
    · cases others with
      | nil => rfl
      | cons other others => exact hhead

/-- A raw block is spelled by its opening tag, its content and its closing tag. -/
theorem piece_of_readRaw {name : List Char} {attrs : List Attribute} {opening body : List Char}
    (hname : '<' :: name <+: opening)
    (h : readRaw name attrs here body (here + byteLength opening) = .ok (lexeme, rest)) :
    (∃ piece, Piece lexeme (opening ++ body) rest piece here) ∧ lexeme.isText = false := by
  unfold readRaw at h
  split at h
  · exact nomatch h
  · rename_i closing hclosing
    obtain ⟨content, rfl, -, -⟩ := exists_of_seek? hclosing
    dsimp only at h
    split at h
    · exact nomatch h
    · rename_i tagEnd htagEnd
      obtain ⟨before, after, rfl, rfl, -⟩ := exists_of_seek?_endsTag htagEnd
      cases h
      -- the closing tag goes up to its own end sign
      have hclosing : consumed (before ++ '>' :: after) (('>' :: after).drop 1) =
          before ++ ['>'] := by
        rw [List.drop_succ_cons, List.drop_zero, List.append_cons, consumed_append_self]
      -- the block is the opening tag, the content and the closing tag
      have hpiece : opening ++ (content ++ (before ++ '>' :: after)) =
          opening ++ (content ++ (before ++ ['>'])) ++ after := by
        simp only [List.append_assoc, List.cons_append, List.nil_append]
      refine ⟨⟨_, hpiece, ?_, ?_⟩, rfl⟩
      · simp only [Lexeme.span, spanFrom_append, hclosing, byteLength_append, Nat.add_assoc]
      · rw [Lexeme.Spells, String.toList_ofList]
        exact hname.trans (List.prefix_append opening _)

/-- What an opening tag starts is spelled by the text up to what is left. -/
theorem piece_of_readOpening (h : readOpening ('<' :: cs) here = .ok (lexeme, rest)) :
    (∃ piece, Piece lexeme ('<' :: cs) rest piece here) ∧ lexeme.isText = false := by
  unfold readOpening at h
  obtain ⟨⟨name, attrs, tagEnd⟩, htag, h⟩ := exists_of_bind_eq_ok h
  obtain ⟨inner, hsplit⟩ := suffix_of_readTag htag
  have hprefix : '<' :: name <+: '<' :: (name ++ inner) := List.prefix_append ('<' :: name) inner
  rw [hsplit] at h ⊢
  simp only [spanFrom_append] at h
  split at h
  · -- the element closes itself
    cases h
    exact ⟨⟨_, rfl, rfl, rfl, by rw [String.toList_ofList]; exact hprefix⟩, rfl⟩
  · split at h
    · exact piece_of_readRaw hprefix h
    · split at h
      · cases h
        exact ⟨⟨_, rfl, rfl, rfl, by rw [String.toList_ofList]; exact hprefix⟩, rfl⟩
      · cases h
        exact ⟨⟨_, rfl, rfl, by rw [Lexeme.Spells, String.toList_ofList]; exact hprefix⟩, rfl⟩

/-- A lexeme is spelled by the text up to what is left.  It is a run of text exactly if no markup
    starts there. -/
theorem piece_of_readLexeme (hne : cs ≠ []) (h : readLexeme cs here = .ok (lexeme, rest)) :
    (∃ piece, Piece lexeme cs rest piece here) ∧ lexeme.isText = !startsMarkup cs := by
  unfold readLexeme at h
  split at h
  · rename_i hmarkup
    rw [hmarkup, Bool.not_true]
    rcases exists_of_startsMarkup hmarkup with
      ⟨body, rfl⟩ | ⟨c, body, hc, rfl⟩ | ⟨c, body, hc, rfl⟩
    · exact piece_of_readComment h
    · exact piece_of_readClosing hc h
    · -- a letter is neither of the other two signs
      split at h
      · rename_i heq
        obtain rfl : c = '!' := (List.cons.inj (List.cons.inj heq).2).1
        exact absurd hc (by decide)
      · rename_i heq
        obtain rfl : c = '/' := (List.cons.inj (List.cons.inj heq).2).1
        exact absurd hc (by decide)
      · exact piece_of_readOpening h
  · rename_i hmarkup
    rw [Bool.not_eq_true] at hmarkup
    -- no markup starts here: a run of text is read, and it is not empty
    obtain ⟨left, ha, h⟩ := exists_of_bind_eq_ok h
    have hshorter := length_lt_of_afterText hne hmarkup ha
    obtain ⟨raw, rfl⟩ := suffix_of_afterText ha
    cases h
    refine ⟨⟨raw, rfl, spanFrom_append raw _ here, ?_, ?_⟩, by rw [hmarkup]; rfl⟩
    · rw [consumed_append_self, String.toList_ofList]
    · rintro rfl
      exact Nat.lt_irrefl _ hshorter

/-- Behind a run of text there is markup or nothing. -/
theorem startsMarkup_of_readLexeme (hne : cs ≠ []) (h : readLexeme cs here = .ok (lexeme, rest))
    (htext : lexeme.isText = true) : rest = [] ∨ startsMarkup rest = true := by
  have hmarkup : startsMarkup cs = false := by
    rwa [(piece_of_readLexeme hne h).2, Bool.not_eq_true'] at htext
  unfold readLexeme at h
  rw [hmarkup, if_neg Bool.false_ne_true] at h
  obtain ⟨left, ha, h⟩ := exists_of_bind_eq_ok h
  cases h
  exact startsMarkup_of_afterText ha

/-! ## All lexemes -/

/-- Lexemes are spelled by the pieces of a text, one behind the other, and no two runs of text stand
    next to each other. -/
inductive Spelling : (here : Nat) → (cs : List Char) → (lexemes : List Lexeme) → Prop
  | nil {here : Nat} : Spelling here [] []
  | cons {here : Nat} {lexeme : Lexeme} {lexemes : List Lexeme} {cs rest piece : List Char}
    (hpiece : Piece lexeme cs rest piece here)
    (halone : lexeme.isText = true → lexemes.head?.all (!·.isText) = true)
    (hrest : Spelling (here + byteLength piece) rest lexemes) : Spelling here cs (lexeme :: lexemes)

/-- Where markup starts, no run of text is read. -/
theorem head?_of_lexemesFrom {lexemes : List Lexeme} (hcs : cs = [] ∨ startsMarkup cs = true)
    (h : lexemesFrom cs here = .ok lexemes) : lexemes.head?.all (!·.isText) = true := by
  cases cs with
  | nil =>
    rw [lexemesFrom] at h
    cases h
    rfl
  | cons c cs =>
    have hmarkup : startsMarkup (c :: cs) = true := hcs.resolve_left (List.cons_ne_nil c cs)
    rw [lexemesFrom] at h
    split at h
    · cases h
    · rename_i lexeme rest hlexeme
      -- the first lexeme is text only if no markup starts here
      have hkind := (piece_of_readLexeme (List.cons_ne_nil c cs) hlexeme).2
      obtain ⟨others, -, h⟩ := exists_of_bind_eq_ok h
      cases h
      simp [hkind, hmarkup]

/-- The lexemes of a text are spelled by its pieces. -/
theorem spelling_of_lexemesFrom {lexemes : List Lexeme} (h : lexemesFrom cs here = .ok lexemes) :
    Spelling here cs lexemes := by
  fun_induction lexemesFrom cs here generalizing lexemes with
  | case1 => cases h; exact .nil
  | case2 => exact nomatch h
  | case3 here c cs lexeme rest hlexeme ih =>
    have hne : c :: cs ≠ [] := List.cons_ne_nil c cs
    obtain ⟨⟨piece, hpiece⟩, -⟩ := piece_of_readLexeme hne hlexeme
    obtain ⟨others, hothers, h⟩ := exists_of_bind_eq_ok h
    cases h
    refine .cons hpiece (fun htext => ?_) (by simpa only [hpiece.span] using ih hothers)
    exact head?_of_lexemesFrom (startsMarkup_of_readLexeme hne hlexeme htext) hothers

end SvelteStories.Markup
