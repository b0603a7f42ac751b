import SvelteStories.Markup.Tag

/-!
# Lexemes of the markup

The markup is cut into lexemes from left to right: comments, raw blocks, tags, and the longest runs
of text between them.  Brace expressions are passed over as a whole, so that what looks like a tag
inside one is text.  Every lexeme takes at least one character, and the first fault ends the
cutting.
-/

namespace SvelteStories.Markup

open Text

/-- A piece of the markup. -/
inductive Lexeme
  | text (raw : String) (span : Span)
  | comment (data : String) (span : Span)
  | rawBlock (block : RawBlock)
  /-- An element that ends with its opening tag. -/
  | leaf (head : Element)
  /-- The opening tag of an element with content. -/
  | opening (name : String) (attributes : List Attribute) (span : Span)
  | closing (name : String) (span : Span)
deriving Repr

/-- The span of bytes that a lexeme takes. -/
def Lexeme.span : Lexeme → Span
  | text _ span | comment _ span | opening _ _ span | closing _ span => span
  | rawBlock block => block.span
  | leaf head => head.span

/-- Whether the text starts with something else than text: a comment or a tag. -/
def startsMarkup : List Char → Bool
  | '<' :: '!' :: '-' :: '-' :: _ => true
  | '<' :: '/' :: c :: _ => c.isAlpha
  | '<' :: c :: _ => c.isAlpha
  | _ => false

/-- Passes over a run of text.  What follows is the end of the markup, a comment or a tag. -/
def afterText (cs : List Char) (here : Nat) : Except LocatedFault (List Char) :=
  match cs with
  | [] => .ok []
  | c :: rest =>
    if c = '{' then
      match _h : Braces.after? (c :: rest) with
      | none => Fault.unbalancedBrace.raise here
      | some after => afterText after (here + byteLength (consumed (c :: rest) after))
    else if startsMarkup (c :: rest) then .ok (c :: rest)
    else afterText rest (here + c.utf8Size)
termination_by cs.length
decreasing_by
  · exact Braces.length_lt_of_after? (by assumption)
  · simp

/-- Whether the text starts with the end of a tag. -/
def endsTag : List Char → Bool
  | '>' :: _ => true
  | _ => false

/-- The span of what was read from a place, given what is left. -/
def spanFrom (cs rest : List Char) (here : Nat) : Span :=
  ⟨here, here + byteLength (consumed cs rest)⟩

/-- Reads a comment. -/
def readComment (cs : List Char) (here : Nat) : Except LocatedFault (Lexeme × List Char) :=
  let body := cs.drop 4
  match seek? (startsWith ['-', '-', '>']) body with
  | none => Fault.unclosedComment.raise here
  | some closing =>
    let rest := closing.drop 3
    .ok (.comment (String.ofList (consumed body closing)) (spanFrom cs rest here), rest)

/-- Reads a closing tag. -/
def readClosing (cs : List Char) (here : Nat) : Except LocatedFault (Lexeme × List Char) :=
  let name := (cs.drop 2).takeWhile isTagNameChar
  match seek? endsTag (cs.drop (2 + name.length)) with
  | none => Fault.unterminatedClosingTag.raise here
  | some tagEnd =>
    let rest := tagEnd.drop 1
    .ok (.closing (String.ofList name) (spanFrom cs rest here), rest)

/-- Whether the text starts with the closing tag of a raw block, in any case of its letters. -/
def closesRaw (name cs : List Char) : Bool :=
  startsWith ('<' :: '/' :: name.map Char.toLower) ((cs.take (2 + name.length)).map Char.toLower)

/-- Reads the content and the closing tag of a raw block, whose opening tag started at `here` and is
    followed by `body`, at the byte offset `bodyStart`. -/
def readRaw (name : List Char) (attributes : List Attribute) (here : Nat) (body : List Char)
    (bodyStart : Nat) : Except LocatedFault (Lexeme × List Char) :=
  match seek? (closesRaw name) body with
  | none => (Fault.unclosedBlock (String.ofList name)).raise here
  | some closing =>
    let content := spanFrom body closing bodyStart
    match seek? endsTag closing with
    | none => Fault.unterminatedClosingTag.raise content.stop
    | some tagEnd =>
      let rest := tagEnd.drop 1
      .ok (.rawBlock ⟨String.ofList name, attributes, content,
        ⟨here, content.stop + byteLength (consumed closing rest)⟩⟩, rest)

/-- Reads an opening tag, and the whole of a raw block. -/
def readOpening (cs : List Char) (here : Nat) : Except LocatedFault (Lexeme × List Char) := do
  let (name, attributes, tagEnd) ← readTag cs here
  let span := spanFrom cs tagEnd.rest here
  if tagEnd.selfClosing then
    return (.leaf ⟨String.ofList name, attributes, span, none⟩, tagEnd.rest)
  else if isRawName name then readRaw name attributes here tagEnd.rest span.stop
  else if isVoidName name then
    return (.leaf ⟨String.ofList name, attributes, span, none⟩, tagEnd.rest)
  else return (.opening (String.ofList name) attributes span, tagEnd.rest)

/-- Reads the lexeme that the text starts with. -/
def readLexeme (cs : List Char) (here : Nat) : Except LocatedFault (Lexeme × List Char) :=
  if startsMarkup cs then
    match cs with
    | '<' :: '!' :: _ => readComment cs here
    | '<' :: '/' :: _ => readClosing cs here
    | _ => readOpening cs here
  else do
    let rest ← afterText cs here
    return (.text (String.ofList (consumed cs rest)) (spanFrom cs rest here), rest)

/-! ## Every lexeme takes at least one character -/

/-- Passing over text leaves no more than there was. -/
theorem length_le_of_afterText {cs rest : List Char} {here : Nat}
    (h : afterText cs here = .ok rest) : rest.length ≤ cs.length := by
  fun_induction afterText cs here with
  | case1 => cases h; exact Nat.le_refl _
  | case2 => exact nomatch h
  | case3 _ _ _ hs ih =>
    exact Nat.le_trans (ih h) (Nat.le_of_lt (Braces.length_lt_of_after? hs))
  | case4 => cases h; exact Nat.le_refl _
  | case5 _ _ _ _ _ ih => exact Nat.le_trans (ih h) (Nat.le_succ _)

/-- A run of text that does not start with markup takes at least one character. -/
theorem length_lt_of_afterText {cs rest : List Char} {here : Nat} (hne : cs ≠ [])
    (hm : startsMarkup cs = false) (h : afterText cs here = .ok rest) :
    rest.length < cs.length := by
  cases cs with
  | nil => exact absurd rfl hne
  | cons c cs =>
    unfold afterText at h
    split at h
    · split at h
      · exact nomatch h
      · rename_i hs
        exact Nat.lt_of_le_of_lt (length_le_of_afterText h) (Braces.length_lt_of_after? hs)
    · simp only [hm, Bool.false_eq_true, if_false] at h
      exact Nat.lt_of_le_of_lt (length_le_of_afterText h) (Nat.lt_succ_self _)

theorem length_le_of_seek? {stop : List Char → Bool} {cs rest : List Char}
    (h : seek? stop cs = some rest) : rest.length ≤ cs.length :=
  (suffix_of_seek? h).1.length_le

/-- Reading attributes takes at least the end of the tag. -/
theorem length_lt_of_readAttributes {tag : String} {opened here : Nat} {cs : List Char}
    {attrs : List Attribute} {tagEnd : TagEnd}
    (h : readAttributes tag opened cs here = .ok (attrs, tagEnd)) :
    tagEnd.rest.length < cs.length := by
  fun_induction readAttributes tag opened cs here generalizing attrs tagEnd with
  | case1 => exact nomatch h
  | case2 cs _ rest hs =>
    cases h
    have := length_dropWhile_le isTagBlank cs
    simp only [hs, List.length_cons] at this
    exact this
  | case3 cs _ rest hs =>
    cases h
    have := length_dropWhile_le isTagBlank cs
    simp only [hs, List.length_cons] at this
    simp only; omega
  | case4 => exact nomatch h
  | case5 cs _ _ _ _ _ _ ha ih =>
    simp only [bind, Except.bind] at h
    split at h
    · exact nomatch h
    · rename_i p hp
      obtain ⟨others, tagEnd⟩ := p
      simp only [pure, Except.pure] at h
      cases h
      -- white space, one attribute and the others are passed over
      have h₁ := ih hp
      have h₂ := length_lt_of_readAttribute ha
      have h₃ := length_dropWhile_le isTagBlank cs
      omega

/-- Reading a tag takes at least one character. -/
theorem length_lt_of_readTag {cs name : List Char} {here : Nat} {attrs : List Attribute}
    {tagEnd : TagEnd} (h : readTag cs here = .ok (name, attrs, tagEnd)) :
    tagEnd.rest.length < cs.length := by
  simp only [readTag, bind, Except.bind, pure, Except.pure] at h
  split at h
  · exact nomatch h
  · rename_i p hp
    obtain ⟨others, tagEnd⟩ := p
    cases h
    have := length_lt_of_readAttributes hp
    simp only [List.length_drop] at this ⊢
    omega

/-- Reading a lexeme takes at least one character, so that cutting a text into lexemes ends. -/
theorem length_lt_of_readLexeme {cs rest : List Char} {here : Nat} {lexeme : Lexeme}
    (hne : cs ≠ []) (h : readLexeme cs here = .ok (lexeme, rest)) : rest.length < cs.length := by
  have hpos : 0 < cs.length := List.length_pos_iff.mpr hne
  unfold readLexeme at h
  split at h
  · split at h
    · -- a comment, and then a closing tag, is read up to its end
      unfold readComment at h
      dsimp only at h
      split at h
      · exact nomatch h
      · rename_i hs
        cases h
        have := length_le_of_seek? hs
        simp only [List.length_drop] at this ⊢
        omega
    · unfold readClosing at h
      dsimp only at h
      split at h
      · exact nomatch h
      · rename_i hs
        cases h
        have := length_le_of_seek? hs
        simp only [List.length_drop] at this ⊢
        omega
    · -- an opening tag, which takes the content of a raw block with it
      simp only [readOpening, bind, Except.bind, pure, Except.pure] at h
      split at h
      · exact nomatch h
      · rename_i p hp
        obtain ⟨name, attrs, tagEnd⟩ := p
        have ht := length_lt_of_readTag hp
        simp only at h
        split at h
        · cases h; exact ht
        · split at h
          · -- the content and the closing tag are behind the tag
            unfold readRaw at h
            split at h
            · exact nomatch h
            · rename_i hc
              dsimp only at h
              split at h
              · exact nomatch h
              · rename_i hg
                cases h
                have h₁ := length_le_of_seek? hc
                have h₂ := length_le_of_seek? hg
                simp only [List.length_drop]
                omega
          · split at h
            · cases h; exact ht
            · cases h; exact ht
  · rename_i hm
    -- no markup starts here, so that a run of text is read
    cases ha : afterText cs here with
    | error e => simp [ha, bind, Except.bind] at h
    | ok r =>
      simp only [ha, bind, Except.bind, pure, Except.pure] at h
      cases h
      exact length_lt_of_afterText hne (by simpa using hm) ha

/-! ## The lexemes of a text -/

/-- Cuts a text that starts at the byte offset `here` into lexemes. -/
def lexemesFrom (cs : List Char) (here : Nat) : Except LocatedFault (List Lexeme) :=
  match cs with
  | [] => .ok []
  | c :: cs =>
    match _h : readLexeme (c :: cs) here with
    | .error fault => .error fault
    | .ok (lexeme, rest) => do
      let others ← lexemesFrom rest lexeme.span.stop
      return lexeme :: others
termination_by cs.length
decreasing_by exact length_lt_of_readLexeme (by simp) (by assumption)

/-- Cuts the markup of a stories file into lexemes. -/
def lexemes (text : List Char) : Except LocatedFault (List Lexeme) :=
  lexemesFrom text 0

end SvelteStories.Markup
