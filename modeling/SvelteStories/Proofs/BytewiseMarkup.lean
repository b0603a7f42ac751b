import SvelteStories.Proofs.BytewiseTags
import SvelteStories.Proofs.RoundTrip

/-!
# The markup by byte offsets

The readers of the lexemes and the main loop answer by byte offsets what they answer by taking
characters off the text.  The main loop has more turns than there are lexemes: a run of text takes
one for each brace expression in it and one for each stretch up to the next sign.  So the loop is
related to the lexemes at every place that it can come to, with the run of text that was started
before that place.

## Key results

- `readComment_offsetOf`, `readClosing_offsetOf`, `readOpening_offsetOf`: the readers of the lexemes
- `markupTurn_markup`, `markupTurn_brace`, `markupTurn_text`: what a turn of the main loop does
- `turnsTo_markupTurn`, `run_markupTurn`: what the main loop builds from any place on
- `parse_eq`, `braceTags_eq`: the markup, and the brace expressions of a run of text
-/

namespace SvelteStories.Markup.Bytewise

open Text

variable {text cs rest : List Char} {c : Char} {here : Nat}

/-! ## Lexemes -/

/-- Behind a sign the offset is more by the length of the sign. -/
theorem offsetOf_behind (sign : List Char) (h : sign ++ rest <:+ text) :
    offsetOf text rest = offsetOf text (sign ++ rest) + byteLength sign := by
  rw [offsetOf_suffix (List.suffix_append sign rest) h, consumed_append_self]

/-- A comment is read at its offset as it is read from the characters. -/
theorem readComment_offsetOf (h : '<' :: '!' :: '-' :: '-' :: cs <:+ text) :
    readComment text (offsetOf text ('<' :: '!' :: '-' :: '-' :: cs)) =
      lift text (Markup.readComment ('<' :: '!' :: '-' :: '-' :: cs)
        (offsetOf text ('<' :: '!' :: '-' :: '-' :: cs))) := by
  have hbody : cs <:+ '<' :: '!' :: '-' :: '-' :: cs := List.suffix_append ['<', '!', '-', '-'] cs
  have hstart : offsetOf text cs = offsetOf text ('<' :: '!' :: '-' :: '-' :: cs) + 4 :=
    offsetOf_behind ['<', '!', '-', '-'] h
  simp only [readComment, ← hstart, find?_offsetOf _ (hbody.trans h), Markup.readComment,
    List.drop_succ_cons, List.drop_zero, bind, Except.bind]
  cases hclosing : seek? (startsWith ['-', '-', '>']) cs with
  | none => rfl
  | some closing =>
    obtain ⟨hsuffix, hsign⟩ := suffix_of_seek? hclosing
    obtain ⟨after, rfl⟩ := (startsWith_iff _ _).mp hsign
    -- the end sign has three bytes
    have hstop : offsetOf text after = offsetOf text (['-', '-', '>'] ++ after) + 3 :=
      offsetOf_behind ['-', '-', '>'] (hsuffix.trans (hbody.trans h))
    have hrest : after <:+ '<' :: '!' :: '-' :: '-' :: cs :=
      ((List.suffix_append _ _).trans hsuffix).trans hbody
    simp only [Option.map_some, slice_offsetOf hsuffix (hbody.trans h), ← hstop]
    rw [show (['-', '-', '>'] ++ after).drop 3 = after from rfl, spanFrom_offsetOf hrest h]
    rfl

/-- Behind the end of a tag. -/
theorem offsetOf_drop_endsTag (hend : endsTag cs = true) (h : cs <:+ text) :
    offsetOf text (cs.drop 1) = offsetOf text cs + 1 := by
  unfold endsTag at hend
  split at hend
  · exact offsetOf_ascii h (by decide)
  · exact nomatch hend

/-- A closing tag is read at its offset as it is read from the characters. -/
theorem readClosing_offsetOf (h : '<' :: '/' :: cs <:+ text) :
    readClosing text (offsetOf text ('<' :: '/' :: cs)) =
      lift text (Markup.readClosing ('<' :: '/' :: cs) (offsetOf text ('<' :: '/' :: cs))) := by
  have hbody : cs <:+ '<' :: '/' :: cs := List.suffix_append ['<', '/'] cs
  have hname : cs.dropWhile isTagNameChar <:+ cs := List.dropWhile_suffix isTagNameChar
  have hstart : offsetOf text cs = offsetOf text ('<' :: '/' :: cs) + 2 :=
    offsetOf_behind ['<', '/'] h
  simp only [readClosing, ← hstart, passClass_offsetOf isByteClass_isTagNameChar (hbody.trans h),
    slice_offsetOf hname (hbody.trans h), find?_offsetOf _ (hname.trans (hbody.trans h)),
    consumed_dropWhile, Markup.readClosing, List.drop_succ_cons, List.drop_zero, Nat.add_comm 2,
    drop_length_takeWhile, bind, Except.bind]
  cases htagEnd : seek? endsTag (cs.dropWhile isTagNameChar) with
  | none => rfl
  | some tagEnd =>
    obtain ⟨hsuffix, hend⟩ := suffix_of_seek? htagEnd
    -- what is left starts with the end of the tag
    have hclosing := hsuffix.trans (hname.trans hbody)
    simp only [Option.map_some, ← offsetOf_drop_endsTag hend (hclosing.trans h)]
    rw [spanFrom_offsetOf ((List.drop_suffix 1 tagEnd).trans hclosing) h]
    rfl

/-! ### Raw blocks -/

/-- The lower case of a character takes as many bytes. -/
theorem utf8Size_toLower (c : Char) : c.toLower.utf8Size = c.utf8Size := by
  unfold Char.toLower
  split
  · rename_i hcapital
    have hsmall : c.val + ('a'.val - 'A'.val) ≤ 127 := by grind
    have hle : c.val ≤ 127 := by grind
    rw [Char.utf8Size_eq_one_iff.mpr hle, Char.utf8Size_eq_one_iff.mpr hsmall]
  · rfl

/-- The lower case of a text takes as many bytes. -/
theorem byteLength_map_toLower (cs : List Char) :
    byteLength (cs.map Char.toLower) = byteLength cs := by
  induction cs with
  | nil => rfl
  | cons c cs ih => rw [List.map_cons, byteLength_cons, byteLength_cons, utf8Size_toLower, ih]

/-- A search in a copy of a text. -/
theorem seek?_map {f : Char → Char} {stop : List Char → Bool} (cs : List Char) :
    seek? stop (cs.map f) = (seek? (fun rest => stop (rest.map f)) cs).map (List.map f) := by
  induction cs with
  | nil => rfl
  | cons c cs ih =>
    rw [List.map_cons, seek?, seek?, List.map_cons]
    split
    · rfl
    · exact ih

theorem consumed_map (f : Char → Char) (cs rest : List Char) :
    consumed (cs.map f) (rest.map f) = (consumed cs rest).map f := by
  rw [consumed, consumed, List.length_map, List.length_map, List.map_take]

/-- Only as much of a text counts as there are characters to start with. -/
theorem startsWith_take {start : List Char} {n : Nat} (hn : start.length ≤ n) :
    startsWith start (cs.take n) = startsWith start cs := by
  rw [Bool.eq_iff_iff, startsWith_iff, startsWith_iff, List.prefix_take_iff, and_iff_left hn]

/-- The end of a raw block is looked for in the lower case of the text. -/
theorem closesRaw_eq (name cs : List Char) :
    startsWith ('<' :: '/' :: name.map Char.toLower) (cs.map Char.toLower) = closesRaw name cs := by
  rw [closesRaw, List.map_take, startsWith_take]
  simp only [List.length_cons, List.length_map]
  omega

/-- A raw block is read at its offset as it is read from the characters. -/
theorem readRaw_offsetOf (name : List Char) (attributes : List Attribute) (start : Nat)
    (h : cs <:+ text) :
    readRaw name attributes start text (offsetOf text cs) =
      lift text (Markup.readRaw name attributes start cs (offsetOf text cs)) := by
  simp only [readRaw, sliceFrom_offsetOf h, seek?_map, closesRaw_eq, Markup.readRaw,
    bind, Except.bind]
  cases hclosing : seek? (closesRaw name) cs with
  | none => rfl
  | some closing =>
    obtain ⟨hsuffix, -⟩ := suffix_of_seek? hclosing
    -- as lower case takes as many bytes, the offset in the copy is the one in the text
    simp only [Option.map_some, consumed_map, byteLength_map_toLower, ← offsetOf_suffix hsuffix h,
      find?_offsetOf _ (hsuffix.trans h), spanFrom_offsetOf hsuffix h]
    cases htagEnd : seek? endsTag closing with
    | none => rfl
    | some tagEnd =>
      obtain ⟨hend, hends⟩ := suffix_of_seek? htagEnd
      simp only [Option.map_some, ← offsetOf_drop_endsTag hends (hend.trans (hsuffix.trans h))]
      rw [← offsetOf_suffix ((List.drop_suffix 1 tagEnd).trans hend) (hsuffix.trans h)]
      rfl

/-- What an opening tag starts is read at its offset as it is read from the characters. -/
theorem readOpening_offsetOf (h : '<' :: cs <:+ text) :
    readOpening text (offsetOf text ('<' :: cs)) =
      lift text (Markup.readOpening ('<' :: cs) (offsetOf text ('<' :: cs))) := by
  simp only [readOpening, readTag_offsetOf h, Markup.readOpening, bind, Except.bind]
  cases htag : Markup.readTag ('<' :: cs) (offsetOf text ('<' :: cs)) with
  | error fault => rfl
  | ok read =>
    obtain ⟨name, attributes, tagEnd⟩ := read
    have hrest : tagEnd.rest <:+ '<' :: cs := by
      obtain ⟨inner, hsplit⟩ := suffix_of_readTag htag
      rw [hsplit]
      exact List.suffix_append _ _
    simp only [spanFrom_offsetOf hrest h]
    cases tagEnd.selfClosing with
    | true => rfl
    | false =>
      cases isRawName name with
      | true => exact readRaw_offsetOf name attributes _ (hrest.trans h)
      | false => cases isVoidName name <;> rfl

/-! ## Turns of the main loop -/

variable {s : State}

/-- A turn at markup. -/
theorem markupTurn_markup (h : cs <:+ text) (hmarkup : startsMarkup cs = true) :
    markupTurn text (offsetOf text cs) s =
      s.addRead text (offsetOf text cs) (lift text (readLexeme cs (offsetOf text cs))) := by
  rcases exists_of_startsMarkup hmarkup with ⟨body, rfl⟩ | ⟨c, body, hc, rfl⟩ | ⟨c, body, hc, rfl⟩
  · have hsign : startsWith ['<', '!', '-', '-'] ('<' :: '!' :: '-' :: '-' :: body) = true := rfl
    simp only [markupTurn, sliceFrom_offsetOf h, hsign, if_true, bind, Except.bind,
      readLexeme, hmarkup, readComment_offsetOf h]
  · have hname := (List.suffix_append ['<', '/'] (c :: body)).trans h
    have hstart : offsetOf text (c :: body) = offsetOf text ('<' :: '/' :: c :: body) + 2 :=
      offsetOf_behind ['<', '/'] h
    -- the byte behind the sign is a letter exactly if the character is
    have hletter : (byteAt? text (offsetOf text ('<' :: '/' :: c :: body) + 2)).any Char.isAlpha =
        true := by
      rw [← hstart, any_byteAt?_offsetOf isByteClass_isAlpha hname]
      exact hc
    have hcomment : startsWith ['<', '!', '-', '-'] ('<' :: '/' :: c :: body) = false := rfl
    have hsign : startsWith ['<', '/'] ('<' :: '/' :: c :: body) = true := rfl
    simp only [markupTurn, sliceFrom_offsetOf h, hcomment, hsign, hletter, and_self,
      if_true, if_false, Bool.false_eq_true, bind, Except.bind, readLexeme, hmarkup,
      readClosing_offsetOf h]
  · have hname := (List.suffix_cons _ (c :: body)).trans h
    have hbyte := (byteAt?_first (a := '<') h (by decide)).mpr rfl
    have hletter : (byteAt? text (offsetOf text ('<' :: c :: body) + 1)).any Char.isAlpha =
        true := by
      rw [← offsetOf_ascii h (by decide), any_byteAt?_offsetOf isByteClass_isAlpha hname]
      exact hc
    -- a letter is neither of the other two signs
    have hcomment : startsWith ['<', '!', '-', '-'] ('<' :: c :: body) = false := by
      have hne : '!' ≠ c := ne_of_isAlpha hc rfl
      simp [startsWith, hne]
    have hclosing : startsWith ['<', '/'] ('<' :: c :: body) = false := by
      have hne : '/' ≠ c := ne_of_isAlpha hc rfl
      simp [startsWith, hne]
    simp only [markupTurn, sliceFrom_offsetOf h, hcomment, hclosing, hbyte, hletter,
      and_self, if_true, if_false, Bool.false_eq_true, false_and, bind, Except.bind]
    -- the characters decide as the bytes do
    unfold readLexeme
    rw [if_pos hmarkup]
    split
    · rename_i heq
      obtain ⟨rfl, -⟩ := List.cons.inj (List.cons.inj heq).2
      exact absurd hc (by decide)
    · rename_i heq
      obtain ⟨rfl, -⟩ := List.cons.inj (List.cons.inj heq).2
      exact absurd hc (by decide)
    · rw [readOpening_offsetOf h]

/-- What the main loop finds at a place where no markup starts. -/
theorem markupTurn_of_not_markup (h : cs <:+ text) (hmarkup : startsMarkup cs = false) :
    markupTurn text (offsetOf text cs) s =
      if byteAt? text (offsetOf text cs) = some '{' then do
        return .next (← braceEnd .unbalancedBrace text (offsetOf text cs))
          (s.mark (offsetOf text cs))
      else do
        let first := (cs.head?.map Char.utf8Size).getD 1
        let sign ← find? startsSign cs first
        return .next (sign.elim (byteLength text) (offsetOf text cs + ·))
          (s.mark (offsetOf text cs)) := by
  have hnot := Bool.eq_false_iff.mp hmarkup
  rw [ne_eq, startsMarkup_iff, not_or, not_or] at hnot
  obtain ⟨hcomment, hclosing, hopening⟩ := hnot
  rw [← startsWith_iff, Bool.not_eq_true] at hcomment
  -- the bytes behind the sign would be those of a letter
  have hclosing : ¬ (startsWith ['<', '/'] cs = true ∧
      (byteAt? text (offsetOf text cs + 2)).any Char.isAlpha = true) := by
    rintro ⟨hsign, hletter⟩
    obtain ⟨rest, rfl⟩ := (startsWith_iff _ _).mp hsign
    have hstart : offsetOf text rest = offsetOf text (['<', '/'] ++ rest) + 2 := offsetOf_behind _ h
    rw [← hstart,
      any_byteAt?_offsetOf isByteClass_isAlpha ((List.suffix_append _ rest).trans h)] at hletter
    obtain ⟨c, hhead, hc⟩ := (Option.any_eq_true _ _).mp hletter
    obtain ⟨tail, rfl⟩ := List.head?_eq_some_iff.mp hhead
    exact hclosing ⟨c, hc, List.prefix_append ['<', '/', c] tail⟩
  have hopening : ¬ (byteAt? text (offsetOf text cs) = some '<' ∧
      (byteAt? text (offsetOf text cs + 1)).any Char.isAlpha = true) := by
    rintro ⟨hsign, hletter⟩
    obtain ⟨rest, rfl⟩ := List.head?_eq_some_iff.mp ((byteAt?_offsetOf (by decide) h).mp hsign)
    rw [← offsetOf_ascii h (by decide),
      any_byteAt?_offsetOf isByteClass_isAlpha ((List.suffix_cons _ rest).trans h)] at hletter
    obtain ⟨c, hhead, hc⟩ := (Option.any_eq_true _ _).mp hletter
    obtain ⟨tail, rfl⟩ := List.head?_eq_some_iff.mp hhead
    exact hopening ⟨c, hc, List.prefix_append ['<', c] tail⟩
  simp only [markupTurn, sliceFrom_offsetOf h, hcomment, hclosing, hopening, if_false,
    Bool.false_eq_true, bind, Except.bind]

/-- A turn at a brace expression. -/
theorem markupTurn_brace (h : '{' :: cs <:+ text) :
    markupTurn text (offsetOf text ('{' :: cs)) s =
      match Braces.after? ('{' :: cs) with
      | none => refuse .unbalancedBrace (offsetOf text ('{' :: cs))
      | some after => .ok (.next (offsetOf text after) (s.mark (offsetOf text ('{' :: cs)))) := by
  rw [markupTurn_of_not_markup h rfl, if_pos ((byteAt?_first h (by decide)).mpr rfl)]
  cases hafter : Braces.after? ('{' :: cs) with
  | none => rw [braceEnd_of_none _ h hafter]; rfl
  | some after => rw [braceEnd_of_some _ h hafter]; rfl

/-- A turn at a character of a run of text: it goes up to the next sign. -/
theorem markupTurn_text (h : c :: cs <:+ text) (hmarkup : startsMarkup (c :: cs) = false)
    (hc : c ≠ '{') :
    markupTurn text (offsetOf text (c :: cs)) s =
      .ok (.next (offsetOf text ((seek? startsSign cs).getD []))
        (s.mark (offsetOf text (c :: cs)))) := by
  have hbyte : ¬ byteAt? text (offsetOf text (c :: cs)) = some '{' := by
    rwa [byteAt?_first h (by decide)]
  have hfirst := offsetOf_cons (List.suffix_refl (c :: cs))
  rw [offsetOf_self, Nat.zero_add] at hfirst
  rw [markupTurn_of_not_markup h hmarkup, if_neg hbyte]
  simp only [List.head?_cons, Option.map_some, Option.getD_some, ← hfirst,
    find?_offsetOf _ (List.suffix_cons c cs), bind, Except.bind]
  cases hsign : seek? startsSign cs with
  | none => rfl
  | some sign =>
    have hbehind := (suffix_of_seek? hsign).1.trans (List.suffix_cons c cs)
    -- the sign is looked for in the rest of the text, from its second character on
    have hinside := offsetOf_suffix hbehind (List.suffix_refl _)
    rw [offsetOf_self, Nat.zero_add] at hinside
    simp only [Option.map_some, Option.elim_some, Option.getD_some]
    rw [offsetOf_suffix hbehind h, ← hinside]
    rfl

/-! ## The main loop -/

/-- The builder with the run of text that was started and goes up to a place. -/
def flushed (text : List Char) (b : Builder) (pending : Option (List Char))
    (cs : List Char) : Builder :=
  match pending with
  | none => b
  | some start => b.add
      (.text (String.ofList (consumed start cs)) ⟨offsetOf text start, offsetOf text cs⟩)

/-- The forest that is built when the lexemes of a text are added. -/
def built (text : List Char) (b : Builder) (cs : List Char) : Except LocatedFault (List Node) := do
  return ((← lexemesFrom cs (offsetOf text cs)).foldl Builder.add b).finish (byteLength text)

/-- The forest that is built when a run of text, that may have been started, is read on. -/
def builtOn (text : List Char) (b : Builder) (pending : Option (List Char)) (cs : List Char) :
    Except LocatedFault (List Node) :=
  match pending with
  | none => built text b cs
  | some start => do
    let rest ← afterText cs (offsetOf text cs)
    built text (flushed text b (some start) rest) rest

variable {b : Builder} {pending : Option (List Char)}

/-- A run of text that was started before a place of the text. -/
def IsPending (text cs : List Char) (pending : Option (List Char)) : Prop :=
  ∀ start ∈ pending, start <:+ text ∧ cs <:+ start ∧ cs.length < start.length

theorem isPending_none : IsPending text cs none :=
  fun _ hstart => nomatch hstart

/-- The run of text that was started is cut out of the text. -/
theorem flush_eq (h : IsPending text cs pending) :
    State.flush text (offsetOf text cs) ⟨b, pending.map (offsetOf text)⟩ =
      .ok (flushed text b pending cs) := by
  cases pending with
  | none => rfl
  | some start =>
    obtain ⟨hstart, hcs, hlength⟩ := h start rfl
    simp only [State.flush, Option.map_some, offsetOf_lt_of_length hcs hlength hstart, if_true,
      slice_offsetOf hcs hstart, bind, Except.bind]
    rfl

/-- A lexeme stops where the rest starts. -/
theorem stop_of_readLexeme {lexeme : Lexeme} (h : cs <:+ text) (hne : cs ≠ [])
    (hread : readLexeme cs (offsetOf text cs) = .ok (lexeme, rest)) :
    rest <:+ cs ∧ lexeme.span.stop = offsetOf text rest := by
  obtain ⟨⟨piece, hpiece⟩, -⟩ := piece_of_readLexeme hne hread
  obtain rfl := hpiece.split
  exact ⟨List.suffix_append piece rest, by rw [hpiece.span, offsetOf_behind _ h]⟩

/-- Adding a lexeme and what follows it. -/
theorem built_of_readLexeme (h : cs <:+ text) (hne : cs ≠ []) :
    built text b cs =
      readLexeme cs (offsetOf text cs) >>= fun read => built text (b.add read.1) read.2 := by
  obtain ⟨c, tail, rfl⟩ := List.exists_cons_of_ne_nil hne
  rw [built, lexemesFrom]
  split
  · rename_i fault hread
    rw [hread]
    rfl
  · rename_i lexeme rest hread
    rw [hread, (stop_of_readLexeme h hne hread).2]
    simp only [built, bind, Except.bind]
    cases lexemesFrom rest (offsetOf text rest) <;> rfl

/-- At the end of the text, what was read is added and the forest is finished. -/
theorem builtOn_nil :
    builtOn text b pending [] = .ok ((flushed text b pending []).finish (byteLength text)) := by
  cases pending <;>
    simp only [builtOn, built, afterText, lexemesFrom, bind, Except.bind] <;> rfl

/-- Where no markup starts, a run of text does. -/
theorem builtOn_mark (h : cs <:+ text) (hne : cs ≠ []) (hmarkup : startsMarkup cs = false) :
    builtOn text b pending cs = builtOn text b (some (pending.getD cs)) cs := by
  cases pending with
  | some start => rfl
  | none =>
    simp only [builtOn, built_of_readLexeme h hne, readLexeme, hmarkup, if_false,
      Bool.false_eq_true, Option.getD_none, bind, Except.bind]
    cases hread : afterText cs (offsetOf text cs) with
    | error fault => rfl
    | ok rest =>
      simp only [flushed, spanFrom_offsetOf (suffix_of_afterText hread) h]
      rfl

/-- Where markup starts, a run of text ends. -/
theorem builtOn_flush (hmarkup : startsMarkup cs = true) :
    builtOn text b pending cs = built text (flushed text b pending cs) cs := by
  cases pending with
  | none => rfl
  | some start =>
    cases cs with
    | nil => exact nomatch hmarkup
    | cons c cs =>
      have hc : c ≠ '{' := by
        rintro rfl
        exact nomatch hmarkup
      simp only [builtOn, afterText, if_neg hc, hmarkup, if_true]
      rfl

/-- A run of text goes on up to the next sign. -/
theorem afterText_seek? (h : cs <:+ text) :
    afterText cs (offsetOf text cs) =
      afterText ((seek? startsSign cs).getD [])
        (offsetOf text ((seek? startsSign cs).getD [])) := by
  induction cs with
  | nil => rfl
  | cons c cs ih =>
    rw [seek?]
    split
    · rfl
    · rename_i hsign
      -- there is no sign here, so that neither a brace nor markup is
      have hbrace : c ≠ '{' := by rintro rfl; exact hsign rfl
      have hmarkup : startsMarkup (c :: cs) = false := by
        rw [← Bool.not_eq_true]
        intro hmarkup
        rcases exists_of_startsMarkup hmarkup with ⟨_, heq⟩ | ⟨_, _, -, heq⟩ | ⟨_, _, -, heq⟩ <;>
          · obtain ⟨rfl, -⟩ := List.cons.inj heq
            exact hsign rfl
      rw [← ih ((List.suffix_cons c cs).trans h), afterText, if_neg hbrace, hmarkup,
        if_neg Bool.false_ne_true, offsetOf_cons h]

/-- A run of text that was started stays so further on, and otherwise one starts here. -/
theorem IsPending.mark (h : IsPending text cs pending) (hcs : cs <:+ text) (hrest : rest <:+ cs)
    (hlength : rest.length < cs.length) : IsPending text rest (some (pending.getD cs)) := by
  rintro start hstart
  obtain rfl := Option.some.inj hstart
  cases pending with
  | none => exact ⟨hcs, hrest, hlength⟩
  | some start =>
    obtain ⟨hstart, hbehind, hshorter⟩ := h start rfl
    exact ⟨hstart, hrest.trans hbehind, Nat.lt_trans hlength hshorter⟩

/-- A run of text starts here, unless one was started. -/
theorem mark_eq (text cs : List Char) (b : Builder) (pending : Option (List Char)) :
    State.mark ⟨b, pending.map (offsetOf text)⟩ (offsetOf text cs) =
      ⟨b, (some (pending.getD cs)).map (offsetOf text)⟩ := by
  cases pending <;> rfl

/-- What a search finds, or the end of the text, is a suffix of it. -/
theorem suffix_getD_seek? (stop : List Char → Bool) (cs : List Char) :
    (seek? stop cs).getD [] <:+ cs := by
  cases hseek : seek? stop cs with
  | none => exact List.nil_suffix
  | some rest => exact (suffix_of_seek? hseek).1

/-- What a turn of the main loop comes to at a place from which `result` is built: a fault, or a
    place further on from which the same is built. -/
inductive TurnsTo (text cs : List Char) (result : Except LocatedFault (List Node)) :
    Except Halt (Turn State (List Node)) → Prop
  | fault {fault : LocatedFault} (hresult : result = .error fault) :
    TurnsTo text cs result (.error (.fault fault))
  | next {b : Builder} {pending : Option (List Char)} {rest : List Char} (hrest : rest <:+ cs)
    (hlength : rest.length < cs.length) (hpending : IsPending text rest pending)
    (hresult : result = builtOn text b pending rest) :
    TurnsTo text cs result (.ok (.next (offsetOf text rest) ⟨b, pending.map (offsetOf text)⟩))

/-- A turn where markup starts. -/
theorem turnsTo_markup (h : cs <:+ text) (hpending : IsPending text cs pending)
    (hmarkup : startsMarkup cs = true) :
    TurnsTo text cs (builtOn text b pending cs)
      (markupTurn text (offsetOf text cs) ⟨b, pending.map (offsetOf text)⟩) := by
  have hne : cs ≠ [] := by
    rintro rfl
    cases hmarkup
  rw [builtOn_flush hmarkup, built_of_readLexeme h hne, markupTurn_markup h hmarkup, State.addRead,
    flush_eq hpending]
  cases hread : readLexeme cs (offsetOf text cs) with
  | error fault => exact .fault rfl
  | ok read =>
    obtain ⟨lexeme, rest⟩ := read
    -- the lexeme is added behind the run of text, and nothing is started
    have hrest := (stop_of_readLexeme h hne hread).1
    exact .next hrest (length_lt_of_readLexeme hne hread) isPending_none rfl

/-- A turn at a brace. -/
theorem turnsTo_brace (h : '{' :: cs <:+ text) (hpending : IsPending text ('{' :: cs) pending) :
    TurnsTo text ('{' :: cs) (builtOn text b pending ('{' :: cs))
      (markupTurn text (offsetOf text ('{' :: cs)) ⟨b, pending.map (offsetOf text)⟩) := by
  rw [builtOn_mark h (List.cons_ne_nil _ _) rfl, markupTurn_brace h, mark_eq]
  cases hafter : Braces.after? ('{' :: cs) with
  | none =>
    rw [builtOn, afterText_of_none hafter]
    exact .fault rfl
  | some after =>
    have hsuffix := suffix_of_scan hafter
    have hshorter := Braces.length_lt_of_after? hafter
    refine .next hsuffix hshorter (hpending.mark h hsuffix hshorter) ?_
    rw [builtOn, builtOn, afterText_of_some hafter, offsetOf_suffix hsuffix h]

/-- A turn at any other character. -/
theorem turnsTo_text (h : c :: cs <:+ text) (hpending : IsPending text (c :: cs) pending)
    (hmarkup : startsMarkup (c :: cs) = false) (hc : c ≠ '{') :
    TurnsTo text (c :: cs) (builtOn text b pending (c :: cs))
      (markupTurn text (offsetOf text (c :: cs)) ⟨b, pending.map (offsetOf text)⟩) := by
  have hsign := suffix_getD_seek? startsSign cs
  have hsuffix := hsign.trans (List.suffix_cons c cs)
  have hshorter := Nat.lt_succ_of_le hsign.length_le
  rw [builtOn_mark h (List.cons_ne_nil c cs) hmarkup, markupTurn_text h hmarkup hc, mark_eq]
  refine .next hsuffix hshorter (hpending.mark h hsuffix hshorter) ?_
  -- between this character and the sign there is nothing that the text would stop at
  simp only [builtOn]
  rw [afterText, if_neg hc, hmarkup, if_neg Bool.false_ne_true, ← offsetOf_cons h,
    afterText_seek? ((List.suffix_cons c cs).trans h)]

/-- One turn of the main loop: what is built from a place on stays as it is. -/
theorem turnsTo_markupTurn (h : c :: cs <:+ text) (hpending : IsPending text (c :: cs) pending) :
    TurnsTo text (c :: cs) (builtOn text b pending (c :: cs))
      (markupTurn text (offsetOf text (c :: cs)) ⟨b, pending.map (offsetOf text)⟩) := by
  cases hmarkup : startsMarkup (c :: cs) with
  | true => exact turnsTo_markup h hpending hmarkup
  | false =>
    by_cases hc : c = '{'
    · subst hc
      exact turnsTo_brace h hpending
    · exact turnsTo_text h hpending hmarkup hc

/-- The main loop builds what the lexemes build. -/
theorem run_markupTurn (h : cs <:+ text) (hpending : IsPending text cs pending) :
    run (byteLength text) (markupTurn text)
        (fun stop s => do return (← s.flush text stop).finish stop)
        (offsetOf text cs) ⟨b, pending.map (offsetOf text)⟩ =
      (builtOn text b pending cs).mapError .fault := by
  induction hn : cs.length using Nat.strongRecOn generalizing cs b pending with
  | ind n ih =>
    subst hn
    cases cs with
    | nil =>
      rw [offsetOf_nil, run_atEnd, ← offsetOf_nil, flush_eq hpending, builtOn_nil]
      rfl
    | cons c cs =>
      -- one turn, and the rest by induction, as the turn gets ahead
      have hturn := turnsTo_markupTurn (b := b) h hpending
      generalize hout : markupTurn text (offsetOf text (c :: cs)) _ = out at hturn
      cases hturn with
      | fault hresult =>
        rw [hresult]
        exact run_error (offsetOf_lt h) hout
      | next hrest hlength hpending hresult =>
        rw [hresult, run_next (offsetOf_lt h) hout (offsetOf_lt_of_length hrest hlength h)]
        exact ih _ hlength (hrest.trans h) hpending rfl

/-- Reading the markup by byte offsets reads the markup. -/
theorem parse_eq (text : List Char) : parse text = (Markup.parse text).mapError .fault := by
  have hrun := run_markupTurn (b := .empty) (List.suffix_refl text) isPending_none
  rw [offsetOf_self, Option.map_none, builtOn, built, offsetOf_self] at hrun
  exact hrun

/-! ## Brace expressions of a run of text -/

variable {raw : List Char}

/-- The first brace expression stands at the first brace. -/
theorem braceTags_seek? (h : cs <:+ raw) :
    Markup.braceTags cs (here + offsetOf raw cs) =
      ((seek? (startsWith ['{']) cs).map fun start =>
        Markup.braceTags start (here + offsetOf raw start)).getD [] := by
  induction cs with
  | nil => rw [Markup.braceTags]; rfl
  | cons c cs ih =>
    rw [seek?]
    split
    · rfl
    · rename_i hstop
      have hc : c ≠ '{' := by rintro rfl; exact hstop rfl
      rw [← ih ((List.suffix_cons c cs).trans h), Markup.braceTags, if_neg hc, offsetOf_cons h,
        Nat.add_assoc]

/-- The loop over a run of text cuts out its brace expressions. -/
theorem run_tagTurn (here : Nat) (tags : List BraceTag) (h : cs <:+ raw) :
    run (byteLength raw) (tagTurn here raw) (fun _ tags => .ok tags) (offsetOf raw cs) tags =
      .ok (tags ++ Markup.braceTags cs (here + offsetOf raw cs)) := by
  induction hn : cs.length using Nat.strongRecOn generalizing cs tags with
  | ind n ih =>
    subst hn
    cases cs with
    | nil =>
      rw [offsetOf_nil, run_atEnd, Markup.braceTags, List.append_nil]
    | cons c cs =>
      rw [braceTags_seek? h]
      cases hseek : seek? (startsWith ['{']) (c :: cs) with
      | none =>
        have hturn : tagTurn here raw (offsetOf raw (c :: cs)) tags = .ok (.done tags) := by
          simp only [tagTurn, find?_offsetOf _ h, hseek, bind, Except.bind]
          rfl
        rw [run_done (offsetOf_lt h) hturn, Option.map_none, Option.getD_none, List.append_nil]
      | some start =>
        obtain ⟨hsuffix, hstop⟩ := suffix_of_seek? hseek
        obtain ⟨tail, rfl⟩ := (startsWith_iff _ _).mp hstop
        have hstart : '{' :: tail <:+ raw := hsuffix.trans h
        rw [Option.map_some, Option.getD_some]
        change _ =
          Except.ok (tags ++ Markup.braceTags ('{' :: tail) (here + offsetOf raw ('{' :: tail)))
        have hfind : find? (startsWith ['{']) raw (offsetOf raw (c :: cs)) =
            .ok (some (offsetOf raw ('{' :: tail))) := by rw [find?_offsetOf _ h, hseek]; rfl
        have hscan := braceEnd?_offsetOf hstart
        cases hafter : Braces.after? ('{' :: tail) with
        | none =>
          -- the brace is not closed, and nothing more is looked for
          rw [hafter, Option.map_none] at hscan
          rw [braceTags_of_none hafter, List.append_nil]
          refine run_done (offsetOf_lt h) ?_
          simp only [tagTurn, hfind, hscan, bind, Except.bind]
          rfl
        | some after =>
          rw [hafter, Option.map_some] at hscan
          -- the brace expression is cut out, and the loop goes on behind it
          have hbehind := suffix_of_scan hafter
          have hshorter := Nat.lt_of_lt_of_le (Braces.length_lt_of_after? hafter) hsuffix.length_le
          have hoffset := offsetOf_suffix hbehind hstart
          have hturn : tagTurn here raw (offsetOf raw (c :: cs)) tags =
              .ok (.next (offsetOf raw after) (tags ++ [⟨consumed ('{' :: tail) after,
                ⟨here + offsetOf raw ('{' :: tail), here + offsetOf raw after⟩⟩])) := by
            simp only [tagTurn, hfind, hscan, slice_offsetOf hbehind hstart, bind, Except.bind]
            rfl
          rw [run_next (offsetOf_lt h) hturn
            (offsetOf_lt_of_length (hbehind.trans hsuffix) hshorter h), ih _ hshorter
              _ (hbehind.trans hstart) rfl, braceTags_of_some hafter, hoffset, Nat.add_assoc,
            List.append_assoc, List.singleton_append]

/-- The brace expressions of a run of text are the same, read byte by byte. -/
theorem braceTags_eq (raw : List Char) (here : Nat) :
    braceTags raw here = .ok (Markup.braceTags raw here) := by
  have hrun := run_tagTurn here [] (List.suffix_refl raw)
  rw [offsetOf_self, Nat.add_zero, List.nil_append] at hrun
  exact hrun

end SvelteStories.Markup.Bytewise
