import SvelteStories.Markup.Snippet
import SvelteStories.Proofs.BytewiseBraces
import SvelteStories.Proofs.Origin

/-!
# Brace expressions that are read twice

The brace expressions of a run of text are passed over when the markup is read, and they are looked
for again when the raw code of an element is wanted; a quoted value is scanned up to its quote, and
then once more to see whether it is one brace expression.  The second scan starts in a part that was
cut out of the text.  Both find the same, since where a brace expression ends is decided by its own
characters.

`PassesOver` is a scan together with the brace expressions that it met.

## Key results

- `afterText_eq_ok_iff`, `seekQuote_eq_ok_iff`: the scans of the markup
- `PassesOver.cut`: a scan of what another scan has passed over
- `PassesOver.map_span_braceTags`: the brace expressions that are found again
- `rescan_agrees`: text nodes and quoted values
-/

namespace SvelteStories.Markup

open Text

variable {text cs rest raw before after : List Char} {stop : List Char → Bool} {here : Nat}
  {regions : List Span} {tag : BraceTag}

/-! ## Scans -/

/-- A scan stops where its condition holds or at the end, and passes over each brace expression as a
    whole.  The spans are those of the brace expressions that it has met. -/
inductive PassesOver (stop : List Char → Bool) :
    (here : Nat) → (cs : List Char) → (regions : List Span) → (rest : List Char) → Prop
  | atEnd {here : Nat} : PassesOver stop here [] [] []
  | atStop {here : Nat} {c : Char} {cs : List Char} (hstop : stop (c :: cs) = true) :
    PassesOver stop here (c :: cs) [] (c :: cs)
  | brace {here : Nat} {cs after rest : List Char} {regions : List Span}
    (hstop : stop ('{' :: cs) = false) (hafter : Braces.after? ('{' :: cs) = some after)
    (hrest : PassesOver stop (here + byteLength (consumed ('{' :: cs) after)) after regions rest) :
    PassesOver stop here ('{' :: cs)
      (⟨here, here + byteLength (consumed ('{' :: cs) after)⟩ :: regions) rest
  | char {here : Nat} {c : Char} {cs rest : List Char} {regions : List Span}
    (hstop : stop (c :: cs) = false) (hc : c ≠ '{')
    (hrest : PassesOver stop (here + c.utf8Size) cs regions rest) :
    PassesOver stop here (c :: cs) regions rest

/-- A brace that nothing closes ends the reading of text. -/
theorem afterText_of_none (hafter : Braces.after? ('{' :: cs) = none) :
    afterText ('{' :: cs) here = Fault.unbalancedBrace.raise here := by
  rw [afterText, if_pos rfl]
  split
  · rfl
  · rename_i heq
    cases hafter.symm.trans heq

/-- A brace expression in text is passed over as a whole. -/
theorem afterText_of_some (hafter : Braces.after? ('{' :: cs) = some after) :
    afterText ('{' :: cs) here =
      afterText after (here + byteLength (consumed ('{' :: cs) after)) := by
  rw [afterText, if_pos rfl]
  split
  · rename_i heq
    cases hafter.symm.trans heq
  · rename_i after' heq
    obtain rfl := Option.some.inj (hafter.symm.trans heq)
    rfl

/-- A run of text is passed over by a scan for markup. -/
theorem afterText_eq_ok_iff :
    afterText cs here = .ok rest ↔ ∃ regions, PassesOver startsMarkup here cs regions rest := by
  constructor
  · intro h
    -- each way in which reading goes on is one in which the scan does
    fun_induction afterText cs here with
    | case1 => cases h; exact ⟨[], .atEnd⟩
    | case2 => cases h
    | case3 here cs after hafter ih =>
      obtain ⟨regions, hrest⟩ := ih h
      exact ⟨_, .brace rfl hafter hrest⟩
    | case4 here c cs hc hmarkup => cases h; exact ⟨[], .atStop hmarkup⟩
    | case5 here c cs hc hmarkup ih =>
      obtain ⟨regions, hrest⟩ := ih h
      exact ⟨regions, .char (Bool.eq_false_iff.mpr hmarkup) hc hrest⟩
  · rintro ⟨regions, h⟩
    induction h with
    | atEnd => rw [afterText]
    | atStop hstop =>
      rw [afterText, if_neg, if_pos hstop]
      rintro rfl
      cases hstop
    | brace hstop hafter hrest ih => rw [afterText_of_some hafter, ih]
    | char hstop hc hrest ih => rw [afterText, if_neg hc, hstop, if_neg Bool.false_ne_true, ih]

/-- A quoted value is passed over by a scan for its quote, which stops at one. -/
theorem exists_of_seekQuote {quote : Char} {opened : Nat}
    (h : seekQuote quote opened cs here = .ok rest) :
    ∃ regions tail, rest = quote :: tail ∧
      PassesOver (startsWith [quote]) here cs regions rest := by
  -- the scan stops exactly at the quote
  have hquote (c : Char) (cs : List Char) : startsWith [quote] (c :: cs) = (quote == c) := by
    rw [startsWith, startsWith, Bool.and_true]
  fun_induction seekQuote quote opened cs here with
  | case1 => cases h
  | case2 here cs => cases h; exact ⟨[], cs, rfl, .atStop (by rw [hquote, beq_self_eq_true])⟩
  | case3 => cases h
  | case4 here cs after hc hafter ih =>
    obtain ⟨regions, tail, htail, hrest⟩ := ih h
    have hstop : (quote == '{') = false := beq_eq_false_iff_ne.mpr (Ne.symm hc)
    exact ⟨_, tail, htail, .brace (by rw [hquote, hstop]) hafter hrest⟩
  | case5 here c cs hc hbrace ih =>
    obtain ⟨regions, tail, htail, hrest⟩ := ih h
    have hstop : (quote == c) = false := beq_eq_false_iff_ne.mpr (Ne.symm hc)
    exact ⟨regions, tail, htail, .char (by rw [hquote, hstop]) hbrace hrest⟩

/-- What a scan has passed over, cut out of the text, is scanned to its end, and the same brace
    expressions are met. -/
theorem PassesOver.cut (h : PassesOver stop here cs regions rest) :
    ∃ raw, cs = raw ++ rest ∧ PassesOver (fun _ => false) here raw regions [] := by
  induction h with
  | atEnd => exact ⟨[], rfl, .atEnd⟩
  | atStop hstop => exact ⟨[], rfl, .atEnd⟩
  | @brace here _ _ rest regions hstop hafter hrest ih =>
    obtain ⟨raw, rfl, hraw⟩ := ih
    obtain ⟨inside, rfl, hother⟩ := Braces.exists_of_after?_eq_some hafter
    -- a brace expression ends in the same place, whatever follows it
    have hpiece (other : List Char) :
        consumed ('{' :: (inside ++ '}' :: other)) other = '{' :: inside ++ ['}'] := by
      rw [← consumed_append_self ('{' :: inside ++ ['}']) other]
      simp
    have hagain : PassesOver (fun _ => false) here ('{' :: (inside ++ '}' :: raw))
        (⟨here, here + byteLength (consumed ('{' :: (inside ++ '}' :: raw)) raw)⟩ :: regions) [] :=
      .brace rfl (hother raw) (by rw [hpiece, ← hpiece (raw ++ rest)]; exact hraw)
    rw [hpiece, ← hpiece (raw ++ rest)] at hagain
    exact ⟨'{' :: (inside ++ '}' :: raw), by simp, hagain⟩
  | char hstop hc hrest ih =>
    obtain ⟨raw, rfl, hraw⟩ := ih
    exact ⟨_ :: raw, rfl, .char rfl hc hraw⟩

/-! ## Brace tags -/

/-- From a brace on that nothing closes there are no brace tags. -/
theorem braceTags_of_none (hafter : Braces.after? ('{' :: cs) = none) :
    braceTags ('{' :: cs) here = [] := by
  rw [braceTags, if_pos rfl]
  split
  · rfl
  · rename_i heq
    cases hafter.symm.trans heq

/-- A brace expression is the first of the brace tags, and the others are behind it. -/
theorem braceTags_of_some (hafter : Braces.after? ('{' :: cs) = some after) :
    braceTags ('{' :: cs) here =
      ⟨consumed ('{' :: cs) after, ⟨here, here + byteLength (consumed ('{' :: cs) after)⟩⟩ ::
        braceTags after (here + byteLength (consumed ('{' :: cs) after)) := by
  rw [braceTags, if_pos rfl]
  split
  · rename_i heq
    cases hafter.symm.trans heq
  · rename_i after' heq
    obtain rfl := Option.some.inj (hafter.symm.trans heq)
    rfl

/-- The brace tags of a text that is scanned to its end are the brace expressions that are met. -/
theorem PassesOver.map_span_braceTags (h : PassesOver stop here raw regions []) :
    (braceTags raw here).map BraceTag.span = regions := by
  generalize hrest : ([] : List Char) = rest at h
  induction h with
  | atEnd => rw [braceTags, List.map_nil]
  | atStop => cases hrest
  | brace hstop hafter _ ih => rw [braceTags_of_some hafter, List.map_cons, ih hrest]
  | char hstop hc _ ih => rw [braceTags, if_neg hc, ih hrest]

/-- A brace tag is a part of the text, at its span. -/
theorem exists_of_mem_braceTags (htag : tag ∈ braceTags raw here) :
    ∃ before after, raw = before ++ (tag.text ++ after) ∧
      tag.span.start = here + byteLength before ∧
      tag.span.stop = tag.span.start + byteLength tag.text := by
  fun_induction braceTags raw here with
  | case1 => exact absurd htag List.not_mem_nil
  | case2 => exact absurd htag List.not_mem_nil
  | case3 here rest after hafter piece stop ih =>
    -- the first tag is the piece in front, and the others are found behind it
    have hsplit : '{' :: rest = piece ++ after := (consumed_append (suffix_of_scan hafter)).symm
    rcases List.mem_cons.mp htag with rfl | htag
    · exact ⟨[], after, hsplit, rfl, rfl⟩
    · obtain ⟨before, behind, rfl, hstart, hstop⟩ := ih htag
      refine ⟨piece ++ before, behind, by rw [hsplit, List.append_assoc], ?_, hstop⟩
      rw [hstart, byteLength_append, Nat.add_assoc]
  | case4 here c rest hc ih =>
    obtain ⟨before, behind, rfl, hstart, hstop⟩ := ih htag
    exact ⟨c :: before, behind, rfl, by rw [hstart, byteLength_cons, Nat.add_assoc], hstop⟩

/-- A brace tag is inside the text that it was found in. -/
theorem bounds_of_mem_braceTags (htag : tag ∈ braceTags raw here) :
    here ≤ tag.span.start ∧ tag.span.stop ≤ here + byteLength raw := by
  obtain ⟨before, after, rfl, hstart, hstop⟩ := exists_of_mem_braceTags htag
  simp only [byteLength_append]
  omega

/-- A brace tag is not empty. -/
theorem start_lt_stop_of_mem_braceTags (htag : tag ∈ braceTags raw here) :
    tag.span.start < tag.span.stop := by
  fun_induction braceTags raw here with
  | case1 => exact absurd htag List.not_mem_nil
  | case2 => exact absurd htag List.not_mem_nil
  | case3 here rest after hafter piece stop ih =>
    rcases List.mem_cons.mp htag with rfl | htag
    · have hsplit : piece ++ after = '{' :: rest := consumed_append (suffix_of_scan hafter)
      -- the scan gets ahead, so that the piece has a first character
      have hshorter := Braces.length_lt_of_after? hafter
      obtain ⟨c, inside, hpiece⟩ : ∃ c inside, piece = c :: inside := by
        refine List.exists_cons_of_ne_nil fun hnil => ?_
        rw [hnil, List.nil_append] at hsplit
        exact absurd (congrArg List.length hsplit) (Nat.ne_of_lt hshorter)
      have hpos := c.utf8Size_pos
      show here < here + byteLength piece
      rw [hpiece, byteLength_cons]
      omega
    · exact ih htag
  | case4 here c rest hc ih => exact ih htag

/-- Brace tags stand one behind the other. -/
theorem pairwise_braceTags (raw : List Char) (here : Nat) :
    (braceTags raw here).Pairwise fun first second => first.span.stop ≤ second.span.start := by
  fun_induction braceTags raw here with
  | case1 => exact .nil
  | case2 => exact .nil
  | case3 here rest after hafter piece stop ih =>
    exact List.pairwise_cons.mpr ⟨fun other hother => (bounds_of_mem_braceTags hother).1, ih⟩
  | case4 here c rest hc ih => exact ih

/-- A brace tag is what its span selects in the text around the run of text. -/
theorem slice?_of_mem_braceTags {span : Span} (hraw : span.slice? text = some raw)
    (htag : tag ∈ braceTags raw span.start) : tag.span.slice? text = some tag.text := by
  obtain ⟨before, after, rfl, hstart, -⟩ := slice?_eq_some.mp hraw
  obtain ⟨inner, behind, rfl, htagStart, htagStop⟩ := exists_of_mem_braceTags htag
  refine slice?_eq_some.mpr ⟨before ++ inner, behind ++ after, by simp, ?_, ?_⟩
  · rw [htagStart, hstart, byteLength_append]
  · rw [htagStop, htagStart, hstart, byteLength_append]

/-- A place that was passed over, but not as a character of its own, stands in a brace expression
    that is met. -/
theorem PassesOver.exists_region_of_append (h : PassesOver stop here cs regions rest)
    {place : List Char} (hsplit : cs = before ++ place) (hlength : rest.length < place.length)
    (hplace : stop place = true ∨ place.head? = some '{') :
    ∃ span ∈ regions, span.start ≤ here + byteLength before ∧
      here + byteLength before < span.stop := by
  induction h generalizing before with
  | atEnd =>
    obtain rfl := (List.append_eq_nil_iff.mp hsplit.symm).2
    exact absurd hlength (Nat.lt_irrefl _)
  | atStop =>
    rw [hsplit, List.length_append] at hlength
    omega
  | @brace here cs behind rest regions hstop hafter _ ih =>
    have hjoin := consumed_append (suffix_of_scan hafter)
    generalize hpiece : consumed ('{' :: cs) behind = piece at hjoin ih ⊢
    rw [hsplit] at hjoin
    -- the place is inside the first brace expression or behind it
    by_cases hlt : byteLength before < byteLength piece
    · exact ⟨_, List.mem_cons_self, Nat.le_add_right _ _, Nat.add_lt_add_left hlt here⟩
    · -- the place stands behind the first brace expression
      have hbefore : piece <+: before := by
        rcases List.append_eq_append_iff.mp hjoin with ⟨between, rfl, -⟩ | ⟨inside, rfl, -⟩
        · exact List.prefix_append piece between
        · cases inside with
          | nil => simp
          | cons d inside =>
            have hpos := d.utf8Size_pos
            rw [byteLength_append, byteLength_cons] at hlt
            omega
      obtain ⟨between, rfl⟩ := hbefore
      rw [List.append_assoc] at hjoin
      obtain ⟨span, hmem, hspan⟩ := ih (List.append_cancel_left hjoin) hlength
      rw [byteLength_append, ← Nat.add_assoc]
      exact ⟨span, List.mem_cons_of_mem _ hmem, hspan⟩
  | @char here c cs rest regions hstop hc _ ih =>
    cases before with
    | nil =>
      obtain rfl : c :: cs = place := hsplit
      -- the scan passed over this character, so that it is neither a stop nor a brace
      rcases hplace with hplace | hplace
      · cases hstop.symm.trans hplace
      · exact absurd (Option.some.inj hplace) hc
    | cons d before =>
      obtain ⟨rfl, hcs⟩ := List.cons.inj hsplit
      obtain ⟨span, hmem, hspan⟩ := ih hcs hlength
      rw [Nat.add_assoc] at hspan
      exact ⟨span, hmem, hspan⟩

/-- Each brace of a text that is scanned to its end stands in a brace expression that is met. -/
theorem PassesOver.exists_region (h : PassesOver stop here raw regions [])
    (hbrace : raw = before ++ '{' :: after) :
    ∃ span ∈ regions, span.start ≤ here + byteLength before ∧
      here + byteLength before < span.stop :=
  h.exists_region_of_append hbrace (Nat.succ_pos _) (.inr rfl)

/-- Where tags stand one behind the other, a place stands in one of them only. -/
theorem eq_of_mem_of_pairwise {tags : List BraceTag} {first second : BraceTag} {offset : Nat}
    (htags : tags.Pairwise fun first second => first.span.stop ≤ second.span.start)
    (hfirst : first ∈ tags) (hsecond : second ∈ tags)
    (hinFirst : first.span.start ≤ offset ∧ offset < first.span.stop)
    (hinSecond : second.span.start ≤ offset ∧ offset < second.span.stop) : first = second := by
  induction htags with
  | nil => exact absurd hfirst List.not_mem_nil
  | cons hbehind _ ih =>
    -- two tags are one behind the other, and the offset cannot be in both
    rcases List.mem_cons.mp hfirst with rfl | hfirstTail
    · rcases List.mem_cons.mp hsecond with rfl | hsecondTail
      · rfl
      · have := hbehind second hsecondTail
        omega
    · rcases List.mem_cons.mp hsecond with rfl | hsecondTail
      · have := hbehind first hfirstTail
        omega
      · exact ih hfirstTail hsecondTail

/-- Each brace of a text that is scanned to its end stands in exactly one brace tag. -/
theorem PassesOver.existsUnique_braceTag (h : PassesOver stop here raw regions [])
    (hbrace : raw = before ++ '{' :: after) :
    ∃! tag, tag ∈ braceTags raw here ∧ tag.span.start ≤ here + byteLength before ∧
      here + byteLength before < tag.span.stop := by
  obtain ⟨span, hmem, hspan⟩ := h.exists_region hbrace
  rw [← h.map_span_braceTags] at hmem
  obtain ⟨tag, htag, rfl⟩ := List.mem_map.mp hmem
  exact ⟨tag, ⟨htag, hspan⟩, fun other hother =>
    eq_of_mem_of_pairwise (pairwise_braceTags raw here) hother.1 htag hother.2 hspan⟩

/-! ## Text nodes -/

/-- What is found when a run of text is looked through again for brace expressions, of which the
    markup has passed over the given ones. -/
structure Rescan (text : List Char) (raw : List Char) (span : Span)
    (regions : List Span) : Prop where
  /-- They are found again. -/
  found : (braceTags raw span.start).map BraceTag.span = regions
  /-- Each of them is what its span selects in the file. -/
  selected : ∀ tag ∈ braceTags raw span.start, tag.span.slice? text = some tag.text
  ordered : (braceTags raw span.start).Pairwise fun first second => first.span.stop ≤
    second.span.start
  inside : ∀ tag ∈ braceTags raw span.start,
    span.start ≤ tag.span.start ∧ tag.span.start < tag.span.stop ∧ tag.span.stop ≤ span.stop
  /-- Every brace of the run of text stands in exactly one of them. -/
  covered : ∀ offset, byteAt? raw offset = some '{' →
    ∃! tag, tag ∈ braceTags raw span.start ∧ tag.span.start ≤ span.start + offset ∧
      span.start + offset < tag.span.stop
  /-- The search comes to the end: no brace is met that nothing closes. -/
  complete : PassesOver (fun _ => false) span.start raw regions []

/-- A run of text that was read is passed over by a scan for markup. -/
theorem afterText_of_readLexeme {data : String} {span : Span} (hne : cs ≠ [])
    (h : readLexeme cs here = .ok (.text data span, rest)) :
    afterText cs here = .ok rest ∧ data.toList = consumed cs rest ∧
      span = spanFrom cs rest here := by
  -- text was read, so that no markup starts here
  have hmarkup : startsMarkup cs = false := by
    have hkind := (piece_of_readLexeme hne h).2
    rwa [eq_comm, Lexeme.isText, Bool.not_eq_true'] at hkind
  unfold readLexeme at h
  rw [hmarkup, if_neg Bool.false_ne_true] at h
  obtain ⟨rest', hrest, h⟩ := exists_of_bind_eq_ok h
  obtain ⟨hlexeme, rfl⟩ := Prod.mk.inj (Except.ok.inj h)
  obtain ⟨hdata, hspan⟩ := Lexeme.text.inj hlexeme
  exact ⟨hrest, by rw [← hdata, String.toList_ofList], hspan.symm⟩

/-- A run of text that was cut out of what the markup has passed over is looked through again. -/
theorem PassesOver.rescan {span : Span} (h : PassesOver stop span.start cs regions rest)
    (hrest : rest <:+ cs) (hslice : span.slice? text = some (consumed cs rest)) :
    Rescan text (consumed cs rest) span regions := by
  obtain ⟨raw, rfl, hraw⟩ := h.cut
  rw [consumed_append_self] at hslice ⊢
  have hlength := stop_of_slice? hslice
  -- the tags that are found again are the brace expressions of the first scan
  refine ⟨hraw.map_span_braceTags, fun tag => slice?_of_mem_braceTags hslice,
    pairwise_braceTags raw span.start, fun tag htag => ?_, fun offset hbyte => ?_, hraw⟩
  · obtain ⟨hstart, hstop⟩ := bounds_of_mem_braceTags htag
    exact ⟨hstart, start_lt_stop_of_mem_braceTags htag, hlength ▸ hstop⟩
  · obtain ⟨after, ⟨before, hbefore⟩, rfl⟩ := exists_of_byteAt? (by decide) hbyte
    rw [← hbefore, offsetOf_append, hbefore]
    exact hraw.existsUnique_braceTag hbefore.symm

/-! ## Quoted values -/

/-- A quoted value is an expression exactly if its scan has met one brace expression that is all of
    it. -/
theorem PassesOver.isExpression_iff (h : PassesOver (fun _ => false) here raw regions []) :
    (∃ expression, quotedValue raw = .expression expression) ↔
      regions = [⟨here, here + byteLength raw⟩] := by
  have hfound := h.map_span_braceTags
  cases h with
  -- an empty value has no brace expression
  | atEnd =>
    refine iff_of_false ?_ (List.cons_ne_nil _ _).symm
    rintro ⟨expression, heq⟩
    cases heq
  | @char _ c cs _ _ _ hc _ =>
    refine iff_of_false ?_ fun hwhole => ?_
    · rintro ⟨expression, heq⟩
      unfold quotedValue at heq
      split at heq
      · rename_i heq'
        exact hc (List.cons.inj heq').1
      · cases heq
    · -- a brace expression does not start before the first character
      rw [braceTags, if_neg hc, hwhole] at hfound
      obtain ⟨tag, htag, hspan⟩ := List.mem_map.mp (hfound ▸ List.mem_singleton_self _)
      have hstart := (bounds_of_mem_braceTags htag).1
      have hpos := c.utf8Size_pos
      rw [hspan] at hstart
      dsimp only at hstart
      omega
  | @brace _ cs after _ regions _ hafter hrest =>
    have hsplit := consumed_append (suffix_of_scan hafter)
    -- the value is an expression if nothing is left behind its first brace expression
    cases after with
    | nil =>
      rw [List.append_nil] at hsplit
      cases hrest
      refine iff_of_true ⟨trimmed ((consumed ('{' :: cs) []).drop 1).dropLast, ?_⟩ (by rw [hsplit])
      rw [quotedValue, Braces.split?, hafter, Option.map_some]
    | cons c after =>
      have hpos := c.utf8Size_pos
      refine iff_of_false ?_ fun hwhole => ?_
      · rintro ⟨expression, heq⟩
        rw [quotedValue, Braces.split?, hafter, Option.map_some] at heq
        cases heq
      · -- something is left behind the brace expression
        have hlength := congrArg byteLength hsplit
        have hstop := congrArg Span.stop (List.cons.inj hwhole).1
        rw [byteLength_append, byteLength_cons] at hlength
        dsimp only at hstop
        omega

/-- What is scanned for the second time is found as it was the first time. -/
theorem rescan_agrees :
    -- where a brace expression ends is decided by its bytes, in whatever text they stand
    (∀ (text text' : List Char) (start start' stop : Nat), byteAt? text start = some '{' →
      Bytewise.braceEnd? text start = .ok (some stop) →
      (∀ k, start + k < stop → (utf8 text')[start' + k]? = (utf8 text)[start + k]?) →
      Bytewise.braceEnd? text' start' = .ok (some (start' + (stop - start)))) ∧
    -- a text node was passed over by one scan, and what that scan has met is found in it
    (∀ text nodes path data span, parse text = .ok nodes →
      nodeAt? nodes path = some (.text data span) →
      ∃ cs rest regions, cs <:+ text ∧ span.start = offsetOf text cs ∧
        readLexeme cs span.start = .ok (.text data span, rest) ∧
        PassesOver startsMarkup span.start cs regions rest ∧ Rescan text data.toList span regions) ∧
    -- a quoted value is an expression if its scan has met one brace expression that is all of it
    (∀ quote body here value rest, quote = '"' ∨ quote = '\'' →
      readValue (quote :: body) here = .ok (value, rest) →
      ∃ raw regions, body = raw ++ quote :: rest ∧
        PassesOver (startsWith [quote]) (here + 1) body regions (quote :: rest) ∧
        ((∃ expression, value = .expression expression) ↔
          regions = [⟨here + 1, here + 1 + byteLength raw⟩])) := by
  refine ⟨fun text text' start start' stop => Bytewise.braceEnd?_congr, ?_, ?_⟩
  · intro text nodes path data span hparse hnode
    obtain ⟨lexemes, hmem, hlexemes⟩ := comesFrom_of_parse hparse (among_of_nodeAt? hnode)
    obtain ⟨cs, rest, hcs, hne, hstart, hread⟩ := hlexemes _ hmem
    have hstart : span.start = offsetOf text cs := hstart
    rw [← hstart] at hread
    obtain ⟨hafter, hdata, hspan⟩ := afterText_of_readLexeme hne hread
    obtain ⟨regions, hpasses⟩ := afterText_eq_ok_iff.mp hafter
    refine ⟨cs, rest, regions, hcs, hstart, hread, hpasses, ?_⟩
    rw [hdata]
    have hrest := suffix_of_afterText hafter
    rw [hstart, spanFrom_offsetOf hrest hcs] at hspan
    exact hpasses.rescan hrest (hspan ▸ slice?_offsetOf hrest hcs)
  · intro quote body here value rest hquote hread
    have hbrace : quote ≠ '{' := by rcases hquote with rfl | rfl <;> decide
    simp only [readValue, hquote, if_true] at hread
    obtain ⟨closing, hseek, hread⟩ := exists_of_bind_eq_ok hread
    obtain ⟨rfl, rfl⟩ := Prod.mk.inj (Except.ok.inj hread)
    obtain ⟨regions, tail, rfl, hpasses⟩ := exists_of_seekQuote hseek
    obtain ⟨raw, rfl, hraw⟩ := hpasses.cut
    rw [consumed_append_self]
    exact ⟨raw, regions, rfl, hpasses, hraw.isExpression_iff⟩

/-- An element with a run of text that has three brace expressions, one with a brace in a string. -/
def bracedMarkup : List Char :=
  "<p>\x7b#if a\x7dx\x7b'\x7d'\x7d\x7b/if\x7d</p>".toList

/-- Whether a node is a run of text at a span that has a number of brace expressions. -/
def isBracedText (span : Span) (count : Nat) : Node → Bool
  | .text data here => here == span && (braceTags data.toList span.start).length == count
  | _ => false

/-- A brace expression with a brace in a string. -/
def bracedString : List Char :=
  "\x7b'\x7d'\x7d".toList

/-- Three brace expressions are found in a run of text, and one that has a brace in a string is read
    as one. -/
theorem rescan_bracedMarkup :
    Bytewise.braceEnd? ('a' :: bracedString ++ ['b']) 1 = .ok (some 6) ∧
    (∃ nodes data regions, parse bracedMarkup = .ok nodes ∧
      nodeAt? nodes [0, 0] = some (.text data ⟨3, 21⟩) ∧
      Rescan bracedMarkup data.toList ⟨3, 21⟩ regions ∧ regions.length = 3) ∧
    PassesOver (startsWith ['"']) 1 (bracedString ++ ['"']) [⟨1, 6⟩] ['"'] := by
  refine ⟨?_, ?_, ?_⟩
  · -- the end of the braces is the same in any text that has the same bytes there
    have hstop : Bytewise.braceEnd? bracedString 0 = .ok (some 5) := by decide +kernel
    have hsame : ∀ k, k < 5 → (utf8 ('a' :: bracedString ++ ['b']))[1 + k]? =
        (utf8 bracedString)[k]? := by
      decide
    refine rescan_agrees.1 bracedString _ 0 1 5 (by decide) hstop fun k hk => ?_
    rw [Nat.zero_add] at hk ⊢
    exact hsame k hk
  · have hcheck : (parse bracedMarkup).toOption.any
        (fun nodes => (nodeAt? nodes [0, 0]).any (isBracedText ⟨3, 21⟩ 3)) = true := by
          decide +kernel
    obtain ⟨nodes, hparse, hnodes⟩ := exists_ok_of_any hcheck
    obtain ⟨node, hnode, htext⟩ := (Option.any_eq_true _ _).mp hnodes
    cases node with
    | text data here =>
      obtain ⟨hspan, hlength⟩ := Bool.and_eq_true_iff.mp htext
      obtain rfl := beq_iff_eq.mp hspan
      obtain ⟨-, -, regions, -, -, -, -, hrescan⟩ := rescan_agrees.2.1 _ _ _ _ _ hparse hnode
      refine ⟨nodes, data, regions, hparse, hnode, hrescan, ?_⟩
      rw [← hrescan.found, List.length_map, beq_iff_eq.mp hlength]
    | _ => cases htext
  · have hvalue : readValue ('"' :: (bracedString ++ ['"'])) 0 =
        .ok (.expression "'\x7d'", []) := by decide +kernel
    obtain ⟨raw, regions, hbody, hpasses, hexpression⟩ :=
      rescan_agrees.2.2 _ _ _ _ _ (.inl rfl) hvalue
    obtain rfl := List.append_cancel_right hbody
    obtain rfl := hexpression.mp ⟨_, rfl⟩
    exact hpasses

end SvelteStories.Markup
