import SvelteStories.Proofs.Drafts
import SvelteStories.Proofs.Slices

/-!
# Reading the tags of a draft back

The readers of brace expressions, of attributes and of tags take exactly the piece that was written
for them and leave the rest, whatever the rest is.  A name needs a rest in which it does not go on,
and an attribute without a value one in which no value is assigned; both hold of the next attribute
and of the end of the tag.

## Key results

- `scan_append`: a brace expression ends at its own brace
- `readAttribute_render`, `readAttributes_render`: the attributes of a tag
- `readTag_openingTag`: an opening tag
-/

namespace SvelteStories.Markup

open Text

variable {cs rest name : List Char} {here : Nat}

/-- A name is taken up to a character that cannot stand in it. -/
theorem takeWhile_append_stop {p : Char → Bool} (hname : name.all p = true)
    (hrest : rest.head?.all (!p ·) = true) : (name ++ rest).takeWhile p = name := by
  rw [List.takeWhile_append_of_pos (List.all_eq_true.mp hname)]
  cases rest with
  | nil => rw [List.takeWhile_nil, List.append_nil]
  | cons c rest =>
    have hc : ¬ p c = true := by simpa using hrest
    rw [List.takeWhile_cons_of_neg hc, List.append_nil]

/-! ## Brace expressions -/

theorem ne_nil_of_scan {mode : Braces.Mode} {depth : Nat}
    (h : Braces.scan cs mode depth = some rest) : cs ≠ [] := by
  rintro rfl
  exact nomatch h

/-- What stands behind the closing brace does not matter to the scanner. -/
theorem scan_append {mode : Braces.Mode} {depth : Nat} (behind : List Char)
    (h : Braces.scan cs mode depth = some rest) :
    Braces.scan (cs ++ behind) mode depth = some (rest ++ behind) := by
  fun_induction Braces.scan cs mode depth with
  | case1 => cases h
  | case17 => cases h; rfl
  | case18 => cases h
  | _ =>
    -- the scanner looks at most one character ahead, and has not come to the end of `cs` yet
    rename_i ih
    have hbehind := ih h
    obtain ⟨next, ahead, rfl⟩ := List.exists_cons_of_ne_nil (ne_nil_of_scan h)
    simp only [List.cons_append] at hbehind ⊢
    rw [Braces.scan]
    all_goals first | exact hbehind | assumption | simp_all

/-- A brace expression ends at its own brace, whatever stands behind it. -/
theorem after?_append (h : Braces.after? cs = some []) (behind : List Char) :
    Braces.after? (cs ++ behind) = some behind :=
  scan_append behind h

/-- A written brace expression is split off, whatever is behind it. -/
theorem split?_braced {expression : List Char} (h : Braces.after? (braced expression) = some [])
    (behind : List Char) :
    Braces.split? (braced expression ++ behind) = some (expression, behind) := by
  have hinside : ((braced expression).drop 1).dropLast = expression := by
    simp [braced]
  rw [Braces.split?, after?_append h, Option.map_some, consumed_append_self, hinside]

/-! ## Attributes -/

/-- No attribute goes on in the rest: no name does, and no value is assigned there. -/
structure EndsAttribute (rest : List Char) : Prop where
  stop : rest.head?.all (!isAttributeNameChar ·) = true
  unassigned : (rest.dropWhile isTagBlank).head?.all (· != '=') = true

/-- A quoted value without braces and without the quote is passed over. -/
theorem seekQuote_append {quote : Char} {value : List Char} (opened : Nat) (hquote : quote ∉ value)
    (hbrace : '{' ∉ value) :
    seekQuote quote opened (value ++ quote :: rest) here = .ok (quote :: rest) := by
  induction value generalizing here with
  | nil => simp [seekQuote]
  | cons c value ih =>
    simp only [List.mem_cons, not_or] at hquote hbrace
    rw [List.cons_append, seekQuote, if_neg (Ne.symm hquote.1), if_neg (Ne.symm hbrace.1)]
    exact ih hquote.2 hbrace.2

/-- A value without braces is no expression. -/
theorem quotedValue_of_not_mem {value : List Char} (hbrace : '{' ∉ value) :
    quotedValue value = .static (String.ofList value) := by
  unfold quotedValue
  split
  · exact absurd List.mem_cons_self hbrace
  · rfl

/-- No value is read where none is assigned. -/
theorem readAssignment_boolean (hrest : EndsAttribute rest) :
    readAssignment rest here = .ok (.boolean, rest) := by
  have hunassigned := hrest.unassigned
  unfold readAssignment
  split
  · rename_i heq
    rw [heq] at hunassigned
    exact nomatch hunassigned
  · rfl

/-- A written quoted value is read back. -/
theorem readAssignment_quoted {value : List Char} (hquote : '"' ∉ value) (hbrace : '{' ∉ value) :
    readAssignment ('=' :: '"' :: (value ++ '"' :: rest)) here =
      .ok (.static (String.ofList value), rest) := by
  simp [readAssignment, readValue, isTagBlank, seekQuote_append _ hquote hbrace,
    quotedValue_of_not_mem hbrace, bind, Except.bind, pure, Except.pure]

/-- A written expression is read back as a value. -/
theorem readAssignment_assigned {expression : List Char} (h : IsExpression expression) :
    readAssignment ('=' :: (braced expression ++ rest)) here =
      .ok (.expression (String.ofList expression), rest) := by
  have hsplit := split?_braced h.whole rest
  simp only [braced, List.cons_append, List.append_assoc, List.nil_append] at hsplit
  simp [readAssignment, readValue, isTagBlank, braced, hsplit, trimmed, h.trimmed]

/-- A written expression that stands alone is read back as an attribute. -/
theorem readAttribute_lone {tag : String} {expression : List Char} (h : IsExpression expression) :
    readAttribute tag (braced expression ++ rest) here =
      .ok ((DraftAttribute.lone expression).placed here, rest) := by
  have hsplit := split?_braced h.whole rest
  have hconsumed := consumed_append_self (braced expression) rest
  simp only [braced, List.cons_append] at hsplit hconsumed
  simp only [readAttribute, braced, List.cons_append, hsplit, hconsumed, h.trimmed]
  rfl

/-- An attribute with a name takes the name and what is assigned to it. -/
theorem readAttribute_named {tag : String} {draft : DraftAttribute} {assigned : List Char}
    (hrender : draft.render = name ++ assigned) (hlabel : draft.name = String.ofList name)
    (hname : IsAttributeName name)
    (hstop : (assigned ++ rest).head?.all (!isAttributeNameChar ·) = true)
    (hvalue : readAssignment (assigned ++ rest) (here + byteLength name) =
      .ok (draft.value, rest)) :
    readAttribute tag (draft.render ++ rest) here = .ok (draft.placed here, rest) := by
  have hconsumed : consumed (name ++ (assigned ++ rest)) rest = name ++ assigned := by
    rw [← List.append_assoc, consumed_append_self]
  -- a name does not start with a brace, so that the attribute is none that stands alone
  have hbrace : ∀ tail, name ++ (assigned ++ rest) ≠ '{' :: tail := by
    intro tail heq
    obtain ⟨c, others, rfl⟩ := List.exists_cons_of_ne_nil hname.nonempty
    have hc : c = '{' := (List.cons.inj heq).1
    subst hc
    exact nomatch hname.chars
  have hempty : name.isEmpty = false := by simpa using hname.nonempty
  rw [DraftAttribute.placed, hlabel, hrender, List.append_assoc]
  unfold readAttribute
  split
  · exact absurd (by assumption) (hbrace _)
  · simp only [takeWhile_append_stop hname.chars hstop, hempty, Bool.false_eq_true, if_false,
      List.drop_left, hvalue, hconsumed, bind, Except.bind, pure, Except.pure]

/-- A written attribute is read back. -/
theorem readAttribute_render {tag : String} {draft : DraftAttribute} (h : draft.IsWellFormed)
    (hrest : EndsAttribute rest) :
    readAttribute tag (draft.render ++ rest) here = .ok (draft.placed here, rest) := by
  cases draft with
  | boolean name =>
    exact readAttribute_named (List.append_nil name).symm rfl h hrest.stop
      (readAssignment_boolean hrest)
  | quoted name value =>
    obtain ⟨hname, hquote, hbrace⟩ := h
    apply readAttribute_named (by rfl) rfl hname rfl
    rw [List.cons_append, List.cons_append, List.append_assoc]
    exact readAssignment_quoted hquote hbrace
  | assigned name expression =>
    obtain ⟨hname, hexpression⟩ := h
    apply readAttribute_named (by rfl) rfl hname rfl
    exact readAssignment_assigned hexpression
  | lone expression => exact readAttribute_lone h

/-- The first character of a written attribute is neither blank nor the end of a tag. -/
theorem head?_render {draft : DraftAttribute} (h : draft.IsWellFormed) :
    ∃ c others, draft.render = c :: others ∧ isTagBlank c = false ∧ c ≠ '>' ∧
      c ≠ '/' ∧ c ≠ '=' := by
  -- an attribute with a name starts with a character of the name
  have hnamed : ∀ name assigned : List Char, IsAttributeName name →
      ∃ c others, name ++ assigned = c :: others ∧
        isTagBlank c = false ∧ c ≠ '>' ∧ c ≠ '/' ∧ c ≠ '=' := by
    intro name assigned hname
    obtain ⟨c, others, rfl⟩ := List.exists_cons_of_ne_nil hname.nonempty
    have hc : isAttributeNameChar c = true := List.all_eq_true.mp hname.chars c List.mem_cons_self
    simp only [isAttributeNameChar, Bool.and_eq_true, Bool.not_eq_true', Bool.or_eq_false_iff,
      beq_eq_false_iff_ne] at hc
    exact ⟨c, others ++ assigned, rfl, hc.1, by simp_all, by simp_all, by simp_all⟩
  cases draft with
  | boolean name =>
    have hhead := hnamed name [] h
    rwa [List.append_nil] at hhead
  | quoted name value => exact hnamed name _ h.1
  | assigned name expression => exact hnamed name _ h.1
  | lone expression => exact ⟨'{', _, rfl, by decide, by decide, by decide, by decide⟩

/-- The end of a tag ends the attribute before it. -/
theorem endsAttribute_tagStop (closesItself : Bool) (rest : List Char) :
    EndsAttribute (tagStop closesItself ++ rest) := by
  cases closesItself <;> exact ⟨rfl, rfl⟩

/-- An attribute ends the one before it. -/
theorem endsAttribute_render {draft : DraftAttribute} (h : draft.IsWellFormed) (rest : List Char) :
    EndsAttribute (' ' :: (draft.render ++ rest)) := by
  obtain ⟨c, others, hrender, hblank, -, -, hc⟩ := head?_render h
  refine ⟨rfl, ?_⟩
  rw [hrender, List.dropWhile_cons_of_pos (by decide), List.cons_append,
    List.dropWhile_cons_of_neg (by simp [hblank])]
  simpa using hc

/-- No attribute is read where the tag ends. -/
theorem readAttributes_tagStop (tag : String) (opened : Nat) (closesItself : Bool)
    (rest : List Char) :
    readAttributes tag opened (tagStop closesItself ++ rest) here =
      .ok ([], ⟨closesItself, rest⟩) := by
  have hdrop : (tagStop closesItself ++ rest).dropWhile isTagBlank =
      if closesItself then '/' :: '>' :: rest else '>' :: rest := by
    cases closesItself <;> rfl
  unfold readAttributes
  cases closesItself <;> split <;> simp_all

/-- A written attribute is read in front of the others. -/
theorem readAttributes_cons {tag : String} {opened : Nat} {draft : DraftAttribute}
    {attrs : List Attribute} {tagEnd : TagEnd} (h : draft.IsWellFormed) (hrest : EndsAttribute rest)
    (hothers : readAttributes tag opened rest (here + 1 + byteLength draft.render) =
      .ok (attrs, tagEnd)) :
    readAttributes tag opened (' ' :: (draft.render ++ rest)) here =
      .ok (draft.placed (here + 1) :: attrs, tagEnd) := by
  obtain ⟨c, others, hrender, hblank, hclose, hslash, -⟩ := head?_render h
  have hdrop : (' ' :: (draft.render ++ rest)).dropWhile isTagBlank = draft.render ++ rest := by
    rw [List.dropWhile_cons_of_pos (by decide), hrender, List.cons_append,
      List.dropWhile_cons_of_neg (by simp [hblank])]
  -- the space in front of the attribute takes one byte
  have hplace :
    here + byteLength (consumed (' ' :: (draft.render ++ rest)) (draft.render ++ rest)) =
      here + 1 := by
    rw [← List.singleton_append, consumed_append_self]
    rfl
  have hread : readAttribute tag (draft.render ++ rest) (here + 1) =
      .ok (draft.placed (here + 1), rest) :=
    readAttribute_render h hrest
  unfold readAttributes
  split
  · simp_all
  · simp_all
  · simp_all
  · -- neither the end of the tag nor that of the text is here
    rw [hdrop] at *
    rw [hplace] at *
    split
    · rename_i hfault
      rw [hread] at hfault
      cases hfault
    · rename_i attr behind hattr
      rw [hread] at hattr
      obtain ⟨rfl, rfl⟩ := Prod.mk.inj (Except.ok.inj hattr)
      simp [DraftAttribute.placed, hothers, bind, Except.bind, pure, Except.pure]

/-- Written attributes are read back, up to the end of their tag. -/
theorem readAttributes_render {tag : String} {drafts : List DraftAttribute} (opened : Nat)
    (h : ∀ draft ∈ drafts, draft.IsWellFormed) (closesItself : Bool) (rest : List Char) :
    readAttributes tag opened (renderAttributes drafts ++ (tagStop closesItself ++ rest)) here =
      .ok (placedAttributes drafts here, ⟨closesItself, rest⟩) := by
  induction drafts generalizing here with
  | nil => exact readAttributes_tagStop tag opened closesItself rest
  | cons draft drafts ih =>
    obtain ⟨hdraft, hdrafts⟩ := List.forall_mem_cons.mp h
    -- behind an attribute there is a space or the end of the tag
    have hends : EndsAttribute (renderAttributes drafts ++ (tagStop closesItself ++ rest)) := by
      cases drafts with
      | nil => exact endsAttribute_tagStop closesItself rest
      | cons other others =>
        have hother := endsAttribute_render (hdrafts other List.mem_cons_self)
          (renderAttributes others ++ (tagStop closesItself ++ rest))
        simpa [renderAttributes] using hother
    have hothers := @ih (here + 1 + byteLength draft.render) hdrafts
    have hread := readAttributes_cons hdraft hends hothers
    simpa [renderAttributes, placedAttributes] using hread

/-! ## Tags -/

/-- The characters of a tag name take one byte each. -/
theorem utf8Size_of_isTagNameChar {c : Char} (h : isTagNameChar c = true) : c.utf8Size = 1 := by
  simp only [isTagNameChar, Bool.or_eq_true, beq_iff_eq] at h
  rcases h with (((h | rfl) | rfl) | rfl) | rfl
  · -- a letter or a digit stands in one of the three ranges
    have hranges : (decide (65 ≤ c.val ∧ c.val ≤ 90) ||
        (decide (97 ≤ c.val) && decide (c.val ≤ 122)) ||
        (decide (48 ≤ c.val) && decide (c.val ≤ 57))) = true := h
    rw [Char.utf8Size_eq_one_iff]
    grind
  all_goals rfl

theorem byteLength_of_isTagNameChar (h : name.all isTagNameChar = true) :
    byteLength name = name.length := by
  induction name with
  | nil => rfl
  | cons c name ih =>
    rw [List.all_cons, Bool.and_eq_true] at h
    rw [byteLength_cons, utf8Size_of_isTagNameChar h.1, ih h.2, List.length_cons, Nat.add_comm]

/-- A tag name starts with a letter. -/
theorem IsTagName.exists_cons (h : IsTagName name) :
    ∃ c others, c.isAlpha = true ∧ name = c :: others := by
  have hletter := h.letter
  cases name with
  | nil => exact nomatch hletter
  | cons c others => exact ⟨c, others, by simpa using hletter, rfl⟩

/-- What is a letter in lower case is one. -/
theorem isAlpha_of_toLower {c : Char} (h : c.toLower.isAlpha = true) : c.isAlpha = true := by
  unfold Char.toLower at h
  split at h
  · rename_i hc
    have hupper : c.isUpper = true := decide_eq_true hc
    exact Bool.or_eq_true_iff.mpr (.inl hupper)
  · exact h

/-- The name of a raw block has only letters. -/
theorem lower_of_isRawName (h : isRawName name = true) :
    (name.map Char.toLower).all Char.isAlpha = true ∧ name.map Char.toLower ≠ [] := by
  simp only [isRawName, Bool.or_eq_true, beq_iff_eq, ← String.toList_inj, String.toList_ofList] at h
  rcases h with h | h <;> rw [h] <;> exact ⟨by decide, by decide⟩

/-- The names of raw blocks are tag names. -/
theorem isTagName_of_isRawName (h : isRawName name = true) : IsTagName name := by
  obtain ⟨hlower, hne⟩ := lower_of_isRawName h
  have halpha : ∀ c ∈ name, c.isAlpha = true := by
    intro c hc
    exact isAlpha_of_toLower (List.all_eq_true.mp hlower _ (List.mem_map_of_mem hc))
  obtain ⟨c, others, rfl⟩ := List.exists_cons_of_ne_nil (by simpa using hne : name ≠ [])
  refine ⟨by simpa using halpha c List.mem_cons_self, List.all_eq_true.mpr ?_⟩
  intro c hc
  simp [isTagNameChar, Char.isAlphanum, halpha c hc]

/-- A written opening tag is read back. -/
theorem readTag_openingTag {attrs : List DraftAttribute} (hname : IsTagName name)
    (hattrs : ∀ attr ∈ attrs, attr.IsWellFormed) (closesItself : Bool) (rest : List Char) :
    readTag (openingTag name attrs closesItself ++ rest) here =
      .ok (name, placedAttributes attrs (here + 1 + byteLength name), ⟨closesItself, rest⟩) := by
  -- the name ends where a space or the end of the tag is
  have hstop : (renderAttributes attrs ++ (tagStop closesItself ++ rest)).head?.all
      (!isTagNameChar ·) = true := by
    cases attrs <;> cases closesItself <;> rfl
  have htake := takeWhile_append_stop hname.chars hstop
  have hread : ∀ place, readAttributes (String.ofList name) here
      (renderAttributes attrs ++ (tagStop closesItself ++ rest)) place =
        .ok (placedAttributes attrs place, ⟨closesItself, rest⟩) :=
    fun _ => readAttributes_render here hattrs closesItself rest
  rw [byteLength_of_isTagNameChar hname.chars]
  simp [readTag, openingTag, htake, Nat.add_comm 1 name.length, hread, Functor.map, Except.map]

end SvelteStories.Markup
