import SvelteStories.Proofs.MarkupSafety
import SvelteStories.Proofs.RawBlocks

/-!
# The values of attributes

An attribute is written as a brace expression that stands alone, as a name alone, or as a name and a
value behind an equals sign: between quotes, as a brace expression, or bare.  What it was read as is
said here in terms of what is written.  A quoted value is told apart from an expression only by
whether it is one brace expression as a whole, so that a value with brace expressions among other
text is static, and such a value may be the name of a story.

## Key results

- `exists_of_readAttribute`: what is written for an attribute that was read
- `isWritten_of_parse`: the attributes of all nodes of a forest
- `attributes_of_parse`: these, and the names of the stories
-/

namespace SvelteStories.Text

/-- A search that finds nothing meets no place where its condition holds. -/
theorem stop_of_seek?_eq_none {stop : List Char → Bool} {text tail : List Char}
    (h : seek? stop text = none)
    (htail : tail <:+ text) (hne : tail ≠ []) : stop tail = false := by
  induction text with
  | nil => exact absurd (List.suffix_nil.mp htail) hne
  | cons c text ih =>
    rw [seek?] at h
    split at h
    · cases h
    · -- the search goes on, so that the condition does not hold here
      rename_i hstop
      rcases List.suffix_cons_iff.mp htail with rfl | htail
      · exact Bool.eq_false_iff.mpr hstop
      · exact ih h htail

end SvelteStories.Text

namespace SvelteStories.Markup

open Text

variable {text cs rest name value inside : List Char} {nodes : List Node} {node : Node} {here : Nat}

/-! ## What is written -/

/-- A text is one brace expression, with the given inside. -/
structure IsBraced (inside value : List Char) : Prop where
  spelled : value = braced inside
  whole : Braces.after? value = some []

/-- A brace expression has one inside. -/
theorem IsBraced.unique {inside' : List Char} (h : IsBraced inside value)
    (h' : IsBraced inside' value) :
    inside = inside' := by
  have hspelled : braced inside = braced inside' := h.spelled.symm.trans h'.spelled
  exact List.append_cancel_right (List.cons.inj hspelled).2

/-- What is written for an attribute. -/
inductive Written
  | nothing
  | quoted (quote : Char) (value : List Char)
  | braced (value : List Char)
  | bare (value : List Char)

/-- The written value: what stands between the quotes, or all that is assigned. -/
def Written.value? : Written → Option (List Char)
  | nothing => none
  | quoted _ value | braced value | bare value => some value

/-- How a value is written, in front of the rest of the text. -/
inductive Written.Spells (rest : List Char) : Written → (piece : List Char) → Prop
  /-- Between two quotes.  A quote inside a brace expression does not end the value. -/
  | quoted {quote : Char} {value : List Char} (hquote : quote = '"' ∨ quote = '\'')
    (hvalue : ∃ here regions,
      PassesOver (startsWith [quote]) here (value ++ quote :: rest) regions (quote :: rest)) :
    Spells rest (.quoted quote value) (quote :: (value ++ [quote]))
  | braced {inside value : List Char} (h : IsBraced inside value) :
      Spells rest (.braced value) value
  /-- Up to white space or the end of the tag. -/
  | bare {value : List Char} (hstart : ∀ c ∈ value.head?, c ≠ '{' ∧ c ≠ '"' ∧ c ≠ '\'')
    (hvalue : ∀ tail, tail <:+ value → tail ≠ [] → endsBareValue (tail ++ rest) = false)
    (hrest : endsBareValue rest = true) : Spells rest (.bare value) value

/-- How an attribute is written, in front of the rest of the text. -/
inductive Written.SpellsAttribute (name : String) (rest : List Char) :
    Written → (piece : List Char) → Prop
  | alone {inside value : List Char} (h : IsBraced inside value)
      (hname : name = loneName (trim inside)) :
    SpellsAttribute name rest (.braced value) value
  | nothing (hname : IsAttributeName name.toList) (hrest : EndsAttribute rest) :
    SpellsAttribute name rest .nothing name.toList
  | assigned {written : Written} {before behind piece : List Char}
      (hname : IsAttributeName name.toList)
    (hbefore : before.all isTagBlank = true) (hbehind : behind.all isTagBlank = true)
    (h : written.Spells rest piece) :
    SpellsAttribute name rest written (name.toList ++ (before ++ '=' :: (behind ++ piece)))

/-- The value that is read off what is written. -/
inductive Written.Means : Written → AttributeValue → Prop
  | boolean : Means .nothing .boolean
  | expression {written : Written} {value inside : List Char} (hvalue : written.value? = some value)
    (h : IsBraced inside value) : Means written (.expression (trimmed inside))
  | static {written : Written} {value : List Char} (hvalue : written.value? = some value)
    (h : ∀ inside, ¬ IsBraced inside value) : Means written (.static (String.ofList value))

namespace Written.Means

variable {written : Written} {read : AttributeValue}

/-- A value is read as none exactly if none was written. -/
theorem boolean_iff (h : written.Means read) : read = .boolean ↔ written.value? = none := by
  cases h with
  | boolean => exact iff_of_true rfl rfl
  | expression hvalue h => exact iff_of_false nofun (by rw [hvalue]; nofun)
  | static hvalue h => exact iff_of_false nofun (by rw [hvalue]; nofun)

/-- A value is read as an expression exactly if what was written is one brace expression. -/
theorem expression_iff (h : written.Means read) (e : String) : read = .expression e ↔
    ∃ value inside, written.value? = some value ∧ IsBraced inside value ∧ e = trimmed inside := by
  cases h with
  | boolean => exact iff_of_false nofun nofun
  | @expression _ value inside hvalue h =>
    rw [AttributeValue.expression.injEq]
    constructor
    · rintro rfl
      exact ⟨value, inside, hvalue, h, rfl⟩
    · rintro ⟨value', inside', hvalue', h', rfl⟩
      -- the written value is one, and so is its inside
      obtain rfl := Option.some.inj (hvalue.symm.trans hvalue')
      rw [h.unique h']
  | static hvalue h =>
    refine iff_of_false nofun ?_
    rintro ⟨value', inside, hvalue', h', -⟩
    obtain rfl := Option.some.inj (hvalue.symm.trans hvalue')
    exact h inside h'

/-- A value is read as static exactly if what was written is not one brace expression. -/
theorem static_iff (h : written.Means read) (v : String) : read = .static v ↔
    written.value? = some v.toList ∧ ∀ inside, ¬ IsBraced inside v.toList := by
  cases h with
  | boolean => exact iff_of_false nofun nofun
  | @expression _ value inside hvalue h =>
    refine iff_of_false nofun ?_
    rintro ⟨hvalue', hplain⟩
    rw [hvalue, Option.some_inj] at hvalue'
    exact hplain inside (hvalue' ▸ h)
  | @static _ value hvalue h =>
    rw [AttributeValue.static.injEq, hvalue, Option.some_inj]
    constructor
    · rintro rfl
      rw [String.toList_ofList]
      exact ⟨rfl, h⟩
    · rintro ⟨rfl, -⟩
      exact String.ofList_toList

end Written.Means

/-! ## Values -/

/-- Splitting finds the brace expression that the text starts with. -/
theorem split?_eq_some_iff : Braces.split? ('{' :: cs) = some (inside, rest) ↔
    '{' :: cs = braced inside ++ rest ∧ Braces.after? (braced inside) = some [] := by
  constructor
  · intro h
    obtain ⟨rest', hafter, heq⟩ := Option.map_eq_some_iff.mp h
    obtain ⟨rfl, rfl⟩ := Prod.mk.inj heq
    obtain ⟨inside, rfl, hother⟩ := Braces.exists_of_after?_eq_some hafter
    have hjoin : '{' :: (inside ++ '}' :: rest') = braced inside ++ rest' := by simp [braced]
    -- the inside is what the brace expression has between its braces
    have hinside : ((consumed ('{' :: (inside ++ '}' :: rest')) rest').drop 1).dropLast =
        inside := by
      rw [hjoin, consumed_append_self]
      simp [braced]
    rw [hinside]
    exact ⟨hjoin, hother []⟩
  · rintro ⟨hspelled, hwhole⟩
    rw [hspelled]
    exact split?_braced hwhole rest

/-- A quoted value is read as an expression if it is one brace expression. -/
theorem means_quotedValue (quote : Char) (raw : List Char) :
    (Written.quoted quote raw).Means (quotedValue raw) := by
  unfold quotedValue
  split
  · rename_i cs
    split
    · -- the first brace expression is all of the value
      rename_i inside hsplit
      obtain ⟨hspelled, hwhole⟩ := split?_eq_some_iff.mp hsplit
      rw [List.append_nil] at hspelled
      exact .expression rfl ⟨hspelled, hspelled ▸ hwhole⟩
    · -- something is left, so that the value is not one brace expression
      rename_i hsplit
      refine .static rfl fun inside h =>
        hsplit inside (split?_eq_some_iff.mpr ⟨?_, h.spelled ▸ h.whole⟩)
      rw [List.append_nil]
      exact h.spelled
  · rename_i hbrace
    exact .static rfl fun inside h => hbrace _ h.spelled

/-- A bare value goes up to the first place where one ends. -/
theorem exists_of_afterBareValue (cs : List Char) : ∃ value, cs = value ++ afterBareValue cs ∧
    (∀ tail, tail <:+ value → tail ≠ [] → endsBareValue (tail ++ afterBareValue cs) = false) ∧
    endsBareValue (afterBareValue cs) = true := by
  unfold afterBareValue
  cases hseek : seek? endsBareValue cs with
  | some rest =>
    obtain ⟨value, rfl, hrest, hvalue⟩ := exists_of_seek? hseek
    exact ⟨value, rfl, hvalue, hrest⟩
  | none =>
    refine ⟨cs, (List.append_nil cs).symm, fun tail htail hne => ?_, rfl⟩
    rw [Option.getD_none, List.append_nil]
    exact stop_of_seek?_eq_none hseek htail hne

/-- A value is read off what is written behind the equals sign. -/
theorem exists_of_readValue {value : AttributeValue} (h : readValue cs here = .ok (value, rest)) :
    ∃ (written : Written) (piece : List Char),
      cs = piece ++ rest ∧ written.Spells rest piece ∧ written.Means value := by
  unfold readValue at h
  split at h
  · cases h
  · split at h
    · cases h
    · -- a brace expression, a quoted value or a bare one
      rename_i inside left hsplit
      cases h
      obtain ⟨hspelled, hwhole⟩ := split?_eq_some_iff.mp hsplit
      have hbraced : IsBraced inside (braced inside) := ⟨rfl, hwhole⟩
      exact ⟨.braced (braced inside), _, hspelled, .braced hbraced, .expression rfl hbraced⟩
  · rename_i c body hbrace
    split at h
    · rename_i hquote
      obtain ⟨closing, hseek, h⟩ := exists_of_bind_eq_ok h
      obtain ⟨regions, tail, rfl, hpasses⟩ := exists_of_seekQuote hseek
      obtain ⟨raw, rfl, -⟩ := hpasses.cut
      rw [consumed_append_self] at h
      cases h
      exact ⟨.quoted c raw, c :: (raw ++ [c]), by simp, .quoted hquote ⟨_, regions, hpasses⟩,
        means_quotedValue c raw⟩
    · rename_i hquote
      cases h
      obtain ⟨value, hsplit, hvalue, hrest⟩ := exists_of_afterBareValue (c :: body)
      rw [not_or] at hquote
      have hc : c ≠ '{' := hbrace
      -- a bare value starts with neither a brace nor a quote, as it was told from the others by
      -- that
      have hstart : ∀ d ∈ value.head?, d ≠ '{' ∧ d ≠ '"' ∧ d ≠ '\'' := by
        cases value with
        | nil => exact fun d hd => nomatch hd
        | cons d value =>
          obtain ⟨rfl, -⟩ := List.cons.inj hsplit
          rintro _ ⟨⟩
          exact ⟨hc, hquote⟩
      refine ⟨.bare value, value, hsplit, .bare hstart hvalue hrest, ?_⟩
      generalize afterBareValue (c :: body) = left at hsplit
      rw [hsplit, consumed_append_self]
      refine .static rfl fun inside h => ?_
      rw [h.spelled] at hstart
      exact (hstart '{' rfl).1 rfl

/-- A value is read off what is written behind the name of an attribute. -/
theorem exists_of_readAssignment {name : String} {value : AttributeValue}
    (hname : IsAttributeName name.toList) (hstop : cs.head?.all (!isAttributeNameChar ·) = true)
    (h : readAssignment cs here = .ok (value, rest)) :
    ∃ (written : Written) (piece : List Char), name.toList ++ cs = piece ++ rest ∧
      written.SpellsAttribute name rest piece ∧ written.Means value := by
  unfold readAssignment at h
  split at h
  · rename_i assigned hassigned
    obtain ⟨written, piece, hpiece, hspells, hmeans⟩ := exists_of_readValue h
    -- white space may stand around the equals sign
    have hbefore : cs.takeWhile isTagBlank ++ '=' :: assigned = cs := by
      rw [← hassigned, List.takeWhile_append_dropWhile]
    have hbehind : assigned.takeWhile isTagBlank ++ (piece ++ rest) = assigned := by
      rw [← hpiece, List.takeWhile_append_dropWhile]
    have hall (cs : List Char) : (cs.takeWhile isTagBlank).all isTagBlank = true :=
      List.all_takeWhile
    refine ⟨written, _, ?_, .assigned hname (hall cs) (hall assigned) hspells, hmeans⟩
    simp only [List.append_assoc, List.cons_append, hbehind, hbefore]
  · rename_i hassigned
    cases h
    -- nothing is assigned, as no equals sign follows
    refine ⟨.nothing, name.toList, rfl, .nothing hname ⟨hstop, ?_⟩, .boolean⟩
    cases hnext : cs.dropWhile isTagBlank with
    | nil => rfl
    | cons c behind =>
      have hc : c ≠ '=' := fun hc => hassigned behind (hc ▸ hnext)
      simpa using hc

/-- An attribute and its value are read off what is written. -/
theorem exists_of_readAttribute {tag : String} {attr : Attribute}
    (h : readAttribute tag cs here = .ok (attr, rest)) :
    ∃ (written : Written) (piece : List Char), cs = piece ++ rest ∧
      written.SpellsAttribute attr.name rest piece ∧ written.Means attr.value ∧
      attr.span = ⟨here, here + byteLength piece⟩ := by
  unfold readAttribute at h
  split at h
  · split at h
    · cases h
    · rename_i inside left hsplit
      cases h
      obtain ⟨hspelled, hwhole⟩ := split?_eq_some_iff.mp hsplit
      -- a brace expression stands alone, anything else behind a name
      have hbraced : IsBraced inside (braced inside) := ⟨rfl, hwhole⟩
      refine ⟨.braced (braced inside), _, hspelled, .alone hbraced rfl, .expression rfl hbraced, ?_⟩
      rw [hspelled, consumed_append_self]
  · dsimp only at h
    split at h
    · cases h
    · rename_i hne
      obtain ⟨⟨value, left⟩, hvalue, h⟩ := exists_of_bind_eq_ok h
      cases h
      have hname : IsAttributeName (String.ofList (cs.takeWhile isAttributeNameChar)).toList := by
        rw [String.toList_ofList]
        exact ⟨by simpa using hne, List.all_takeWhile⟩
      obtain ⟨written, piece, hpiece, hspells, hmeans⟩ :=
        exists_of_readAssignment hname (head?_drop_takeWhile _ cs) hvalue
      -- the attribute is the name and what was read behind it
      have hcs : cs = piece ++ left := by
        rw [← hpiece, String.toList_ofList]
        exact (List.prefix_iff_eq_append.mp (List.takeWhile_prefix isAttributeNameChar)).symm
      exact ⟨written, piece, hcs, hspells, hmeans, by rw [hcs, consumed_append_self]⟩

/-! ## The attributes of nodes -/

/-- The attributes of a node. -/
def Node.attributes : Node → List Attribute
  | .element head _ => head.attributes
  | .rawBlock block => block.attributes
  | .comment _ _ | .text _ _ => []

/-- An attribute stands in the text where it was written, and has the value that was written
    there. -/
structure Attribute.IsWritten (text : List Char) (attr : Attribute) (written : Written) : Prop where
  place : ∃ before piece rest, text = before ++ (piece ++ rest) ∧
    attr.span = ⟨byteLength before, byteLength before + byteLength piece⟩ ∧
    written.SpellsAttribute attr.name rest piece
  boolean : attr.value = .boolean ↔ written.value? = none
  expression : ∀ e, attr.value = .expression e ↔
    ∃ value inside, written.value? = some value ∧ IsBraced inside value ∧ e = trimmed inside
  static : ∀ v, attr.value = .static v ↔
    written.value? = some v.toList ∧ ∀ inside, ¬ IsBraced inside v.toList

/-- An attribute that was read is written in the text. -/
theorem isWritten_of_readAttribute {tag : String} {attr : Attribute} (hcs : cs <:+ text)
    (h : readAttribute tag cs (offsetOf text cs) = .ok (attr, rest)) :
    ∃ written, attr.IsWritten text written := by
  obtain ⟨written, piece, rfl, hspells, hmeans, hspan⟩ := exists_of_readAttribute h
  obtain ⟨before, rfl⟩ := hcs
  rw [offsetOf_append] at hspan
  exact ⟨written, ⟨before, piece, rest, rfl, hspan, hspells⟩, hmeans.boolean_iff,
    hmeans.expression_iff, hmeans.static_iff⟩

/-- The attributes of an opening tag are written in the text. -/
theorem attributes_of_openingTag? {tag : OpeningTag} (hcs : cs <:+ text)
    (h : openingTag? cs (offsetOf text cs) = some tag) :
    ∀ attr ∈ tag.attributes, ∃ written, attr.IsWritten text written := by
  obtain ⟨c, body, tagEnd, rfl, -, hread, -, -⟩ := exists_of_openingTag? h
  intro attr hattr
  obtain ⟨start, rest, hstart, hread⟩ := exists_readAttribute_of_readTag hcs hread attr hattr
  exact isWritten_of_readAttribute hstart hread

/-- The attributes of the node that a lexeme makes are those of the tag at its place. -/
theorem Lexeme.GoesWith.attributes {lexeme : Lexeme} {tag? : Option OpeningTag}
    (h : lexeme.GoesWith text tag?) (hmark : lexeme.mark? = some node.mark) {attr : Attribute}
    (hattr : attr ∈ node.attributes) : ∃ tag, tag? = some tag ∧ attr ∈ tag.attributes := by
  cases h with
  -- the node is the raw block or the element of the tag, and has its attributes
  | @raw tag block hraw hblock =>
    obtain rfl : node = .rawBlock block := by cases node <;> cases hmark; rfl
    exact ⟨tag, rfl, hblock.attributes ▸ hattr⟩
  | @element lexeme tag hraw htag =>
    refine ⟨tag, rfl, ?_⟩
    have hnode : node.mark = tag.mark := Option.some.inj (hmark.symm.trans htag)
    cases node with
    | element head children =>
      obtain ⟨-, hattributes, -⟩ := Mark.element.inj hnode
      exact hattributes ▸ hattr
    | comment data span => cases hnode
    | text raw span => cases hnode
    | rawBlock block => cases hnode
  | other helement hblock =>
    rw [hmark] at helement hblock
    cases node with
    | element head children => cases helement
    | comment data span => exact absurd hattr List.not_mem_nil
    | text raw span => exact absurd hattr List.not_mem_nil
    | rawBlock block => cases hblock

/-- The attributes of the nodes of a text are written in it. -/
theorem isWritten_of_parse (h : parse text = .ok nodes) (hnode : Among node nodes) :
    ∀ attr ∈ node.attributes, ∃ written, attr.IsWritten text written := by
  intro attr hattr
  obtain ⟨lexemes, hlexemes, -⟩ := marks_of_parse h
  obtain ⟨lexeme, hlexeme, hmark⟩ := exists_lexeme_of_among h hlexemes hnode
  obtain ⟨tag, htag, hattr⟩ := (goesWith_of_lexemes hlexemes hlexeme).attributes hmark hattr
  obtain ⟨cs, hcs, -, htag⟩ := exists_of_tag? htag
  exact attributes_of_openingTag? hcs htag attr hattr

/-! ## The names of stories -/

/-- The first attribute of a name has a written value, which is not one brace expression. -/
def IsWrittenStatic (text : List Char) (attributes : List Attribute) (name value : String) : Prop :=
  ∃ attr written, attributes.find? (·.name == name) = some attr ∧ attr.IsWritten text written ∧
    written.value? = some value.toList ∧ ∀ inside, ¬ IsBraced inside value.toList

/-- A value is found by a static lookup if it is written. -/
theorem staticAttribute?_eq_some_iff {attributes : List Attribute} {name value : String}
    (h : ∀ attr ∈ attributes, ∃ written, attr.IsWritten text written) :
    staticAttribute? attributes name = some value ↔ IsWrittenStatic text attributes name value := by
  unfold staticAttribute?
  constructor
  · intro hvalue
    split at hvalue
    · rename_i attrName found span hfind
      obtain rfl := Option.some.inj hvalue
      -- the first attribute of the name counts, and its value is static
      obtain ⟨written, hwritten⟩ := h _ (List.mem_of_find?_eq_some hfind)
      exact ⟨_, written, hfind, hwritten, (hwritten.static _).mp rfl⟩
    · cases hvalue
  · rintro ⟨attr, written, hfind, hwritten, hstatic⟩
    have hvalue := (hwritten.static value).mpr hstatic
    obtain ⟨attrName, found, span⟩ := attr
    obtain rfl : found = .static value := hvalue
    rw [hfind]

/-- The attributes of the elements and raw blocks of a text are written in it.  An attribute has no
    value if nothing is assigned to it, it is an expression if the written value is one brace
    expression, and it is static if the written value is anything else, be there brace expressions
    in it or not.  The name and the export name of a story are such static values. -/
theorem attributes_of_parse (h : parse text = .ok nodes) :
    (∀ node, Among node nodes → ∀ attr ∈ node.attributes, ∃ written, attr.IsWritten text written) ∧
    ∀ component, ∀ story ∈ Story.collect text component nodes, ∃ head children,
      Among (.element head children) nodes ∧ head.name = component ∧ head.span = story.span ∧
      (∀ name, story.name = some name ↔ IsWrittenStatic text head.attributes "name" name) ∧
      ∀ name, story.exportName = some name ↔
        IsWrittenStatic text head.attributes "exportName" name := by
  refine ⟨fun node hnode => isWritten_of_parse h hnode, fun component story hstory => ?_⟩
  -- the story was collected from an element of the component
  obtain ⟨path, houtermost, hdeclares⟩ := Story.exists_of_mem_collect hstory
  obtain ⟨head, children, hhead, helement⟩ := hdeclares.element
  obtain ⟨head', children', hhead', hname⟩ := houtermost.here
  -- and that element has the attributes that the story is declared with
  obtain ⟨rfl, rfl⟩ := Node.element.inj (Option.some.inj (hhead.symm.trans hhead'))
  have hamong : Among (.element head children) nodes := among_of_nodeAt? hhead
  have hattributes := isWritten_of_parse h hamong
  rw [helement]
  exact ⟨head, children, hamong, hname, rfl, fun name => staticAttribute?_eq_some_iff hattributes,
    fun name => staticAttribute?_eq_some_iff hattributes⟩

/-- A story with an attribute of each kind. -/
def assignedMarkup : List Char :=
  "<Story name=\"\x7b n \x7d\" exportName='A' open />".toList

/-- The export name is static, and the name is an expression, so that the story has none. -/
theorem attributes_assignedMarkup : ∃ nodes head children, parse assignedMarkup = .ok nodes ∧
    Among (.element head children) nodes ∧
    IsWrittenStatic assignedMarkup head.attributes "exportName" "A" ∧
    ∀ name, ¬ IsWrittenStatic assignedMarkup head.attributes "name" name := by
  have hcheck : (parse assignedMarkup).toOption.any (fun nodes =>
      (Story.collect assignedMarkup "Story" nodes).map (fun story =>
        (story.name, story.exportName)) ==
        [(none, some "A")]) = true := by decide +kernel
  obtain ⟨nodes, hparse, hcheck⟩ := exists_ok_of_any hcheck
  obtain ⟨story, hstory, hnames⟩ := List.map_eq_singleton_iff.mp (beq_iff_eq.mp hcheck)
  obtain ⟨hname, hexportName⟩ := Prod.mk.inj hnames
  obtain ⟨head, children, hamong, -, -, hnameIff, hexportNameIff⟩ :=
    (attributes_of_parse hparse).2 "Story" story (hstory ▸ List.mem_singleton_self story)
  refine ⟨nodes, head, children, hparse, hamong, (hexportNameIff "A").mp hexportName,
    fun name h => ?_⟩
  cases hname.symm.trans ((hnameIff name).mpr h)

/-- A story whose name is written with a brace expression in it. -/
def mixedMarkup : List Char :=
  "<Story name=\"Item \x7bi\x7d\" />".toList

/-- The name is static nevertheless, and it is the name of the story. -/
theorem attributes_mixedMarkup : ∃ nodes attr, parse mixedMarkup = .ok nodes ∧
    (∃ node, Among node nodes ∧ attr ∈ node.attributes) ∧ attr.value = .static "Item \x7bi\x7d" ∧
    (braceTags "Item \x7bi\x7d".toList 0).map BraceTag.text = ["\x7bi\x7d".toList] ∧
    (Story.collect mixedMarkup "Story" nodes).map Story.name = [some "Item \x7bi\x7d"] := by
  have hcheck : (parse mixedMarkup).toOption.any (fun nodes =>
      nodes.head?.map Node.attributes == some [⟨"name", .static "Item \x7bi\x7d", ⟨7, 22⟩⟩] &&
        (Story.collect mixedMarkup "Story" nodes).map Story.name == [some "Item \x7bi\x7d"]) =
          true := by
    decide +kernel
  obtain ⟨nodes, hparse, hcheck⟩ := exists_ok_of_any hcheck
  obtain ⟨hattributes, hnames⟩ := Bool.and_eq_true_iff.mp hcheck
  obtain ⟨node, hnode, hattributes⟩ := Option.map_eq_some_iff.mp (beq_iff_eq.mp hattributes)
  have hattr := hattributes ▸ List.mem_singleton_self _
  exact ⟨nodes, _, hparse, ⟨node, .here (List.mem_of_mem_head? hnode), hattr⟩, rfl,
    by decide +kernel, beq_iff_eq.mp hnames⟩

end SvelteStories.Markup
