import SvelteStories.Diagnostic.Problem
import SvelteStories.Proofs.BytewiseMarkup
import SvelteStories.Proofs.RawChildren

/-!
# The markup is read safely

Reading the markup by byte offsets comes to an end, with a forest or with a fault, and meets no
other `Halt`: each turn of its loops gets ahead, each part that it cuts out of the text starts and
stops between two characters, and no brace is closed that was not opened.  The spans of the forest
select parts of the text as well.

## Key results

- `slice?_of_readLexeme`: the spans inside a lexeme
- `slice?_of_parse`: the spans of a node
- `parse_safe`: reading the markup
-/

namespace SvelteStories.Markup

open Text

variable {text cs rest : List Char} {nodes : List Node} {node : Node} {lexeme :
  Lexeme} {span : Span}

/-! ## Spans inside a lexeme -/

/-- The spans of the parts of a lexeme: of its attributes and of the content of a raw block. -/
def Lexeme.innerSpans : Lexeme → List Span
  | .text _ _ | .comment _ _ | .closing _ _ => []
  | .rawBlock block => block.content :: block.attributes.map Attribute.span
  | .leaf head => head.attributes.map Attribute.span
  | .opening _ attributes _ => attributes.map Attribute.span

/-- The attributes of a tag were read at places of the text. -/
theorem exists_readAttribute {tag : String} {opened : Nat} {attributes : List Attribute}
    {tagEnd : TagEnd} (hcs : cs <:+ text)
    (h : readAttributes tag opened cs (offsetOf text cs) = .ok (attributes, tagEnd)) :
    ∀ attr ∈ attributes, ∃ start rest, start <:+ text ∧
      readAttribute tag start (offsetOf text start) = .ok (attr, rest) := by
  generalize hhere : offsetOf text cs = here at h
  fun_induction readAttributes tag opened cs here generalizing attributes tagEnd with
  | case1 => cases h
  | case2 => cases h; exact fun _ hmem => absurd hmem List.not_mem_nil
  | case3 => cases h; exact fun _ hmem => absurd hmem List.not_mem_nil
  | case4 => cases h
  | case5 cs here attr rest _ _ _ hattr ih =>
    have hblank : cs.dropWhile isTagBlank <:+ cs := List.dropWhile_suffix isTagBlank
    rw [← hhere, ← offsetOf_suffix hblank hcs] at hattr
    -- the next attribute is read from where this one stops
    have hstop : offsetOf text rest = attr.span.stop := by
      rw [Bytewise.span_of_readAttribute (hblank.trans hcs) hattr]
    have hrest := (suffix_of_readAttribute hattr).trans hblank
    obtain ⟨⟨others, tagEnd⟩, hothers, h⟩ := exists_of_bind_eq_ok h
    cases h
    exact List.forall_mem_cons.mpr ⟨⟨_, rest, hblank.trans hcs, hattr⟩,
      ih (hrest.trans hcs) hstop hothers⟩

/-- The attributes of an opening tag were read at places of the text. -/
theorem exists_readAttribute_of_readTag {name : List Char} {attributes : List Attribute}
    {tagEnd : TagEnd} (hcs : '<' :: cs <:+ text)
    (h : readTag ('<' :: cs) (offsetOf text ('<' :: cs)) = .ok (name, attributes, tagEnd)) :
    ∀ attr ∈ attributes, ∃ start rest, start <:+ text ∧
      readAttribute (String.ofList name) start (offsetOf text start) = .ok (attr, rest) := by
  have hname := (List.dropWhile_suffix isTagNameChar).trans ((List.suffix_cons '<' cs).trans hcs)
  rw [Bytewise.readTag_eq hcs] at h
  cases hread : readAttributes (String.ofList (cs.takeWhile isTagNameChar))
    (offsetOf text ('<' :: cs))
      (cs.dropWhile isTagNameChar) (offsetOf text (cs.dropWhile isTagNameChar)) with
  | error fault =>
    rw [hread] at h
    cases h
  | ok read =>
    rw [hread] at h
    cases h
    exact exists_readAttribute hname hread

/-- The attributes of a tag are parts of the text. -/
theorem slice?_of_readTag {name : List Char} {attributes : List Attribute} {tagEnd : TagEnd}
    (hcs : '<' :: cs <:+ text)
    (h : readTag ('<' :: cs) (offsetOf text ('<' :: cs)) = .ok (name, attributes, tagEnd)) :
    ∀ span ∈ attributes.map Attribute.span, ∃ part, span.slice? text = some part := by
  refine List.forall_mem_map.mpr fun attr hattr => ?_
  obtain ⟨start, rest, hstart, hread⟩ := exists_readAttribute_of_readTag hcs h attr hattr
  rw [Bytewise.span_of_readAttribute hstart hread]
  exact ⟨_, slice?_offsetOf (suffix_of_readAttribute hread) hstart⟩

/-- What stands inside a raw block are parts of the text. -/
theorem slice?_of_readRaw {name : List Char} {attributes : List Attribute} {start : Nat}
    (hcs : cs <:+ text)
    (hattributes : ∀ span ∈ attributes.map Attribute.span, ∃ part, span.slice? text = some part)
    (h : readRaw name attributes start cs (offsetOf text cs) = .ok (lexeme, rest)) :
    ∀ span ∈ lexeme.innerSpans, ∃ part, span.slice? text = some part := by
  unfold readRaw at h
  split at h
  · cases h
  · rename_i closing hclosing
    have hsuffix := (suffix_of_seek? hclosing).1
    dsimp only at h
    split at h
    · cases h
    · cases h
      -- the content is what was passed over, and the others are attributes
      refine List.forall_mem_cons.mpr ⟨?_, hattributes⟩
      rw [spanFrom_offsetOf hsuffix hcs]
      exact ⟨_, slice?_offsetOf hsuffix hcs⟩

/-- What stands inside of what an opening tag starts are parts of the text. -/
theorem slice?_of_readOpening (hcs : '<' :: cs <:+ text)
    (h : readOpening ('<' :: cs) (offsetOf text ('<' :: cs)) = .ok (lexeme, rest)) :
    ∀ span ∈ lexeme.innerSpans, ∃ part, span.slice? text = some part := by
  unfold readOpening at h
  obtain ⟨⟨name, attributes, tagEnd⟩, htag, h⟩ := exists_of_bind_eq_ok h
  have hrest : tagEnd.rest <:+ '<' :: cs := by
    obtain ⟨inner, hsplit⟩ := suffix_of_readTag htag
    rw [hsplit]
    exact List.suffix_append _ _
  -- the attributes are the same for each kind of what the tag starts
  have hattributes := slice?_of_readTag hcs htag
  simp only [spanFrom_offsetOf hrest hcs] at h
  split at h
  · cases h
    exact hattributes
  · split at h
    · exact slice?_of_readRaw (hrest.trans hcs) hattributes h
    · split at h
      · cases h
        exact hattributes
      · cases h
        exact hattributes

/-- What stands inside a lexeme are parts of the text. -/
theorem slice?_of_readLexeme (hcs : cs <:+ text)
    (h : readLexeme cs (offsetOf text cs) = .ok (lexeme, rest)) :
    ∀ span ∈ lexeme.innerSpans, ∃ part, span.slice? text = some part := by
  -- only an opening tag has something inside
  have hnone (hspans : lexeme.innerSpans = []) :
      ∀ span ∈ lexeme.innerSpans, ∃ part, span.slice? text = some part := by
    rw [hspans]
    exact fun _ hmem => absurd hmem List.not_mem_nil
  unfold readLexeme at h
  split at h
  · rename_i hmarkup
    split at h
    · refine hnone ?_
      unfold readComment at h
      dsimp only at h
      split at h
      · cases h
      · cases h
        rfl
    · refine hnone ?_
      unfold readClosing at h
      dsimp only at h
      split at h
      · cases h
      · cases h
        rfl
    · obtain ⟨tail, rfl⟩ := head?_of_startsMarkup hmarkup
      exact slice?_of_readOpening hcs h
  · obtain ⟨rest', -, h⟩ := exists_of_bind_eq_ok h
    cases h
    exact hnone rfl

/-! ## Spans of a node -/

/-- All spans of a node: its own, those of its attributes and of its content, those of its brace
    tags and that of its raw code. -/
def Node.spans : Node → List Span
  | .text raw span => span :: (Markup.braceTags raw.toList span.start).map BraceTag.span
  | .comment _ span => [span]
  | .rawBlock block => block.span :: block.content :: block.attributes.map Attribute.span
  | .element head children =>
    head.span :: (head.attributes.map Attribute.span ++
      head.content.toList.flatMap fun content => [content, rawCodeSpan content children])

/-- An element is a part of the text. -/
theorem Element.Encloses.slice? {head : Element} {content : Span} {limit : Nat}
    (h : head.Encloses text limit content) : ∃ part, head.span.slice? text = some part := by
  obtain ⟨opening, hopening, -⟩ := h.opening
  obtain ⟨inside, hinside⟩ := h.inside
  obtain ⟨closing, hclosing, -⟩ := h.closing
  exact ⟨_, slice?_append (slice?_append hopening hinside) hclosing⟩

/-- The spans of a node select parts of the text. -/
theorem slice?_of_parse (h : parse text = .ok nodes) (hnode : Among node nodes) :
    ∀ span ∈ node.spans, ∃ part, span.slice? text = some part := by
  obtain ⟨enclosing, within, siblings, hlaidOut, hmem⟩ := layout_of_parse h hnode
  obtain ⟨lexemes, horigin, hlexemes⟩ := comesFrom_of_parse h hnode
  obtain ⟨hlayout, hbelow⟩ := laidOut_iff.mp hlaidOut
  have hstands := hlayout.stands node hmem
  -- the parts inside come from the lexemes that the node was made of
  have hinner : ∀ lexeme ∈ lexemes, ∀ span ∈ lexeme.innerSpans, ∃ part,
      span.slice? text = some part := by
    intro lexeme hlexeme
    obtain ⟨start, rest, hstart, -, -, hread⟩ := hlexemes lexeme hlexeme
    exact slice?_of_readLexeme hstart hread
  cases node with
  | text raw span =>
    refine List.forall_mem_cons.mpr ⟨⟨_, hstands⟩, List.forall_mem_map.mpr fun tag htag => ?_⟩
    exact ⟨_, slice?_of_mem_braceTags hstands htag⟩
  | comment data span => exact List.forall_mem_singleton.mpr ⟨_, hstands⟩
  | rawBlock block =>
    obtain ⟨piece, hpiece, -⟩ := hstands
    exact List.forall_mem_cons.mpr ⟨⟨piece, hpiece⟩, hinner _ horigin⟩
  | element head children =>
    -- the attributes are those of a leaf or of an opening tag
    have hattributes : ∀ span ∈ head.attributes.map Attribute.span, ∃ part,
        span.slice? text = some part := by
      rcases horigin with hleaf | ⟨tag, hopening⟩
      · exact hinner _ hleaf
      · exact hinner _ hopening
    rw [Node.Stands] at hstands
    rw [Node.spans, List.forall_mem_cons, List.forall_mem_append]
    cases hcontent : head.content with
    | none =>
      simp only [hcontent] at hstands
      obtain ⟨-, piece, hpiece, -⟩ := hstands
      exact ⟨⟨piece, hpiece⟩, hattributes, fun _ hmem => absurd hmem List.not_mem_nil⟩
    | some content =>
      simp only [hcontent] at hstands
      have hchildren := (laidOut_iff.mp (hbelow head children content hmem hcontent)).1
      -- the raw code is a part of the content
      obtain ⟨raw, hraw, -⟩ := hchildren.rawCodeSpan_within
      refine ⟨hstands.slice?, hattributes, ?_⟩
      exact List.forall_mem_cons.mpr ⟨hstands.inside, List.forall_mem_singleton.mpr ⟨raw, hraw⟩⟩

/-! ## Reading by byte offsets -/

/-- Reading the markup of a file comes to an end and meets nothing but faults of the markup, which
    are reported as such.  A brace expression that starts at a brace is read to an answer, so no
    brace is closed that was not opened.  In a forest that was read, all spans select parts of the
    file, and the brace expressions in its runs of text are looked for as safely. -/
theorem parse_safe (text : List Char) (file : String) :
    Bytewise.parse text = (parse text).mapError .fault ∧
    (∀ fault, parse text = .error fault →
      (Diagnostic.Problem.report (.markup fault.fault (position text fault.offset))
        file).code.text = "PARSE_ERROR") ∧
    (∀ start, byteAt? text start = some '{' →
      ∃ answer, Bytewise.braceEnd? text start = .ok answer) ∧
    ∀ nodes, parse text = .ok nodes → ∀ path node, nodeAt? nodes path = some node →
      (∀ span ∈ node.spans, ∃ part, span.slice? text = some part) ∧
      ∀ raw span, node = .text raw span →
        Bytewise.braceTags raw.toList span.start = .ok (braceTags raw.toList span.start) := by
  refine ⟨Bytewise.parse_eq text, fun _ _ => rfl, fun start hbrace => ?_, ?_⟩
  · -- the offset is that of a suffix which starts with the brace
    obtain ⟨rest, hrest, rfl⟩ := exists_of_byteAt? (by decide) hbrace
    exact ⟨_, Bytewise.braceEnd?_offsetOf hrest⟩
  · intro nodes hparse path node hnode
    exact ⟨slice?_of_parse hparse (among_of_nodeAt? hnode),
      fun raw span _ => Bytewise.braceTags_eq raw.toList span.start⟩

/-- A string in which a backslash stands before a character of two bytes, and one in an
    attribute. -/
def escapedMarkup : List Char :=
  "\x7b'\\é'\x7d<p a=\"\x7b'\\ü\x7d'\x7d\">ß</p>".toList

/-- The markup is read byte by byte with its strings and escapes, and a brace that is not closed is
    reported as a fault. -/
theorem parse_escapedMarkup :
    (∃ nodes node, nodes.length = 2 ∧ Bytewise.parse escapedMarkup = .ok nodes ∧
      nodeAt? nodes [1] = some node ∧
      ∀ span ∈ node.spans, ∃ part, span.slice? escapedMarkup = some part) ∧
    (∃ answer, Bytewise.braceEnd? escapedMarkup 0 = .ok answer) ∧
    ∃ fault, Bytewise.parse ['\x7b'] = .error (.fault fault) ∧
      (Diagnostic.Problem.report (.markup fault.fault (position ['\x7b'] fault.offset))
        "").code.text = "PARSE_ERROR" := by
  refine ⟨?_, (parse_safe escapedMarkup "").2.2.1 0 (by decide), ?_⟩
  · have hcheck : (parse escapedMarkup).toOption.any
        (fun nodes => nodes.length == 2 && (nodeAt? nodes [1]).isSome) = true := by decide +kernel
    obtain ⟨nodes, hparse, hnodes⟩ := exists_ok_of_any hcheck
    obtain ⟨hlength, hsome⟩ := Bool.and_eq_true_iff.mp hnodes
    obtain ⟨node, hnode⟩ := Option.isSome_iff_exists.mp hsome
    obtain ⟨hread, -, -, hspans⟩ := parse_safe escapedMarkup ""
    refine ⟨nodes, node, beq_iff_eq.mp hlength, ?_, hnode, (hspans nodes hparse [1] node hnode).1⟩
    rw [hread, hparse]
    rfl
  · have hfails : (parse ['\x7b']).toOption.isNone = true := by decide +kernel
    obtain ⟨hread, hreport, -⟩ := parse_safe ['\x7b'] ""
    cases hparse : parse ['\x7b'] with
    | ok nodes =>
      rw [hparse] at hfails
      cases hfails
    | error fault =>
      rw [hparse] at hread
      exact ⟨fault, hread, hreport fault hparse⟩

end SvelteStories.Markup
