import Mathlib.Data.List.Chain
import SvelteStories.Markup.Forest
import SvelteStories.Proofs.Reading

/-!
# Where the nodes of the markup stand

The forest of a stories file keeps the places of its nodes and loses nothing of the text.  The nodes
of a list of siblings stand one behind the other in the content of their parent, and what they leave
of it are closing tags that close no element.  An element starts with its opening tag and ends with
its closing tag; without one it ends where the content of its parent ends.

Lexemes are put together from left to right.  The invariant is about the open elements: the children
that each of them has so far stand in order between its opening tag and the next open element, or
the place that was reached.

## Key results

- `Layout`: how siblings stand in a part of the text
- `Builder.Placed.add`: what one lexeme keeps of the invariant
- `Builder.Placed.foldl_add`: what all lexemes keep
- `parse_layout`: all siblings of a forest
-/

namespace SvelteStories.Markup

open Text

variable {text : List Char} {enclosing : List String} {within : Span} {nodes : List Node}
  {node : Node} {limit start here stop : Nat}

/-! ## The layout of siblings -/

/-- The parts of a span that are before, between and behind the given spans. -/
def gaps (within : Span) : List Span → List Span
  | [] => [within]
  | span :: rest => ⟨within.start, span.start⟩ :: gaps ⟨span.stop, within.stop⟩ rest

/-- A part of a text is nothing but closing tags, none of which has the name of an enclosing
    element. -/
def IsStray (enclosing : List String) (part : List Char) : Prop :=
  ∃ tags : List (List Char), part = tags.flatten ∧
    ∀ tag ∈ tags, ∃ name, IsClosingTag name tag ∧ name ∉ enclosing

/-- Whether a node is a run of text. -/
def Node.isText : Node → Bool
  | .text _ _ => true
  | _ => false

/-- How an element that has content stands in a text: it starts with an opening tag of its name and
    ends with a closing tag of its name.  Only where `limit` is can the closing tag be missing. -/
structure Element.Encloses (text : List Char) (limit : Nat) (head : Element) (content : Span) :
    Prop where
  opening : ∃ tag, Span.slice? ⟨head.span.start, content.start⟩ text = some tag ∧
    '<' :: head.name.toList <+: tag
  inside : ∃ inside, content.slice? text = some inside
  closing : ∃ tag, Span.slice? ⟨content.stop, head.span.stop⟩ text = some tag ∧
    (IsClosingTag head.name tag ∨ tag = [] ∧ head.span.stop = limit)

/-- The text at the place of a node is the text of the node. -/
def Node.Stands (text : List Char) (limit : Nat) : Node → Prop
  | .text raw span => span.slice? text = some raw.toList
  | .comment data span =>
    span.slice? text = some ('<' :: '!' :: '-' :: '-' :: (data.toList ++ ['-', '-', '>']))
  | .rawBlock block =>
    ∃ piece, block.span.slice? text = some piece ∧ '<' :: block.name.toList <+: piece
  | .element head children =>
    match head.content with
    | none => children = [] ∧
      ∃ piece, head.span.slice? text = some piece ∧ '<' :: head.name.toList <+: piece
    | some content => head.Encloses text limit content

/-- How siblings stand in a part of a text, given the names of the elements around them. -/
structure Layout (text : List Char) (enclosing : List String) (within : Span) (nodes : List Node) :
    Prop where
  whole : ∃ inside, within.slice? text = some inside
  nonempty : ∀ node ∈ nodes, node.span.start < node.span.stop
  stray : ∀ gap ∈ gaps within (nodes.map Node.span),
    ∃ part, gap.slice? text = some part ∧ IsStray enclosing part
  parted : nodes.IsChain fun first second =>
    first.isText = true → second.isText = true → first.span.stop < second.span.start
  stands : ∀ node ∈ nodes, node.Stands text within.stop

/-! ### Gaps -/

/-- The last gap is the only one that depends on where the span stops. -/
theorem exists_gaps (start : Nat) (spans : List Span) :
    ∃ before last, ∀ stop, gaps ⟨start, stop⟩ spans = before ++ [⟨last, stop⟩] := by
  induction spans generalizing start with
  | nil => exact ⟨[], start, fun stop => rfl⟩
  | cons span rest ih =>
    obtain ⟨before, last, hgaps⟩ := ih span.stop
    exact ⟨⟨start, span.start⟩ :: before, last, fun stop => by rw [gaps, hgaps, List.cons_append]⟩

/-- A span at the end parts the last gap. -/
theorem gaps_append (start stop : Nat) (spans : List Span) (span : Span) :
    gaps ⟨start, stop⟩ (spans ++ [span]) =
      gaps ⟨start, span.start⟩ spans ++ [⟨span.stop, stop⟩] := by
  induction spans generalizing start with
  | nil => rfl
  | cons first rest ih => rw [List.cons_append, gaps, ih, gaps, List.cons_append]

theorem isStray_nil (enclosing : List String) : IsStray enclosing [] :=
  ⟨[], rfl, fun _ h => absurd h List.not_mem_nil⟩

/-- One more closing tag behind others. -/
theorem IsStray.append {part tag : List Char} {name : String} (h : IsStray enclosing part)
    (htag : IsClosingTag name tag) (hname : name ∉ enclosing) :
    IsStray enclosing (part ++ tag) := by
  obtain ⟨tags, rfl, htags⟩ := h
  refine ⟨tags ++ [tag],
    by rw [List.flatten_append, List.flatten_singleton], fun other hother => ?_⟩
  rcases List.mem_append.mp hother with hother | hother
  · exact htags other hother
  · obtain rfl := List.mem_singleton.mp hother
    exact ⟨name, htag, hname⟩

/-- Nodes with gaps between them stand one behind the other. -/
theorem ordered_of_gaps {start stop : Nat}
    (hnonempty : ∀ node ∈ nodes, node.span.start < node.span.stop)
    (hgaps : ∀ gap ∈ gaps ⟨start, stop⟩ (nodes.map Node.span), gap.start ≤ gap.stop) :
    start ≤ stop ∧ (∀ node ∈ nodes, start ≤ node.span.start ∧ node.span.stop ≤ stop) ∧
      nodes.Pairwise (fun first second => first.span.stop ≤ second.span.start) := by
  induction nodes generalizing start with
  | nil =>
    exact ⟨hgaps _ (List.mem_singleton_self _), fun _ h => absurd h List.not_mem_nil,
      List.Pairwise.nil⟩
  | cons node rest ih =>
    rw [List.map_cons, gaps] at hgaps
    -- the first gap is before the first node, and the others are behind it
    have hbefore : start ≤ node.span.start := hgaps _ List.mem_cons_self
    have hnode := hnonempty node List.mem_cons_self
    obtain ⟨hbehind, hinside, hordered⟩ := ih
      (fun other h => hnonempty other (List.mem_cons_of_mem node h))
      (fun gap h => hgaps gap (List.mem_cons_of_mem _ h))
    refine ⟨by omega, fun other h => ?_, List.pairwise_cons.mpr ⟨fun other h => (hinside other h).1,
      hordered⟩⟩
    rcases List.mem_cons.mp h with rfl | h
    · exact ⟨hbefore, hbehind⟩
    · exact ⟨by have := (hinside other h).1; omega, (hinside other h).2⟩

/-- The nodes of a layout stand in it, one behind the other. -/
theorem Layout.ordered (h : Layout text enclosing within nodes) :
    (∀ node ∈ nodes, within.start ≤ node.span.start ∧ node.span.stop ≤ within.stop) ∧
      nodes.Pairwise (fun first second => first.span.stop ≤ second.span.start) := by
  refine (ordered_of_gaps h.nonempty fun gap hgap => ?_).2
  obtain ⟨part, hpart, -⟩ := h.stray gap hgap
  have := stop_of_slice? hpart
  omega

/-! ### Layouts that grow -/

/-- An element with content ends with a closing tag. -/
def Node.IsClosed : Node → Prop
  | .element head _ => ∀ content, head.content = some content → content.stop < head.span.stop
  | _ => True

/-- A node with a closing tag stands in a longer text as well. -/
theorem Node.Stands.of_isClosed (h : node.Stands text limit)
    (hclosed : node.IsClosed) (other : Nat) :
    node.Stands text other := by
  cases node with
  | comment data span => exact h
  | text raw span => exact h
  | rawBlock block => exact h
  | element head children =>
    rw [Node.Stands] at h ⊢
    cases hcontent : head.content with
    | none => simpa only [hcontent] using h
    | some content =>
      simp only [hcontent] at h ⊢
      obtain ⟨tag, htag, hkind⟩ := h.closing
      refine ⟨h.opening, h.inside, tag, htag, .inl (hkind.resolve_right ?_)⟩
      -- there is a closing tag, since the content stops before the element
      rintro ⟨rfl, -⟩
      have hlt := hclosed content hcontent
      have hstop := stop_of_slice? htag
      simp only [byteLength_nil] at hstop
      omega

variable {here stop : Nat} {piece : List Char}

/-- A closing tag behind the siblings is passed over. -/
theorem Layout.pass {start : Nat} {name : String} (h : Layout text enclosing ⟨start, here⟩ nodes)
    (hclosed : ∀ node ∈ nodes, node.IsClosed)
    (hpiece : Span.slice? ⟨here, stop⟩ text = some piece) (htag : IsClosingTag name piece)
    (hname : name ∉ enclosing) : Layout text enclosing ⟨start, stop⟩ nodes where
  whole := by
    obtain ⟨inside, hinside⟩ := h.whole
    exact ⟨inside ++ piece, slice?_append hinside hpiece⟩
  nonempty := h.nonempty
  stray := by
    obtain ⟨before, last, hgaps⟩ := exists_gaps start (nodes.map Node.span)
    have hstray := h.stray
    rw [hgaps] at hstray ⊢
    intro gap hgap
    rcases List.mem_append.mp hgap with hgap | hgap
    · exact hstray gap (List.mem_append_left _ hgap)
    · -- the last gap gets longer
      obtain rfl := List.mem_singleton.mp hgap
      obtain ⟨part, hpart, htags⟩ := hstray ⟨last, here⟩
        (List.mem_append_right _ (List.mem_singleton_self _))
      exact ⟨part ++ piece, slice?_append hpart hpiece, htags.append htag hname⟩
  parted := h.parted
  stands node hnode := (h.stands node hnode).of_isClosed (hclosed node hnode) stop

/-- Nothing stands where a part of the text stops. -/
theorem Layout.nil (h : Span.slice? ⟨here, here⟩ text = some []) :
    Layout text enclosing ⟨here, here⟩ [] where
  whole := ⟨[], h⟩
  nonempty _ hmem := absurd hmem List.not_mem_nil
  stray gap hgap := by
    obtain rfl := List.mem_singleton.mp hgap
    exact ⟨[], h, isStray_nil enclosing⟩
  parted := .nil
  stands _ hmem := absurd hmem List.not_mem_nil

/-- A node is added behind the siblings. -/
theorem Layout.push {start : Nat} (h : Layout text enclosing ⟨start, here⟩ nodes)
    (hclosed : ∀ node ∈ nodes, node.IsClosed)
    (hpiece : Span.slice? ⟨here, stop⟩ text = some piece) (hne : piece ≠ [])
    (hspan : node.span = ⟨here, stop⟩) (hnode : node.Stands text stop)
    (hparted : node.isText = true → ∀ last ∈ nodes.getLast?, last.isText = true →
      last.span.stop < here) :
    Layout text enclosing ⟨start, stop⟩ (nodes ++ [node]) where
  whole := by
    obtain ⟨inside, hinside⟩ := h.whole
    exact ⟨inside ++ piece, slice?_append hinside hpiece⟩
  nonempty := by
    intro other hother
    rcases List.mem_append.mp hother with hother | hother
    · exact h.nonempty other hother
    · obtain rfl := List.mem_singleton.mp hother
      rw [hspan]
      exact start_lt_stop_of_slice? hpiece hne
  stray := by
    rw [List.map_append, List.map_singleton, gaps_append, hspan]
    intro gap hgap
    rcases List.mem_append.mp hgap with hgap | hgap
    · exact h.stray gap hgap
    · -- nothing is behind the new node
      obtain rfl := List.mem_singleton.mp hgap
      exact ⟨[], slice?_stop hpiece, isStray_nil enclosing⟩
  parted := by
    -- only the last two siblings have not been compared
    refine h.parted.append (List.isChain_singleton node) fun last hlast other hother => ?_
    obtain rfl : node = other := by simpa using hother
    rintro htext hnodeText
    rw [hspan]
    exact hparted hnodeText last hlast htext
  stands := by
    intro other hother
    rcases List.mem_append.mp hother with hother | hother
    · exact (h.stands other hother).of_isClosed (hclosed other hother) stop
    · obtain rfl := List.mem_singleton.mp hother
      exact hnode

/-! ## The lists of siblings of a forest -/

/-- The lists of siblings of a forest: the roots, and the children of each element that has content.
    With each goes the span that its nodes stand in and the names of the elements around it, the
    innermost first. -/
inductive Siblings (roots : List Node) (outer : List String) (whole : Span) :
    (enclosing : List String) → (within : Span) → (nodes : List Node) → Prop
  | roots : Siblings roots outer whole outer whole roots
  | children {enclosing : List String} {within : Span} {nodes : List Node} {head : Element}
    {children : List Node} {content : Span} (h : Siblings roots outer whole enclosing within nodes)
    (hmem : .element head children ∈ nodes) (hcontent : head.content = some content) :
    Siblings roots outer whole (head.name :: enclosing) content children

/-- All siblings of a forest are laid out. -/
def LaidOut (text : List Char) (outer : List String) (whole : Span) (roots : List Node) : Prop :=
  ∀ enclosing within nodes, Siblings roots outer whole enclosing within nodes →
    Layout text enclosing within nodes

variable {roots children : List Node} {outer : List String} {whole content : Span} {head : Element}

/-- Siblings among the children of an element are siblings of the forest. -/
theorem Siblings.of_child (hmem : .element head children ∈ roots)
    (hcontent : head.content = some content)
    (h : Siblings children (head.name :: outer) content enclosing within nodes) :
    Siblings roots outer whole enclosing within nodes := by
  induction h with
  | roots => exact .children .roots hmem hcontent
  | children _ hmem' hcontent' ih => exact .children ih hmem' hcontent'

/-- A forest is laid out if its roots are and what is below each of them is. -/
theorem laidOut_iff :
    LaidOut text outer whole roots ↔ Layout text outer whole roots ∧
      ∀ head children content, .element head children ∈ roots → head.content = some content →
        LaidOut text (head.name :: outer) content children := by
  constructor
  · intro h
    exact ⟨h _ _ _ .roots, fun head children content hmem hcontent enclosing within nodes hbelow =>
      h _ _ _ (hbelow.of_child hmem hcontent)⟩
  · rintro ⟨hroots, hbelow⟩ enclosing within nodes h
    -- the siblings around the children are laid out, and so is what is below them
    suffices Layout text enclosing within nodes ∧
        ∀ head children content, .element head children ∈ nodes → head.content = some content →
          LaidOut text (head.name :: enclosing) content children from this.1
    induction h with
    | roots => exact ⟨hroots, hbelow⟩
    | children _ hmem hcontent ih =>
      have hchildren := ih.2 _ _ _ hmem hcontent
      exact ⟨hchildren _ _ _ .roots, fun head' children' content' hmem' hcontent' enclosing within
        nodes h' => hchildren _ _ _ (h'.of_child hmem' hcontent')⟩

/-! ## Open elements -/

/-- How the roots or children that were found so far stand in the text. -/
structure Found (text : List Char) (enclosing : List String) (within : Span) (closed : Bool)
    (nodes : List Node) : Prop where
  laidOut : LaidOut text enclosing within nodes
  closed : closed = true → ∀ node ∈ nodes, node.IsClosed

/-- The invariant of a builder that has come up to a place of the text: the nodes of each open
    element stand between its tag and the next open element.  `closed` tells whether all elements in
    the innermost open element have closing tags. -/
def PlacedIn (text : List Char) (closed : Bool) (here : Nat) :
    (opened : List OpenElement) → (roots : List Node) → Prop
  | [], roots => Found text [] ⟨0, here⟩ closed roots.reverse
  | e :: outer, roots =>
    Found text ((e :: outer).map (·.name)) ⟨e.tag.stop, here⟩ closed e.children.reverse ∧
      (∃ tag, e.tag.slice? text = some tag ∧ '<' :: e.name.toList <+: tag) ∧
      PlacedIn text true e.tag.start outer roots

/-- The nodes that were found so far in the innermost open element, the last one first. -/
def Builder.current (b : Builder) : List Node :=
  match b.opened with
  | [] => b.roots
  | e :: _ => e.children

/-- The names of the open elements, the innermost one first. -/
def Builder.names (b : Builder) : List String :=
  b.opened.map (·.name)

/-- Adding a node leaves the open elements as they are. -/
theorem Builder.names_push (b : Builder) (node : Node) : (b.push node).names = b.names := by
  obtain ⟨_ | ⟨e, outer⟩, roots⟩ := b <;> rfl

/-- A node is added behind those of the innermost open element. -/
theorem Builder.current_push (b : Builder) (node : Node) :
    (b.push node).current = node :: b.current := by
  obtain ⟨_ | ⟨e, outer⟩, roots⟩ := b <;> rfl

/-- Closing an element leaves the others open. -/
theorem Builder.names_closeInnermost (b : Builder) (contentStop stop : Nat) :
    (b.closeInnermost contentStop stop).names = b.names.tail := by
  obtain ⟨_ | ⟨e, outer⟩, roots⟩ := b
  · rfl
  · exact names_push ⟨outer, roots⟩ _

/-- Closing some elements leaves the others open. -/
theorem Builder.names_closeMany (b : Builder) (stop n : Nat) :
    (b.closeMany stop n).names = b.names.drop n := by
  induction n generalizing b with
  | zero => rfl
  | succ n ih => rw [Builder.closeMany, ih, names_closeInnermost, List.drop_tail]

/-- A builder that has come up to a place of the text. -/
def Builder.Placed (text : List Char) (closed : Bool) (here : Nat) (b : Builder) : Prop :=
  PlacedIn text closed here b.opened b.roots

/-- What is asked of a node that is added to what was found. -/
structure Adds (text : List Char) (enclosing : List String) (here stop : Nat) (current : List Node)
    (closed : Bool) (node : Node) : Prop where
  span : node.span = ⟨here, stop⟩
  piece : ∃ piece, Span.slice? ⟨here, stop⟩ text = some piece ∧ piece ≠ []
  stands : node.Stands text stop
  closed : closed = true → node.IsClosed
  below : ∀ head children content, node = .element head children → head.content = some content →
    LaidOut text (head.name :: enclosing) content children
  parted : node.isText = true → ∀ last ∈ current.head?, last.isText = true → last.span.stop < here

variable {closed : Bool} {b : Builder}

theorem Found.nil (h : Span.slice? ⟨here, here⟩ text = some []) :
    Found text enclosing ⟨here, here⟩ closed [] :=
  ⟨laidOut_iff.mpr ⟨.nil h, fun _ _ _ hmem => absurd hmem List.not_mem_nil⟩,
    fun _ _ hmem => absurd hmem List.not_mem_nil⟩

/-- A node is added to what was found. -/
theorem Found.push {current : List Node}
    (h : Found text enclosing ⟨start, here⟩ true current.reverse)
    (hnode : Adds text enclosing here stop current closed node) :
    Found text enclosing ⟨start, stop⟩ closed (node :: current).reverse := by
  obtain ⟨piece, hpiece, hne⟩ := hnode.piece
  obtain ⟨hlayout, hbelow⟩ := laidOut_iff.mp h.laidOut
  -- the nodes are kept in reverse
  have hclosed := h.closed rfl
  rw [List.reverse_cons]
  constructor
  · refine laidOut_iff.mpr ⟨?_, fun head children content hmem hcontent => ?_⟩
    · refine hlayout.push hclosed hpiece hne hnode.span hnode.stands fun htext last hlast => ?_
      rw [List.getLast?_reverse] at hlast
      exact hnode.parted htext last hlast
    · rcases List.mem_append.mp hmem with hmem | hmem
      · exact hbelow head children content hmem hcontent
      · exact hnode.below head children content (List.mem_singleton.mp hmem).symm hcontent
  · intro hall other hother
    rcases List.mem_append.mp hother with hother | hother
    · exact hclosed other hother
    · obtain rfl := List.mem_singleton.mp hother
      exact hnode.closed hall

/-- Adding a node moves the builder behind the node. -/
theorem Builder.Placed.push (h : b.Placed text true here)
    (hnode : Adds text b.names here stop b.current closed node) :
    (b.push node).Placed text closed stop := by
  obtain ⟨_ | ⟨e, outer⟩, roots⟩ := b
  · exact Found.push h hnode
  · obtain ⟨hfound, htag, houter⟩ := h
    exact ⟨Found.push hfound hnode, htag, houter⟩

/-- It need not be known that the last node is closed. -/
theorem Builder.Placed.weaken (h : b.Placed text closed here) : b.Placed text false here := by
  obtain ⟨_ | ⟨e, outer⟩, roots⟩ := b
  · exact ⟨h.laidOut, fun hfalse => nomatch hfalse⟩
  · exact ⟨⟨h.1.laidOut, fun hfalse => nomatch hfalse⟩, h.2⟩

/-- Nothing stands at the place that a builder has come to. -/
theorem Builder.Placed.slice?_here (h : b.Placed text closed here) :
    Span.slice? ⟨here, here⟩ text = some [] := by
  obtain ⟨_ | ⟨e, outer⟩, roots⟩ := b
  · obtain ⟨inside, hinside⟩ := (laidOut_iff.mp h.laidOut).1.whole
    exact slice?_stop hinside
  · obtain ⟨inside, hinside⟩ := (laidOut_iff.mp h.1.laidOut).1.whole
    exact slice?_stop hinside

/-- Closing the innermost open element, by a closing tag or where the element around it ends. -/
theorem Builder.Placed.closeInnermost {piece : List Char} {name : String} {names : List String}
    (h : b.Placed text closed here) (hnames : b.names = name :: names)
    (hpiece : Span.slice? ⟨here, stop⟩ text = some piece)
    (hkind : IsClosingTag name piece ∨ piece = []) :
    (b.closeInnermost here stop).Placed text (!piece.isEmpty) stop := by
  obtain ⟨_ | ⟨e, outer⟩, roots⟩ := b
  · exact nomatch hnames
  obtain ⟨rfl, rfl⟩ := List.cons.inj hnames
  obtain ⟨hfound, ⟨tag, htag, hprefix⟩, houter⟩ := h
  obtain ⟨inside, hinside⟩ := (laidOut_iff.mp hfound.laidOut).1.whole
  -- the element is the tag, what is inside and the closing tag
  have hwhole := slice?_append (slice?_append htag hinside) hpiece
  -- the tag has at least its sign and its name
  have htagNe : tag ≠ [] := fun hnil =>
    absurd (List.prefix_nil.mp (hnil ▸ hprefix)) (List.cons_ne_nil _ _)
  -- it is added to the element around it, which stays placed
  refine Builder.Placed.push (b := ⟨outer, roots⟩) houter
    ⟨rfl, ⟨_, hwhole, by simp [htagNe]⟩, ?_, ?_, ?_, fun htext => nomatch htext⟩
  · exact ⟨⟨tag, htag, hprefix⟩, ⟨inside, hinside⟩, piece, hpiece,
      hkind.imp_right fun h => ⟨h, rfl⟩⟩
  · intro hne content hcontent
    obtain rfl := Option.some.inj hcontent
    exact start_lt_stop_of_slice? hpiece (by simpa using hne)
  · rintro head children content heq hcontent
    obtain ⟨rfl, rfl⟩ := Node.element.inj heq
    obtain rfl := Option.some.inj hcontent
    exact hfound.laidOut

/-- Closing some innermost elements where an element around them ends. -/
theorem Builder.Placed.closeMany {n : Nat} (h : b.Placed text false here)
    (hn : n ≤ b.names.length) :
    (b.closeMany here n).Placed text false here := by
  induction n generalizing b with
  | zero => exact h
  | succ n ih =>
    -- there is still an open element
    obtain ⟨name, names, hnames⟩ :=
      List.exists_cons_of_length_pos (Nat.lt_of_lt_of_le n.succ_pos hn)
    rw [Builder.closeMany]
    refine ih (h.closeInnermost hnames h.slice?_here (.inr rfl)) ?_
    rw [Builder.names_closeInnermost, hnames, List.tail_cons]
    rw [hnames, List.length_cons] at hn
    exact Nat.le_of_succ_le_succ hn

/-- A closing tag that closes nothing is passed over. -/
theorem Found.pass {piece : List Char} {name : String}
    (h : Found text enclosing ⟨start, here⟩ true nodes)
    (hpiece : Span.slice? ⟨here, stop⟩ text = some piece) (htag : IsClosingTag name piece)
    (hname : name ∉ enclosing) : Found text enclosing ⟨start, stop⟩ true nodes := by
  obtain ⟨hlayout, hbelow⟩ := laidOut_iff.mp h.laidOut
  exact ⟨laidOut_iff.mpr ⟨hlayout.pass (h.closed rfl) hpiece htag hname, hbelow⟩, h.closed⟩

/-- Passing over a closing tag that closes nothing. -/
theorem Builder.Placed.pass {piece : List Char} {name : String} (h : b.Placed text true here)
    (hpiece : Span.slice? ⟨here, stop⟩ text = some piece) (htag : IsClosingTag name piece)
    (hname : name ∉ b.names) : b.Placed text true stop := by
  obtain ⟨_ | ⟨e, outer⟩, roots⟩ := b
  · exact Found.pass h hpiece htag hname
  · exact ⟨h.1.pass hpiece htag hname, h.2⟩

/-- Meeting a closing tag: it closes the innermost open element of its name, or it is passed
    over. -/
theorem Builder.Placed.closeNamed {piece : List Char} {name : String} (h : b.Placed text true here)
    (hpiece : Span.slice? ⟨here, stop⟩ text = some piece) (htag : IsClosingTag name piece) :
    (b.closeNamed name ⟨here, stop⟩).Placed text true stop := by
  unfold Builder.closeNamed
  split
  · rename_i hnone
    -- no open element has the name, so that the tag is stray
    have hname : name ∉ b.names := by
      intro hmem
      obtain ⟨e, he, rfl⟩ := List.mem_map.mp hmem
      simpa using List.findIdx?_eq_none_iff.mp hnone e he
    exact h.pass hpiece htag hname
  · rename_i inner hinner
    obtain ⟨hlt, hname, -⟩ := List.findIdx?_eq_some_iff_getElem.mp hinner
    have hlen : inner < b.names.length := by rwa [Builder.names, List.length_map]
    -- behind the elements inside, the innermost one has the name
    have hnames : (b.closeMany here inner).names = name :: b.names.drop (inner + 1) := by
      rw [Builder.names_closeMany, List.drop_eq_getElem_cons hlen]
      congr 1
      simpa [Builder.names] using hname
    have hclosed :=
      (h.weaken.closeMany (Nat.le_of_lt hlen)).closeInnermost hnames hpiece (.inl htag)
    obtain ⟨others, rfl, -, -⟩ := htag.spelled
    exact hclosed

/-! ## Lexemes -/

/-- What was found last is no run of text that goes up to a place. -/
def Builder.IsParted (b : Builder) (here : Nat) : Prop :=
  ∀ last ∈ b.current.head?, last.isText = true → last.span.stop < here

/-- A lexeme that follows moves the builder behind it. -/
theorem Builder.Placed.add {lexeme : Lexeme} {piece : List Char} (h : b.Placed text true here)
    (hspan : lexeme.span = ⟨here, stop⟩) (hpiece : Span.slice? ⟨here, stop⟩ text = some piece)
    (hspells : lexeme.Spells piece) (hparted : lexeme.isText = true → b.IsParted here) :
    (b.add lexeme).Placed text true stop := by
  have hne := hspells.ne_nil
  cases lexeme with
  | text raw span =>
    obtain rfl : span = ⟨here, stop⟩ := hspan
    obtain ⟨rfl, -⟩ := hspells
    exact h.push ⟨rfl, ⟨_, hpiece, hne⟩, hpiece, fun _ => trivial,
      fun _ _ _ heq => (nomatch heq), fun _ => hparted rfl⟩
  | comment data span =>
    obtain rfl : span = ⟨here, stop⟩ := hspan
    obtain rfl := hspells
    exact h.push ⟨rfl, ⟨_, hpiece, hne⟩, hpiece, fun _ => trivial,
      fun _ _ _ heq => (nomatch heq), fun htext => nomatch htext⟩
  | rawBlock block =>
    have hblock : block.span = ⟨here, stop⟩ := hspan
    have hstands : (Node.rawBlock block).Stands text stop := ⟨piece, hblock ▸ hpiece, hspells⟩
    exact h.push ⟨hspan, ⟨_, hpiece, hne⟩, hstands, fun _ => trivial,
      fun _ _ _ heq => (nomatch heq), fun htext => nomatch htext⟩
  | leaf head =>
    obtain ⟨hcontent, hprefix⟩ := hspells
    have hhead : head.span = ⟨here, stop⟩ := hspan
    -- an element without content has no children
    have hstands : (Node.element head []).Stands text stop := by
      simp only [Node.Stands, hcontent, true_and]
      exact ⟨piece, hhead ▸ hpiece, hprefix⟩
    refine h.push ⟨hspan, ⟨_, hpiece, hne⟩, hstands, fun _ content hsome => ?_,
      fun _ _ content heq hsome => ?_, fun htext => nomatch htext⟩
    · exact nomatch hcontent.symm.trans hsome
    · obtain ⟨rfl, -⟩ := Node.element.inj heq
      exact nomatch hcontent.symm.trans hsome
  | opening name attrs span =>
    obtain rfl : span = ⟨here, stop⟩ := hspan
    -- nothing stands in the new element
    exact ⟨.nil (slice?_stop hpiece), ⟨piece, hpiece, hspells⟩, h⟩
  | closing name span =>
    obtain rfl : span = ⟨here, stop⟩ := hspan
    exact h.closeNamed hpiece hspells

/-- Nothing was found behind the place that a builder has come to. -/
theorem Builder.Placed.stop_le (h : b.Placed text closed here) :
    ∀ last ∈ b.current.head?, last.span.stop ≤ here := by
  intro last hlast
  obtain ⟨_ | ⟨e, outer⟩, roots⟩ := b
  · exact ((laidOut_iff.mp h.laidOut).1.ordered.1 last
      (List.mem_reverse.mpr (List.mem_of_mem_head? hlast))).2
  · exact ((laidOut_iff.mp h.1.laidOut).1.ordered.1 last
      (List.mem_reverse.mpr (List.mem_of_mem_head? hlast))).2

/-- Behind a node that is no run of text, no run of text was found last. -/
theorem Builder.isParted_push (b : Builder) (here : Nat) (htext : node.isText = false) :
    (b.push node).IsParted here := by
  intro last hlast
  rw [Builder.current_push] at hlast
  obtain rfl : node = last := Option.some.inj hlast
  rw [htext]
  exact fun hfalse => nomatch hfalse

/-- Behind a lexeme that is no run of text, no run of text was found last. -/
theorem Builder.Placed.isParted_add {lexeme : Lexeme} (h : b.Placed text true here)
    (hlt : here < stop) (htext : lexeme.isText = false) : (b.add lexeme).IsParted stop := by
  cases lexeme with
  | text raw span => exact nomatch htext
  | comment data span => exact b.isParted_push stop rfl
  | rawBlock block => exact b.isParted_push stop rfl
  | leaf head => exact b.isParted_push stop rfl
  | opening name attrs span => exact fun _ hlast => nomatch hlast
  | closing name span =>
    show (b.closeNamed name span).IsParted stop
    unfold Builder.closeNamed
    split
    · -- what was found last stands before the closing tag
      exact fun last hlast _ => Nat.lt_of_le_of_lt (h.stop_le last hlast) hlt
    · rename_i inner hinner
      obtain ⟨hlen, -, -⟩ := List.findIdx?_eq_some_iff_getElem.mp hinner
      have hnames := b.names_closeMany span.start inner
      generalize b.closeMany span.start inner = closedInner at hnames ⊢
      obtain ⟨_ | ⟨e, outer⟩, roots⟩ := closedInner
      · -- the element with the name of the closing tag is still open
        have hdrop := List.drop_eq_nil_iff.mp hnames.symm
        rw [Builder.names, List.length_map] at hdrop
        omega
      · exact Builder.isParted_push ⟨outer, roots⟩ stop rfl

/-- Lexemes that follow move the builder to the end of the text. -/
theorem Builder.Placed.foldl_add {before cs : List Char} {lexemes : List Lexeme}
    (h : b.Placed (before ++ cs) true (byteLength before))
    (hspelling : Spelling (byteLength before) cs lexemes)
    (hparted : lexemes.head?.any Lexeme.isText = true → b.IsParted (byteLength before)) :
    (lexemes.foldl Builder.add b).Placed (before ++ cs) true (byteLength (before ++ cs)) := by
  induction lexemes generalizing b before cs with
  | nil =>
    cases hspelling
    rwa [List.append_nil] at h ⊢
  | cons lexeme lexemes ih =>
    obtain _ | ⟨hpiece, halone, hrest⟩ := hspelling
    rename_i rest piece
    obtain ⟨rfl, hspan, hspells⟩ := hpiece
    have hslice := slice?_of_append before piece rest
    have hlt := start_lt_stop_of_slice? hslice hspells.ne_nil
    -- the lexeme is added, and the others are spelled behind it
    have hstep := h.add hspan hslice hspells hparted
    rw [← byteLength_append] at hstep hrest hlt
    rw [← List.append_assoc] at hstep ⊢
    refine ih hstep hrest fun hnext => ?_
    -- a run of text does not follow another one
    cases htext : lexeme.isText with
    | false => exact h.isParted_add hlt htext
    | true =>
      have hnot := halone htext
      cases lexemes with
      | nil => exact nomatch hnext
      | cons next others =>
        rw [List.head?_cons, Option.any_some] at hnext
        rw [List.head?_cons, Option.all_some, hnext] at hnot
        exact nomatch hnot

/-! ## Forests -/

/-- What is still open at the end of the text is closed there. -/
theorem Builder.Placed.finish {length : Nat} (h : b.Placed text true length) :
    LaidOut text [] ⟨0, length⟩ (b.finish length) := by
  have hlength : b.opened.length = b.names.length := (List.length_map _).symm
  have hend := h.weaken.closeMany (Nat.le_of_eq hlength)
  have hnames := b.names_closeMany length b.opened.length
  rw [hlength, List.drop_length, ← hlength] at hnames
  rw [Builder.finish]
  generalize b.closeMany length b.opened.length = finished at hend hnames ⊢
  obtain ⟨_ | ⟨e, outer⟩, roots⟩ := finished
  · exact hend.laidOut
  · exact nomatch hnames

/-- The forest of a text is laid out in the whole text. -/
theorem laidOut_of_parse {nodes : List Node} (h : parse text = .ok nodes) :
    LaidOut text [] ⟨0, byteLength text⟩ nodes := by
  unfold parse at h
  obtain ⟨lexemes, hlexemes, h⟩ := exists_of_bind_eq_ok h
  obtain rfl := Except.ok.inj h
  have hstart : Builder.empty.Placed ([] ++ text) true (byteLength []) :=
    Found.nil (slice?_of_append [] [] text)
  have hlast := hstart.foldl_add (spelling_of_lexemesFrom hlexemes)
    (fun _ last hlast => nomatch (hlast : last ∈ none))
  exact hlast.finish

/-- In the roots of a forest, and among the children of each of its elements that has content, the
    nodes stand one behind the other in the file or in the content of their parent, and between them
    there is nothing but closing tags that close none of the elements around them.  Only across such
    a tag are two runs of text neighbours.  Every node has the text of its place; an element starts
    with its opening tag, and ends with its closing tag or, without one, where the content of its
    parent or the file ends. -/
theorem parse_layout (h : parse text = .ok nodes) {siblings : List Node}
    (hsiblings : Siblings nodes [] ⟨0, byteLength text⟩ enclosing within siblings) :
    Layout text enclosing within siblings ∧
      (∀ node ∈ siblings, within.start ≤ node.span.start ∧ node.span.stop ≤ within.stop) ∧
      siblings.Pairwise (fun first second =>
        first.span.start < second.span.start ∧ first.span.stop ≤ second.span.start) := by
  have hlayout := laidOut_of_parse h _ _ _ hsiblings
  obtain ⟨hinside, hordered⟩ := hlayout.ordered
  refine ⟨hlayout, hinside, hordered.imp_of_mem fun hfirst _ hle => ⟨?_, hle⟩⟩
  have := hlayout.nonempty _ hfirst
  omega

/-- A list in which a closing tag is stray and others are missing. -/
def sampleMarkup : List Char :=
  "<ul><li>one</b>two<li/><p>three</ul>".toList

/-- The list is read, with one root, and it is laid out. -/
theorem parse_sampleMarkup :
    ∃ nodes, parse sampleMarkup = .ok nodes ∧ nodes.length = 1 ∧
      Layout sampleMarkup [] ⟨0, byteLength sampleMarkup⟩ nodes := by
  have hcheck : (parse sampleMarkup).toOption.any (·.length == 1) = true := by decide +kernel
  obtain ⟨nodes, hparse, hlength⟩ := exists_ok_of_any hcheck
  exact ⟨nodes, hparse, by simpa using hlength, (parse_layout hparse .roots).1⟩

end SvelteStories.Markup
