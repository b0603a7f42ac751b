import SvelteStories.Proofs.Origin

/-!
# Nodes and lexemes in document order

The nodes of a forest, each before those inside it, come in the order of the lexemes that they were
made of: every lexeme but a closing tag made one node, and there are no other nodes.  Where an
element ends is decided later, so that only its mark — its name, its attributes and its start —
comes from its opening tag.

A builder has the marks of what it has closed and of what it has open in this order.  Closing an
element moves its mark from one to the other and changes nothing.

## Key results

- `mem_inOrder_iff`: the nodes in document order are those at any depth
- `Builder.marks_closeInnermost`, `Builder.marks_add`: what one lexeme adds
- `marks_of_parse`: the nodes of a text
- `exists_lexeme_of_among`, `exists_among_of_mark?`: which lexeme made a node, and what a lexeme
  made
-/

namespace SvelteStories.Markup

open Text

variable {text : List Char} {nodes : List Node} {node : Node} {b : Builder}

/-! ## Document order -/

mutual

/-- A node and the nodes inside it, in document order. -/
def Node.inOrder : Node → List Node
  | .element head children => .element head children :: inOrder children
  | .comment data span => [.comment data span]
  | .text raw span => [.text raw span]
  | .rawBlock block => [.rawBlock block]

/-- The nodes of a forest at any depth, in document order. -/
def inOrder : List Node → List Node
  | [] => []
  | node :: rest => node.inOrder ++ inOrder rest

end

theorem Node.inOrder_eq (node : Node) : node.inOrder = node :: Markup.inOrder node.children := by
  cases node <;> rfl

/-- The first node of a forest comes first, then what is inside it, and then the others. -/
theorem inOrder_cons (node : Node) (rest : List Node) :
    inOrder (node :: rest) = node :: (inOrder node.children ++ inOrder rest) := by
  rw [inOrder, Node.inOrder_eq, List.cons_append]

theorem inOrder_append (nodes others : List Node) :
    inOrder (nodes ++ others) = inOrder nodes ++ inOrder others := by
  induction nodes with
  | nil => rfl
  | cons node nodes ih => rw [List.cons_append, inOrder, ih, inOrder, List.append_assoc]

/-- The nodes in document order are those that stand in the forest. -/
theorem mem_inOrder_iff : node ∈ inOrder nodes ↔ Among node nodes := by
  induction nodes using forest_induction with
  | nil => exact iff_of_false List.not_mem_nil not_among_nil
  | cons first rest ihChildren ihRest =>
    rw [inOrder_cons, among_cons, List.mem_cons, List.mem_append, ihChildren, ihRest]

/-! ## Marks -/

/-- What the lexeme of a node tells of the node. -/
inductive Mark
  | text (raw : String) (span : Span)
  | comment (data : String) (span : Span)
  | rawBlock (block : RawBlock)
  | element (name : String) (attributes : List Attribute) (start : Nat)

/-- The mark of an element. -/
def Element.mark (head : Element) : Mark :=
  .element head.name head.attributes head.span.start

/-- The mark of a node. -/
def Node.mark : Node → Mark
  | .element head _ => head.mark
  | .comment data span => .comment data span
  | .text raw span => .text raw span
  | .rawBlock block => .rawBlock block

/-- The mark of the node that a lexeme makes. -/
def Lexeme.mark? : Lexeme → Option Mark
  | .text raw span => some (.text raw span)
  | .comment data span => some (.comment data span)
  | .rawBlock block => some (.rawBlock block)
  | .leaf head => some head.mark
  | .opening name attributes span => some (.element name attributes span.start)
  | .closing _ _ => none

/-- The marks of the nodes of a forest, in document order. -/
def marks (nodes : List Node) : List Mark :=
  (inOrder nodes).map Node.mark

theorem marks_append (nodes others : List Node) :
    marks (nodes ++ others) = marks nodes ++ marks others := by
  rw [marks, inOrder_append, List.map_append, marks, marks]

theorem marks_singleton (node : Node) : marks [node] = node.mark :: marks node.children := by
  rw [marks, inOrder_cons, inOrder, List.append_nil, List.map_cons, marks]

/-- The marks of an open element and of what was found in it. -/
def OpenElement.marks (e : OpenElement) : List Mark :=
  .element e.name e.attributes e.tag.start :: Markup.marks e.children.reverse

/-- The marks of what a builder holds: what it has closed, and then its open elements from the
    outermost one on. -/
def Builder.marks (b : Builder) : List Mark :=
  Markup.marks b.roots.reverse ++ b.opened.reverse.flatMap OpenElement.marks

namespace Builder

/-- A node is added behind all that was found. -/
theorem marks_push (b : Builder) (node : Node) :
    (b.push node).marks = b.marks ++ Markup.marks [node] := by
  obtain ⟨_ | ⟨e, outer⟩, roots⟩ := b
  · simp [push, marks, marks_append]
  · simp [push, marks, OpenElement.marks, marks_append]

/-- Closing an element leaves the marks as they are. -/
theorem marks_closeInnermost (b : Builder) (contentStop stop : Nat) :
    (b.closeInnermost contentStop stop).marks = b.marks := by
  obtain ⟨_ | ⟨e, outer⟩, roots⟩ := b
  · rfl
  · -- the element that gets closed has the marks it had when it was open
    have hclosed : Markup.marks [e.close contentStop stop] = e.marks := marks_singleton _
    rw [closeInnermost, marks_push, hclosed]
    simp [marks]

/-- Closing some elements leaves the marks as they are. -/
theorem marks_closeMany (b : Builder) (stop n : Nat) : (b.closeMany stop n).marks = b.marks := by
  induction n generalizing b with
  | zero => rfl
  | succ n ih => rw [closeMany, ih, marks_closeInnermost]

/-- A lexeme adds its mark behind the others. -/
theorem marks_add (b : Builder) (lexeme : Lexeme) :
    (b.add lexeme).marks = b.marks ++ lexeme.mark?.toList := by
  cases lexeme with
  | text raw span => exact b.marks_push _
  | comment data span => exact b.marks_push _
  | rawBlock block => exact b.marks_push _
  | leaf head => exact b.marks_push _
  | opening name attributes span =>
    simp [add, marks, OpenElement.marks, Lexeme.mark?, Markup.marks, inOrder]
  | closing name span =>
    -- a closing tag makes no node
    rw [Lexeme.mark?, Option.toList_none, List.append_nil]
    show (b.closeNamed name span).marks = b.marks
    unfold closeNamed
    split
    · rfl
    · rw [marks_closeInnermost, marks_closeMany]

/-- Lexemes add their marks one behind the other. -/
theorem marks_foldl_add (b : Builder) (lexemes : List Lexeme) :
    (lexemes.foldl add b).marks = b.marks ++ lexemes.filterMap Lexeme.mark? := by
  induction lexemes generalizing b with
  | nil => rw [List.foldl_nil, List.filterMap_nil, List.append_nil]
  | cons lexeme lexemes ih =>
    rw [List.foldl_cons, ih, marks_add, List.append_assoc, List.filterMap_cons]
    cases lexeme.mark? <;> rfl

/-- What is open at the end is closed there, and its marks stay where they are. -/
theorem marks_finish (b : Builder) (length : Nat) : Markup.marks (b.finish length) = b.marks := by
  have hlength : b.opened.length = b.names.length := (List.length_map _).symm
  have hnames := b.names_closeMany length b.names.length
  rw [List.drop_length] at hnames
  have hmarks := b.marks_closeMany length b.names.length
  rw [finish, hlength, ← hmarks]
  generalize b.closeMany length b.names.length = finished at hnames
  obtain ⟨opened, roots⟩ := finished
  obtain rfl : opened = [] := List.map_eq_nil_iff.mp hnames
  simp [marks]

end Builder

/-- The nodes of a text come in the order of its lexemes, one for each that is no closing tag. -/
theorem marks_of_parse (h : parse text = .ok nodes) : ∃ lexemes, Markup.lexemes text = .ok lexemes ∧
    marks nodes = lexemes.filterMap Lexeme.mark? := by
  obtain ⟨lexemes, hlexemes, h⟩ := exists_of_bind_eq_ok h
  obtain rfl := Except.ok.inj h
  refine ⟨lexemes, hlexemes, ?_⟩
  rw [forest, Builder.marks_finish, Builder.marks_foldl_add]
  rfl

variable {lexemes : List Lexeme}

/-- A node of a text was made of one of its lexemes. -/
theorem exists_lexeme_of_among (h : parse text = .ok nodes)
    (hlexemes : Markup.lexemes text = .ok lexemes)
    (hnode : Among node nodes) : ∃ lexeme ∈ lexemes, lexeme.mark? = some node.mark := by
  obtain ⟨lexemes', hlexemes', hmarks⟩ := marks_of_parse h
  obtain rfl := Except.ok.inj (hlexemes.symm.trans hlexemes')
  have hmark : node.mark ∈ marks nodes := List.mem_map_of_mem (mem_inOrder_iff.mpr hnode)
  rw [hmarks] at hmark
  exact List.mem_filterMap.mp hmark

/-- What a lexeme of a text makes stands in the forest. -/
theorem exists_among_of_mark? {lexeme : Lexeme} {mark : Mark} (h : parse text = .ok nodes)
    (hlexemes : Markup.lexemes text = .ok lexemes) (hlexeme : lexeme ∈ lexemes)
    (hmark : lexeme.mark? = some mark) : ∃ node, Among node nodes ∧ node.mark = mark := by
  obtain ⟨lexemes', hlexemes', hmarks⟩ := marks_of_parse h
  obtain rfl := Except.ok.inj (hlexemes.symm.trans hlexemes')
  have hmem : mark ∈ marks nodes := hmarks ▸ List.mem_filterMap.mpr ⟨lexeme, hlexeme, hmark⟩
  obtain ⟨node, hnode, rfl⟩ := List.mem_map.mp hmem
  exact ⟨node, mem_inOrder_iff.mp hnode, rfl⟩

end SvelteStories.Markup
