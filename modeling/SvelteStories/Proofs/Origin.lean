import SvelteStories.Proofs.Bytes
import SvelteStories.Proofs.StoryPlaces

/-!
# Where the nodes of a forest come from

Every node of a forest was put there for a lexeme of the text, an element for its opening tag.  The
builder keeps this for the roots and for the children of each open element.  A lexeme in turn is
what was read at some place of the text, so that what is known of the readers is known of the nodes.

## Key results

- `Builder.ComesFrom.foldl_add`: what adding lexemes keeps
- `exists_readLexeme`: where a lexeme was read
- `comesFrom_of_parse`, `layout_of_parse`: all nodes of a forest, at any depth
-/

namespace SvelteStories.Markup

open Text

variable {text cs : List Char} {nodes children : List Node} {node : Node} {path : List Nat}
  {lexemes : List Lexeme} {b : Builder} {here : Nat}

/-! ## Nodes at any depth -/

/-- A node stands in a forest, at any depth. -/
inductive Among (node : Node) : List Node → Prop
  | here {nodes : List Node} (hmem : node ∈ nodes) : Among node nodes
  | inside {nodes children : List Node} {head : Element} (hmem : .element head children ∈ nodes)
    (h : Among node children) : Among node nodes

theorem not_among_nil : ¬ Among node [] := by
  rintro (hmem | hmem) <;> exact absurd hmem List.not_mem_nil

/-- What stands among some nodes stands among more of them. -/
theorem Among.mono {others : List Node} (h : Among node nodes) (hsubset : nodes ⊆ others) :
    Among node others := by
  cases h with
  | here hmem => exact .here (hsubset hmem)
  | inside hmem hchildren => exact .inside (hsubset hmem) hchildren

/-- What stands below a node of a forest stands in the forest. -/
theorem Among.of_children {other : Node} (hmem : other ∈ nodes) (h : Among node other.children) :
    Among node nodes := by
  cases other with
  | element head children => exact .inside hmem h
  | comment data span => exact absurd h not_among_nil
  | text raw span => exact absurd h not_among_nil
  | rawBlock block => exact absurd h not_among_nil

/-- What stands among the nodes of a list is the first one, below it or among the others. -/
theorem among_cons {other : Node} :
    Among node (other :: nodes) ↔ node = other ∨ Among node other.children ∨ Among node nodes := by
  constructor
  · intro h
    cases h with
    | here hmem => exact (List.mem_cons.mp hmem).imp_right fun h => .inr (.here h)
    | inside hmem hchildren =>
      rcases List.mem_cons.mp hmem with rfl | hmem
      · exact .inr (.inl hchildren)
      · exact .inr (.inr (.inside hmem hchildren))
  · rintro (rfl | h | h)
    · exact .here List.mem_cons_self
    · exact .of_children List.mem_cons_self h
    · exact h.mono (List.subset_cons_self other nodes)

/-- The node at a path stands in the forest. -/
theorem among_of_nodeAt? (h : nodeAt? nodes path = some node) : Among node nodes := by
  induction path generalizing nodes with
  | nil => simp at h
  | cons index path ih =>
    cases path with
    | nil => exact .here (List.mem_of_getElem? h)
    | cons next path =>
      obtain ⟨parent, hparent, hbelow⟩ := Option.bind_eq_some_iff.mp h
      exact .of_children (List.mem_of_getElem? hparent) (ih hbelow)

/-! ## Lexemes of nodes -/

/-- A node was put into the forest for one of the lexemes. -/
def Node.ComesFrom (lexemes : List Lexeme) : Node → Prop
  | .text raw span => .text raw span ∈ lexemes
  | .comment data span => .comment data span ∈ lexemes
  | .rawBlock block => .rawBlock block ∈ lexemes
  | .element head _ =>
    .leaf head ∈ lexemes ∨ ∃ tag, .opening head.name head.attributes tag ∈ lexemes

/-- All nodes of a forest were put there for lexemes. -/
def AllComeFrom (lexemes : List Lexeme) (nodes : List Node) : Prop :=
  ∀ node, Among node nodes → node.ComesFrom lexemes

theorem allComeFrom_nil (lexemes : List Lexeme) : AllComeFrom lexemes [] :=
  fun _ h => absurd h not_among_nil

theorem allComeFrom_cons :
    AllComeFrom lexemes (node :: nodes) ↔
      node.ComesFrom lexemes ∧ AllComeFrom lexemes node.children ∧ AllComeFrom lexemes nodes := by
  simp only [AllComeFrom, among_cons, or_imp, forall_and, forall_eq]

/-- It makes no difference in which order the nodes were found. -/
theorem AllComeFrom.reverse (h : AllComeFrom lexemes nodes) : AllComeFrom lexemes nodes.reverse :=
  fun other hother => h other (hother.mono fun _ hmem => List.mem_reverse.mp hmem)

/-- What a builder holds was put there for lexemes. -/
structure Builder.ComesFrom (lexemes : List Lexeme) (b : Builder) : Prop where
  roots : AllComeFrom lexemes b.roots
  opened : ∀ e ∈ b.opened, .opening e.name e.attributes e.tag ∈ lexemes ∧
    AllComeFrom lexemes e.children

namespace Builder.ComesFrom

/-- A node that comes from the lexemes is added. -/
theorem push (h : b.ComesFrom lexemes) (hnode : node.ComesFrom lexemes)
    (hbelow : AllComeFrom lexemes node.children) : (b.push node).ComesFrom lexemes := by
  obtain ⟨_ | ⟨e, outer⟩, roots⟩ := b
  · exact ⟨allComeFrom_cons.mpr ⟨hnode, hbelow, h.roots⟩, h.opened⟩
  · obtain ⟨⟨htag, hchildren⟩, houter⟩ := List.forall_mem_cons.mp h.opened
    exact ⟨h.roots, List.forall_mem_cons.mpr
      ⟨⟨htag, allComeFrom_cons.mpr ⟨hnode, hbelow, hchildren⟩⟩, houter⟩⟩

/-- A closed element comes from the lexeme of its opening tag. -/
theorem closeInnermost (h : b.ComesFrom lexemes) (contentStop stop : Nat) :
    (b.closeInnermost contentStop stop).ComesFrom lexemes := by
  obtain ⟨_ | ⟨e, outer⟩, roots⟩ := b
  · exact h
  · obtain ⟨⟨htag, hchildren⟩, houter⟩ := List.forall_mem_cons.mp h.opened
    exact push ⟨h.roots, houter⟩ (.inr ⟨e.tag, htag⟩) hchildren.reverse

/-- Some elements are closed. -/
theorem closeMany (h : b.ComesFrom lexemes) (stop n : Nat) :
    (b.closeMany stop n).ComesFrom lexemes := by
  induction n generalizing b with
  | zero => exact h
  | succ n ih => exact ih (h.closeInnermost stop stop)

/-- A lexeme is added. -/
theorem add {lexeme : Lexeme} (h : b.ComesFrom lexemes) (hlexeme : lexeme ∈ lexemes) :
    (b.add lexeme).ComesFrom lexemes := by
  cases lexeme with
  | text raw span => exact h.push hlexeme (allComeFrom_nil lexemes)
  | comment data span => exact h.push hlexeme (allComeFrom_nil lexemes)
  | rawBlock block => exact h.push hlexeme (allComeFrom_nil lexemes)
  | leaf head => exact h.push (.inl hlexeme) (allComeFrom_nil lexemes)
  | opening name attributes span =>
    exact ⟨h.roots, List.forall_mem_cons.mpr ⟨⟨hlexeme, allComeFrom_nil lexemes⟩, h.opened⟩⟩
  | closing name span =>
    -- a closing tag closes elements, or it is passed over
    show (b.closeNamed name span).ComesFrom lexemes
    unfold closeNamed
    split
    · exact h
    · exact (h.closeMany _ _).closeInnermost _ _

/-- Some of the lexemes are added, one after the other. -/
theorem foldl_add (h : b.ComesFrom lexemes) {added : List Lexeme} (hadded : added ⊆ lexemes) :
    (added.foldl Builder.add b).ComesFrom lexemes := by
  induction added generalizing b with
  | nil => exact h
  | cons lexeme added ih =>
    obtain ⟨hlexeme, hrest⟩ := List.cons_subset.mp hadded
    exact ih (h.add hlexeme) hrest

end Builder.ComesFrom

/-! ## Where lexemes are read -/

/-- What is read from one place of a text up to another one spans their offsets. -/
theorem spanFrom_offsetOf {rest : List Char} (hrest : rest <:+ cs) (h : cs <:+ text) :
    spanFrom cs rest (offsetOf text cs) = ⟨offsetOf text cs, offsetOf text rest⟩ := by
  rw [spanFrom, ← offsetOf_suffix hrest h]

/-- A lexeme was read at the place of the text where its span starts. -/
theorem exists_readLexeme (hcs : cs <:+ text)
    (h : lexemesFrom cs (offsetOf text cs) = .ok lexemes) :
    ∀ lexeme ∈ lexemes, ∃ start rest, start <:+ text ∧ start ≠ [] ∧
      lexeme.span.start = offsetOf text start ∧
      readLexeme start (offsetOf text start) = .ok (lexeme, rest) := by
  generalize hhere : offsetOf text cs = here at h
  fun_induction lexemesFrom cs here generalizing lexemes with
  | case1 =>
    obtain rfl := Except.ok.inj h
    exact fun _ hmem => absurd hmem List.not_mem_nil
  | case2 => cases h
  | case3 here c cs lexeme rest hread ih =>
    have hne : c :: cs ≠ [] := List.cons_ne_nil c cs
    obtain ⟨others, hothers, h⟩ := exists_of_bind_eq_ok h
    obtain rfl := Except.ok.inj h
    -- the lexeme takes the piece that spells it
    obtain ⟨⟨piece, hpiece⟩, -⟩ := piece_of_readLexeme hne hread
    have hsuffix : rest <:+ c :: cs := ⟨piece, hpiece.split.symm⟩
    -- the next lexeme is read where this one stops
    have hstop : offsetOf text rest = lexeme.span.stop := by
      rw [offsetOf_suffix hsuffix hcs, hhere, hpiece.span, hpiece.split, consumed_append_self]
    refine List.forall_mem_cons.mpr ⟨⟨c :: cs, rest, hcs, hne, ?_, hhere ▸ hread⟩, ?_⟩
    · rw [hhere, hpiece.span]
    · exact ih (hsuffix.trans hcs) hstop hothers

/-! ## Forests -/

/-- The nodes of the forest of a text were read in it. -/
theorem comesFrom_of_parse (h : parse text = .ok nodes) (hnode : Among node nodes) :
    ∃ lexemes, node.ComesFrom lexemes ∧ ∀ lexeme ∈ lexemes, ∃ start rest,
      start <:+ text ∧ start ≠ [] ∧
      lexeme.span.start = offsetOf text start ∧
      readLexeme start (offsetOf text start) = .ok (lexeme, rest) := by
  obtain ⟨lexemes, hlexemes, h⟩ := exists_of_bind_eq_ok h
  obtain rfl := Except.ok.inj h
  have hstart : Builder.empty.ComesFrom lexemes :=
    ⟨allComeFrom_nil lexemes, fun _ hmem => absurd hmem List.not_mem_nil⟩
  -- in the end the elements that are still open are closed
  have hbuilt := (hstart.foldl_add (List.Subset.refl lexemes)).closeMany (byteLength text)
    (lexemes.foldl Builder.add .empty).opened.length
  refine ⟨lexemes, hbuilt.roots.reverse node hnode, exists_readLexeme (List.suffix_refl text) ?_⟩
  rwa [offsetOf_self]

/-- A node of a laid out forest stands among siblings that are laid out. -/
theorem Among.exists_layout {outer : List String} {whole : Span} (h : Among node nodes)
    (hlaidOut : LaidOut text outer whole nodes) :
    ∃ enclosing within siblings, LaidOut text enclosing within siblings ∧ node ∈ siblings := by
  induction h generalizing outer whole with
  | here hmem => exact ⟨outer, whole, _, hlaidOut, hmem⟩
  | @inside nodes children head hmem hchildren ih =>
    obtain ⟨hlayout, hbelow⟩ := laidOut_iff.mp hlaidOut
    have hstands := hlayout.stands _ hmem
    rw [Node.Stands] at hstands
    cases hcontent : head.content with
    | none =>
      simp only [hcontent] at hstands
      -- an element without content has no children
      rw [hstands.1] at hchildren
      exact absurd hchildren not_among_nil
    | some content => exact ih (hbelow head children content hmem hcontent)

/-- A node of the forest of a text stands among siblings that are laid out. -/
theorem layout_of_parse (h : parse text = .ok nodes) (hnode : Among node nodes) :
    ∃ enclosing within siblings, LaidOut text enclosing within siblings ∧ node ∈ siblings :=
  hnode.exists_layout (laidOut_of_parse h)

end SvelteStories.Markup
