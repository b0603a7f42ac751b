import SvelteStories.Proofs.Lookups

/-!
# Outlines

What is looked up in a module — its imports, its meta declaration, the story binding, the shape of a
call — is found without looking into an object literal and without regard to positions.  The
*outline* of a node leaves out both; two nodes with the same outline are the same to every lookup.
An edit of the properties of object literals keeps outlines, so it keeps all that was found.

## Key results

- `outline_mk_congr`: nodes that differ in the outlines of their parts only
- `storyCallShape?_outline`, `declaresMeta_outline`, `storyBinding?_outline`: the lookups in a node
- `metaImport?_congr`, `hasRuntimeImport_congr`: the lookups in a module
-/

namespace SvelteStories.Script

namespace Node

mutual

/-- A node without spans and without the properties of object literals. -/
def outline : Node → Node
  | mk .object _ _ => made .object []
  | mk kind _ parts => made kind (outlineAmong parts)

/-- The outlines of the given nodes. -/
def outlineAmong : List Node → List Node
  | [] => []
  | node :: rest => node.outline :: outlineAmong rest

end

theorem outlineAmong_eq_map (nodes : List Node) : outlineAmong nodes = nodes.map outline := by
  induction nodes with
  | nil => rfl
  | cons node rest ih => rw [outlineAmong, ih, List.map_cons]

/-- The outline of any node but an object literal keeps its kind and goes on in its parts. -/
theorem outline_mk {kind : Kind} (h : kind ≠ .object) (span : Text.Span) (parts : List Node) :
    (mk kind span parts).outline = made kind (parts.map outline) := by
  rw [← outlineAmong_eq_map]
  cases kind <;> first | rfl | exact absurd rfl h

/-- Nodes that differ in their spans and in the outlines of their parts only have the same
    outline. -/
theorem outline_mk_congr (kind : Kind) (span span' : Text.Span) {parts parts' : List Node}
    (h : parts.map outline = parts'.map outline) :
    (mk kind span parts).outline = (mk kind span' parts').outline := by
  by_cases hk : kind = .object
  · subst hk
    rfl
  · rw [outline_mk hk, outline_mk hk, h]

/-- An outline keeps the kind, also of an object literal. -/
@[simp] theorem kind_outline (node : Node) : node.outline.kind = node.kind := by
  obtain ⟨kind, span, parts⟩ := node
  by_cases hk : kind = .object
  · subst hk
    rfl
  · rw [outline_mk hk]
    rfl

/-! ## Lookups -/

/-- Outlines keep names, so that lookups find the same in them. -/
theorem keepsNames_outline : KeepsNames outline where
  kind := kind_outline
  parts _ span parts hobject _ := ⟨_, outline_mk hobject span parts⟩

@[simp] theorem isReference_outline (name : String) (node : Node) :
    node.outline.isReference name = node.isReference name :=
  keepsNames_outline.isReference_map name node

/-- A node and its outline declare the metadata alike. -/
@[simp] theorem declaresMeta_outline (bound : String) (statement : Node) :
    statement.outline.declaresMeta bound = statement.declaresMeta bound := by
  unfold declaresMeta
  rw [keepsNames_outline.firstDeclarator?_map]
  rcases statement.firstDeclarator? with _ | ⟨pattern, ⟨kind, span, parts⟩⟩
  · rfl
  cases kind <;> try rfl
  rcases parts with _ | ⟨callee, arguments⟩
  · rfl
  -- only the callee of the declared value is looked at
  show (callee.outline.isReference bound || callee.outline.isReference metaFunction) = _
  rw [isReference_outline, isReference_outline]

/-- A declaration and its outline bind the same story component. -/
@[simp] theorem storyBinding?_outline (declaration : Node) :
    declaration.outline.storyBinding? = declaration.storyBinding? :=
  keepsNames_outline.storyBinding?_map declaration

/-- A call and its outline have the same shape, as shapes do not depend on what object literals
    hold. -/
@[simp] theorem callShape?_outline (component : String) (node : Node) :
    node.outline.callShape? component = node.callShape? component := by
  obtain ⟨kind, span, parts⟩ := node
  cases kind <;> try rfl
  rcases parts with _ | ⟨callee, arguments⟩
  · rfl
  rw [outline_mk (by simp)]
  simp only [made, List.map_cons, callShape?, isReference_outline]
  split
  · rfl
  · -- the callee decides: it has to be a call itself
    obtain ⟨inner, calleeSpan, calleeParts⟩ := callee
    cases inner <;> try rfl
    rw [outline_mk (by simp)]
    rcases calleeParts with _ | ⟨function, _ | ⟨argument, others⟩⟩ <;> try rfl
    simp only [made, List.map_cons, keepsNames_outline.validates_map, isReference_outline]

/-- A statement and its outline are story calls of the same shape. -/
@[simp] theorem storyCallShape?_outline (component : String) (node : Node) :
    node.outline.storyCallShape? component = node.storyCallShape? component := by
  obtain ⟨kind, span, parts⟩ := node
  cases kind <;> try rfl
  -- a call, and a statement that may be one
  · rename_i optional
    exact callShape?_outline component (mk (.call optional) span parts)
  · rcases parts with _ | ⟨inner, _ | ⟨_, _⟩⟩ <;> try rfl
    rw [outline_mk (by simp)]
    simp only [made, List.map_cons, List.map_nil, storyCallShape?, callShape?_outline]

end Node

namespace Module

variable {module other : Module}

/-- The meta import is found in the outlines of the statements. -/
theorem metaImport?_congr (package : String)
    (h : module.statements.map Node.outline = other.statements.map Node.outline) :
    module.metaImport? package = other.metaImport? package :=
  metaImport?_of_map Node.keepsNames_outline package h

/-- The runtime import is found in the outlines of the statements. -/
theorem hasRuntimeImport_congr (package : String)
    (h : module.statements.map Node.outline = other.statements.map Node.outline) :
    module.hasRuntimeImport package = other.hasRuntimeImport package :=
  hasRuntimeImport_of_map Node.keepsNames_outline package h

end Module

end SvelteStories.Script
