import SvelteStories.Edit.RuntimeImport
import SvelteStories.Story.Call

/-!
# Lookups through maps of nodes

What is looked up by name in a module — its imports, the declarators, the story binding — is found
in nodes of a few kinds.  A map that goes through these nodes part by part and does something to the
names of variables finds the same, up to what it does to names.  A map that keeps all kinds and goes
through all nodes but calls and object literals finds the same names.

## Key results

- `CarriesNames.firstDeclarator?_map`, `CarriesNames.storyBinding?_map`: in a declaration
- `CarriesNames.metaImport?_map`, `CarriesNames.hasRuntimeImport_map`: in the statements of a module
- `Module.metaImport?_of_map`, `Module.hasRuntimeImport_of_map`: in modules with the same image
-/

namespace SvelteStories.Script

open Text

namespace Node

/-- A map of nodes that keeps kinds and maps the parts of all nodes but calls and object literals
    one by one. -/
structure KeepsNames (φ : Node → Node) : Prop where
  kind : ∀ node, (φ node).kind = node.kind
  parts : ∀ kind span parts, kind ≠ .object → (∀ optional, kind ≠ .call optional) →
    ∃ span', φ (mk kind span parts) = mk kind span' (parts.map φ)

/-- Whether a node refers to a name depends on its kind alone. -/
theorem isReference_congr {node other : Node} (h : node.kind = other.kind) (name : String) :
    node.isReference name = other.isReference name := by
  obtain ⟨kind, _, _⟩ := node
  obtain ⟨kind', _, _⟩ := other
  obtain rfl : kind = kind' := h
  cases kind <;> rfl

/-- The name that a node exports depends on its kind alone. -/
theorem exportedName?_congr {node other : Node} (h : node.kind = other.kind) :
    node.exportedName? = other.exportedName? := by
  obtain ⟨kind, _, _⟩ := node
  obtain ⟨kind', _, _⟩ := other
  obtain rfl : kind = kind' := h
  cases kind <;> rfl

/-- The name that a node binds itself. -/
def bindingName? (node : Node) : Option String :=
  match node.kind with
  | .binding name => some name
  | _ => none

/-- The value of a plain fixed name. -/
def nameText? (node : Node) : Option String :=
  match node.kind with
  | .name text => some text
  | _ => none

/-- The pattern and the value of a declarator. -/
def declarator? : Node → Option (Node × Node)
  | mk .declarator _ [pattern, value] => some (pattern, value)
  | _ => none

/-- The properties of an object pattern. -/
def boundProperties? : Node → Option (List Node)
  | mk .objectPattern _ properties => some properties
  | _ => none

/-! ## Lookups in terms of the kinds of parts -/

/-- A named import has two parts: the name in the other module, and the name that it is bound to. -/
theorem importedAs?_mk (imported : String) (span : Span) (parts : List Node) :
    (mk .importNamed span parts).importedAs? imported =
      match parts with
      | [name, bound] => if name.exportedName? == some imported then bound.bindingName? else none
      | _ => none := by
  rcases parts with _ | ⟨name, _ | ⟨⟨bound, _, _⟩, _ | ⟨_, _⟩⟩⟩
  all_goals try cases bound
  all_goals simp [importedAs?, bindingName?, kind]

/-- A named import binds its second part. -/
theorem importsAs_mk (local_ : String) (span : Span) (parts : List Node) :
    (mk .importNamed span parts).importsAs local_ =
      match parts with
      | [_, bound] => bound.bindingName? == some local_
      | _ => false := by
  rcases parts with _ | ⟨name, _ | ⟨⟨bound, _, _⟩, _ | ⟨_, _⟩⟩⟩
  all_goals try cases bound
  all_goals simp [importsAs, bindingName?, kind]

/-- Only the first declarator of a declaration counts. -/
theorem firstDeclarator?_mk (word : DeclarationWord) (span : Span) (parts : List Node) :
    (mk (.declaration word) span parts).firstDeclarator? = parts.head?.bind (·.declarator?) := by
  rcases parts with _ | ⟨⟨first, _, _ | ⟨pattern, _ | ⟨value, _ | ⟨_, _⟩⟩⟩⟩, rest⟩
  all_goals try cases first
  all_goals rfl

/-- The story binding, as three lookups one after the other: the first declarator, the first of its
    properties that binds `Story`, and the name that this one binds. -/
theorem storyBinding?_eq (declaration : Node) :
    declaration.storyBinding? = declaration.firstDeclarator?.bind fun (pattern, _) =>
      pattern.boundProperties?.bind fun properties =>
        (properties.findSome? (·.boundUnder? storyComponent)).bind (·.boundName?) := by
  unfold storyBinding?
  rcases declaration.firstDeclarator? with _ | ⟨⟨kind, span, properties⟩, value⟩
  · rfl
  · cases kind <;> rfl

/-- A pattern with a default binds what the pattern without the default is, if that is a name. -/
theorem boundName?_mk (span : Span) (parts : List Node) :
    (mk .defaulted span parts).boundName? =
      match parts with
      | [target, _] => target.bindingName?
      | _ => none := by
  rcases parts with _ | ⟨⟨target, _, _⟩, _ | ⟨value, _ | ⟨_, _⟩⟩⟩
  all_goals try cases target
  all_goals rfl

/-- A property of an object pattern is found under its fixed name. -/
theorem boundUnder?_mk (key : String) (span : Span) (parts : List Node) :
    (mk (.boundProperty false) span parts).boundUnder? key =
      match parts with
      | [name, pattern] => if name.nameText? == some key then some pattern else none
      | _ => none := by
  rcases parts with _ | ⟨⟨name, _, _⟩, _ | ⟨pattern, _ | ⟨_, _⟩⟩⟩
  all_goals try cases name
  all_goals simp [boundUnder?, nameText?, kind]

/-- A member is the validating function if this is its name, whatever it is a member of. -/
theorem validates_mk (optional : Bool) (span : Span) (parts : List Node) :
    (mk (.member optional) span parts).validates =
      match parts with
      | [_, name] => name.nameText? == some validatingFunction
      | _ => false := by
  rcases parts with _ | ⟨_, _ | ⟨⟨name, _, _⟩, _ | ⟨_, _⟩⟩⟩
  all_goals try cases name
  all_goals simp [validates, nameText?, kind, isReference]

/-! ## Maps that carry names -/

/-- Whether the lookups look at the parts of nodes of a kind. -/
def isSearched (node : Node) : Bool :=
  match node.kind with
  | .import .. | .importNamed | .declaration _ | .declarator | .objectPattern | .boundProperty _
  | .defaulted | .member _ => true
  | _ => false

/-- A map of nodes that does `ν` to the names that are bound, keeps fixed names, and maps the parts
    of the nodes that are searched one by one. -/
structure CarriesNames (ν : String → String) (φ : Node → Node) : Prop where
  bindingName?_map : ∀ node, (φ node).bindingName? = node.bindingName?.map ν
  nameText?_map : ∀ node, (φ node).nameText? = node.nameText?
  exportedName?_map : ∀ node, (φ node).exportedName? = node.exportedName?
  searched : ∀ kind span parts, (mk kind span parts).isSearched = true →
    ∃ span', φ (mk kind span parts) = mk kind span' (parts.map φ)
  other : ∀ node, node.isSearched = false → (φ node).isSearched = false

/-! Nothing is found in a node of another kind. -/

section Other

variable {node : Node} (h : node.isSearched = false)

include h

/-- A node that is not searched imports nothing. -/
theorem importedAs?_of_other (imported : String) : node.importedAs? imported = none := by
  obtain ⟨kind, span, parts⟩ := node
  cases kind <;> first | rfl | exact nomatch h

/-- A node that is not searched imports nothing under any name. -/
theorem importsAs_of_other (bound : String) : node.importsAs bound = false := by
  obtain ⟨kind, span, parts⟩ := node
  cases kind <;> first | rfl | exact nomatch h

/-- A node that is not searched has no import specifiers. -/
theorem specifiersFrom_of_other (source : String) : node.specifiersFrom source = [] := by
  obtain ⟨kind, span, parts⟩ := node
  cases kind <;> first | rfl | exact nomatch h

/-- A node that is not searched declares nothing. -/
theorem firstDeclarator?_of_other : node.firstDeclarator? = none := by
  obtain ⟨kind, span, parts⟩ := node
  cases kind <;> first | rfl | exact nomatch h

/-- A node that is not searched is no declarator. -/
theorem declarator?_of_other : node.declarator? = none := by
  obtain ⟨kind, span, parts⟩ := node
  cases kind <;> first | rfl | exact nomatch h

/-- A node that is not searched is no object pattern. -/
theorem boundProperties?_of_other : node.boundProperties? = none := by
  obtain ⟨kind, span, parts⟩ := node
  cases kind <;> first | rfl | exact nomatch h

/-- A node that is not searched binds at most its own name. -/
theorem boundName?_of_other : node.boundName? = node.bindingName? := by
  obtain ⟨kind, span, parts⟩ := node
  cases kind <;> first | rfl | exact nomatch h

/-- A node that is not searched is no property of an object pattern. -/
theorem boundUnder?_of_other (key : String) : node.boundUnder? key = none := by
  obtain ⟨kind, span, parts⟩ := node
  cases kind <;> first | rfl | exact nomatch h

/-- A node that is not searched is the validating function only as a reference to it. -/
theorem validates_of_other : node.validates = node.isReference validatingFunction := by
  obtain ⟨kind, span, parts⟩ := node
  cases kind <;> first | rfl | exact nomatch h

end Other

namespace CarriesNames

variable {ν : String → String} {φ : Node → Node}

/-- What is imported is found, under the name that the map gives it. -/
theorem importedAs?_map (hφ : CarriesNames ν φ) (imported : String) (node : Node) :
    (φ node).importedAs? imported = (node.importedAs? imported).map ν := by
  cases hs : node.isSearched with
  | false => rw [importedAs?_of_other hs, importedAs?_of_other (hφ.other node hs)]; rfl
  | true =>
    obtain ⟨kind, span, parts⟩ := node
    obtain ⟨span', himage⟩ := hφ.searched kind span parts hs
    rw [himage]
    cases kind <;> try rfl
    rw [importedAs?_mk, importedAs?_mk]
    -- the name that counts is exported, so that it is kept, and the bound one is mapped
    rcases parts with _ | ⟨name, _ | ⟨bound, _ | ⟨_, _⟩⟩⟩ <;> try rfl
    simp only [List.map_cons, List.map_nil, hφ.exportedName?_map, hφ.bindingName?_map]
    split <;> rfl

/-- An imported name is bound to a name that the map keeps, and to which it takes no other one. -/
theorem importsAs_map (hφ : CarriesNames ν φ) {bound : String}
    (hν : ∀ name, ν name = bound ↔ name = bound) (node : Node) :
    (φ node).importsAs bound = node.importsAs bound := by
  cases hs : node.isSearched with
  -- neither the node nor its image is searched
  | false => rw [importsAs_of_other hs, importsAs_of_other (hφ.other node hs)]
  | true =>
    obtain ⟨kind, span, parts⟩ := node
    obtain ⟨span', himage⟩ := hφ.searched kind span parts hs
    rw [himage]
    -- of the kinds that are searched only a named import binds imported names
    cases kind <;> try rfl
    rw [importsAs_mk, importsAs_mk]
    rcases parts with _ | ⟨name, _ | ⟨local_, _ | ⟨_, _⟩⟩⟩ <;> try rfl
    simp only [List.map_cons, List.map_nil, hφ.bindingName?_map]
    cases local_.bindingName? with
    | none => rfl
    | some name =>
      -- two names are equal exactly if their images are
      rw [Bool.eq_iff_iff]
      simp only [Option.map_some, beq_iff_eq, Option.some_inj, hν]

theorem validates_map (hφ : CarriesNames ν φ)
    (h : ∀ node, (φ node).isReference validatingFunction = node.isReference validatingFunction)
    (node : Node) : (φ node).validates = node.validates := by
  cases hs : node.isSearched with
  | false => rw [validates_of_other hs, validates_of_other (hφ.other node hs), h]
  | true =>
    obtain ⟨kind, span, parts⟩ := node
    obtain ⟨span', himage⟩ := hφ.searched kind span parts hs
    rw [himage]
    cases kind <;> try rfl
    rw [validates_mk, validates_mk]
    rcases parts with _ | ⟨object, _ | ⟨name, _ | ⟨_, _⟩⟩⟩ <;> try rfl
    simp only [List.map_cons, List.map_nil, hφ.nameText?_map]

/-- The specifiers of an import are mapped one by one. -/
theorem specifiersFrom_map (hφ : CarriesNames ν φ) (source : String) (node : Node) :
    (φ node).specifiersFrom source = (node.specifiersFrom source).map φ := by
  cases hs : node.isSearched with
  | false => rw [specifiersFrom_of_other hs, specifiersFrom_of_other (hφ.other node hs)]; rfl
  | true =>
    obtain ⟨kind, span, parts⟩ := node
    obtain ⟨span', himage⟩ := hφ.searched kind span parts hs
    rw [himage]
    cases kind <;> try rfl
    simp only [specifiersFrom]
    split <;> rfl

/-- A declarator stays one, with its pattern and its value mapped. -/
theorem declarator?_map (hφ : CarriesNames ν φ) (node : Node) :
    (φ node).declarator? = node.declarator?.map fun (pattern, value) => (φ pattern, φ value) := by
  cases hs : node.isSearched with
  | false => rw [declarator?_of_other hs, declarator?_of_other (hφ.other node hs)]; rfl
  | true =>
    obtain ⟨kind, span, parts⟩ := node
    obtain ⟨span', himage⟩ := hφ.searched kind span parts hs
    rw [himage]
    cases kind <;> try rfl
    rcases parts with _ | ⟨pattern, _ | ⟨value, _ | ⟨_, _⟩⟩⟩ <;> rfl

/-- The first declarator stays the first. -/
theorem firstDeclarator?_map (hφ : CarriesNames ν φ) (node : Node) :
    (φ node).firstDeclarator? =
      node.firstDeclarator?.map fun (pattern, value) => (φ pattern, φ value) := by
  cases hs : node.isSearched with
  | false => rw [firstDeclarator?_of_other hs, firstDeclarator?_of_other (hφ.other node hs)]; rfl
  | true =>
    obtain ⟨kind, span, parts⟩ := node
    obtain ⟨span', himage⟩ := hφ.searched kind span parts hs
    rw [himage]
    cases kind <;> try rfl
    rw [firstDeclarator?_mk, firstDeclarator?_mk]
    cases parts with
    | nil => rfl
    | cons first rest => exact hφ.declarator?_map first

/-- The properties of an object pattern are mapped one by one. -/
theorem boundProperties?_map (hφ : CarriesNames ν φ) (node : Node) :
    (φ node).boundProperties? = node.boundProperties?.map (List.map φ) := by
  cases hs : node.isSearched with
  | false => rw [boundProperties?_of_other hs, boundProperties?_of_other (hφ.other node hs)]; rfl
  | true =>
    obtain ⟨kind, span, parts⟩ := node
    obtain ⟨span', himage⟩ := hφ.searched kind span parts hs
    rw [himage]
    cases kind <;> rfl

/-- What a pattern binds is bound under the name that the map gives it. -/
theorem boundName?_map (hφ : CarriesNames ν φ) (node : Node) :
    (φ node).boundName? = node.boundName?.map ν := by
  cases hs : node.isSearched with
  | false =>
    rw [boundName?_of_other hs, boundName?_of_other (hφ.other node hs), hφ.bindingName?_map]
  | true =>
    obtain ⟨kind, span, parts⟩ := node
    obtain ⟨span', himage⟩ := hφ.searched kind span parts hs
    rw [himage]
    cases kind <;> try rfl
    -- a binding is not searched, it is the name itself
    case binding => exact nomatch hs
    case defaulted =>
      rw [boundName?_mk, boundName?_mk]
      rcases parts with _ | ⟨target, _ | ⟨value, _ | ⟨_, _⟩⟩⟩ <;> try rfl
      exact hφ.bindingName?_map target

/-- A property is found under the same key, as keys are fixed names. -/
theorem boundUnder?_map (hφ : CarriesNames ν φ) (key : String) (node : Node) :
    (φ node).boundUnder? key = (node.boundUnder? key).map φ := by
  cases hs : node.isSearched with
  | false => rw [boundUnder?_of_other hs, boundUnder?_of_other (hφ.other node hs)]; rfl
  | true =>
    obtain ⟨kind, span, parts⟩ := node
    obtain ⟨span', himage⟩ := hφ.searched kind span parts hs
    rw [himage]
    cases kind <;> try rfl
    rename_i computed
    -- a computed key is never looked up
    cases computed <;> try rfl
    rw [boundUnder?_mk, boundUnder?_mk]
    rcases parts with _ | ⟨name, _ | ⟨pattern, _ | ⟨_, _⟩⟩⟩ <;> try rfl
    simp only [List.map_cons, List.map_nil, hφ.nameText?_map]
    split <;> rfl

/-- The story component is found, under the name that the map gives it. -/
theorem storyBinding?_map (hφ : CarriesNames ν φ) (declaration : Node) :
    (φ declaration).storyBinding? = declaration.storyBinding?.map ν := by
  rw [storyBinding?_eq, storyBinding?_eq, hφ.firstDeclarator?_map]
  rcases declaration.firstDeclarator? with _ | ⟨pattern, value⟩
  · rfl
  simp only [Option.map_some, Option.bind_some, hφ.boundProperties?_map]
  cases pattern.boundProperties? with
  | none => rfl
  | some properties =>
    -- the first property that binds the key counts
    have hfirst : (properties.map φ).findSome? (·.boundUnder? storyComponent) =
        (properties.findSome? (·.boundUnder? storyComponent)).map φ := by
      simp only [List.findSome?_map, List.map_findSome?, Function.comp_def, hφ.boundUnder?_map]
    simp only [Option.map_some, Option.bind_some, hfirst]
    cases properties.findSome? (·.boundUnder? storyComponent) with
    | none => rfl
    | some bound => exact hφ.boundName?_map bound

/-- The meta import is found among the statements of a module. -/
theorem metaImport?_map (hφ : CarriesNames ν φ) (package : String) (statements : List Node) :
    ((statements.map φ).findSome? fun statement =>
        (statement.specifiersFrom package).findSome? (·.importedAs? metaFunction)) =
      (statements.findSome? fun statement =>
        (statement.specifiersFrom package).findSome? (·.importedAs? metaFunction)).map ν := by
  simp only [List.findSome?_map, List.map_findSome?, Function.comp_def, hφ.specifiersFrom_map,
    hφ.importedAs?_map]

/-- The runtime import is found among the statements of a module. -/
theorem hasRuntimeImport_map (hφ : CarriesNames ν φ)
    (hν : ∀ name, ν name = runtimeFunction ↔ name = runtimeFunction) (package : String)
    (statements : List Node) :
    ((statements.map φ).any fun statement =>
        (statement.specifiersFrom (runtimePath package)).any (·.importsAs runtimeFunction)) =
      statements.any fun statement =>
        (statement.specifiersFrom (runtimePath package)).any (·.importsAs runtimeFunction) := by
  simp only [List.any_map, Function.comp_def, hφ.specifiersFrom_map, hφ.importsAs_map hν]

end CarriesNames

/-! ## Maps that keep kinds -/

namespace KeepsNames

variable {φ : Node → Node}

/-- A map that keeps kinds carries names to themselves. -/
theorem carries (hφ : KeepsNames φ) : CarriesNames id φ where
  bindingName?_map node := by rw [bindingName?, bindingName?, hφ.kind, Option.map_id, id]
  nameText?_map node := by rw [nameText?, nameText?, hφ.kind]
  exportedName?_map node := exportedName?_congr (hφ.kind node)
  searched kind span parts hs :=
    hφ.parts kind span parts (by rintro rfl; exact nomatch hs) (by rintro _ rfl; exact nomatch hs)
  other node hs := by rwa [isSearched, hφ.kind]

theorem isReference_map (hφ : KeepsNames φ) (name : String) (node : Node) :
    (φ node).isReference name = node.isReference name :=
  isReference_congr (hφ.kind node) name

/-- The validating function is found in the image. -/
theorem validates_map (hφ : KeepsNames φ) (node : Node) : (φ node).validates = node.validates :=
  hφ.carries.validates_map (hφ.isReference_map validatingFunction) node

/-- The first declarator is found in the image. -/
theorem firstDeclarator?_map (hφ : KeepsNames φ) (node : Node) :
    (φ node).firstDeclarator? =
      node.firstDeclarator?.map fun (pattern, value) => (φ pattern, φ value) :=
  hφ.carries.firstDeclarator?_map node

/-- The story component is found under its own name. -/
theorem storyBinding?_map (hφ : KeepsNames φ) (declaration : Node) :
    (φ declaration).storyBinding? = declaration.storyBinding? := by
  rw [hφ.carries.storyBinding?_map, Option.map_id, id]

end KeepsNames

end Node

namespace Module

variable {φ : Node → Node} {module other : Module}

/-- The meta import is found through a map of the statements. -/
theorem metaImport?_of_map (hφ : Node.KeepsNames φ) (package : String)
    (h : module.statements.map φ = other.statements.map φ) :
    module.metaImport? package = other.metaImport? package := by
  have hmodule := hφ.carries.metaImport?_map package module.statements
  have hother := hφ.carries.metaImport?_map package other.statements
  rw [Option.map_id, id] at hmodule hother
  unfold metaImport?
  rw [← hmodule, h, hother]

/-- The runtime import is found through a map of the statements. -/
theorem hasRuntimeImport_of_map (hφ : Node.KeepsNames φ) (package : String)
    (h : module.statements.map φ = other.statements.map φ) :
    module.hasRuntimeImport package = other.hasRuntimeImport package := by
  have hkept (name : String) : id name = runtimeFunction ↔ name = runtimeFunction := Iff.rfl
  unfold hasRuntimeImport
  rw [← hφ.carries.hasRuntimeImport_map hkept, h, hφ.carries.hasRuntimeImport_map hkept]

end Module

end SvelteStories.Script
