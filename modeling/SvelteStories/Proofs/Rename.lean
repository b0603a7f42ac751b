import SvelteStories.Proofs.NodeMap
import SvelteStories.Proofs.StoryCalls

/-!
# Renaming a variable

`Node.rename` gives a variable another name, wherever it is used or bound; property keys, members
and the names that a module exports stay.  If nothing has the new name before, then everything that
is looked up in a tree by the names of variables is found under the new name as well.

## Key results

- `carriesNames_rename`, `carriesEdits_rename`: the lookups in declarations, and edits of object
  literals
- `isReference_rename`: a variable is found under its new name
- `mem_variableNames_of_importedAs?`, `mem_variableNames_of_storyBinding?`: the names that are
  looked up are names of variables
-/

namespace SvelteStories.Script

open Text

/-- A name after `old` was renamed to `new`. -/
def renamed (old new name : String) : String :=
  if name = old then new else name

/-- The kind of a node with the given parts, after `old` was renamed to `new`.  A property that is
    written as one name is written with its key now, if the name is renamed. -/
def Kind.rename (old new : String) (parts : List Node) : Kind → Kind
  | .reference text => .reference (renamed old new text)
  | .binding text => .binding (renamed old new text)
  | .property computed shorthand role =>
    .property computed (shorthand && parts.head?.bind (·.nameText?) != some old) role
  | .assignedProperty computed shorthand =>
    .assignedProperty computed (shorthand && parts.head?.bind (·.nameText?) != some old)
  | kind => kind

namespace Node

/-- A specifier of an export, after the variable that it exports was renamed. -/
def renameLocal (old new : String) : Node → Node
  | mk .exportName span (mk (.name text) at_ inner :: rest) =>
    mk .exportName span (mk (.name (renamed old new text)) at_ inner :: rest)
  | node => node

mutual

/-- A tree after the variable `old` was renamed to `new`.  A list of exports names variables, unless
    it exports the names of another module. -/
def rename (old new : String) : Node → Node
  | mk (.exportNames none attributes) span parts =>
    mk (.exportNames none attributes) span ((renameAmong old new parts).map (renameLocal old new))
  | mk kind span parts => mk (kind.rename old new parts) span (renameAmong old new parts)

/-- The given trees after the variable `old` was renamed to `new`. -/
def renameAmong (old new : String) : List Node → List Node
  | [] => []
  | node :: rest => node.rename old new :: renameAmong old new rest

end

mutual

/-- The names that a tree refers to variables by, and those that it binds.  The names in lists of
    exports are left out: no variable is looked up there. -/
def variableNames : Node → List String
  | mk (.reference name) _ parts => name :: variableNamesAmong parts
  | mk (.binding name) _ parts => name :: variableNamesAmong parts
  | mk _ _ parts => variableNamesAmong parts

/-- The names that the given trees refer to variables by or bind. -/
def variableNamesAmong : List Node → List String
  | [] => []
  | node :: rest => node.variableNames ++ variableNamesAmong rest

end

variable {old new name component bound : String} {kind : Kind} {span : Span} {parts : List Node}

/-! ## Names -/

/-- A name that is neither the old nor the new one is that of no other variable. -/
theorem renamed_eq_iff_of_ne (hold : name ≠ old) (hnew : name ≠ new) (other : String) :
    renamed old new other = name ↔ other = name := by
  unfold renamed
  split
  · rename_i h
    exact iff_of_false hnew.symm (fun h' => hold (h'.symm.trans h))
  · exact Iff.rfl

/-- Different names stay different, if none of them is the new one. -/
theorem renamed_inj {other : String} (hother : other ≠ new) (hname : name ≠ new) :
    renamed old new other = renamed old new name ↔ other = name := by
  unfold renamed
  split <;> split <;> simp_all [eq_comm]

/-! ## The renamed tree, node by node -/

theorem renameAmong_eq_map (nodes : List Node) :
    renameAmong old new nodes = nodes.map (rename old new) := by
  induction nodes with
  | nil => rfl
  | cons node rest ih => rw [renameAmong, ih, List.map_cons]

/-- A list of exports without a source names variables of the module, so that its specifiers are
    renamed as such. -/
theorem rename_exportNames (attributes : List ImportAttribute) :
    (mk (.exportNames none attributes) span parts).rename old new =
      mk (.exportNames none attributes) span
        ((parts.map (rename old new)).map (renameLocal old new)) := by
  rw [rename, renameAmong_eq_map]

/-- A node of any other kind is renamed in its kind and in its parts. -/
theorem rename_mk (h : ∀ attributes, kind ≠ .exportNames none attributes) :
    (mk kind span parts).rename old new =
      mk (kind.rename old new parts) span (parts.map (rename old new)) := by
  rw [← renameAmong_eq_map]
  cases kind
  case exportNames source attributes =>
    cases source with
    | none => exact absurd rfl (h attributes)
    | some source => rfl
  all_goals rfl

/-- An object literal is renamed property by property. -/
theorem rename_object (span : Span) (properties : List Node) :
    (mk .object span properties).rename old new =
      mk .object span (properties.map (rename old new)) :=
  rename_mk nofun

/-- A shorthand property of the renamed variable is written out, so that its key stays. -/
theorem rename_property (computed shorthand : Bool) (role : Role) (span : Span)
    (parts : List Node) :
    (mk (.property computed shorthand role) span parts).rename old new =
      mk (.property computed (shorthand && parts.head?.bind (·.nameText?) != some old) role) span
        (parts.map (rename old new)) :=
  rename_mk nofun

/-- A call is renamed part by part. -/
theorem rename_call (optional : Bool) (span : Span) (parts : List Node) :
    (mk (.call optional) span parts).rename old new =
      mk (.call optional) span (parts.map (rename old new)) :=
  rename_mk nofun

/-- A declaration is renamed part by part. -/
theorem rename_declaration (word : DeclarationWord) (span : Span) (parts : List Node) :
    (mk (.declaration word) span parts).rename old new =
      mk (.declaration word) span (parts.map (rename old new)) :=
  rename_mk nofun

/-- A declarator is renamed part by part. -/
theorem rename_declarator (span : Span) (parts : List Node) :
    (mk .declarator span parts).rename old new = mk .declarator span (parts.map (rename old new)) :=
  rename_mk nofun

/-- An expression statement is renamed part by part. -/
theorem rename_expression (span : Span) (parts : List Node) :
    (mk .expression span parts).rename old new = mk .expression span (parts.map (rename old new)) :=
  rename_mk nofun

/-- Of the parts, only the name that is written first matters to the kind. -/
theorem kind_rename_congr (kind : Kind) {others : List Node}
    (h : parts.head?.bind (·.nameText?) = others.head?.bind (·.nameText?)) :
    kind.rename old new parts = kind.rename old new others := by
  cases kind <;> simp only [Kind.rename, h]

/-- What renaming makes of a node: its kind is renamed, and so are its parts, unless it is a list of
    exports. -/
theorem exists_rename_mk (old new : String) (kind : Kind) (span : Span) (parts : List Node) :
    ∃ parts', (mk kind span parts).rename old new = mk (kind.rename old new parts) span parts' ∧
      ((∀ attributes, kind ≠ .exportNames none attributes) →
        parts' = parts.map (rename old new)) := by
  by_cases h : ∃ attributes, kind = .exportNames none attributes
  · obtain ⟨attributes, rfl⟩ := h
    exact ⟨_, rename_exportNames attributes, fun h => absurd rfl (h attributes)⟩
  · exact ⟨_, rename_mk fun attributes hkind => h ⟨attributes, hkind⟩, fun _ => rfl⟩

/-- The kind of a renamed node depends on its kind and its parts before. -/
theorem kind_rename (node : Node) :
    (node.rename old new).kind = node.kind.rename old new node.parts := by
  obtain ⟨kind, span, parts⟩ := node
  obtain ⟨parts', himage, -⟩ := exists_rename_mk old new kind span parts
  rw [himage]
  rfl

theorem span_rename (node : Node) : (node.rename old new).span = node.span := by
  obtain ⟨kind, span, parts⟩ := node
  obtain ⟨parts', himage, -⟩ := exists_rename_mk old new kind span parts
  rw [himage]
  rfl

/-- Renaming makes no expression statements and takes none away. -/
theorem kind_rename_eq_expression {node : Node} :
    (node.rename old new).kind = .expression ↔ node.kind = .expression := by
  rw [kind_rename]
  cases node.kind <;> simp [Kind.rename]

/-- Renaming makes no object literals and takes none away. -/
theorem kind_rename_eq_object {node : Node} :
    (node.rename old new).kind = .object ↔ node.kind = .object := by
  rw [kind_rename]
  cases node.kind <;> simp [Kind.rename]

/-- The key of a property in terms of its first part. -/
theorem hasKey_mk (key : String) (computed shorthand : Bool) (role : Role) :
    (mk (.property computed shorthand role) span parts).hasKey key =
      (!computed && parts.head?.bind (·.nameText?) == some key) := by
  cases computed
  · rcases parts with _ | ⟨⟨first, _, _⟩, rest⟩
    · rfl
    · cases first <;> simp [hasKey, nameText?, Node.kind]
  · rfl

/-! ## Lookups and object literals -/

/-- Renaming does to the names that are bound what it does to the name of the variable, and keeps
    the names of imports, exports and keys. -/
theorem carriesNames_rename (old new : String) :
    CarriesNames (renamed old new) (rename old new) where
  bindingName?_map node := by
    obtain ⟨kind, span, parts⟩ := node
    obtain ⟨parts', himage, -⟩ := exists_rename_mk old new kind span parts
    rw [himage]
    cases kind <;> rfl
  nameText?_map node := by
    obtain ⟨kind, span, parts⟩ := node
    obtain ⟨parts', himage, -⟩ := exists_rename_mk old new kind span parts
    rw [himage]
    cases kind <;> rfl
  exportedName?_map node := by
    obtain ⟨kind, span, parts⟩ := node
    obtain ⟨parts', himage, -⟩ := exists_rename_mk old new kind span parts
    rw [himage]
    cases kind <;> rfl
  -- lists of exports are not searched, and all other nodes are renamed part by part
  searched kind span parts hs := by
    refine ⟨span, (rename_mk ?_).trans ?_⟩
    · rintro attributes rfl
      exact nomatch hs
    · cases kind <;> first | rfl | exact nomatch hs
  other node hs := by
    obtain ⟨kind, span, parts⟩ := node
    obtain ⟨parts', himage, -⟩ := exists_rename_mk old new kind span parts
    rw [himage]
    cases kind <;> first | rfl | exact nomatch hs

/-- References to a name that is neither the old one nor the new one stay. -/
theorem isReference_rename_of_ne (hold : name ≠ old) (hnew : name ≠ new) (node : Node) :
    (node.rename old new).isReference name = node.isReference name := by
  obtain ⟨kind, span, parts⟩ := node
  obtain ⟨parts', himage, -⟩ := exists_rename_mk old new kind span parts
  rw [himage]
  cases kind <;> try rfl
  rw [Bool.eq_iff_iff]
  simp only [Kind.rename, isReference, beq_iff_eq, renamed_eq_iff_of_ne hold hnew]

/-- A reference is renamed with its name, where the new name is fresh. -/
theorem isReference_rename (hname : name ≠ new) {node : Node} (hfresh : new ∉ node.variableNames) :
    (node.rename old new).isReference (renamed old new name) = node.isReference name := by
  obtain ⟨kind, span, parts⟩ := node
  obtain ⟨parts', himage, -⟩ := exists_rename_mk old new kind span parts
  rw [himage]
  cases kind <;> try rfl
  rw [variableNames, List.mem_cons, not_or] at hfresh
  rw [Bool.eq_iff_iff]
  simp only [Kind.rename, isReference, beq_iff_eq]
  exact renamed_inj (Ne.symm hfresh.1) hname

/-- Renaming keeps the keys of object literals and goes on in their values. -/
theorem carriesObjects_rename (old new : String) : CarriesObjects (rename old new) where
  properties?_map node := by
    obtain ⟨kind, span, parts⟩ := node
    obtain ⟨parts', himage, hparts⟩ := exists_rename_mk old new kind span parts
    rw [himage]
    cases kind <;> try rfl
    obtain rfl := hparts nofun
    rfl
  propertyValue?_map node := by
    obtain ⟨kind, span, parts⟩ := node
    obtain ⟨parts', himage, hparts⟩ := exists_rename_mk old new kind span parts
    rw [himage]
    cases kind <;> try rfl
    obtain rfl := hparts nofun
    rcases parts with _ | ⟨_, _ | ⟨_, _ | ⟨_, _⟩⟩⟩ <;> rfl
  -- a key that is written out keeps its text, and a computed one is no key
  hasKey_map key node := by
    obtain ⟨kind, span, parts⟩ := node
    obtain ⟨parts', himage, hparts⟩ := exists_rename_mk old new kind span parts
    rw [himage]
    cases kind <;> try rfl
    obtain rfl := hparts nofun
    -- the first part of a property is its key
    rw [Kind.rename, hasKey_mk, hasKey_mk]
    cases parts with
    | nil => rfl
    | cons first rest =>
      simp only [List.map_cons, List.head?_cons, Option.bind_some,
        (carriesNames_rename old new).nameText?_map]

/-- Renaming can be done before or after the edits of object literals, as what they write has no
    variables. -/
theorem carriesEdits_rename (old new : String) : CarriesEdits (rename old new) where
  toCarriesObjects := carriesObjects_rename old new
  ofEntry_map key value := rename_mk nofun
  ofProperties_map properties := rename_mk nofun
  ofString_map text := rfl
  mapObject_map {change property key} h hkey := by
    obtain ⟨kind, span, parts⟩ := property
    obtain ⟨shorthand, role, hkind⟩ := kind_of_hasKey hkey
    obtain rfl : kind = .property false shorthand role := hkind
    rw [rename_property]
    -- a property has a key and a value, anything else is kept as it is
    by_cases hlen : parts.length = 2
    · obtain ⟨name, value, rfl⟩ := List.length_eq_two.mp hlen
      -- a property with an object literal is changed in it, any other one is kept
      by_cases hvalue : value.kind = .object
      · obtain ⟨_, at_, properties⟩ := value
        obtain rfl : _ = Kind.object := hvalue
        simp only [List.map_cons, List.map_nil, rename_object, mapObject,
          rename_property, h properties, List.head?_cons]
      · rw [List.map_cons, List.map_cons, List.map_nil,
          mapObject_of_kind (mt kind_rename_eq_object.mp hvalue), mapObject_of_kind hvalue,
          rename_property]
        rfl
    · rw [mapObject_of_length (by rwa [List.length_map]), mapObject_of_length hlen, rename_property]

/-! ## Variables -/

theorem variableNamesAmong_cons (node : Node) (rest : List Node) :
    variableNamesAmong (node :: rest) = node.variableNames ++ variableNamesAmong rest := rfl

/-- The names in two lists one after the other. -/
theorem variableNamesAmong_append (nodes others : List Node) :
    variableNamesAmong (nodes ++ others) = variableNamesAmong nodes ++
      variableNamesAmong others := by
  induction nodes with
  | nil => rfl
  | cons node nodes ih =>
    rw [List.cons_append, variableNamesAmong_cons, variableNamesAmong_cons, ih, List.append_assoc]

/-- A name is one of a list if it is one of its trees. -/
theorem mem_variableNamesAmong {nodes : List Node} :
    name ∈ variableNamesAmong nodes ↔ ∃ node ∈ nodes, name ∈ node.variableNames := by
  induction nodes with
  | nil => simp [variableNamesAmong]
  | cons node rest ih => simp [variableNamesAmong_cons, ih]

/-- The variables of the parts of a tree are variables of the tree. -/
theorem mem_variableNames_of_parts (h : name ∈ variableNamesAmong parts) :
    name ∈ (mk kind span parts).variableNames := by
  cases kind <;> first | exact h | exact List.mem_cons_of_mem _ h

/-- The names in a part of a node are names in the node. -/
theorem mem_variableNames_of_part {part : Node} (hpart : part ∈ parts)
    (h : name ∈ part.variableNames) : name ∈ (mk kind span parts).variableNames :=
  mem_variableNames_of_parts (mem_variableNamesAmong.mpr ⟨part, hpart, h⟩)

/-- The names in a list, tree by tree. -/
theorem variableNamesAmong_eq_flatMap (nodes : List Node) :
    variableNamesAmong nodes = nodes.flatMap variableNames := by
  induction nodes with
  | nil => rfl
  | cons node rest ih => rw [variableNamesAmong_cons, ih, List.flatMap_cons]

/-- Names are collected from all parts of properties and object literals. -/
theorem collectsParts_variableNames : CollectsParts variableNames where
  property _ _ _ _ parts := variableNamesAmong_eq_flatMap parts
  object _ properties := variableNamesAmong_eq_flatMap properties
  name _ _ parts := variableNamesAmong_eq_flatMap parts
  ofString _ := rfl

/-! ### Names that are looked up -/

section LookedUp

variable {node : Node}

/-- An imported name is bound by its specifier. -/
theorem mem_variableNames_of_importedAs? {imported : String}
    (h : node.importedAs? imported = some name) : name ∈ node.variableNames := by
  unfold importedAs? at h
  split at h
  · split at h
    · obtain rfl := Option.some.inj h
      exact mem_variableNames_of_part (List.mem_cons_of_mem _ List.mem_cons_self) List.mem_cons_self
    · exact nomatch h
  · exact nomatch h

/-- What a specifier binds is bound by its import. -/
theorem mem_variableNames_of_specifiersFrom {source : String} {specifier : Node}
    (hmem : specifier ∈ node.specifiersFrom source) (h : name ∈ specifier.variableNames) :
    name ∈ node.variableNames := by
  unfold specifiersFrom at hmem
  split at hmem
  · split at hmem
    · exact mem_variableNames_of_part hmem h
    · exact nomatch hmem
  · exact nomatch hmem

/-- The variables of the first declarator are variables of the declaration. -/
theorem mem_variableNames_of_firstDeclarator? {pattern value : Node}
    (h : node.firstDeclarator? = some (pattern, value)) :
    (name ∈ pattern.variableNames → name ∈ node.variableNames) ∧
      (name ∈ value.variableNames → name ∈ node.variableNames) := by
  unfold firstDeclarator? at h
  split at h
  · obtain ⟨rfl, rfl⟩ := Prod.mk.inj (Option.some.inj h)
    exact ⟨fun h => mem_variableNames_of_part List.mem_cons_self
        (mem_variableNames_of_part List.mem_cons_self h),
      fun h => mem_variableNames_of_part List.mem_cons_self
        (mem_variableNames_of_part (by simp) h)⟩
  · exact nomatch h

/-- What a pattern binds is one of its names. -/
theorem mem_variableNames_of_boundName? (h : node.boundName? = some name) :
    name ∈ node.variableNames := by
  unfold boundName? at h
  split at h
  · obtain rfl := Option.some.inj h
    exact List.mem_cons_self
  -- with a default, the name is that of the first part
  · obtain rfl := Option.some.inj h
    exact mem_variableNames_of_part List.mem_cons_self List.mem_cons_self
  · exact nomatch h

/-- What a property of an object pattern binds is bound by the property. -/
theorem mem_variableNames_of_boundUnder? {key : String} {pattern : Node}
    (hpattern : node.boundUnder? key = some pattern) (h : name ∈ pattern.variableNames) :
    name ∈ node.variableNames := by
  unfold boundUnder? at hpattern
  split at hpattern
  · split at hpattern
    · obtain rfl := Option.some.inj hpattern
      exact mem_variableNames_of_part (by simp) h
    · exact nomatch hpattern
  · exact nomatch hpattern

/-- The story component is bound by the meta declaration. -/
theorem mem_variableNames_of_storyBinding? (h : node.storyBinding? = some name) :
    name ∈ node.variableNames := by
  unfold storyBinding? at h
  split at h
  · rename_i properties value hdeclarator
    obtain ⟨pattern, hfound, hname⟩ := Option.bind_eq_some_iff.mp h
    obtain ⟨property, hproperty, hpattern⟩ := List.exists_of_findSome?_eq_some hfound
    -- the name is bound by a property of the pattern of the first declarator
    refine (mem_variableNames_of_firstDeclarator? hdeclarator).1 ?_
    exact mem_variableNames_of_part hproperty
      (mem_variableNames_of_boundUnder? hpattern (mem_variableNames_of_boundName? hname))
  · exact nomatch h

end LookedUp

end Node

end SvelteStories.Script
