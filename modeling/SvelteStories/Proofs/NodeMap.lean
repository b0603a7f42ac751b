import Mathlib.Data.List.Basic
import SvelteStories.Proofs.Description

/-!
# Maps that carry object literals

A map of nodes that takes object literals to object literals, property by property and with the same
keys, does not change what is found along a path of keys, up to the map.  Such maps forget spans or
what is inside of story calls, and then they keep all kinds, or they rename variables.

## Key results

- `CarriesObjects.at?_map`: what is read at the end of a path
- `CarriesObjects.isDescribed_map`, `CarriesObjects.obstacle?_map`: what the edits of a story ask
  for
- `CarriesEdits.commutes_described`, `CarriesEdits.commutes_documented`: what they write
- `KeepsObjects.carries`, `RebuildsObjects.carries`: maps that keep all kinds
-/

namespace SvelteStories.Script.Node

open Text Properties

/-- A map of nodes that takes object literals to object literals, property by property, and keeps
    the keys of properties. -/
structure CarriesObjects (φ : Node → Node) : Prop where
  properties?_map : ∀ node, (φ node).properties? = node.properties?.map (List.map φ)
  propertyValue?_map : ∀ node, (φ node).propertyValue? = node.propertyValue?.map φ
  hasKey_map : ∀ key node, (φ node).hasKey key = node.hasKey key

namespace CarriesObjects

variable {φ : Node → Node}

/-- The object literal of a property is mapped property by property. -/
theorem propertyObject?_map (hφ : CarriesObjects φ) (property : Node) :
    (φ property).propertyObject? = property.propertyObject?.map (List.map φ) := by
  unfold propertyObject?
  rw [hφ.propertyValue?_map]
  cases property.propertyValue? with
  | none => rfl
  | some value => exact hφ.properties?_map value

/-- A map that carries object literals keeps which keys they have. -/
theorem has_map (hφ : CarriesObjects φ) (key : String) (properties : Properties) :
    has (properties.map φ) key = has properties key := by
  simp only [has, List.any_map, Function.comp_def, hφ.hasKey_map]

/-- The object literal under a key is found in the image, or refused there as well. -/
theorem object?_map (hφ : CarriesObjects φ) (key : String) (properties : Properties) :
    object? (properties.map φ) key = (object? properties key).map (Option.map (List.map φ)) := by
  -- the map keeps keys, so the first property with the key is found in the same place
  induction properties with
  | nil => rfl
  | cons property rest ih =>
    rw [List.map_cons]
    cases hk : property.hasKey key with
    | false =>
      rw [object?_cons_of_not_hasKey _ ((hφ.hasKey_map key property).trans hk),
        object?_cons_of_not_hasKey _ hk, ih]
    | true =>
      rw [object?_cons_of_hasKey _ ((hφ.hasKey_map key property).trans hk),
        object?_cons_of_hasKey _ hk, hφ.propertyObject?_map]
      cases property.propertyObject? <;> rfl

/-- The object literal at a path is found in the image, level by level. -/
theorem at?_map (hφ : CarriesObjects φ) (path : List String) (properties : Properties) :
    at? path (properties.map φ) = (at? path properties).map (Option.map (List.map φ)) := by
  induction path generalizing properties with
  | nil => rfl
  | cons key path ih =>
    rw [at?_cons, at?_cons, hφ.object?_map]
    -- an obstacle at one level is one of the whole path
    cases object? properties key with
    | error e => rfl
    | ok inner? =>
      cases inner? with
      | none => rfl
      | some inner => exact ih inner

/-- What stands in the way of an edit stands in the way of it in the image. -/
theorem obstacle?_map (hφ : CarriesObjects φ) (path : List String) (properties : Properties) :
    Edit.obstacle? path (properties.map φ) = Edit.obstacle? path properties := by
  unfold Edit.obstacle?
  rw [hφ.at?_map]
  cases at? path properties <;> rfl

theorem isDescribed_map (hφ : CarriesObjects φ) (subject : Diagnostic.Subject)
    (properties : Properties) :
    Edit.isDescribed subject (properties.map φ) = Edit.isDescribed subject properties := by
  unfold Edit.isDescribed
  rw [hφ.at?_map]
  cases at? descriptionPath properties with
  | error e => rfl
  | ok found =>
    cases found with
    | none => rfl
    | some description => exact hφ.has_map subject.key description

/-- The comments that are ignored are the same in the image. -/
theorem ignoredIn_map (hφ : CarriesObjects φ) (comment : Option String)
    (subject : Diagnostic.Subject) (properties : Properties) :
    Edit.ignoredIn comment subject (properties.map φ) =
      Edit.ignoredIn comment subject properties := by
  rw [Edit.ignoredIn, Edit.ignoredIn, hφ.isDescribed_map]

end CarriesObjects

/-! ## Changes -/

/-- A property whose value is no object literal has nothing to change. -/
theorem mapObject_of_kind {kind : Kind} {span : Span} {name value : Node}
    {change : Properties → Properties} (h : value.kind ≠ .object) :
    (Node.mk kind span [name, value]).mapObject change = Node.mk kind span [name, value] := by
  obtain ⟨valueKind, _, _⟩ := value
  cases valueKind <;> first | rfl | exact absurd rfl h

/-- What has not just a key and a value has nothing to change. -/
theorem mapObject_of_length {kind : Kind} {span : Span} {parts : List Node}
    {change : Properties → Properties} (h : parts.length ≠ 2) :
    (Node.mk kind span parts).mapObject change = Node.mk kind span parts := by
  rcases parts with _ | ⟨_, _ | ⟨⟨second, _, _⟩, _ | ⟨_, _⟩⟩⟩
  · rfl
  · rfl
  · exact absurd rfl h
  · cases second <;> rfl

/-- A change of properties that does the same after a map of nodes. -/
def Commutes (φ : Node → Node) (change : Properties → Properties) : Prop :=
  ∀ properties, change (properties.map φ) = (change properties).map φ

/-- A map that carries object literals, and carries to themselves the properties that are added and
    the changes inside of a property. -/
structure CarriesEdits (φ : Node → Node) : Prop extends CarriesObjects φ where
  ofEntry_map : ∀ key value, φ (ofEntry key value) = ofEntry key (φ value)
  ofProperties_map : ∀ properties, φ (ofProperties properties) = ofProperties (properties.map φ)
  ofString_map : ∀ text, φ (ofString text) = ofString text
  mapObject_map : ∀ {change property key}, Commutes φ change → property.hasKey key = true →
    (φ property).mapObject change = φ (property.mapObject change)

namespace CarriesEdits

variable {φ : Node → Node} {change : Properties → Properties}

/-- The object literal under a key is changed before or after the map, and so is one that is added
    there. -/
theorem commutes_modifyObject (hφ : CarriesEdits φ) (key : String) (h : Commutes φ change) :
    Commutes φ (modifyObject key change) := by
  intro properties
  induction properties with
  | nil =>
    -- without the key, an entry is added whose object literal is what the change makes of none
    have hnil : change [] = (change []).map φ := h []
    rw [List.map_nil, modifyObject_nil, List.map_cons, List.map_nil, hφ.ofEntry_map,
      hφ.ofProperties_map, ← hnil]
  | cons property rest ih =>
    rw [List.map_cons]
    cases hk : property.hasKey key with
    | false =>
      rw [modifyObject_cons_of_not_hasKey _ _ ((hφ.hasKey_map key property).trans hk),
        modifyObject_cons_of_not_hasKey _ _ hk, ih, List.map_cons]
    | true =>
      rw [modifyObject_cons_of_hasKey _ _ ((hφ.hasKey_map key property).trans hk),
        modifyObject_cons_of_hasKey _ _ hk, hφ.mapObject_map h hk, List.map_cons]

/-- The object literal at a path is changed before or after the map. -/
theorem commutes_modifyAt (hφ : CarriesEdits φ) (path : List String) (h : Commutes φ change) :
    Commutes φ (modifyAt path change) := by
  induction path with
  | nil => exact h
  | cons key path ih => exact hφ.commutes_modifyObject key ih

/-- An entry that the map keeps can be added before or after. -/
theorem commutes_add (hφ : CarriesEdits φ) (key : String) {value : Node} (h : φ value = value) :
    Commutes φ (add · key value) := by
  intro properties
  simp only [add, List.map_append, List.map_cons, List.map_nil, hφ.ofEntry_map, h]

/-- Descriptions are written before or after the map. -/
theorem commutes_described (hφ : CarriesEdits φ) (comment : Option String)
    (subject : Diagnostic.Subject) : Commutes φ (Edit.described comment subject) := by
  cases comment with
  | none => exact fun _ => rfl
  | some comment =>
    refine hφ.commutes_modifyAt _ fun description => ?_
    unfold Edit.withText
    rw [hφ.has_map]
    -- a description that is there stays, and otherwise the text is added
    split
    · rfl
    · exact hφ.commutes_add subject.key (hφ.ofString_map _) description

/-- The map keeps what is kept of a story. -/
theorem linkage_map (hφ : CarriesEdits φ) (story : Story) :
    φ (Edit.linkage story) = Edit.linkage story := by
  rw [Edit.linkage, hφ.ofProperties_map, List.map_cons, List.map_nil, hφ.ofEntry_map,
    hφ.ofString_map]

/-- Stories are documented before or after the map. -/
theorem commutes_documented (hφ : CarriesEdits φ) (story : Story) :
    Commutes φ (Edit.documented story) := by
  intro properties
  rw [Edit.documented, Edit.documented, hφ.commutes_described, Edit.linked,
    hφ.commutes_modifyAt _ (hφ.commutes_add Edit.linkageKey (hφ.linkage_map story))]

/-- The edit of a story does the same before and after the map. -/
theorem editProps_map (hφ : CarriesEdits φ) (filename : String) (story : Story)
    (properties : Properties) :
    Edit.editProps filename story (properties.map φ) =
      { Edit.editProps filename story properties with
        properties := (Edit.editProps filename story properties).properties.map φ } := by
  rw [Edit.editProps_eq, Edit.editProps_eq, Edit.storyObstacle?, hφ.obstacle?_map,
    hφ.commutes_documented, hφ.ignoredIn_map]
  cases Edit.obstacle? (Edit.neededPath story.comment parametersPath) properties <;> rfl

end CarriesEdits

/-! ## Maps that keep kinds -/

/-- A map of nodes that keeps kinds and goes through properties and object literals. -/
structure KeepsObjects (φ : Node → Node) : Prop where
  kind : ∀ node, (φ node).kind = node.kind
  property : ∀ computed shorthand role span parts, ∃ span',
    φ (mk (.property computed shorthand role) span parts) =
      mk (.property computed shorthand role) span' (parts.map φ)
  object : ∀ span properties, ∃ span',
    φ (mk .object span properties) = mk .object span' (properties.map φ)

/-- A node of another kind than an object literal has no properties. -/
theorem properties?_of_kind {node : Node} (h : node.kind ≠ .object) : node.properties? = none := by
  obtain ⟨kind, span, parts⟩ := node
  cases kind <;> first | rfl | exact absurd rfl h

/-- A node of another kind than a property has no value. -/
theorem propertyValue?_of_kind {node : Node}
    (h : ∀ computed shorthand role, node.kind ≠ .property computed shorthand role) :
    node.propertyValue? = none := by
  obtain ⟨kind, span, parts⟩ := node
  cases kind <;> first | rfl | exact absurd rfl (h _ _ _)

/-- The key of a property only depends on the kind of its first part. -/
theorem hasKey_congr {node other : Node} (hkind : node.kind = other.kind)
    (hparts : node.parts.head?.map Node.kind = other.parts.head?.map Node.kind) (key : String) :
    node.hasKey key = other.hasKey key := by
  obtain ⟨kind, span, parts⟩ := node
  obtain ⟨kind', span', parts'⟩ := other
  obtain rfl : kind = kind' := hkind
  cases kind <;> try rfl
  -- with no first part there is no key; otherwise its kind holds the key
  rename_i computed shorthand role
  rcases parts with _ | ⟨⟨first, _, _⟩, rest⟩ <;> rcases parts' with _ | ⟨⟨first', _, _⟩, rest'⟩
  · cases computed <;> rfl
  · exact nomatch hparts
  · exact nomatch hparts
  · obtain rfl : first = first' := Option.some.inj hparts
    cases computed <;> cases first <;> rfl

namespace KeepsObjects

variable {φ : Node → Node}

/-- An object literal is mapped property by property. -/
theorem properties?_map (hφ : KeepsObjects φ) (node : Node) :
    (φ node).properties? = node.properties?.map (List.map φ) := by
  -- the map keeps the kind, so both nodes are object literals or none is
  by_cases hkind : node.kind = .object
  · obtain ⟨kind, span, properties⟩ := node
    obtain rfl : kind = .object := hkind
    obtain ⟨span', hobject⟩ := hφ.object span properties
    rw [hobject]
    rfl
  · rw [properties?_of_kind hkind, properties?_of_kind (by rwa [hφ.kind])]
    rfl

/-- The value of a property is mapped. -/
theorem propertyValue?_map (hφ : KeepsObjects φ) (node : Node) :
    (φ node).propertyValue? = node.propertyValue?.map φ := by
  obtain ⟨kind, span, parts⟩ := node
  by_cases hkind : ∃ computed shorthand role, kind = .property computed shorthand role
  · obtain ⟨computed, shorthand, role, rfl⟩ := hkind
    obtain ⟨span', hproperty⟩ := hφ.property computed shorthand role span parts
    rw [hproperty]
    rcases parts with _ | ⟨name, _ | ⟨value, _ | ⟨_, _⟩⟩⟩ <;> rfl
  · have hnone (computed shorthand : Bool) (role : Role) :
        (Node.mk kind span parts).kind ≠ .property computed shorthand role :=
      fun h => hkind ⟨computed, shorthand, role, h⟩
    rw [propertyValue?_of_kind hnone, propertyValue?_of_kind (by rwa [hφ.kind])]
    rfl

/-- A property keeps its key. -/
theorem hasKey_map (hφ : KeepsObjects φ) (key : String) (node : Node) :
    (φ node).hasKey key = node.hasKey key := by
  obtain ⟨kind, span, parts⟩ := node
  by_cases hkind : ∃ computed shorthand role, kind = .property computed shorthand role
  · obtain ⟨computed, shorthand, role, rfl⟩ := hkind
    obtain ⟨span', hproperty⟩ := hφ.property computed shorthand role span parts
    rw [hproperty]
    refine hasKey_congr ?_ ?_ key
    · rfl
    · cases parts with
      | nil => rfl
      | cons first rest => exact congrArg some (hφ.kind first)
  · -- neither of the two nodes is a property
    have hfalse {node : Node} (h : node.kind = kind) : node.hasKey key = false := by
      cases hk : node.hasKey key with
      | false => rfl
      | true =>
        obtain ⟨shorthand, role, hproperty⟩ := kind_of_hasKey hk
        exact absurd ⟨false, shorthand, role, h.symm.trans hproperty⟩ hkind
    rw [hfalse (hφ.kind _), hfalse rfl]

/-- A map that keeps kinds carries object literals. -/
theorem carries (hφ : KeepsObjects φ) : CarriesObjects φ :=
  ⟨hφ.properties?_map, hφ.propertyValue?_map, hφ.hasKey_map⟩

/-- Edits are refused in the image for the same reasons. -/
theorem obstacle?_map (hφ : KeepsObjects φ) (path : List String) (properties : Properties) :
    Edit.obstacle? path (properties.map φ) = Edit.obstacle? path properties :=
  hφ.carries.obstacle?_map path properties

/-- A description stays one. -/
theorem isDescribed_map (hφ : KeepsObjects φ) (subject : Diagnostic.Subject)
    (properties : Properties) :
    Edit.isDescribed subject (properties.map φ) = Edit.isDescribed subject properties :=
  hφ.carries.isDescribed_map subject properties

end KeepsObjects

/-- A map that keeps object literals and forgets their spans, those of properties, and those of
    nodes without parts. -/
structure RebuildsObjects (φ : Node → Node) : Prop where
  kind : ∀ node, (φ node).kind = node.kind
  property : ∀ computed shorthand role span parts,
    φ (mk (.property computed shorthand role) span parts) =
      made (.property computed shorthand role) (parts.map φ)
  object : ∀ span properties, φ (mk .object span properties) = made .object (properties.map φ)
  leaf : ∀ kind, φ (made kind []) = made kind []

namespace RebuildsObjects

variable {φ : Node → Node} {change : Properties → Properties}

/-- A map that rebuilds object literals keeps them. -/
theorem keepsObjects (hφ : RebuildsObjects φ) : KeepsObjects φ where
  kind := hφ.kind
  property computed shorthand role span parts := ⟨_, hφ.property computed shorthand role span parts⟩
  object span properties := ⟨_, hφ.object span properties⟩

theorem ofEntry_map (hφ : RebuildsObjects φ) (key : String) (value : Node) :
    φ (ofEntry key value) = ofEntry key (φ value) := by
  rw [ofEntry, made, hφ.property, List.map_cons, List.map_cons, List.map_nil, hφ.leaf]
  rfl

/-- The object literal of a property is changed before or after it is rebuilt. -/
theorem mapObject_map (hφ : RebuildsObjects φ) (h : Commutes φ change) {property : Node}
    {key : String} (hkey : property.hasKey key = true) :
    (φ property).mapObject change = φ (property.mapObject change) := by
  obtain ⟨kind, span, parts⟩ := property
  obtain ⟨shorthand, role, hkind⟩ := kind_of_hasKey hkey
  obtain rfl : kind = .property false shorthand role := hkind
  rw [hφ.property]
  by_cases hlen : parts.length = 2
  · obtain ⟨name, value, rfl⟩ := List.length_eq_two.mp hlen
    -- a property with an object literal is changed in it, any other one is kept
    by_cases hvalue : value.kind = .object
    · obtain ⟨_, at_, properties⟩ := value
      obtain rfl : _ = Kind.object := hvalue
      simp only [List.map_cons, List.map_nil, hφ.object, made, mapObject, hφ.property, h properties]
    · rw [List.map_cons, List.map_cons, List.map_nil, made,
        mapObject_of_kind (by rwa [hφ.kind]), mapObject_of_kind hvalue, hφ.property]
      rfl
  · rw [made, mapObject_of_length (by rwa [List.length_map]), mapObject_of_length hlen, hφ.property]
    rfl

/-- A map that forgets the spans of what is built carries the edits. -/
theorem carries (hφ : RebuildsObjects φ) : CarriesEdits φ where
  toCarriesObjects := hφ.keepsObjects.carries
  ofEntry_map := hφ.ofEntry_map
  ofProperties_map := hφ.object _
  ofString_map _ := hφ.leaf _
  mapObject_map h hkey := hφ.mapObject_map h hkey

/-- Descriptions are written before or after object literals are rebuilt. -/
theorem commutes_described (hφ : RebuildsObjects φ) (comment : Option String)
    (subject : Diagnostic.Subject) : Commutes φ (Edit.described comment subject) :=
  hφ.carries.commutes_described comment subject

/-- The linkage of a story has no spans to forget. -/
theorem linkage_map (hφ : RebuildsObjects φ) (story : Story) :
    φ (Edit.linkage story) = Edit.linkage story :=
  hφ.carries.linkage_map story

/-- Stories are documented before or after object literals are rebuilt. -/
theorem commutes_documented (hφ : RebuildsObjects φ) (story : Story) :
    Commutes φ (Edit.documented story) :=
  hφ.carries.commutes_documented story

end RebuildsObjects

end SvelteStories.Script.Node
