import SvelteStories.Object.Basic

/-!
# Edits along a path of object literals

`Properties.editAt` works in place: it adds the properties that are missing on its way and may come
to a property that has no object literal.  This module says what becomes of the literal in either
case.

## Key results

- `editAt_eq`: an edit fails exactly where reading the path fails, and then it has changed nothing;
  otherwise it comes to `modifyAt`, the plain change at the end of the path
- `at?_modifyAt`: what is read at the end of a path after a change there
- `modifyAt_modifyAt`: two changes at the end of a path are one
- `CollectsParts.flatMap_modifyAt`: what is collected from a tree after a change at the end of a
  path
-/

namespace SvelteStories.Script

namespace Node

/-- A property with other properties in the object literal that it has. -/
def mapObject (change : Properties → Properties) : Node → Node
  | mk kind span [name, mk .object inner properties] =>
    mk kind span [name, mk .object inner (change properties)]
  | node => node

/-- The properties of the object literal that a property has. -/
def propertyObject? (property : Node) : Option Properties :=
  property.propertyValue?.bind (·.properties?)

/-- A node with a key is a property. -/
theorem kind_of_hasKey {key : String} {node : Node} (h : node.hasKey key = true) :
    ∃ shorthand role, node.kind = .property false shorthand role := by
  unfold hasKey at h
  split at h
  · exact ⟨_, _, rfl⟩
  · exact nomatch h

/-- Only an object literal has properties. -/
theorem properties?_eq_some {node : Node} {properties : Properties} :
    node.properties? = some properties ↔ ∃ span, node = mk .object span properties := by
  constructor
  · intro h
    unfold properties? at h
    split at h
    · obtain rfl := Option.some.inj h
      exact ⟨_, rfl⟩
    · exact nomatch h
  · rintro ⟨_, rfl⟩
    rfl

/-- A property has an object literal exactly if its parts are a key and an object literal. -/
theorem propertyObject?_eq_some {property : Node} {inner : Properties} :
    property.propertyObject? = some inner ↔
      ∃ computed shorthand role span name at_,
        property = mk (.property computed shorthand role) span [name, mk .object at_ inner] := by
  constructor
  · intro h
    unfold propertyObject? propertyValue? at h
    -- the node is a property with a key and a value, and the value an object literal
    split at h
    · obtain ⟨_, rfl⟩ := properties?_eq_some.mp h
      exact ⟨_, _, _, _, _, _, rfl⟩
    · exact nomatch h
  · rintro ⟨_, _, _, _, _, _, rfl⟩
    rfl

/-- The key of a property does not depend on the object literal that it has. -/
@[simp] theorem hasKey_mapObject (key : String) (change : Properties → Properties) (node : Node) :
    (node.mapObject change).hasKey key = node.hasKey key := by
  unfold mapObject
  split
  · rename_i kind span name inner properties
    -- the match of `hasKey` only looks at the kind of the property and of its first part
    rcases name with ⟨nameKind, _, _⟩
    cases kind <;> try rfl
    rename_i computed _ _
    cases computed <;> cases nameKind <;> rfl
  · rfl

/-- After a change of the object literal of a property, the property has the changed one. -/
theorem propertyObject?_mapObject (change : Properties → Properties) (node : Node) :
    (node.mapObject change).propertyObject? = node.propertyObject?.map change := by
  unfold mapObject
  split
  · rename_i kind span name inner properties
    cases kind <;> rfl
  · rename_i h
    cases hp : node.propertyObject? with
    | none => rfl
    | some inner =>
      obtain ⟨_, _, _, _, _, _, rfl⟩ := propertyObject?_eq_some.mp hp
      exact absurd rfl (h _ _ _ _ _)

end Node

namespace Properties

variable {α : Type}

/-! ## One level -/

/-- The object literal of the property with the given key is changed; if there is no such property,
    one is added. -/
def modifyObject (key : String) (change : Properties → Properties) (properties : Properties) :
    Properties :=
  match index? properties key with
  | some i => properties.modify i (Node.mapObject change)
  | none => add properties key (.ofProperties (change []))

@[simp] theorem object?_nil (key : String) : object? [] key = .ok none := rfl

/-- The first property with the key is read: its object literal, or a refusal. -/
theorem object?_cons_of_hasKey {key : String} {property : Node} (rest : Properties)
    (h : property.hasKey key = true) :
    object? (property :: rest) key =
      match property.propertyObject? with
      | some inner => .ok (some inner)
      | none => .error ⟨key⟩ := by
  simp only [object?, List.find?_cons, h]
  rfl

/-- A property without the key is passed over. -/
theorem object?_cons_of_not_hasKey {key : String} {property : Node} (rest : Properties)
    (h : property.hasKey key = false) :
    object? (property :: rest) key = object? rest key := by
  simp only [object?, List.find?_cons, h]

@[simp] theorem modifyObject_nil (key : String) (change : Properties → Properties) :
    modifyObject key change [] = [.ofEntry key (.ofProperties (change []))] := rfl

/-- The first property with the key is changed, and it alone. -/
theorem modifyObject_cons_of_hasKey {key : String} {property : Node} (rest : Properties)
    (change : Properties → Properties) (h : property.hasKey key = true) :
    modifyObject key change (property :: rest) = property.mapObject change :: rest := by
  simp only [modifyObject, index?, List.findIdx?_cons, h]
  rfl

/-- A property without the key is kept. -/
theorem modifyObject_cons_of_not_hasKey {key : String} {property : Node} (rest : Properties)
    (change : Properties → Properties) (h : property.hasKey key = false) :
    modifyObject key change (property :: rest) = property :: modifyObject key change rest := by
  simp only [modifyObject, index?, List.findIdx?_cons, h, add]
  cases List.findIdx? (fun p => p.hasKey key) rest <;> rfl

/-- A property that is added under another key is not read. -/
theorem object?_add_of_ne {key name : String} (properties : Properties) (value : Node)
    (h : name ≠ key) : object? (add properties name value) key = object? properties key := by
  have hkey : (Node.ofEntry name value).hasKey key = false := by
    rw [Node.hasKey_ofEntry]
    exact beq_false_of_ne h
  -- the added property stands last, so it is met after all others and passed over
  induction properties with
  | nil => exact object?_cons_of_not_hasKey [] hkey
  | cons property rest ih =>
    rw [show add (property :: rest) name value = property :: add rest name value from rfl]
    cases hk : property.hasKey key with
    | false => rw [object?_cons_of_not_hasKey _ hk, object?_cons_of_not_hasKey _ hk, ih]
    | true => rw [object?_cons_of_hasKey _ hk, object?_cons_of_hasKey _ hk]

theorem has_add_self (properties : Properties) (key : String) (value : Node) :
    has (add properties key value) key = true := by
  simp [has, add, Node.hasKey_ofEntry]

/-- A change only depends on what it makes of the object literal that is there. -/
theorem modifyObject_congr {key : String} {properties : Properties} {found : Option Properties}
    {f g : Properties → Properties} (h : object? properties key = .ok found)
    (hfg : f (found.getD []) = g (found.getD [])) :
    modifyObject key f properties = modifyObject key g properties := by
  induction properties with
  | nil =>
    obtain rfl : none = found := by simpa using h
    simp only [Option.getD_none] at hfg
    simp only [modifyObject_nil, hfg]
  | cons property rest ih =>
    cases hk : property.hasKey key with
    | false =>
      rw [object?_cons_of_not_hasKey rest hk] at h
      rw [modifyObject_cons_of_not_hasKey rest f hk,
        modifyObject_cons_of_not_hasKey rest g hk, ih h]
    | true =>
      rw [object?_cons_of_hasKey rest hk] at h
      rw [modifyObject_cons_of_hasKey rest f hk, modifyObject_cons_of_hasKey rest g hk]
      cases hp : property.propertyObject? with
      | none => simp [hp] at h
      | some inner =>
        -- the reading succeeded, so the property has an object literal, which is all that is
        -- changed
        obtain ⟨_, _, _, _, _, _, rfl⟩ := Node.propertyObject?_eq_some.mp hp
        obtain rfl : some inner = found := by simpa [hp] using h
        simp only [Node.mapObject]
        rw [show f inner = g inner from hfg]

/-- A change that keeps the object literal that is there keeps everything. -/
theorem modifyObject_of_eq {key : String} {properties inner : Properties}
    {change : Properties → Properties} (h : object? properties key = .ok (some inner))
    (hc : change inner = inner) : modifyObject key change properties = properties := by
  induction properties with
  | nil => exact nomatch h
  | cons property rest ih =>
    cases hk : property.hasKey key with
    | false =>
      rw [object?_cons_of_not_hasKey rest hk] at h
      rw [modifyObject_cons_of_not_hasKey rest change hk, ih h]
    | true =>
      rw [object?_cons_of_hasKey rest hk] at h
      rw [modifyObject_cons_of_hasKey rest change hk]
      -- the property with the key has an object literal, as it was read
      cases hp : property.propertyObject? with
      | none => simp [hp] at h
      | some inner' =>
        obtain ⟨_, _, _, _, _, _, rfl⟩ := Node.propertyObject?_eq_some.mp hp
        obtain rfl : inner' = inner := by simpa [hp] using h
        simp only [Node.mapObject, hc]

/-- What is read under a key after a change under it. -/
theorem object?_modifyObject {key : String} {properties : Properties} {found : Option Properties}
    (change : Properties → Properties) (h : object? properties key = .ok found) :
    object? (modifyObject key change properties) key = .ok (some (change (found.getD []))) := by
  induction properties with
  | nil =>
    obtain rfl : none = found := by simpa using h
    rw [modifyObject_nil, object?_cons_of_hasKey []
      (by simp [Node.hasKey_ofEntry])]
    rfl
  | cons property rest ih =>
    cases hk : property.hasKey key with
    | false =>
      rw [object?_cons_of_not_hasKey rest hk] at h
      rw [modifyObject_cons_of_not_hasKey rest change hk, object?_cons_of_not_hasKey _ hk, ih h]
    -- the property keeps its key, so that it is found again
    | true =>
      rw [object?_cons_of_hasKey rest hk] at h
      rw [modifyObject_cons_of_hasKey rest change hk,
        object?_cons_of_hasKey rest (by rw [Node.hasKey_mapObject]; exact hk),
        Node.propertyObject?_mapObject]
      cases hp : property.propertyObject? with
      | none => simp [hp] at h
      | some inner =>
        obtain rfl : some inner = found := by simpa [hp] using h
        rfl

/-- Two changes under one key are one. -/
theorem modifyObject_modifyObject {key : String} {properties : Properties}
    {found : Option Properties} (f g : Properties → Properties)
    (h : object? properties key = .ok found) :
    modifyObject key g (modifyObject key f properties) =
      modifyObject key (fun inner => g (f inner)) properties := by
  induction properties with
  | nil =>
    rw [modifyObject_nil, modifyObject_cons_of_hasKey [] g (by simp [Node.hasKey_ofEntry])]
    rfl
  | cons property rest ih =>
    cases hk : property.hasKey key with
    | false =>
      rw [object?_cons_of_not_hasKey rest hk] at h
      rw [modifyObject_cons_of_not_hasKey rest f hk, modifyObject_cons_of_not_hasKey _ g hk,
        modifyObject_cons_of_not_hasKey rest _ hk, ih h]
    -- both changes are made in the first property with the key
    | true =>
      rw [object?_cons_of_hasKey rest hk] at h
      rw [modifyObject_cons_of_hasKey rest f hk,
        modifyObject_cons_of_hasKey rest g (by rw [Node.hasKey_mapObject]; exact hk),
        modifyObject_cons_of_hasKey rest _ hk]
      cases hp : property.propertyObject? with
      | none => simp [hp] at h
      | some inner =>
        obtain ⟨_, _, _, _, _, _, rfl⟩ := Node.propertyObject?_eq_some.mp hp
        rfl

/-- An edit under a key fails if the property with that key has no object literal, and changes
    nothing then; otherwise it comes to what it makes of that object literal. -/
theorem edit_eq (key : String) (change : Properties → Edited α) (properties : Properties) :
    edit key change properties =
      match object? properties key with
      | .error e => ⟨properties, .error e⟩
      | .ok found =>
        ⟨modifyObject key (fun inner => (change inner).properties) properties,
          (change (found.getD [])).outcome⟩ := by
  -- the edit searches the list as the reading does: induction on the list
  induction properties with
  | nil => rfl
  | cons property rest ih =>
    cases hk : property.hasKey key with
    | false =>
      rw [object?_cons_of_not_hasKey rest hk, modifyObject_cons_of_not_hasKey rest _ hk]
      simp only [edit, hk, Bool.false_eq_true, ↓reduceIte, ih]
      cases object? rest key <;> rfl
    | true =>
      rw [object?_cons_of_hasKey rest hk, modifyObject_cons_of_hasKey rest _ hk]
      cases hp : property.propertyObject? with
      | some inner =>
        obtain ⟨_, _, _, _, _, _, rfl⟩ := Node.propertyObject?_eq_some.mp hp
        simp only [edit, hk, ↓reduceIte]
        rfl
      | none =>
        -- a property with the key and without an object literal is put back
        simp only [edit, hk, ↓reduceIte]
        split
        · -- a property with an object literal is excluded by `hp`
          rename_i kind _ _ _ _
          obtain ⟨_, _, hkind⟩ := Node.kind_of_hasKey hk
          obtain rfl : kind = _ := hkind
          exact nomatch hp
        · rfl

/-! ## A whole path -/

/-- The object literal at the end of a path is changed; the properties that are missing on the way
    are added. -/
def modifyAt : (path : List String) → (Properties → Properties) → Properties → Properties
  | [], change => change
  | key :: path, change => modifyObject key (modifyAt path change)

/-- A path is read key by key, as long as there is an object literal to read the next one in. -/
theorem at?_cons (key : String) (path : List String) (properties : Properties) :
    at? (key :: path) properties =
      match object? properties key with
      | .error e => .error e
      | .ok none => .ok none
      | .ok (some inner) => at? path inner := by
  simp only [at?, bind, Except.bind]
  cases object? properties key with
  | error e => rfl
  | ok found => cases found <;> rfl

/-- Reading a path in an empty object literal does not fail, and what is read is empty. -/
theorem at?_nil_properties (path : List String) :
    ∃ found, at? path [] = .ok found ∧ found.getD [] = [] := by
  cases path with
  | nil => exact ⟨some [], rfl, rfl⟩
  | cons key path => exact ⟨none, rfl, rfl⟩

/-- A path is read by reading its start and then the rest. -/
theorem at?_append (start rest : List String) (properties : Properties) :
    at? (start ++ rest) properties =
      match at? start properties with
      | .error e => .error e
      | .ok none => .ok none
      | .ok (some inner) => at? rest inner := by
  induction start generalizing properties with
  | nil => rfl
  | cons key start ih =>
    rw [List.cons_append, at?_cons, at?_cons]
    cases object? properties key with
    | error e => rfl
    | ok inner? =>
      cases inner? with
      | none => rfl
      | some inner => exact ih inner

/-- An edit along a path fails exactly if reading the path fails, with the same error, and then
    nothing was changed, although each level is added before the next one is looked at: only a level
    that was there can be refused.  Otherwise the edit comes to what it makes of the object literal
    at the end of the path. -/
theorem editAt_eq (path : List String) (change : Properties → Edited α) (properties : Properties) :
    editAt path change properties =
      match at? path properties with
      | .error e => ⟨properties, .error e⟩
      | .ok found =>
        ⟨modifyAt path (fun inner => (change inner).properties) properties,
          (change (found.getD [])).outcome⟩ := by
  induction path generalizing properties with
  | nil => rfl
  | cons key path ih =>
    rw [show editAt (key :: path) change = edit key (editAt path change) from rfl,
      edit_eq, at?_cons]
    cases hobj : object? properties key with
    | error e => rfl
    | ok found =>
      cases found with
      | none =>
        -- the level is new, and in an empty literal nothing can be refused
        obtain ⟨found, hnil, hempty⟩ := at?_nil_properties path
        have hedit := ih []
        rw [hnil] at hedit
        simp only [Option.getD_none, modifyAt, hedit, hempty, Edited.mk.injEq, and_true]
        exact modifyObject_congr hobj (by simp [hedit])
      | some inner =>
        -- the level was there: what the rest of the path comes to is put back in its place
        have hedit := ih inner
        cases hat : at? path inner with
        | error e =>
          simp only [hat] at hedit
          simp only [Option.getD_some, hedit, hat]
          rw [modifyObject_of_eq hobj (by rw [hedit])]
        | ok found =>
          simp only [hat] at hedit
          simp only [Option.getD_some, modifyAt, hedit, hat, Edited.mk.injEq, and_true]
          exact modifyObject_congr hobj (by rw [Option.getD_some, hedit])

/-- What is read at the end of a path after a change there. -/
theorem at?_modifyAt {path : List String} {properties : Properties} {found : Option Properties}
    (change : Properties → Properties) (h : at? path properties = .ok found) :
    at? path (modifyAt path change properties) = .ok (some (change (found.getD []))) := by
  induction path generalizing properties found with
  | nil =>
    obtain rfl : some properties = found := by simpa [at?] using h
    rfl
  | cons key path ih =>
    rw [at?_cons] at h
    cases hobj : object? properties key with
    | error e => simp [hobj] at h
    | ok inner? =>
      rw [at?_cons, modifyAt, object?_modifyObject _ hobj]
      cases inner? with
      | none =>
        obtain rfl : none = found := by simpa [hobj] using h
        -- what is missing on the way is read after the change as it was added
        obtain ⟨found, hnil, hempty⟩ := at?_nil_properties path
        simpa [hempty] using ih hnil
      | some inner =>
        simp only [hobj] at h
        exact ih h

/-- A change that keeps the object literal at the end of a path keeps everything. -/
theorem modifyAt_of_eq {path : List String} {properties inner : Properties}
    {change : Properties → Properties} (h : at? path properties = .ok (some inner))
    (hc : change inner = inner) : modifyAt path change properties = properties := by
  induction path generalizing properties with
  | nil =>
    obtain rfl : properties = inner := by simpa [at?] using h
    exact hc
  | cons key path ih =>
    rw [at?_cons] at h
    -- every key on the way has an object literal, as the path was read to its end
    cases hobj : object? properties key with
    | error e => simp [hobj] at h
    | ok inner? =>
      cases inner? with
      | none => simp [hobj] at h
      | some next =>
        simp only [hobj] at h
        exact modifyObject_of_eq hobj (ih h)

/-- Two changes at the end of a path are one. -/
theorem modifyAt_modifyAt {path : List String} {properties : Properties} {found : Option Properties}
    (f g : Properties → Properties) (h : at? path properties = .ok found) :
    modifyAt path g (modifyAt path f properties) =
      modifyAt path (fun inner => g (f inner)) properties := by
  induction path generalizing properties found with
  | nil => rfl
  | cons key path ih =>
    rw [at?_cons] at h
    cases hobj : object? properties key with
    | error e => simp [hobj] at h
    | ok inner? =>
      rw [modifyAt, modifyAt, modifyAt, modifyObject_modifyObject _ _ hobj]
      -- both changes meet the object literal that the first one left
      refine modifyObject_congr hobj ?_
      cases inner? with
      | none =>
        obtain ⟨_, hnil, -⟩ := at?_nil_properties path
        exact ih hnil
      | some inner =>
        simp only [hobj] at h
        exact ih h

end Properties

/-! ## What is collected from a tree -/

/-- What is collected from properties and object literals is what is collected from their parts, and
    fixed names and strings add nothing. -/
structure Node.CollectsParts {α : Type} (collect : Node → List α) : Prop where
  property : ∀ computed shorthand role span parts,
    collect (mk (.property computed shorthand role) span parts) = parts.flatMap collect
  object : ∀ span properties, collect (mk .object span properties) = properties.flatMap collect
  name : ∀ text span parts, collect (mk (.name text) span parts) = parts.flatMap collect
  ofString : ∀ text, collect (ofString text) = []

namespace Node.CollectsParts

open Properties

variable {α : Type} {collect : Node → List α} {change : Properties → Properties}

/-- From a new entry, as much is collected as from its value. -/
theorem ofEntry (h : CollectsParts collect) (key : String) (value : Node) :
    collect (ofEntry key value) = collect value := by
  rw [Node.ofEntry, made, h.property, List.flatMap_cons, made, h.name, List.flatMap_nil,
    List.nil_append, List.flatMap_singleton]

/-- A change of the object literal of a property that keeps what is collected from it keeps what is
    collected from the property. -/
theorem mapObject (h : CollectsParts collect)
    (hchange : ∀ properties, (change properties).flatMap collect = properties.flatMap collect)
    {property : Node} {key : String} (hkey : property.hasKey key = true) :
    collect (property.mapObject change) = collect property := by
  unfold Node.mapObject
  split
  · obtain ⟨_, _, hkind⟩ := kind_of_hasKey hkey
    obtain rfl : _ = _ := hkind
    rw [h.property, h.property]
    simp only [List.flatMap_cons, h.object, hchange]
  · rfl

/-- A change of an object literal that keeps what is collected from it keeps what is collected from
    the properties around. -/
theorem flatMap_modifyObject (h : CollectsParts collect) (key : String)
    (hchange : ∀ properties, (change properties).flatMap collect = properties.flatMap collect)
    (properties : Properties) :
    (modifyObject key change properties).flatMap collect = properties.flatMap collect := by
  induction properties with
  -- an added entry gives what its object literal gives, which the change keeps
  | nil =>
    rw [modifyObject_nil, List.flatMap_singleton, h.ofEntry, ofProperties, made, h.object, hchange]
  | cons property rest ih =>
    cases hk : property.hasKey key with
    | false =>
      rw [modifyObject_cons_of_not_hasKey rest change hk, List.flatMap_cons, ih, List.flatMap_cons]
    | true =>
      rw [modifyObject_cons_of_hasKey rest change hk, List.flatMap_cons, h.mapObject hchange hk,
        List.flatMap_cons]

/-- A change at the end of a path that keeps what is collected there keeps what is collected from
    all properties. -/
theorem flatMap_modifyAt (h : CollectsParts collect) (path : List String)
    (hchange : ∀ properties, (change properties).flatMap collect = properties.flatMap collect)
    (properties : Properties) :
    (modifyAt path change properties).flatMap collect = properties.flatMap collect := by
  induction path generalizing properties with
  | nil => exact hchange properties
  | cons key path ih => exact h.flatMap_modifyObject key ih properties

end Node.CollectsParts

end SvelteStories.Script
