import SvelteStories.Proofs.Description

/-!
# What the author wrote stays in effect

The edits look a property up by the first plain name.  A module that is run reads an object literal
differently: of all properties with a key, plain or in quotes, the last one is in effect.  This
module says what an edit does to the values that are in effect.  It keeps all of them, except where
a key on its way is written in quotes only: there it does not find the property, adds one behind it,
and puts the new one into effect.

## Key results

- `effectiveAt?_modifyAt`: a change at the end of a path, for every path that may be read after it
- `edits_keep_effective`: descriptions and raw code
-/

namespace SvelteStories.Script

open Text

namespace Node

/-- Whether a node is a property whose key is the given name, plain or in quotes. -/
def isEntry (key : String) : Node → Bool
  | mk (.property false _ _) _ (mk (.name name) _ _ :: _) => name == key
  | mk (.property false _ _) _ (mk (.string name _) _ _ :: _) => name == key
  | _ => false

/-- A property with a key in quotes. -/
def ofQuotedEntry (key : String) (value : Node) : Node :=
  made (.property false false .value) [ofString key, value]

end Node

namespace Properties

/-- The value that is in effect for a key: that of the last property with that key. -/
def effective? (properties : Properties) (key : String) : Option Node :=
  (properties.findRev? (·.isEntry key)).bind (·.propertyValue?)

/-- Whether the first property with a plain name as its key has another one with that key behind
    it. -/
def overridden (key : String) : Properties → Bool
  | [] => false
  | property :: rest =>
    if property.hasKey key then rest.any (·.isEntry key) else overridden key rest

end Properties

namespace Node

/-- The value that is in effect at the end of a path of keys. -/
def effectiveAt? : (path : List String) → Node → Option Node
  | [], node => some node
  | key :: path, node =>
    (node.properties?.bind (Properties.effective? · key)).bind (effectiveAt? path)

variable {key name : String} {node : Node}

/-- A property with a plain name as its key is an entry of this name. -/
theorem isEntry_of_hasKey (h : node.hasKey key = true) : node.isEntry key = true := by
  unfold hasKey at h
  split at h
  · exact h
  · exact nomatch h

/-- A property with a plain name is no entry of another key. -/
theorem isEntry_of_hasKey_of_ne (h : node.hasKey key = true) (hne : name ≠ key) :
    node.isEntry name = false := by
  unfold hasKey at h
  split at h
  · rename_i text _ _ _
    obtain rfl : text = key := by simpa using h
    exact beq_false_of_ne hne.symm
  · exact nomatch h

/-- A new entry is one of its own key alone. -/
theorem isEntry_ofEntry (key name : String) (value : Node) :
    (ofEntry name value).isEntry key = (name == key) := rfl

end Node

namespace Properties

open Node

variable {key name : String} {properties inner : Properties} {change : Properties → Properties}

/-! ## One level -/

/-- What is found last among the others is found last. -/
theorem findRev?_cons_of_some {p : Node → Bool} {property found : Node} {rest : Properties}
    (h : rest.findRev? p = some found) : (property :: rest).findRev? p = some found := by
  simp only [List.findRev?, h]

/-- The first property is found last if none of the others is. -/
theorem findRev?_cons_of_none {p : Node → Bool} {property : Node} {rest : Properties}
    (h : rest.findRev? p = none) :
    (property :: rest).findRev? p = if p property then some property else none := by
  simp only [List.findRev?, h]

/-- None is found last if there is none. -/
theorem findRev?_eq_none {p : Node → Bool} :
    properties.findRev? p = none ↔ properties.any p = false := by
  rw [List.findRev?_eq_find?_reverse, List.find?_eq_none, List.any_eq_false]
  simp only [List.mem_reverse]

/-- A change under a key keeps the entries of all other keys. -/
theorem findRev?_modifyObject_of_ne (properties : Properties) (h : name ≠ key) :
    (modifyObject key change properties).findRev? (·.isEntry name) =
      properties.findRev? (·.isEntry name) := by
  induction properties with
  | nil =>
    rw [modifyObject_nil, findRev?_cons_of_none rfl, isEntry_ofEntry,
      if_neg (by simpa using h.symm)]
    rfl
  | cons property rest ih =>
    cases hk : property.hasKey key with
    | false =>
      rw [modifyObject_cons_of_not_hasKey rest change hk]
      simp only [List.findRev?, ih]
    | true =>
      -- the changed property is passed over before and after
      rw [modifyObject_cons_of_hasKey rest change hk]
      have hchanged := isEntry_of_hasKey_of_ne ((hasKey_mapObject key change property).trans hk) h
      simp only [List.findRev?, isEntry_of_hasKey_of_ne hk h, hchanged, Bool.false_eq_true,
        ↓reduceIte]

/-- A change under a key leaves what is in effect for another one. -/
theorem effective?_modifyObject_of_ne (properties : Properties) (h : name ≠ key) :
    effective? (modifyObject key change properties) name = effective? properties name := by
  rw [effective?, findRev?_modifyObject_of_ne properties h, effective?]

/-- A property that is added is in effect. -/
theorem effective?_add (properties : Properties) (key : String) (value : Node) :
    effective? (add properties key value) key = some value := by
  have hlast : (add properties key value).findRev? (·.isEntry key) = some (.ofEntry key value) := by
    induction properties with
    | nil =>
      rw [show add [] key value = [.ofEntry key value] from rfl, findRev?_cons_of_none rfl,
        isEntry_ofEntry, if_pos (by simp)]
    | cons property rest ih => exact findRev?_cons_of_some ih
  rw [effective?, hlast]
  rfl

/-- A property that is added leaves what is in effect for another key. -/
theorem effective?_add_of_ne (properties : Properties) (value : Node) (h : name ≠ key) :
    effective? (add properties key value) name = effective? properties name := by
  -- the new property is the last one, but not one of this name
  have hlast : (add properties key value).findRev? (·.isEntry name) =
      properties.findRev? (·.isEntry name) := by
    induction properties with
    | nil =>
      rw [show add [] key value = [.ofEntry key value] from rfl, findRev?_cons_of_none rfl,
        isEntry_ofEntry, if_neg (by simpa using h.symm)]
      rfl
    | cons property rest ih =>
      rw [show add (property :: rest) key value = property :: add rest key value from rfl]
      simp only [List.findRev?, ih]
  rw [effective?, hlast, effective?]

/-- Where no property has a plain name as its key, the one that is added is in effect. -/
theorem effective?_modifyObject_of_none (h : object? properties key = .ok none) :
    effective? (modifyObject key change properties) key = some (.ofProperties (change [])) := by
  -- no property has the key, so that the change is made of a new one
  have hadded : modifyObject key change properties =
      add properties key (.ofProperties (change [])) := by
    induction properties with
    | nil => rfl
    | cons property rest ih =>
      cases hk : property.hasKey key with
      | false =>
        rw [object?_cons_of_not_hasKey rest hk] at h
        rw [modifyObject_cons_of_not_hasKey rest change hk, ih h]
        rfl
      | true =>
        rw [object?_cons_of_hasKey rest hk] at h
        cases hp : property.propertyObject? with
        | none => simp [hp] at h
        | some inner => simp [hp] at h
  rw [hadded, effective?_add]

/-- A property that is overridden can be changed without effect. -/
theorem effective?_modifyObject_of_overridden (h : overridden key properties = true) :
    effective? (modifyObject key change properties) key = effective? properties key := by
  have hlast : (modifyObject key change properties).findRev? (·.isEntry key) =
      properties.findRev? (·.isEntry key) := by
    induction properties with
    | nil => exact nomatch h
    | cons property rest ih =>
      cases hk : property.hasKey key with
      | false =>
        simp only [overridden, hk, Bool.false_eq_true, ↓reduceIte] at h
        rw [modifyObject_cons_of_not_hasKey rest change hk]
        simp only [List.findRev?, ih h]
      | true =>
        simp only [overridden, hk, ↓reduceIte] at h
        rw [modifyObject_cons_of_hasKey rest change hk]
        -- there is an entry behind the changed property
        cases hrest : rest.findRev? (·.isEntry key) with
        | none => simp [findRev?_eq_none.mp hrest] at h
        | some found => rw [findRev?_cons_of_some hrest, findRev?_cons_of_some hrest]
  rw [effective?, hlast, effective?]

/-- A property that is not overridden is in effect, before and after a change of the object literal
    that it has. -/
theorem effective?_modifyObject_of_not_overridden (change : Properties → Properties)
    (h : object? properties key = .ok (some inner)) (hlast : overridden key properties = false) :
    ∃ span, effective? properties key = some (.mk .object span inner) ∧
      effective? (modifyObject key change properties) key =
        some (.mk .object span (change inner)) := by
  induction properties with
  | nil => exact nomatch h
  | cons property rest ih =>
    cases hk : property.hasKey key with
    | false =>
      simp only [overridden, hk, Bool.false_eq_true, ↓reduceIte] at hlast
      rw [object?_cons_of_not_hasKey rest hk] at h
      rw [modifyObject_cons_of_not_hasKey rest change hk]
      -- both values are found behind the first property, and the first one does not count
      obtain ⟨span, hbefore, hafter⟩ := ih h hlast
      refine ⟨span, ?_, ?_⟩
      · obtain ⟨found, hfound, hvalue⟩ := Option.bind_eq_some_iff.mp hbefore
        rw [effective?, findRev?_cons_of_some hfound, Option.bind_some, hvalue]
      · obtain ⟨found, hfound, hvalue⟩ := Option.bind_eq_some_iff.mp hafter
        rw [effective?, findRev?_cons_of_some hfound, Option.bind_some, hvalue]
    | true =>
      simp only [overridden, hk, ↓reduceIte] at hlast
      rw [object?_cons_of_hasKey rest hk] at h
      cases hp : property.propertyObject? with
      | none => simp [hp] at h
      | some found =>
        obtain rfl : found = inner := by simpa [hp] using h
        -- none of the others is an entry of the key, so that this one is in effect
        have hrest := findRev?_eq_none.mpr hlast
        have hchanged := (hasKey_mapObject key change property).trans hk
        rw [modifyObject_cons_of_hasKey rest change hk, effective?, effective?,
          findRev?_cons_of_none hrest, findRev?_cons_of_none hrest,
          if_pos (isEntry_of_hasKey hk), if_pos (isEntry_of_hasKey hchanged)]
        obtain ⟨_, _, _, _, _, span, rfl⟩ := propertyObject?_eq_some.mp hp
        exact ⟨span, rfl, rfl⟩

end Properties

end SvelteStories.Script

namespace SvelteStories.Edit

open Text Diagnostic Script Node Properties

/-! ## Paths -/

/-- Whether a change at the end of a path takes what is in effect at a target out of effect: on the
    way both share a key that is written in quotes only, or they share the whole path and the change
    does it in the object literal at its end. -/
def displaced (atEnd : Properties → List String → Bool) :
    (path target : List String) → Properties → Bool
  | [], target, properties => atEnd properties target
  | _ :: _, [], _ => false
  | key :: path, name :: target, properties =>
    key == name &&
      match object? properties key with
      | .error _ => false
      | .ok none => properties.any (·.isEntry key)
      | .ok (some inner) => !overridden key properties && displaced atEnd path target inner

/-- The value at a target is the same as before, or both are object literals on the way of a
    path. -/
def StaysInEffect (path target : List String) (value value' : Node) : Prop :=
  value' = value ∨
    (target <+: path ∧ value.properties?.isSome = true ∧ value'.properties?.isSome = true)

/-- What a change of an object literal does to the values in effect in it. -/
structure Displaces (atEnd : Properties → List String → Bool) (change : Properties → Properties) :
    Prop where
  kept : ∀ span properties target value, atEnd properties target = false →
    effectiveAt? target (.mk .object span properties) = some value →
      ∃ value', effectiveAt? target (.mk .object span (change properties)) = some value' ∧
        StaysInEffect [] target value value'
  displaced : ∀ span properties target, atEnd properties target = true →
    effectiveAt? target (.mk .object span (change properties)) =
      effectiveAt? target (.ofProperties (change []))

variable {atEnd : Properties → List String → Bool} {change : Properties → Properties}
  {path target : List String} {properties : Properties} {found : Option Properties}

/-- In an object literal, a path goes on in what is in effect for its first key. -/
theorem effectiveAt?_object (key : String) (path : List String) (span : Span)
    (properties : Properties) :
    effectiveAt? (key :: path) (.mk .object span properties) =
      (effective? properties key).bind (effectiveAt? path) := rfl

/-- Without an entry nothing is in effect. -/
theorem effective?_of_any (key : String) (h : properties.any (·.isEntry key) = false) :
    effective? properties key = none := by
  rw [effective?, findRev?_eq_none.mpr h, Option.bind_none]

/-- What stays in effect under a key stays in effect. -/
theorem StaysInEffect.cons {value value' : Node} (key : String)
    (h : StaysInEffect path target value value') :
    StaysInEffect (key :: path) (key :: target) value value' := by
  rcases h with rfl | ⟨htarget, hvalue, hvalue'⟩
  · exact .inl rfl
  · exact .inr ⟨List.cons_prefix_cons.mpr ⟨rfl, htarget⟩, hvalue, hvalue'⟩

/-- A value that is not displaced stays in effect. -/
theorem effectiveAt?_modifyAt (hchange : Displaces atEnd change) {span : Span} {value : Node}
    (hat : at? path properties = .ok found) (hkept : displaced atEnd path target properties = false)
    (hvalue : effectiveAt? target (.mk .object span properties) = some value) :
    ∃ value', effectiveAt? target (.mk .object span (modifyAt path change properties)) =
      some value' ∧
      StaysInEffect path target value value' := by
  induction path generalizing properties found target span value with
  | nil => exact hchange.kept span properties target value hkept hvalue
  | cons key path ih =>
    cases target with
    | nil =>
      -- the object literal itself
      obtain rfl : Node.mk .object span properties = value := Option.some.inj hvalue
      exact ⟨_, rfl, .inr ⟨List.nil_prefix, rfl, rfl⟩⟩
    | cons name target =>
      rw [effectiveAt?_object] at hvalue
      rw [effectiveAt?_object, modifyAt]
      by_cases hname : name = key
      · subst hname
        rw [at?_cons] at hat
        simp only [displaced, beq_self_eq_true, Bool.true_and] at hkept
        cases hobject : object? properties name with
        | error e => simp [hobject] at hat
        | ok inner? =>
          cases inner? with
          | none =>
            -- nothing is in effect for the key
            simp only [hobject] at hkept
            rw [effective?_of_any name hkept, Option.bind_none] at hvalue
            cases hvalue
          | some inner =>
            simp only [hobject] at hat hkept
            cases hover : overridden name properties with
            | true =>
              -- what is changed was not in effect
              rw [effective?_modifyObject_of_overridden hover]
              exact ⟨value, hvalue, .inl rfl⟩
            | false =>
              simp only [hover, Bool.not_false, Bool.true_and] at hkept
              -- what is changed is in effect, and the rest of the target is looked up in it
              obtain ⟨at_, hbefore, hafter⟩ :=
                effective?_modifyObject_of_not_overridden (modifyAt path change) hobject hover
              rw [hbefore, Option.bind_some] at hvalue
              rw [hafter, Option.bind_some]
              obtain ⟨value', hvalue', hstays⟩ := ih hat hkept hvalue
              exact ⟨value', hvalue', hstays.cons name⟩
      · rw [effective?_modifyObject_of_ne properties hname]
        exact ⟨value, hvalue, .inl rfl⟩

/-- Where a value is displaced, what is in effect is what the change makes of nothing. -/
theorem effectiveAt?_modifyAt_of_displaced (hchange : Displaces atEnd change) {span : Span}
    (h : displaced atEnd path target properties = true) :
    effectiveAt? target (.mk .object span (modifyAt path change properties)) =
      effectiveAt? target (.ofProperties (modifyAt path change [])) := by
  induction path generalizing properties target span with
  | nil => exact hchange.displaced span properties target h
  | cons key path ih =>
    cases target with
    | nil => cases h
    | cons name target =>
      rw [displaced, Bool.and_eq_true, beq_iff_eq] at h
      obtain ⟨rfl, h⟩ := h
      have hfresh : effective? (modifyObject key (modifyAt path change) []) key =
          some (.ofProperties (modifyAt path change [])) := effective?_modifyObject_of_none rfl
      rw [modifyAt, ofProperties, made, effectiveAt?_object, effectiveAt?_object, hfresh]
      cases hobject : object? properties key with
      | error e => simp [hobject] at h
      | ok inner? =>
        cases inner? with
        -- a new property is added, and it stands last
        | none => rw [effective?_modifyObject_of_none hobject]
        | some inner =>
          simp only [hobject, Bool.and_eq_true, Bool.not_eq_true'] at h
          obtain ⟨at_, -, hafter⟩ :=
            effective?_modifyObject_of_not_overridden (modifyAt path change) hobject h.1
          rw [hafter, Option.bind_some, Option.bind_some, ih h.2]

/-! ## Descriptions and raw code -/

/-- A description displaces a description of the same subject whose key is written in quotes
    only. -/
def displacesDescription (subject : Subject) (description : Properties) (target : List String) :
    Bool :=
  target.head? == some subject.key && !has description subject.key &&
    description.any (·.isEntry subject.key)

/-- The raw code displaces what was kept under its key. -/
def displacesLinkage (_ : Properties) (target : List String) : Bool :=
  target.head? == some linkageKey

/-- A property that is added leaves what is in effect at a path with another first key, up to the
    properties of an object literal on the way. -/
theorem effectiveAt?_add_of_ne (properties : Properties) {key : String} (value : Node) (span : Span)
    (h : target.head? ≠ some key) {found : Node}
    (hfound : effectiveAt? target (.mk .object span properties) = some found) :
    ∃ value', effectiveAt? target (.mk .object span (add properties key value)) = some value' ∧
      StaysInEffect [] target found value' := by
  cases target with
  | nil =>
    obtain rfl : Node.mk .object span properties = found := Option.some.inj hfound
    exact ⟨_, rfl, .inr ⟨List.nil_prefix, rfl, rfl⟩⟩
  | cons name target =>
    have hne : name ≠ key := fun heq => h (congrArg some heq)
    rw [effectiveAt?_object, effective?_add_of_ne properties value hne, ← effectiveAt?_object]
    exact ⟨found, hfound, .inl rfl⟩

/-- A property that is added decides what is in effect under its key. -/
theorem effectiveAt?_add (properties : Properties) {key : String} (value : Node) (span : Span)
    (h : target.head? = some key) :
    effectiveAt? target (.mk .object span (add properties key value)) =
      effectiveAt? target (.ofProperties (add [] key value)) := by
  obtain ⟨target, rfl⟩ := List.head?_eq_some_iff.mp h
  rw [ofProperties, made, effectiveAt?_object, effectiveAt?_object, effective?_add, effective?_add]

/-- A description displaces what is written under its key in quotes, and nothing else. -/
theorem displaces_withText (comment : String) (subject : Subject) :
    Displaces (displacesDescription subject) (withText comment subject) where
  kept span description target value hkept hvalue := by
    unfold withText
    split
    · exact ⟨value, hvalue, .inl rfl⟩
    · rename_i hhas
      refine effectiveAt?_add_of_ne description _ span ?_ hvalue
      intro hhead
      -- without an entry of the key nothing is in effect for it
      obtain ⟨target, rfl⟩ := List.head?_eq_some_iff.mp hhead
      simp only [displacesDescription, List.head?_cons, beq_self_eq_true, hhas, Bool.not_false,
        Bool.and_self, Bool.true_and] at hkept
      rw [effectiveAt?_object, effective?_of_any subject.key hkept] at hvalue
      exact nomatch hvalue
  displaced span description target h := by
    simp only [displacesDescription, Bool.and_eq_true, beq_iff_eq, Bool.not_eq_true'] at h
    rw [withText, if_neg (by simp [h.1.2]), withText, if_neg (by simp [has])]
    exact effectiveAt?_add description _ span h.1.1

/-- The raw code displaces what was under its key, and nothing else. -/
theorem displaces_add_linkage (story : Story) :
    Displaces displacesLinkage (add · linkageKey (linkage story)) where
  kept span parameters target value hkept hvalue := by
    refine effectiveAt?_add_of_ne parameters _ span ?_ hvalue
    simpa [displacesLinkage] using hkept
  displaced span parameters target h := by
    refine effectiveAt?_add parameters _ span ?_
    simpa [displacesLinkage] using h

/-- Whether the description that a comment gives displaces what is in effect at a target. -/
def displacedByDescription (comment : Option String) (subject : Subject) (target : List String)
    (properties : Properties) : Bool :=
  comment.isSome && displaced (displacesDescription subject) descriptionPath target properties

/-- An edit that succeeds keeps every value in effect, unless a key that it needs is written in
    quotes only where the value is reached; there the value is the one that the edit writes. -/
theorem edits_keep_effective :
    (∀ (filename : String) (comment : Option String) (subject : Subject) (properties : Properties),
      (describe filename comment subject properties).failure = none → ∀ target,
        (displacedByDescription comment subject target properties = false → ∀ value,
          effectiveAt? target (.ofProperties properties) = some value →
            ∃ value', effectiveAt? target (.ofProperties
                (describe filename comment subject properties).properties) = some value' ∧
              StaysInEffect descriptionPath target value value') ∧
        (displacedByDescription comment subject target properties = true →
          effectiveAt? target
              (.ofProperties (describe filename comment subject properties).properties) =
            effectiveAt? target
              (.ofProperties (describe filename comment subject []).properties))) ∧
    (∀ (filename : String) (story : Story) (properties : Properties),
      (link filename story properties).failure = none → ∀ target,
        (displaced displacesLinkage parametersPath target properties = false → ∀ value,
          effectiveAt? target (.ofProperties properties) = some value →
            ∃ value', effectiveAt? target
                (.ofProperties (link filename story properties).properties) = some value' ∧
              StaysInEffect parametersPath target value value') ∧
        (displaced displacesLinkage parametersPath target properties = true →
          effectiveAt? target (.ofProperties (link filename story properties).properties) =
            effectiveAt? target (.ofProperties (link filename story []).properties))) := by
  constructor
  · intro filename comment subject properties hok target
    cases comment with
    | none =>
      -- nothing is written
      refine ⟨fun _ value hvalue => ⟨value, hvalue, .inl rfl⟩, fun h => nomatch h⟩
    | some comment =>
      rw [describe_eq] at hok ⊢
      rw [describe_eq]
      cases hobstacle : obstacle? (neededPath (some comment) []) properties with
      | some e => simp [hobstacle] at hok
      | none =>
        obtain ⟨found, hat⟩ := obstacle?_eq_none.mp hobstacle
        -- the text displaces only what is read under its key
        have hchange := displaces_withText comment subject
        exact ⟨fun hkept value hvalue => effectiveAt?_modifyAt hchange hat hkept hvalue,
          fun h => effectiveAt?_modifyAt_of_displaced hchange h⟩
  · intro filename story properties hok target
    rw [link_eq] at hok ⊢
    rw [link_eq]
    cases hobstacle : obstacle? parametersPath properties with
    | some e => simp [hobstacle] at hok
    | none =>
      obtain ⟨found, hat⟩ := obstacle?_eq_none.mp hobstacle
      -- the linkage displaces only what is read under its key
      have hchange := displaces_add_linkage story
      exact ⟨fun hkept value hvalue => effectiveAt?_modifyAt hchange hat hkept hvalue,
        fun h => effectiveAt?_modifyAt_of_displaced hchange h⟩

/-- Properties with the given description. -/
def sampleDescription (description : Properties) : Properties :=
  [.ofEntry "parameters" (.ofProperties [.ofEntry "docs" (.ofProperties
    [.ofEntry "description" (.ofProperties description)])])]

/-- Where the text of a description of a story is. -/
def storyTextPath : List String := ["parameters", "docs", "description", "story"]

/-- A description whose key is a plain name stays in effect. -/
theorem describe_sampleDescription_plain :
    effectiveAt? storyTextPath (.ofProperties (describe sampleFilename (some " From comment ")
        (.story (some "A"))
        (sampleDescription [.ofEntry "story" (.ofString "Explicit")])).properties) =
      some (.ofString "Explicit") := by
  obtain ⟨value', hvalue', rfl | ⟨-, hobject, -⟩⟩ :=
    (edits_keep_effective.1 sampleFilename (some " From comment ") (.story (some "A"))
      (sampleDescription [.ofEntry "story" (.ofString "Explicit")]) (by decide +kernel)
      storyTextPath).1 (by decide +kernel) (.ofString "Explicit") (by decide +kernel)
  · exact hvalue'
  · exact nomatch hobject

/-- A description whose key is written in quotes does not stay in effect. -/
theorem describe_sampleDescription_quoted :
    (describe sampleFilename (some " From comment ") (.story (some "A"))
        (sampleDescription [.ofQuotedEntry "story" (.ofString "Explicit")])).failure = none ∧
      effectiveAt? storyTextPath (.ofProperties
        (sampleDescription [.ofQuotedEntry "story" (.ofString "Explicit")])) =
        some (.ofString "Explicit") ∧
      effectiveAt? storyTextPath (.ofProperties (describe sampleFilename
        (some " From comment ") (.story (some "A")) (sampleDescription
          [.ofQuotedEntry "story" (.ofString "Explicit")])).properties) =
        some (.ofString "From comment") := by
  decide +kernel

end SvelteStories.Edit
