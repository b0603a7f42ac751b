import SvelteStories.Proofs.Growth

/-!
# Ensuring a path of object literals

The levels of a path are read by `at?` and ensured by `ensure`, which adds those that are missing.
The two agree: what cannot be read cannot be ensured, and what was ensured is what is read then.  A
path that is refused leaves no level behind, although the levels are added one after the other.

## Key results

- `exists_chain`: all missing levels are added in one place
- `ensure_agrees`: ensuring a path and reading it
-/

namespace SvelteStories.Script.Properties

variable {key : String} {path : List String} {properties : Properties} {found : Option Properties}

/-- Empty levels, each the only property of the one before it. -/
def chain : List String → Properties
  | [] => []
  | key :: path => [.ofEntry key (.ofProperties (chain path))]

/-- Nothing is found under a key exactly if no property has it. -/
theorem object?_eq_none : object? properties key = .ok none ↔ has properties key = false := by
  induction properties with
  | nil => simp [has]
  | cons property rest ih =>
    cases hk : property.hasKey key with
    | false =>
      rw [object?_cons_of_not_hasKey rest hk, ih, has, has, List.any_cons, hk, Bool.false_or]
    | true =>
      rw [object?_cons_of_hasKey rest hk, has, List.any_cons, hk, Bool.true_or]
      cases property.propertyObject? <;> simp

theorem modifyAt_id_nil (path : List String) : modifyAt path id [] = chain path := by
  induction path with
  | nil => rfl
  | cons key path ih => rw [modifyAt, modifyObject_nil, ih, chain]

/-- The levels of a path that are missing are added at the end of the last level that is there. -/
theorem exists_chain (h : at? path properties = .ok found) :
    ∃ above below inner, path = above ++ below ∧ at? above properties = .ok (some inner) ∧
      (∀ key ∈ below.head?, has inner key = false) ∧
      modifyAt path id properties = modifyAt above (· ++ chain below) properties := by
  induction path generalizing properties with
  | nil => exact ⟨[], [], properties, rfl, rfl, by simp, (List.append_nil properties).symm⟩
  | cons key path ih =>
    rw [at?_cons] at h
    cases hobject : object? properties key with
    | error e => simp [hobject] at h
    | ok inner? =>
      cases inner? with
      | none =>
        -- this level is the first one that is missing
        have hmissing := object?_eq_none.mp hobject
        refine ⟨[], key :: path, properties, rfl, rfl, by simpa using hmissing, ?_⟩
        show modifyObject key (modifyAt path id) properties = properties ++ chain (key :: path)
        rw [modifyObject_of_not_has _ hmissing, modifyAt_id_nil]
        rfl
      | some next =>
        simp only [hobject] at h
        obtain ⟨above, below, inner, rfl, habove, hmissing, hsame⟩ := ih h
        refine ⟨key :: above, below, inner, rfl, ?_, hmissing, modifyObject_congr hobject hsame⟩
        rw [at?_cons, hobject]
        exact habove

/-- What ensuring a path comes to, where `found` is what was read at its end before. -/
structure Ensured (path : List String) (found : Option Properties) (before : Properties)
    (edited : Edited Properties) : Prop where
  /-- What is handed out is the object literal that was there, or a new one. -/
  outcome : edited.outcome = .ok (found.getD [])
  /-- What is handed out is what is read. -/
  read : edited.properties.at? path = .ok (some (found.getD []))
  /-- An edit of what is handed out is an edit of what is read. -/
  written : ∀ {α : Type} (change : Properties → Edited α),
    (editAt path change before).outcome = (change (found.getD [])).outcome ∧
      (editAt path change before).properties.at? path =
        .ok (some (change (found.getD [])).properties)
  /-- What was there stays as it is. -/
  kept : found.isSome → edited.properties = before
  /-- The missing levels are added in one place. -/
  added : ∃ above below inner, path = above ++ below ∧ before.at? above = .ok (some inner) ∧
    (∀ key ∈ below.head?, inner.has key = false) ∧
    edited.properties = modifyAt above (· ++ chain below) before
  /-- Nothing is left to be ensured. -/
  again : ensure path edited.properties = edited

/-- A path is ensured by reading it, and by a change at its end that changes nothing. -/
theorem ensure_eq (path : List String) (properties : Properties) :
    ensure path properties =
      match at? path properties with
      | .error e => ⟨properties, .error e⟩
      | .ok found => ⟨modifyAt path id properties, .ok (found.getD [])⟩ :=
  editAt_eq path _ properties

/-- A path is refused exactly if it cannot be read, for the same property, and then nothing has
    changed.  Otherwise the object literal at its end is handed out: the one that was there, or an
    empty one behind the levels that were missing, which are added in one place.  It is the one that
    is read from then on, and ensuring the path once more changes nothing. -/
theorem ensure_agrees (path : List String) (object : Properties) :
    match object.at? path with
    | .error e => ensure path object = ⟨object, .error e⟩
    | .ok found => Ensured path found object (ensure path object) := by
  rw [ensure_eq]
  cases hat : object.at? path with
  | error e => rfl
  | ok found =>
    -- what is read afterwards is the object literal that was handed out
    have hread := at?_modifyAt id hat
    refine ⟨rfl, hread, fun change => ?_, fun hsome => ?_, exists_chain hat, ?_⟩
    · rw [editAt_eq, hat]
      exact ⟨rfl, at?_modifyAt _ hat⟩
    · obtain ⟨inner, rfl⟩ := Option.isSome_iff_exists.mp hsome
      exact modifyAt_of_eq hat rfl
    · -- the path can be read now, to its end
      rw [ensure_eq, hread]
      simp only [@modifyAt_of_eq _ _ _ id hread rfl, Option.getD_some, id]

/-- The docs and the description are added behind the property that the parameters have. -/
example :
    ensure descriptionPath
      [.ofEntry "parameters" (.ofProperties [.ofEntry "layout" (.ofString "")])] =
      ⟨[.ofEntry "parameters" (.ofProperties
        (.ofEntry "layout" (.ofString "") :: chain ["docs", "description"]))], .ok []⟩ := by
  rfl

end SvelteStories.Script.Properties
