import SvelteStories.Proofs.Description

/-!
# Runs of edits on one object literal

The levels of `parameters.docs.description` can be ensured, described and linked in any order, and
any of these edits may be refused.  Whatever the order, the object literal only grows: at every
level of the path the properties that were there stay in their places, new ones are added behind
them, and what the next key of the path is resolved to grows in the same way.

## Key results

- `Grown.trans`, `grown_modifyAt`: growing twice, and growing by a change at the end of a path
- `Grown.exists_at?`, `Grown.level`: what growth means at each level
- `grown_step`, `grown_after`: one edit, and a run of them
- `run_keeps_object`: what a run keeps, what it writes, and what it says
-/

namespace SvelteStories.Script.Properties

open Node

variable {key name : String} {path above below rest : List String}
  {properties before after more inner : Properties} {found : Option Properties}
  {change : Properties → Properties}

/-! ## Properties behind others -/

/-- Without the key there is no property to find. -/
theorem find?_of_not_has (h : has properties key = false) :
    properties.find? (·.hasKey key) = none := by
  rw [List.find?_eq_none]
  exact List.any_eq_false.mp h

/-- Properties behind that do not have the key do not change what is found under it. -/
theorem object?_append (properties : Properties) (h : has more key = false) :
    object? (properties ++ more) key = object? properties key := by
  simp only [object?, List.find?_append, find?_of_not_has h, Option.or_none]

theorem not_has_append (h : has properties key = false) (hmore : has more key = false) :
    has (properties ++ more) key = false := by
  simp only [has, List.any_append, Bool.or_eq_false_iff]
  exact ⟨h, hmore⟩

/-- After a change under a key, there is a property with it. -/
theorem has_modifyObject (key : String) (change : Properties → Properties)
    (properties : Properties) : has (modifyObject key change properties) key = true := by
  induction properties with
  | nil => simp [has, Node.hasKey_ofEntry]
  | cons property rest ih =>
    cases hk : property.hasKey key with
    | false =>
      rw [modifyObject_cons_of_not_hasKey rest change hk, has, List.any_cons, hk, Bool.false_or]
      exact ih
    | true =>
      rw [modifyObject_cons_of_hasKey rest change hk, has, List.any_cons, hasKey_mapObject, hk,
        Bool.true_or]

/-- A property that is there is changed in its place. -/
theorem modifyObject_append (change : Properties → Properties) (more : Properties)
    (h : has properties key = true) :
    modifyObject key change (properties ++ more) = modifyObject key change properties ++ more := by
  induction properties with
  | nil => exact nomatch h
  | cons property rest ih =>
    rw [List.cons_append]
    -- the first property with the key is changed, and it is not among those behind
    cases hk : property.hasKey key with
    | false =>
      rw [has, List.any_cons, hk, Bool.false_or] at h
      rw [modifyObject_cons_of_not_hasKey _ change hk, modifyObject_cons_of_not_hasKey _ change hk,
        ih h, List.cons_append]
    | true =>
      rw [modifyObject_cons_of_hasKey _ change hk, modifyObject_cons_of_hasKey _ change hk,
        List.cons_append]

/-- A property that is not there is added behind all others. -/
theorem modifyObject_of_not_has (change : Properties → Properties)
    (h : has properties key = false) :
    modifyObject key change properties = add properties key (.ofProperties (change [])) := by
  have hindex : index? properties key = none := by
    rw [index?, List.findIdx?_eq_none_iff]
    simpa [has] using h
  simp only [modifyObject, hindex]

/-- A property has only one key. -/
theorem hasKey_of_ne {property : Node} (h : property.hasKey key = true) (hne : name ≠ key) :
    property.hasKey name = false := by
  unfold hasKey at h
  split at h
  · rename_i text _ _ _
    obtain rfl : text = key := by simpa using h
    exact beq_false_of_ne hne.symm
  · exact nomatch h

/-- A change under a key keeps the properties with another key. -/
theorem filter_modifyObject_of_ne (change : Properties → Properties) (properties : Properties)
    (h : name ≠ key) :
    (modifyObject key change properties).filter (·.hasKey name) =
      properties.filter (·.hasKey name) := by
  induction properties with
  | nil =>
    rw [modifyObject_nil, List.filter_cons_of_neg (by simpa [Node.hasKey_ofEntry] using h.symm)]
  | cons property rest ih =>
    cases hk : property.hasKey key with
    | false =>
      rw [modifyObject_cons_of_not_hasKey rest change hk, List.filter_cons, List.filter_cons, ih]
    | true =>
      -- the changed property has the other key neither before nor after
      have hother : property.hasKey name = false := hasKey_of_ne hk h
      rw [modifyObject_cons_of_hasKey rest change hk, List.filter_cons, List.filter_cons,
        hasKey_mapObject, hother]
      rfl

/-! ## Growth along a path -/

/-- Properties that grew along a path.  At the end of the path others were added behind them.
    Before the end the same has happened, and what the first key is resolved to, or what was added
    under it, has grown along the rest of the path; no other property with that key was added. -/
inductive Grown : (path : List String) → (before after : Properties) → Prop
  | added {before after : Properties} (h : before <+: after) : Grown [] before after
  | aside {key : String} {path : List String} {before more : Properties}
    (h : has more key = false) : Grown (key :: path) before (before ++ more)
  | inside {key : String} {path : List String} {before : Properties} {found : Option Properties}
    {inner more behind : Properties} (hfound : object? before key = .ok found)
    (h : Grown path (found.getD []) inner) (hmore : has more key = false)
    (hbehind : has behind key = false) :
    Grown (key :: path) before (modifyObject key (fun _ => inner) (before ++ more) ++ behind)

/-- Properties that stayed as they were have grown. -/
theorem Grown.refl (path : List String) (properties : Properties) :
    Grown path properties properties := by
  cases path with
  | nil => exact .added (List.prefix_refl properties)
  | cons key path =>
    have h : Grown (key :: path) properties (properties ++ []) := .aside rfl
    rwa [List.append_nil] at h

/-- Properties that grew twice grew. -/
theorem Grown.trans {last : Properties} (h : Grown path before after) (h' : Grown path after last) :
    Grown path before last := by
  -- the key is resolved to the same property all along: induction on what it is resolved to
  induction h generalizing last with
  | added h =>
    cases h' with
    | added h' => exact .added (h.trans h')
  | @aside key path before more h =>
    cases h' with
    | aside h' =>
      rw [List.append_assoc]
      exact .aside (not_has_append h h')
    | inside hfound hgrown hmore hbehind =>
      rw [object?_append before h] at hfound
      rw [List.append_assoc]
      exact .inside hfound hgrown (not_has_append h hmore) hbehind
  | @inside key path before found inner more behind hfound hgrown hmore hbehind ih =>
    have hread : object? (before ++ more) key = .ok found := by
      rw [object?_append before hmore, hfound]
    cases h' with
    | aside h' =>
      rw [List.append_assoc]
      exact .inside hfound hgrown hmore (not_has_append hbehind h')
    | @inside _ _ _ found' inner' more' behind' hfound' hgrown' hmore' hbehind' =>
      -- what is found the second time is what was left there the first time
      rw [object?_append _ hbehind, object?_modifyObject _ hread] at hfound'
      obtain rfl : some inner = found' := Except.ok.inj hfound'
      have hinner := ih hgrown'
      rw [List.append_assoc, modifyObject_append _ _ (has_modifyObject key _ _),
        modifyObject_modifyObject _ _ hread, List.append_assoc]
      exact .inside hfound hinner hmore (not_has_append (not_has_append hbehind hmore') hbehind')

/-- A change at the end of a path, by which what is there grows along a further path. -/
theorem grown_modifyAt (hat : properties.at? path = .ok found)
    (h : Grown rest (found.getD []) (change (found.getD []))) :
    Grown (path ++ rest) properties (modifyAt path change properties) := by
  induction path generalizing properties found with
  | nil =>
    obtain rfl : some properties = found := by simpa [at?] using hat
    exact h
  | cons key path ih =>
    rw [at?_cons] at hat
    cases hobject : object? properties key with
    | error e => simp [hobject] at hat
    | ok inner? =>
      have hinner :
          Grown (path ++ rest) (inner?.getD []) (modifyAt path change (inner?.getD [])) := by
        cases inner? with
        | none =>
          obtain rfl : none = found := by simpa [hobject] using hat
          -- a level that is added is an empty literal
          obtain ⟨empty, hnil, hempty⟩ := at?_nil_properties path
          exact ih hnil (by rwa [hempty])
        | some inner =>
          simp only [hobject] at hat
          exact ih hat h
      -- the object literal under the key has grown, and nothing is added beside it
      have hwhole : Grown (key :: (path ++ rest)) properties
          (modifyObject key (fun _ => modifyAt path change (inner?.getD [])) (properties ++ []) ++
            []) := .inside hobject hinner rfl rfl
      rw [List.append_nil, List.append_nil] at hwhole
      rw [modifyAt,
        modifyObject_congr (g := fun _ => modifyAt path change (inner?.getD [])) hobject rfl]
      exact hwhole

/-! ## What growth means at each level -/

/-- What is read at the start of the path has grown along the rest. -/
theorem Grown.exists_at? (h : Grown (above ++ below) before after)
    (hat : before.at? above = .ok found) :
    ∃ found', after.at? above = .ok found' ∧ (found.isSome → found'.isSome) ∧
      Grown below (found.getD []) (found'.getD []) := by
  induction above generalizing before after found with
  | nil =>
    obtain rfl : some before = found := by simpa [at?] using hat
    exact ⟨some after, rfl, fun _ => rfl, h⟩
  | cons key above ih =>
    rw [at?_cons] at hat
    rw [List.cons_append] at h
    cases h with
    | @aside _ _ _ more hmore =>
      -- nothing has happened under the key
      refine ⟨found, ?_, id, .refl below _⟩
      rw [at?_cons, object?_append before hmore]
      exact hat
    | @inside _ _ _ inner? inner more behind hfound hgrown hmore hbehind =>
      -- properties behind that do not have the key do not count
      have hread : object? (before ++ more) key = .ok inner? := by
        rw [object?_append before hmore, hfound]
      rw [at?_cons, object?_append _ hbehind, object?_modifyObject _ hread]
      cases inner? with
      | none =>
        obtain rfl : none = found := by simpa [hfound] using hat
        obtain ⟨empty, hnil, hempty⟩ := at?_nil_properties above
        obtain ⟨found', hfound', -, hbelow⟩ := ih hgrown hnil
        rw [hempty] at hbelow
        exact ⟨found', hfound', by simp, hbelow⟩
      | some outer =>
        simp only [hfound] at hat
        exact ih hgrown hat

/-- At the end of the path, properties were added. -/
theorem Grown.exists_prefix (h : Grown path before after) (hat : before.at? path = .ok found) :
    ∃ found', after.at? path = .ok found' ∧ (found.isSome → found'.isSome) ∧
      found.getD [] <+: found'.getD [] := by
  rw [← List.append_nil path] at h
  obtain ⟨found', hfound', hsome, hgrown⟩ := h.exists_at? hat
  cases hgrown with
  | added hprefix => exact ⟨found', hfound', hsome, hprefix⟩

/-- Properties that kept those that were there.  Each is in its place as it was, but for the object
    literal of the one that a key is resolved to.  Others were added behind them; one with the key
    only if there was none, and only once. -/
structure LevelGrown (key : String) (before after : Properties) : Prop where
  length_le : before.length ≤ after.length
  others : ∀ i < before.length, index? before key ≠ some i → after[i]? = before[i]?
  resolved : ∀ i, index? before key = some i →
    ∃ change, after[i]? = before[i]?.map (Node.mapObject change)
  once : (after.drop before.length).countP (·.hasKey key) ≤ if has before key then 0 else 1

/-- Without the key there is no property to count. -/
theorem countP_of_not_has (h : has more key = false) : more.countP (·.hasKey key) = 0 := by
  rw [List.countP_eq_zero]
  exact List.any_eq_false.mp h

theorem mapObject_id (node : Node) : node.mapObject id = node := by
  unfold mapObject
  split <;> rfl

/-- Properties that are added behind others leave these in their places. -/
theorem levelGrown_append (before : Properties)
    (h : more.countP (·.hasKey key) ≤ if has before key then 0 else 1) :
    LevelGrown key before (before ++ more) where
  length_le := by simp
  others i hi _ := List.getElem?_append_left hi
  resolved i hi := by
    have hlt : i < before.length := (List.findIdx?_eq_some_iff_getElem.mp hi).1
    refine ⟨id, ?_⟩
    rw [List.getElem?_append_left hlt, List.getElem?_eq_getElem hlt, Option.map_some, mapObject_id]
  once := by rwa [List.drop_left]

/-- A change under a key that is there, and properties behind that do not have it. -/
theorem levelGrown_modifyObject (change : Properties → Properties)
    (hhas : has before key = true) (hmore : has more key = false) :
    LevelGrown key before (modifyObject key change before ++ more) := by
  obtain ⟨i, hindex⟩ : ∃ i, index? before key = some i := by
    rw [← Option.isSome_iff_exists, index?, List.findIdx?_isSome]
    exact hhas
  have hmodify : modifyObject key change before = before.modify i (mapObject change) := by
    simp only [modifyObject, hindex]
  have hlength : (modifyObject key change before).length = before.length := by
    rw [hmodify, List.length_modify]
  -- as many as before; those beside the changed one stay; this one keeps its key; none is added
  constructor
  · simp [hlength]
  · intro j hj hne
    have hother : i ≠ j := fun heq => hne (heq ▸ hindex)
    rw [List.getElem?_append_left (by rwa [hlength]), hmodify, List.getElem?_modify_ne _ _ hother]
  · intro j hj
    obtain rfl : i = j := Option.some.inj (hindex.symm.trans hj)
    have hlt : i < before.length := (List.findIdx?_eq_some_iff_getElem.mp hindex).1
    refine ⟨change, ?_⟩
    rw [List.getElem?_append_left (by rwa [hlength]), hmodify, List.getElem?_modify_eq,
      Option.map_eq_map]
  · rw [← hlength, List.drop_left, countP_of_not_has hmore]
    exact Nat.zero_le _

/-- What has grown along a path has grown at the first level of it. -/
theorem Grown.level (h : Grown (key :: path) before after) : LevelGrown key before after := by
  cases h with
  | @aside _ _ _ more hmore =>
    refine levelGrown_append before ?_
    rw [countP_of_not_has hmore]
    exact Nat.zero_le _
  | @inside _ _ _ found inner more behind hfound hgrown hmore hbehind =>
    cases hhas : has before key with
    | false =>
      -- what was added under the key stands between the others that were added
      rw [modifyObject_of_not_has _ (not_has_append hhas hmore), add, List.append_assoc,
        List.append_assoc]
      refine levelGrown_append before ?_
      rw [List.countP_append, List.countP_append, countP_of_not_has hmore,
        countP_of_not_has hbehind, hhas]
      simp [Node.hasKey_ofEntry]
    -- the key is there, and the property is changed in its place
    | true =>
      rw [modifyObject_append _ _ hhas, List.append_assoc]
      exact levelGrown_modifyObject _ hhas (not_has_append hmore hbehind)

end SvelteStories.Script.Properties

namespace SvelteStories.Edit

open Diagnostic Script Properties

variable {key : String} {object : Properties}

/-! ## Runs of calls -/

/-- A call of one of the edits of an object literal. -/
inductive Call
  /-- The parameters, the docs or the description are ensured. -/
  | ensure (path : List String) (isLevel : path <+: descriptionPath)
  /-- The component or a story is described by a comment, if there is one. -/
  | describe (comment : Option String) (subject : Subject)
  /-- A story is linked. -/
  | link (story : Story)

/-- A call in a run, with the object literal before and after it, the warnings that it gave about
    ignored comments, and whether it was refused. -/
structure Step where
  call : Call
  before : Properties
  after : Properties
  warnings : List Warning
  refused : Bool

/-- The step of a call that writes. -/
def Step.ofDescribed (call : Call) (before : Properties) (described : Described) : Step where
  call
  before
  after := described.properties
  warnings := described.warnings
  refused := described.failure.isSome

namespace Call

/-- What a call comes to. -/
def step (filename : String) (before : Properties) : Call → Step
  | ensure path isLevel =>
    let edited := Properties.ensure path before
    { call := ensure path isLevel, before, after := edited.properties, warnings := []
      refused := !edited.outcome.isOk }
  | describe comment subject =>
    .ofDescribed (describe comment subject) before (Edit.describe filename comment subject before)
  | link story => .ofDescribed (link story) before (Edit.link filename story before)

/-- The path that a call needs. -/
def path : Call → List String
  | ensure path _ => path
  | describe comment _ => neededPath comment []
  | link _ => parametersPath

/-- What a call does at the end of its path. -/
def change : Call → Properties → Properties
  | ensure _ _ => id
  | describe none _ => id
  | describe (some comment) subject => withText comment subject
  | link story => (add · linkageKey (linkage story))

/-- The subjects whose comments a call ignores. -/
def ignoredAt (before : Properties) : Call → List Subject
  | describe comment subject => ignoredIn comment subject before
  | ensure _ _ | link _ => []

end Call

/-- The steps of a run of calls, one after the other. -/
def steps (filename : String) : List Call → Properties → List Step
  | [], _ => []
  | call :: calls, object =>
    call.step filename object :: steps filename calls (call.step filename object).after

/-- The object literal after a run of calls. -/
def after (filename : String) : List Call → Properties → Properties
  | [], object => object
  | call :: calls, object => after filename calls (call.step filename object).after

/-- A call that meets an obstacle on its path is refused and changes nothing; any other call makes
    its change at the end of its path. -/
theorem step_eq (filename : String) (call : Call) (before : Properties) :
    call.step filename before =
      match obstacle? call.path before with
      | some _ => ⟨call, before, before, [], true⟩
      | none =>
        ⟨call, before, modifyAt call.path call.change before,
          (call.ignoredAt before).map (·.explicitDescription filename), false⟩ := by
  cases call with
  | ensure path isLevel =>
    simp only [Call.step, ensure, editAt_eq, obstacle?, Call.path]
    cases before.at? path <;> rfl
  | describe comment subject =>
    simp only [Call.step, Step.ofDescribed, describe_eq, Call.path]
    -- without a comment there is nothing to write
    cases obstacle? (neededPath comment []) before with
    | some e => rfl
    | none => cases comment <;> rfl
  | link story =>
    simp only [Call.step, Step.ofDescribed, link_eq, Call.path]
    cases obstacle? parametersPath before <;> rfl

/-- What a call writes is on the path of the description, and what is there grows. -/
theorem exists_path_append (call : Call) :
    ∃ rest, call.path ++ rest = descriptionPath ∧
      ∀ inner, Grown rest inner (call.change inner) := by
  match call with
  | .ensure path ⟨rest, hrest⟩ => exact ⟨rest, hrest, .refl rest⟩
  | .describe none _ => exact ⟨descriptionPath, rfl, .refl _⟩
  | .describe (some comment) subject =>
    refine ⟨[], rfl, fun inner => ?_⟩
    show Grown [] inner (withText comment subject inner)
    unfold withText
    split
    · exact .refl [] inner
    · exact .added (List.prefix_append _ _)
  -- the raw code is added beside the documentation
  | .link story => exact ⟨["docs", "description"], rfl, fun inner => .aside rfl⟩

/-- The object literal grows by a call. -/
theorem grown_step (filename : String) (call : Call) (before : Properties) :
    Grown descriptionPath before (call.step filename before).after := by
  rw [step_eq]
  cases hobstacle : obstacle? call.path before with
  | some e => exact .refl _ before
  | none =>
    obtain ⟨found, hfound⟩ := obstacle?_eq_none.mp hobstacle
    obtain ⟨rest, hpath, hgrown⟩ := exists_path_append call
    rw [← hpath]
    exact grown_modifyAt hfound (hgrown _)

/-- The object literal grows by a run of calls. -/
theorem grown_after (filename : String) (calls : List Call) (object : Properties) :
    Grown descriptionPath object (after filename calls object) := by
  induction calls generalizing object with
  | nil => exact .refl _ object
  | cons call calls ih => exact (grown_step filename call object).trans (ih _)

/-! ## The texts of the description -/

/-- The property with the given key in the description. -/
def inDescription? (key : String) (object : Properties) : Option Node :=
  match object.at? descriptionPath with
  | .ok (some description) => description.find? (·.hasKey key)
  | _ => none

/-- Whether a call changed the property with the given key in the description. -/
def Step.writes (key : String) (step : Step) : Bool :=
  inDescription? key step.after != inDescription? key step.before

/-- A subject is described if the description has a property with its key. -/
theorem isDescribed_eq (subject : Subject) (object : Properties) :
    isDescribed subject object = (inDescription? subject.key object).isSome := by
  unfold isDescribed inDescription?
  cases object.at? descriptionPath with
  | error e => rfl
  | ok found =>
    cases found with
    | none => rfl
    | some description =>
      show has description subject.key = (description.find? (·.hasKey subject.key)).isSome
      rw [Bool.eq_iff_iff]
      simp [has]

/-- What is in the description stays when the object literal grows. -/
theorem inDescription?_of_grown {before : Properties} {property : Node}
    (h : Grown descriptionPath before object) (hentry : inDescription? key before = some property) :
    inDescription? key object = some property := by
  unfold inDescription? at hentry
  split at hentry
  · rename_i description hat
    obtain ⟨found', hfound', hsome, hprefix⟩ := h.exists_prefix hat
    obtain ⟨description', rfl⟩ := Option.isSome_iff_exists.mp (hsome rfl)
    obtain ⟨more, hmore⟩ := hprefix
    simp only [Option.getD_some] at hmore
    simp only [inDescription?, hfound', ← hmore, List.find?_append, hentry, Option.some_or]
  · exact nomatch hentry

/-- Of all calls of a run at most one writes the text under a key, and none does if it is there. -/
theorem countP_writes_le (filename : String) (calls : List Call) (object : Properties)
    (key : String) : (steps filename calls object).countP (·.writes key) ≤
      if (inDescription? key object).isSome then 0 else 1 := by
  induction calls generalizing object with
  | nil => exact Nat.zero_le _
  | cons call calls ih =>
    have hrest := ih (call.step filename object).after
    have hbefore : (call.step filename object).before = object := by
      rw [step_eq]
      split <;> rfl
    rw [steps, List.countP_cons, Step.writes, hbefore]
    cases hentry : inDescription? key object with
    | some property =>
      -- the text stays, for this call and for the others
      have hkept := inDescription?_of_grown (grown_step filename call object) hentry
      simp only [hkept, Option.isSome_some, ↓reduceIte] at hrest ⊢
      simpa using hrest
    | none =>
      cases hafter : inDescription? key (call.step filename object).after with
      | none => simpa [hafter] using hrest
      | some property => simpa [hafter] using hrest

/-- A call that describes a subject writes the text, unless there is one: then it ignores the
    comment. -/
theorem step_describe (filename comment : String) (subject : Subject) {before : Properties}
    (h : ((Call.describe (some comment) subject).step filename before).refused = false) :
    ((Call.describe (some comment) subject).step filename before).warnings =
        (if (inDescription? subject.key before).isSome then [subject.explicitDescription filename]
          else []) ∧
      inDescription? subject.key ((Call.describe (some comment) subject).step
        filename before).after =
        some ((inDescription? subject.key before).getD
          (.ofEntry subject.key (.ofString (Text.dedentString comment)))) ∧
      ((inDescription? subject.key before).isSome →
        ((Call.describe (some comment) subject).step filename before).after = before) := by
  have hpath : (Call.describe (some comment) subject).path = descriptionPath := rfl
  rw [step_eq, hpath] at h ⊢
  cases hobstacle : obstacle? descriptionPath before with
  | some e => simp [hobstacle] at h
  | none =>
    obtain ⟨found, hfound⟩ := obstacle?_eq_none.mp hobstacle
    simp only [Call.ignoredAt, Call.change, ignoredIn, isDescribed_eq, Option.isSome_some,
      Bool.true_and]
    cases hentry : inDescription? subject.key before with
    | some property =>
      -- the text is there
      have hdescribed : described (some comment) subject before = before :=
        described_of_isDescribed fun _ => by rw [isDescribed_eq, hentry]; rfl
      rw [described] at hdescribed
      rw [hdescribed, hentry]
      exact ⟨rfl, rfl, fun _ => rfl⟩
    | none =>
      -- the description has no such property, so that the text is added
      have hhas : has (found.getD []) subject.key = false := by
        have hnot : isDescribed subject before = false := by rw [isDescribed_eq, hentry]; rfl
        unfold isDescribed at hnot
        cases found with
        | none => rfl
        | some description => simpa [hfound] using hnot
      refine ⟨rfl, ?_, by simp⟩
      simp only [inDescription?, at?_modifyAt _ hfound, withText, hhas, Bool.false_eq_true,
        ↓reduceIte, add, List.find?_append, find?_of_not_has hhas, Option.none_or, Option.getD_none]
      simp [Node.hasKey_ofEntry]

/-! ## The raw code -/

/-- The raw code that is kept in the parameters. -/
def linkages (object : Properties) : List Node :=
  match object.at? parametersPath with
  | .ok (some parameters) => parameters.filter (·.hasKey linkageKey)
  | _ => []

/-- The raw code that a call adds to the parameters. -/
def Step.linkage? (step : Step) : Option Node :=
  match step.call with
  | .link story => if step.refused then none else some (.ofEntry linkageKey (linkage story))
  | _ => none

/-- A change of the parameters changes the raw code in them. -/
theorem linkages_modifyAt {path : List String} {change : Properties → Properties}
    {found : Option Properties} {more : List Node}
    (hat : object.at? ("parameters" :: path) = .ok found)
    (h : ∀ parameters, (modifyAt path change parameters).filter (·.hasKey linkageKey) =
      parameters.filter (·.hasKey linkageKey) ++ more) :
    linkages (modifyAt ("parameters" :: path) change object) = linkages object ++ more := by
  rw [at?_cons] at hat
  -- whether there are parameters or not, the raw code in them is filtered from the changed ones
  cases hobject : object? object "parameters" with
  | error e => simp [hobject] at hat
  | ok parameters? =>
    simp only [linkages, parametersPath, at?_cons, modifyAt,
      object?_modifyObject _ hobject, hobject, at?, h]
    cases parameters? <;> rfl

/-- Only linking adds raw code. -/
theorem linkages_step (filename : String) (call : Call) (object : Properties) :
    linkages (call.step filename object).after =
      linkages object ++ (call.step filename object).linkage?.toList := by
  -- a change of the docs is none of the raw code, which stands beside them
  have hbeside (path : List String) (change : Properties → Properties) (parameters : Properties) :
      (modifyAt ("docs" :: path) change parameters).filter (·.hasKey linkageKey) =
        parameters.filter (·.hasKey linkageKey) ++ [] := by
    rw [List.append_nil, modifyAt, filter_modifyObject_of_ne _ _ (by decide)]
  rw [step_eq]
  cases hobstacle : obstacle? call.path object with
  -- a refused call adds nothing
  | some e => cases call <;> simp [Step.linkage?]
  | none =>
    obtain ⟨found, hfound⟩ := obstacle?_eq_none.mp hobstacle
    cases call with
    | ensure path isLevel =>
      rcases path with _ | ⟨key, path⟩
      · exact (List.append_nil _).symm
      · obtain ⟨rfl, hpath⟩ := List.cons_prefix_cons.mp isLevel
        refine linkages_modifyAt hfound fun parameters => ?_
        cases path with
        | nil => exact (List.append_nil _).symm
        | cons key path =>
          obtain ⟨rfl, -⟩ := List.cons_prefix_cons.mp hpath
          exact hbeside path id parameters
    | describe comment subject =>
      cases comment with
      | none => exact (List.append_nil _).symm
      | some comment => exact linkages_modifyAt hfound (hbeside ["description"] _)
    | link story =>
      refine linkages_modifyAt hfound fun parameters => ?_
      -- the linkage is put behind the other parameters
      show (add parameters linkageKey (linkage story)).filter _ = _
      rw [add, List.filter_append]
      rfl

/-- A run adds the raw code of the calls that link, in their order, by induction on the calls. -/
theorem linkages_after (filename : String) (calls : List Call) (object : Properties) :
    linkages (after filename calls object) =
      linkages object ++ (steps filename calls object).filterMap (·.linkage?) := by
  induction calls generalizing object with
  | nil => simp [after, steps]
  | cons call calls ih =>
    rw [after, ih, linkages_step, List.append_assoc]
    -- the first call adds its raw code or none, the others theirs by induction
    congr 1
    rw [steps, List.filterMap_cons]
    cases (call.step filename object).linkage? <;> rfl

/-! ## The invariant -/

/-- The steps of a run are what the calls come to. -/
theorem eq_step_of_mem {calls : List Call} {step : Step} (h : step ∈ steps filename calls object) :
    step = step.call.step filename step.before := by
  induction calls generalizing object with
  | nil => exact nomatch h
  | cons call calls ih =>
    rcases List.mem_cons.mp h with rfl | h
    · rw [step_eq]
      cases hobstacle : obstacle? call.path object <;> simp only [step_eq, hobstacle]
    · exact ih h

/-- A run of calls in any order, some of which may be refused, lets the object literal grow.  At the
    top, in the parameters and in the docs every property that was there keeps its place, its key
    and, unless it is on the path of the description, its value; a property on that path is added
    once at most and only if there was none.  The description is only added to: the first text under
    a key stays, at most one call writes it, and every later comment is ignored and changes nothing.
    The raw code that the calls add is kept in their order. -/
theorem run_keeps_object (filename : String) (calls : List Call) (object : Properties) :
    (∀ above key below, descriptionPath = above ++ key :: below →
      ∀ found, object.at? above = .ok found →
        ∃ found', (after filename calls object).at? above = .ok found' ∧
          (found.isSome → found'.isSome) ∧
          LevelGrown key (found.getD []) (found'.getD [])) ∧
    (∀ found, object.at? descriptionPath = .ok found →
      ∃ found', (after filename calls object).at? descriptionPath = .ok found' ∧
        (found.isSome → found'.isSome) ∧ found.getD [] <+: found'.getD []) ∧
    (∀ key, (∀ property, inDescription? key object = some property →
        inDescription? key (after filename calls object) = some property) ∧
      (steps filename calls object).countP (·.writes key) ≤
        if (inDescription? key object).isSome then 0 else 1) ∧
    (∀ step ∈ steps filename calls object, step.refused = true →
      step.after = step.before ∧ step.warnings = []) ∧
    (∀ step ∈ steps filename calls object, ∀ comment subject,
      step.call = .describe (some comment) subject → step.refused = false →
        step.warnings = (if (inDescription? subject.key step.before).isSome then
          [subject.explicitDescription filename] else []) ∧
        inDescription? subject.key step.after = some ((inDescription? subject.key step.before).getD
          (.ofEntry subject.key (.ofString (Text.dedentString comment)))) ∧
        ((inDescription? subject.key step.before).isSome → step.after = step.before)) ∧
    linkages (after filename calls object) =
      linkages object ++ (steps filename calls object).filterMap (·.linkage?) := by
  have hgrown := grown_after filename calls object
  refine ⟨?_, ?_, ?_, ?_, ?_, linkages_after filename calls object⟩
  · intro above key below hpath found hfound
    rw [hpath] at hgrown
    obtain ⟨found', hfound', hsome, hlevel⟩ := hgrown.exists_at? hfound
    exact ⟨found', hfound', hsome, hlevel.level⟩
  · intro found hfound
    -- the description is the end of the path, where properties are only added behind
    exact hgrown.exists_prefix hfound
  · intro key
    exact ⟨fun _ hentry => inDescription?_of_grown hgrown hentry,
      countP_writes_le filename calls object key⟩
  · intro step hmem hrefused
    -- each step of the run is what its call comes to
    rw [eq_step_of_mem hmem, step_eq] at hrefused ⊢
    split <;> simp_all
  · intro step hmem comment subject hcall hrefused
    have hstep := eq_step_of_mem hmem
    rw [hcall] at hstep
    have hdescribe := @step_describe filename comment subject step.before
    rw [← hstep] at hdescribe
    exact hdescribe hrefused

/-- Props with the given parameters. -/
def sampleProps (parameters : Properties) : Properties :=
  [.ofEntry "name" (.ofString "A"), .ofEntry "parameters" (.ofProperties parameters)]

/-- A story that is linked and then described twice. -/
def sampleCalls : List Call :=
  [.link { rawCode := "<Button />" }, .describe (some "Usual.") (.story none),
    .describe (some "Other.") (.story none)]

/-- The second comment is ignored; where the docs are no object literal, both are refused. -/
theorem run_sampleCalls :
    (∃ parameters, (after sampleFilename sampleCalls (sampleProps [])).at? parametersPath =
      .ok (some parameters) ∧
      LevelGrown "docs" [] parameters) ∧
    (∃ step ∈ steps sampleFilename sampleCalls (sampleProps []),
      step.warnings = [(Subject.story none).explicitDescription sampleFilename] ∧
        step.after = step.before) ∧
    ∃ step ∈ steps sampleFilename sampleCalls (sampleProps [.ofEntry "docs" (.ofString "")]),
      step.refused = true ∧ step.after = step.before := by
  obtain ⟨hlevel, -, -, -, hdescribe, -⟩ :=
    run_keeps_object sampleFilename sampleCalls (sampleProps [])
  obtain ⟨-, -, -, hrefused, -⟩ :=
    run_keeps_object sampleFilename sampleCalls (sampleProps [.ofEntry "docs" (.ofString "")])
  refine ⟨?_, ?_, ?_⟩
  · obtain ⟨found, hfound, hsome, hgrown⟩ :=
      hlevel ["parameters"] "docs" ["description"] rfl (some []) rfl
    obtain ⟨parameters, rfl⟩ := Option.isSome_iff_exists.mp (hsome rfl)
    exact ⟨parameters, hfound, hgrown⟩
  · -- the third call is the comment that is ignored
    have hmem : (steps sampleFilename sampleCalls (sampleProps []))[2] ∈
        steps sampleFilename sampleCalls (sampleProps []) :=
      List.getElem_mem _
    obtain ⟨hignored, -, hafter⟩ := hdescribe _ hmem "Other." (.story none) rfl (by decide +kernel)
    exact ⟨_, hmem, hignored.trans (by decide +kernel), hafter (by decide +kernel)⟩
  · have hmem :
      (steps sampleFilename sampleCalls (sampleProps [.ofEntry "docs" (.ofString "")]))[1] ∈
        steps sampleFilename sampleCalls (sampleProps [.ofEntry "docs" (.ofString "")]) :=
          List.getElem_mem _
    exact ⟨_, hmem, by decide +kernel, (hrefused _ hmem (by decide +kernel)).1⟩

end SvelteStories.Edit
