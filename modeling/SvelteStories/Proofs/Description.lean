import SvelteStories.Edit.Description
import SvelteStories.Proofs.ObjectPath

/-!
# What the edits of a story come to

`describe`, `link` and `editProps` edit an object literal in place and may fail.  Here each of them
is equal to a plain function on properties where nothing stands in its way, and to no change at all
where something does.  So a story is described and linked, or it is left alone.

## Key results

- `describe_eq`, `link_eq`, `editProps_eq`: the edits and what stands in their way
- `documented_withCopies`: a story that is edited again only gets its raw code once more
-/

namespace SvelteStories.Edit

open Diagnostic Script Properties

/-- The name of a stories file. -/
def sampleFilename : String := "Button.stories.svelte"

/-! ## The plain functions -/

/-- What stands in the way of a path: a property that has no object literal. -/
def obstacle? (path : List String) (properties : Properties) : Option ShapeError :=
  match properties.at? path with
  | .error e => some e
  | .ok _ => none

/-- The path that has to be free for a comment to be written, or for what else is written. -/
def neededPath (comment : Option String) (least : List String) : List String :=
  if comment.isSome then descriptionPath else least

/-- A description with what a comment says of a subject, unless it says something of the subject. -/
def withText (comment : String) (subject : Subject) (description : Properties) : Properties :=
  if has description subject.key then description
  else add description subject.key (.ofString (Text.dedentString comment))

/-- Properties with the description that a comment gives. -/
def described (comment : Option String) (subject : Subject)
    (properties : Properties) : Properties :=
  match comment with
  | none => properties
  | some comment => modifyAt descriptionPath (withText comment subject) properties

/-- Properties with the raw code of a story. -/
def linked (story : Story) : Properties → Properties :=
  modifyAt parametersPath (add · linkageKey (linkage story))

/-- Properties with the description and the raw code of a story. -/
def documented (story : Story) (properties : Properties) : Properties :=
  linked story (described story.comment (subjectOf story) properties)

/-- Whether properties have a description of a subject. -/
def isDescribed (subject : Subject) (properties : Properties) : Bool :=
  match properties.at? descriptionPath with
  | .ok (some description) => has description subject.key
  | _ => false

/-- The subjects whose comment is ignored, as there is a description: at most the one given. -/
def ignoredIn (comment : Option String) (subject : Subject) (properties : Properties) :
    List Subject :=
  if comment.isSome && isDescribed subject properties then [subject] else []

/-- What stands in the way of the description and the raw code of a story. -/
def storyObstacle? (story : Story) : Properties → Option ShapeError :=
  obstacle? (neededPath story.comment parametersPath)

/-- Nothing stands in the way of a path exactly if it can be read. -/
theorem obstacle?_eq_none {path : List String} {properties : Properties} :
    obstacle? path properties = none ↔ ∃ found, properties.at? path = .ok found := by
  unfold obstacle?
  cases properties.at? path with
  | error e => simp
  | ok found => simp

/-- A path is free as far as a longer one is. -/
theorem obstacle?_of_append {start : List String} (rest : List String) {properties : Properties}
    (h : obstacle? (start ++ rest) properties = none) : obstacle? start properties = none := by
  obtain ⟨found, hfound⟩ := obstacle?_eq_none.mp h
  rw [at?_append] at hfound
  refine obstacle?_eq_none.mpr ?_
  cases hat : properties.at? start with
  | error e => simp [hat] at hfound
  | ok inner? => exact ⟨inner?, rfl⟩

/-! ## Describing -/

/-- Describing fails where something stands in the way of the description, and then changes
    nothing. -/
theorem describe_eq (filename : String) (comment : Option String) (subject : Subject)
    (properties : Properties) :
    describe filename comment subject properties =
      match obstacle? (neededPath comment []) properties with
      | some e => { properties, failure := some ((Problem.shape subject e).report filename) }
      | none =>
        { properties := described comment subject properties
          warnings :=
            (ignoredIn comment subject properties).map (·.explicitDescription filename) } := by
  cases comment with
  | none => rfl
  | some comment =>
    simp only [describe, describeBy, editAt_eq, obstacle?, neededPath, Option.isSome_some,
      ↓reduceIte, described, ignoredIn, isDescribed, Bool.true_and]
    cases properties.at? descriptionPath with
    | error e => rfl
    | ok found =>
      -- the plain change is what the edit makes of a description
      have hprops : (fun inner : Properties => (if has inner subject.key then
          (⟨inner, .ok true⟩ : Edited Bool)
          else ⟨add inner subject.key (.ofString (Text.dedentString comment)),
            .ok false⟩).properties)
          = withText comment subject := by
        funext inner
        unfold withText
        split <;> rfl
      -- the property is added to a description that may be missing
      cases found with
      | none =>
        simp only [Option.getD_none, hprops]
        rfl
      | some description =>
        simp only [Option.getD_some, hprops]
        by_cases hd : has description subject.key = true <;> simp [hd]

/-- After describing, there is a description. -/
theorem isDescribed_described (comment : String) (subject : Subject) {properties : Properties}
    (h : obstacle? descriptionPath properties = none) :
    isDescribed subject (described (some comment) subject properties) = true := by
  obtain ⟨found, hfound⟩ := obstacle?_eq_none.mp h
  simp only [isDescribed, described, at?_modifyAt _ hfound, withText]
  split
  · assumption
  · exact has_add_self _ _ _

/-- Where there is a description, describing changes nothing. -/
theorem described_of_isDescribed {comment : Option String} {subject : Subject}
    {properties : Properties} (h : comment.isSome → isDescribed subject properties = true) :
    described comment subject properties = properties := by
  cases comment with
  | none => rfl
  | some comment =>
    have hd := h rfl
    unfold isDescribed at hd
    split at hd
    · rename_i description hat
      exact modifyAt_of_eq hat (if_pos hd)
    · exact nomatch hd

/-- Where there is a description, nothing stands in its way. -/
theorem obstacle?_of_isDescribed (subject : Subject) {properties : Properties}
    (h : isDescribed subject properties = true) :
    obstacle? descriptionPath properties = none := by
  unfold isDescribed at h
  split at h
  · rename_i description hat
    exact obstacle?_eq_none.mpr ⟨_, hat⟩
  · exact nomatch h

/-- A description is a string, so it adds nothing to what is collected from a tree. -/
theorem flatMap_described {α : Type} {collect : Node → List α} (h : Node.CollectsParts collect)
    (comment : Option String) (subject : Subject) (properties : Properties) :
    (described comment subject properties).flatMap collect = properties.flatMap collect := by
  cases comment with
  | none => rfl
  | some comment =>
    refine h.flatMap_modifyAt _ (fun description => ?_) properties
    unfold withText
    split
    · rfl
    · rw [add, List.flatMap_append, List.flatMap_singleton, h.ofEntry, h.ofString, List.append_nil]

/-! ## Linking -/

/-- Linking fails where something stands in the way of the parameters, and then changes nothing. -/
theorem link_eq (filename : String) (story : Story) (properties : Properties) :
    link filename story properties =
      match obstacle? parametersPath properties with
      | some e =>
        { properties, failure := some ((Problem.shape (subjectOf story) e).report filename) }
      | none => { properties := linked story properties } := by
  simp only [link, editAt_eq, obstacle?, linked]
  cases properties.at? parametersPath <;> rfl

/-- Parameters that are added to do not change what is read below another key. -/
theorem at?_modifyAt_parameters {key : String} {path : List String} {properties : Properties}
    {change : Properties → Properties} (h : obstacle? parametersPath properties = none)
    (hc : ∀ parameters, object? (change parameters) key = object? parameters key) :
    (modifyAt parametersPath change properties).at? ("parameters" :: key :: path) =
      properties.at? ("parameters" :: key :: path) := by
  obtain ⟨found, hfound⟩ := obstacle?_eq_none.mp h
  -- the parameters are free, so there is nothing but an object literal or nothing at all
  have hobj : ∃ found, object? properties "parameters" = .ok found := by
    rw [parametersPath, at?_cons] at hfound
    cases hobj : object? properties "parameters" with
    | error e => simp [hobj] at hfound
    | ok found => exact ⟨found, rfl⟩
  obtain ⟨found, hobj⟩ := hobj
  rw [at?_cons, at?_cons, hobj, parametersPath, modifyAt, object?_modifyObject _ hobj]
  simp only [modifyAt, at?_cons, hc]
  cases found with
  | none => rfl
  | some parameters => rfl

/-- Linking keeps the description. -/
theorem isDescribed_linked (story : Story) (subject : Subject) {properties : Properties}
    (h : obstacle? parametersPath properties = none) :
    isDescribed subject (linked story properties) = isDescribed subject properties := by
  -- the raw code has another key than the documentation
  unfold isDescribed
  rw [linked, descriptionPath, at?_modifyAt_parameters h fun parameters =>
    object?_add_of_ne parameters (linkage story) (by decide)]

/-! ## Both -/

/-- Where the description of a story is free to be written, its parameters are. -/
theorem obstacle?_parameters {story : Story} {properties : Properties}
    (h : storyObstacle? story properties = none) :
    obstacle? parametersPath properties = none := by
  unfold storyObstacle? neededPath at h
  split at h
  · exact obstacle?_of_append ["docs", "description"] h
  · exact h

/-- What is in the way of a description was there before anything was described: describing adds
    levels, and a level that was added can be written to. -/
theorem obstacle?_described {story : Story} {properties : Properties}
    (h : storyObstacle? story properties = none) :
    obstacle? parametersPath (described story.comment (subjectOf story) properties) = none := by
  cases hc : story.comment with
  | none => exact obstacle?_parameters h
  | some comment =>
    have hfree : obstacle? descriptionPath properties = none := by
      simpa [storyObstacle?, neededPath, hc] using h
    obtain ⟨found, hfound⟩ := obstacle?_eq_none.mp hfree
    refine obstacle?_of_append ["docs", "description"] ?_
    exact obstacle?_eq_none.mpr ⟨_, at?_modifyAt _ hfound⟩

/-- The edit of a story does both of its parts or, where something stands in the way, none of
    them. -/
theorem editProps_eq (filename : String) (story : Story) (properties : Properties) :
    editProps filename story properties =
      match storyObstacle? story properties with
      | some e =>
        { properties, failure := some ((Problem.shape (subjectOf story) e).report filename) }
      | none =>
        { properties := documented story properties
          warnings := (ignoredIn story.comment (subjectOf story) properties).map
            (·.explicitDescription filename) } := by
  have hdescribe := describe_eq filename story.comment (subjectOf story) properties
  have hlink := link_eq filename story (described story.comment (subjectOf story) properties)
  unfold editProps Described.andThen
  cases hobs : storyObstacle? story properties with
  | none =>
    -- nothing is in the way of the first part, and the first part puts nothing in the way of the
    -- second
    have hdescribed : obstacle? (neededPath story.comment []) properties = none := by
      cases hc : story.comment with
      | none => rfl
      | some comment => simpa [storyObstacle?, neededPath, hc] using hobs
    rw [hdescribed] at hdescribe
    rw [obstacle?_described hobs] at hlink
    simp [hdescribe, hlink, documented]
  | some e =>
    cases hc : story.comment with
    | none =>
      -- nothing is described, and linking is refused
      have hparams : obstacle? parametersPath properties = some e := by
        simpa [storyObstacle?, neededPath, hc] using hobs
      simp [describe, link_eq, hparams]
    | some comment =>
      -- describing is refused, so linking is not tried
      have hdescription : obstacle? descriptionPath properties = some e := by
        simpa [storyObstacle?, neededPath, hc] using hobs
      rw [hc] at hdescribe
      simp [hdescribe, neededPath, hdescription]

/-! ## Editing a story again -/

/-- Properties with further copies of the raw code of a story. -/
def withCopies (story : Story) (n : Nat) : Properties → Properties :=
  modifyAt parametersPath (· ++ List.replicate n (.ofEntry linkageKey (linkage story)))

/-- Copies of the raw code keep the description. -/
theorem isDescribed_withCopies (story : Story) (n : Nat) (subject : Subject)
    {properties : Properties} (h : obstacle? parametersPath properties = none) :
    isDescribed subject (withCopies story n properties) = isDescribed subject properties := by
  unfold isDescribed
  rw [withCopies, descriptionPath, at?_modifyAt_parameters h fun parameters => ?_]
  -- each copy is one more entry of another key
  induction n with
  | zero => simp
  | succ n ih =>
    rw [List.replicate_succ', ← List.append_assoc]
    exact (object?_add_of_ne _ (linkage story) (by decide)).trans ih

/-- After the edit of a story with a comment, the story has a description. -/
theorem isDescribed_documented {story : Story} {properties : Properties}
    (h : storyObstacle? story properties = none) (hc : story.comment.isSome) :
    isDescribed (subjectOf story) (documented story properties) = true := by
  obtain ⟨comment, hcomment⟩ := Option.isSome_iff_exists.mp hc
  have hfree : obstacle? descriptionPath properties = none := by
    simpa [storyObstacle?, neededPath, hcomment] using h
  rw [documented, isDescribed_linked story _ (obstacle?_described h), hcomment]
  exact isDescribed_described comment _ hfree

/-- After the edit of a story, it has parameters. -/
theorem at?_documented {story : Story} {properties : Properties}
    (h : storyObstacle? story properties = none) :
    ∃ parameters, (documented story properties).at? parametersPath = .ok (some parameters) := by
  obtain ⟨found, hfound⟩ := obstacle?_eq_none.mp (obstacle?_described h)
  exact ⟨_, at?_modifyAt _ hfound⟩

/-- After the edit of a story, its parameters are free. -/
theorem obstacle?_documented {story : Story} {properties : Properties}
    (h : storyObstacle? story properties = none) :
    obstacle? parametersPath (documented story properties) = none := by
  obtain ⟨parameters, hparameters⟩ := at?_documented h
  exact obstacle?_eq_none.mpr ⟨some parameters, hparameters⟩

/-- A story that was edited has parameters that are free, also with further copies. -/
theorem obstacle?_withCopies (story : Story) (n : Nat) {properties : Properties}
    (h : obstacle? parametersPath properties = none) :
    obstacle? parametersPath (withCopies story n properties) = none := by
  obtain ⟨found, hfound⟩ := obstacle?_eq_none.mp h
  exact obstacle?_eq_none.mpr ⟨_, at?_modifyAt _ hfound⟩

/-- Nothing stands in the way of a story that was edited. -/
theorem storyObstacle?_withCopies {story : Story} {properties : Properties} (n : Nat)
    (h : storyObstacle? story properties = none) :
    storyObstacle? story (withCopies story n (documented story properties)) = none := by
  unfold storyObstacle? neededPath
  split
  · rename_i hc
    refine obstacle?_of_isDescribed (subjectOf story) ?_
    rw [isDescribed_withCopies story n _ (obstacle?_documented h)]
    exact isDescribed_documented h hc
  · exact obstacle?_withCopies story n (obstacle?_documented h)

theorem withCopies_zero {story : Story} {properties : Properties}
    (h : storyObstacle? story properties = none) :
    withCopies story 0 (documented story properties) = documented story properties := by
  obtain ⟨parameters, hparameters⟩ := at?_documented h
  exact modifyAt_of_eq hparameters (List.append_nil parameters)

/-- A story that is edited again gets its raw code once more, and its comment is ignored. -/
theorem documented_withCopies {story : Story} {properties : Properties} (n : Nat)
    (h : storyObstacle? story properties = none) :
    documented story (withCopies story n (documented story properties)) =
        withCopies story (n + 1) (documented story properties) ∧
      ignoredIn story.comment (subjectOf story) (withCopies story n (documented story properties)) =
        if story.comment.isSome then [subjectOf story] else [] := by
  have hfree := obstacle?_documented h
  have hdescribed : story.comment.isSome → isDescribed (subjectOf story)
      (withCopies story n (documented story properties)) = true := by
    intro hc
    rw [isDescribed_withCopies story n _ hfree]
    exact isDescribed_documented h hc
  constructor
  -- the description is there, so only the raw code is added, behind the copies
  · obtain ⟨found, hfound⟩ := obstacle?_eq_none.mp hfree
    rw [documented, described_of_isDescribed hdescribed, linked, withCopies,
      modifyAt_modifyAt _ _ hfound, withCopies]
    congr 1
    funext parameters
    rw [List.replicate_succ', ← List.append_assoc]
    rfl
  · unfold ignoredIn
    cases hc : story.comment.isSome with
    | false => rfl
    | true => simp [hdescribed hc]

end SvelteStories.Edit
