import SvelteStories.Proofs.StoryRun
import SvelteStories.Story.File

/-!
# What a transform comes to

A transform does three things to a module: it describes the meta object, it documents the story
calls one after the other, and it adds the runtime import.  `written` is the module in which the
first `n` stories are documented, and nothing else is changed but the meta object; whatever a
transform comes to, it leaves a module of this form.

## Key results

- `transform_of_located`: a transform of a module in which everything is found
- `transform_eq_ok`: a transform that succeeds
- `transform_eq_error`: a transform that fails
-/

namespace SvelteStories.Edit

open Text Diagnostic Script Node

variable {filename : String} {file : StoriesContent} {package : String} {module : Module}
  {content : CompiledContent} {before after : List Node} {declaration : Node} {object : Properties}

/-! ## Modules that were written to -/

/-- A meta declaration with the description that a comment gives. -/
def describedDeclaration (comment : Option String) (bound : String) (declaration : Node) : Node :=
  match declaration.metaObject? bound with
  | some object => declaration.withMetaObject (described comment .component object)
  | none => declaration

/-- A module with the description that a comment gives of its component. -/
def describedModule (comment : Option String) (content : CompiledContent)
    (module : Module) : Module :=
  { module with
    statements := module.statements.modify content.metaIndex
      (describedDeclaration comment content.metaBinding) }

/-- The story calls of a module. -/
def callsIn (content : CompiledContent) (module : Module) : List Node :=
  storyCallsAmong content.component module.statements

/-- The properties of the meta object of a module. -/
def metaObjectIn? (content : CompiledContent) (module : Module) : Option Properties :=
  module.statements[content.metaIndex]?.bind (·.metaObject? content.metaBinding)

/-- A module with the description of its component and with the first `n` stories documented.  The
    statements around the meta declaration, and all nodes outside of the story calls, are as they
    were. -/
def written (file : StoriesContent) (content : CompiledContent) (n : Nat)
    (module : Module) : Module :=
  { module with
    statements := replaceCallsAmong content.component
      (describedModule file.metaDescription content module).statements
      (documentedCalls (file.stories.take n) (callsIn content module)) }

/-- The subjects whose comments are ignored up to the first `n` stories. -/
def ignoredUpTo (file : StoriesContent) (content : CompiledContent) (n : Nat) (module : Module)
    (object : Properties) : List Subject :=
  ignoredIn file.metaDescription .component object ++
    ignoredInCalls (file.stories.take n) (callsIn content module)

/-! ## The meta object -/

/-- A description holds no story calls. -/
theorem storyCallsAmong_described (component : String) (comment : Option String) (subject : Subject)
    (properties : Properties) :
    storyCallsAmong component (described comment subject properties) =
      storyCallsAmong component properties := by
  rw [storyCallsAmong_eq_flatMap, storyCallsAmong_eq_flatMap,
    flatMap_described (collectsParts_storyCalls component)]

/-- A description changes the meta declaration and no other statement. -/
theorem statements_describedModule (comment : Option String)
    (h : module.Located package content before declaration after object) :
    (describedModule comment content module).statements =
      before ++ declaration.withMetaObject (described comment .component object) :: after := by
  rw [describedModule, h.modify_statements, describedDeclaration, h.metaObject]

/-- The meta object is the one that the lookups located. -/
theorem metaObjectIn?_of_located
    (h : module.Located package content before declaration after object) :
    metaObjectIn? content module = some object := by
  rw [metaObjectIn?, h.statements, ← h.index,
    List.getElem?_append_right (Nat.le_refl _), Nat.sub_self, List.getElem?_cons_zero,
    Option.bind_some, h.metaObject]

/-- Describing the component keeps the story calls. -/
theorem callsIn_describedModule (comment : Option String)
    (h : module.Located package content before declaration after object) :
    callsIn content (describedModule comment content module) = callsIn content module := by
  unfold callsIn
  rw [statements_describedModule comment h,
    h.storyCallsAmong_withMetaObject (storyCallsAmong_described _ comment .component object)]

/-- A description keeps the outlines of all statements. -/
theorem map_outline_describedModule (comment : Option String)
    (h : module.Located package content before declaration after object) :
    (describedModule comment content module).statements.map outline =
      module.statements.map outline := by
  rw [statements_describedModule comment h, h.statements, List.map_append, List.map_append,
    List.map_cons, List.map_cons, outline_withMetaObject h.metaObject]

/-- The meta object is described or, where something stands in the way, left alone. -/
theorem editMetaObject_eq (filename : String) (comment : Option String)
    (h : module.Located package content before declaration after object) :
    module.editMetaObject filename content (describe filename comment .component) =
      match obstacle? (neededPath comment []) object with
      | some e => ⟨module, [], .error ((Problem.shape .component e).report filename)⟩
      | none =>
        ⟨describedModule comment content module,
          (ignoredIn comment .component object).map (·.explicitDescription filename), .ok ()⟩ := by
  have hset (other : Node) :
      module.statements.set content.metaIndex other = before ++ other :: after := by
    rw [h.statements, ← h.index, List.set_append_right _ _ (Nat.le_refl _), Nat.sub_self,
      List.set_cons_zero]
  have hget : module.statements[content.metaIndex]? = some declaration := by
    rw [h.statements, ← h.index, List.getElem?_append_right (Nat.le_refl _), Nat.sub_self,
      List.getElem?_cons_zero]
  simp only [Module.editMetaObject, hget, isVariables_of_metaObject? h.metaObject, ↓reduceIte,
    Node.metaObject, h.metaObject, describe_eq, hset]
  cases obstacle? (neededPath comment []) object with
  | some e =>
    -- the same properties are put back
    simp only [withMetaObject_of_metaObject? h.metaObject, ← h.statements, outcomeOf]
  | none => simp only [← statements_describedModule comment h, outcomeOf, describedModule]

/-! ## The story calls -/

/-- What is written for the first stories keeps the outlines of all statements. -/
theorem map_outline_written (file : StoriesContent) (n : Nat)
    (h : module.Located package content before declaration after object) :
    (written file content n module).statements.map outline = module.statements.map outline := by
  -- a documented call has the outline of the call that it was
  have hcalls : (documentedCalls (file.stories.take n) (callsIn content module)).map outline =
      (callsIn content (describedModule file.metaDescription content module)).map outline := by
    rw [map_outline_documentedCalls, callsIn_describedModule _ h]
  rw [written, map_outline_replaceCallsAmong hcalls, map_outline_describedModule _ h]

/-- The story calls of a module that was written to are the documented ones and, behind them, those
    that were there. -/
theorem callsIn_written (file : StoriesContent) (n : Nat)
    (h : module.Located package content before declaration after object) :
    callsIn content (written file content n module) =
      documentedCalls (file.stories.take n) (callsIn content module) := by
  refine storyCallsAmong_replaceCallsAmong ?_
  rw [map_outline_documentedCalls]
  exact congrArg (List.map outline) (callsIn_describedModule file.metaDescription h).symm

/-- The runtime import is there after the writing if it was there before. -/
theorem hasRuntimeImport_written (file : StoriesContent) (n : Nat)
    (h : module.Located package content before declaration after object) :
    (written file content n module).hasRuntimeImport package = module.hasRuntimeImport package :=
  Module.hasRuntimeImport_congr package (map_outline_written file n h)

/-- An import that is put on top of a module adds no story call. -/
theorem callsIn_import (package : String) (content : CompiledContent) (module : Module)
    (added : Bool) :
    callsIn content { module with
      statements := (if added then [runtimeImport package] else []) ++ module.statements } =
      callsIn content module := by
  unfold callsIn
  cases added <;> rfl

/-- What a transform answers with after all stories are documented. -/
def finished (filename : String) (file : StoriesContent) (package : String)
    (content : CompiledContent) (module : Module) (object : Properties) : Transformed Bool :=
  let written := written file content file.stories.length module
  let added := !module.hasRuntimeImport package
  { module := { written with
      statements := (if added then [runtimeImport package] else []) ++ written.statements }
    warnings := (ignoredUpTo file content file.stories.length module object).map
      (·.explicitDescription filename)
    outcome := .ok added }

/-- After a transform, the story calls are those that were there, documented. -/
theorem callsIn_finished (filename : String) (file : StoriesContent)
    (h : module.Located package content before declaration after object)
    (hlen : file.stories.length = (callsIn content module).length) :
    callsIn content (finished filename file package content module object).module =
      List.zipWith documentedCall file.stories (callsIn content module) := by
  have hwritten := callsIn_written file file.stories.length h
  rw [List.take_length, documentedCalls_eq_zipWith hlen] at hwritten
  rw [← hwritten]
  exact callsIn_import package _ _ _

/-- The run over the story calls of a module whose component was described. -/
theorem editStoryCalls_describedModule (filename : String)
    (h : module.Located package content before declaration after object)
    (hlen : file.stories.length = (callsIn content module).length) :
    ∃ n last failure,
      (describedModule file.metaDescription content module).editStoryCalls content.component
          ((ignoredIn file.metaDescription .component object).map (·.explicitDescription filename))
          (editStoryCall filename (file.stories.zip content.calls)) =
        (written file content n module,
          { index := last
            state := (ignoredUpTo file content n module object).map (·.explicitDescription filename)
            failure }) ∧
      Free (file.stories.take n) ((callsIn content module).take n) ∧
      ((failure = none ∧ n = file.stories.length) ∨
        ∃ story call e, file.stories[n]? = some story ∧ (callsIn content module)[n]? = some call ∧
          callObstacle? story call = some e ∧
          failure = some ((Problem.shape (subjectOf story) e).report filename)) := by
  -- the run over the story calls is one over the list of calls
  have hspans : ((file.stories.zip content.calls).drop 0).map
      (fun pair => (pair.1, pair.2.span)) =
      file.stories.zip ((callsIn content module).map Node.span) := by
    rw [List.drop_zero, callsIn, ← h.map_span_calls, List.zip_map_right]
    rfl
  obtain ⟨n, last, failure, hrun, hfree, hend⟩ := editAll_editStoryCall filename hspans hlen
    h.props ((ignoredIn file.metaDescription .component object).map
      (·.explicitDescription filename))
  refine ⟨n, last, failure, ?_, hfree, hend⟩
  -- the story calls are those of the module as it was: describing the component changed none
  have hcalls := callsIn_describedModule file.metaDescription h
  unfold callsIn at hcalls
  simp only [Module.editStoryCalls, StateT.run, run_editCallsAmong, hcalls]
  rw [callsIn] at hrun
  rw [hrun, ← List.map_append]
  rfl

/-- A transform of a module in which everything is found, with as many story calls as there are
    stories: the component or a story cannot be described and ends the work, or all work is done. -/
theorem transform_of_located (h : module.Located package content before declaration after object)
    (hlen : file.stories.length = (callsIn content module).length) :
    (∃ e, obstacle? (neededPath file.metaDescription []) object = some e ∧
        transform filename file package module =
          ⟨module, [], .error ((Problem.shape .component e).report filename)⟩) ∨
      obstacle? (neededPath file.metaDescription []) object = none ∧
      ((Free file.stories (callsIn content module) ∧
          transform filename file package module =
            finished filename file package content module object) ∨
        ∃ n story call e, file.stories[n]? = some story ∧ (callsIn content module)[n]? = some call ∧
          Free (file.stories.take n) ((callsIn content module).take n) ∧
          callObstacle? story call = some e ∧
          transform filename file package module =
            ⟨written file content n module,
              (ignoredUpTo file content n module object).map (·.explicitDescription filename),
              .error ((Problem.shape (subjectOf story) e).report filename)⟩) := by
  have hcount : file.stories.length = content.calls.length := hlen.trans h.length_calls.symm
  -- everything is found, and the stories are paired with the calls
  have hcorrelated : correlated filename file package module =
      .ok (content, file.stories.zip content.calls) := by
    have hpair : Story.pair filename file.stories content.calls =
        .ok (file.stories.zip content.calls) := Story.pair_eq_ok_iff.mpr ⟨hcount, rfl⟩
    simp only [correlated, h.compiledContent, bind, Except.bind, hpair]
    rfl
  simp only [transform, hcorrelated, editMetaObject_eq _ _ h]
  cases hmeta : obstacle? (neededPath file.metaDescription []) object with
  | some e => exact .inl ⟨e, rfl, rfl⟩
  | none =>
    refine .inr ⟨rfl, ?_⟩
    obtain ⟨n, last, failure, hstories, hfree, hend⟩ :=
      editStoryCalls_describedModule filename h hlen
    simp only [editStories, hstories]
    rcases hend with ⟨rfl, rfl⟩ | ⟨story, call, e, hstory, hcall, he, rfl⟩
    -- all stories are written, and the import is added
    · left
      rw [List.take_length, hlen, List.take_length] at hfree
      refine ⟨hfree, ?_⟩
      simp only [Module.addRuntimeImport, hasRuntimeImport_written _ _ h, finished]
      cases module.hasRuntimeImport package <;> rfl
    · exact .inr ⟨n, story, call, e, hstory, hcall, hfree, he, rfl⟩

/-- A transform in whose way nothing stands succeeds. -/
theorem transform_eq_finished (h : module.Located package content before declaration after object)
    (hmeta : obstacle? (neededPath file.metaDescription []) object = none)
    (hfree : Free file.stories (callsIn content module)) :
    transform filename file package module =
      finished filename file package content module object := by
  rcases transform_of_located h hfree.length_eq with
    ⟨e, he, -⟩ | ⟨-, ⟨-, htransform⟩ | ⟨n, story, call, e, hstory, hcall, -, he, -⟩⟩
  · -- the component is not refused
    rw [hmeta] at he
    exact nomatch he
  · exact htransform
  · -- no story is refused
    rw [hfree.callObstacle?_eq_none hstory hcall] at he
    exact nomatch he

/-! ## Outcomes -/

/-- What is correlated is found in the module, with as many story calls as there are stories. -/
theorem located_of_correlated {pairs : List Story.Pair}
    (h : correlated filename file package module = .ok (content, pairs)) :
    ∃ before declaration after object,
      module.Located package content before declaration after object ∧
        file.stories.length = (callsIn content module).length := by
  simp only [correlated, bind, Except.bind] at h
  -- both steps have succeeded: the lookups in the module and the pairing
  cases hcontent : module.compiledContent filename package with
  | error e => simp [hcontent] at h
  | ok found =>
    simp only [hcontent] at h
    cases hpair : Story.pair filename file.stories found.calls with
    | error e => simp [hpair] at h
    | ok zipped =>
      simp only [hpair, pure, Except.pure, Except.ok.injEq, Prod.mk.injEq] at h
      obtain ⟨rfl, -⟩ := h
      -- the pairing counts the calls that were found, which are those of the module
      obtain ⟨before, declaration, after, object, hlocated⟩ :=
        Module.located_of_compiledContent hcontent
      refine ⟨before, declaration, after, object, hlocated, ?_⟩
      exact (Story.pair_eq_ok_iff.mp hpair).1.trans hlocated.length_calls

/-- Without a correlation nothing is done. -/
theorem transform_of_correlated_eq_error {report : Report}
    (h : correlated filename file package module = .error report) :
    transform filename file package module = ⟨module, [], .error report⟩ := by
  simp only [transform, h]

/-- A transform only succeeds if nothing stands in its way. -/
theorem located_of_outcome_eq_ok {added : Bool}
    (h : (transform filename file package module).outcome = .ok added) :
    ∃ content before declaration after object,
      module.Located package content before declaration after object ∧
      obstacle? (neededPath file.metaDescription []) object = none ∧
      Free file.stories (callsIn content module) ∧
      transform filename file package module =
        finished filename file package content module object ∧
      added = !module.hasRuntimeImport package := by
  cases hc : correlated filename file package module with
  | error report =>
    rw [transform_of_correlated_eq_error hc] at h
    exact nomatch h
  | ok found =>
    obtain ⟨content, pairs⟩ := found
    obtain ⟨before, declaration, after, object, hlocated, hlen⟩ := located_of_correlated hc
    -- of the three ways in which a transform ends, one is a success
    rcases transform_of_located hlocated hlen with
      ⟨e, -, htransform⟩ | ⟨hmeta, ⟨hfree, htransform⟩ |
        ⟨n, story, call, e, -, -, -, -, htransform⟩⟩
    · rw [htransform] at h
      exact nomatch h
    · refine ⟨content, before, declaration, after, object, hlocated, hmeta, hfree, htransform, ?_⟩
      rw [htransform] at h
      exact (Except.ok.inj h).symm
    · rw [htransform] at h
      exact nomatch h

/-- A module with the given properties of the meta object and a story call for each of the given
    props. -/
def sampleModule (object : Properties) (props : List Properties) : Module where
  source := []
  hashbang := none
  directives := []
  statements :=
    [.made (.import defaultPackage false [])
      [.made .importNamed [.made (.name metaFunction) [], .made (.binding metaFunction) []]],
      .made (.declaration .const) [.made .declarator
        [.made .objectPattern [.made (.boundProperty false)
          [.made (.name storyComponent) [], .made (.binding storyComponent) []]],
        .made (.call false) [.made (.reference metaFunction) [], .ofProperties object]]]] ++
    props.map fun properties => .made .expression [.made (.call false)
      [.made (.reference storyComponent) [], .made (.reference "node") [],
        .ofProperties properties]]
  comments := []

/-- Two stories, the first of them with a comment. -/
def sampleFile : StoriesContent where
  metaDescription := some "All buttons."
  stories :=
    [{ name := some "Primary", comment := some "The usual one.", rawCode := "<Button />" },
      { name := some "Plain", rawCode := "<Button plain />" }]

/-- A transform that succeeds found as many story calls as there are stories.  It describes the meta
    object, documents each story call with the story of its place, puts the runtime import on top if
    it was not there, and changes nothing else.  It ignores the comments whose subjects are
    described. -/
theorem transform_eq_ok {added : Bool}
    (h : (transform filename file package module).outcome = .ok added) :
    ∃ content object,
      module.compiledContent filename package = .ok content ∧
      metaObjectIn? content module = some object ∧
      (callsIn content module).length = file.stories.length ∧
      (∀ call ∈ callsIn content module, call.props?.isSome = true) ∧
      added = !module.hasRuntimeImport package ∧
      (transform filename file package module).module =
        { module with
          statements := (if added then [runtimeImport package] else []) ++
            replaceCallsAmong content.component
              (module.statements.modify content.metaIndex
                (describedDeclaration file.metaDescription content.metaBinding))
              (List.zipWith documentedCall file.stories (callsIn content module)) } ∧
      callsIn content (transform filename file package module).module =
        List.zipWith documentedCall file.stories (callsIn content module) ∧
      (transform filename file package module).warnings =
        (ignoredIn file.metaDescription .component object ++
          (List.zipWith ignoredInCall file.stories (callsIn content module)).flatten).map
            (·.explicitDescription filename) := by
  obtain ⟨content, before, declaration, after, object, hlocated, -, hfree, htransform, hadded⟩ :=
    located_of_outcome_eq_ok h
  have hlen := hfree.length_eq
  refine ⟨content, object, hlocated.compiledContent filename,
    metaObjectIn?_of_located hlocated, hlen.symm, hlocated.props, hadded, ?_⟩
  -- the module and the warnings are read off the finished transform
  rw [htransform, hadded]
  refine ⟨?_, callsIn_finished filename file hlocated hlen, ?_⟩
  · simp only [finished, written, describedModule, List.take_length,
      documentedCalls_eq_zipWith hlen]
  · simp only [finished, ignoredUpTo, List.take_length, ignoredInCalls_eq_flatten hlen]

/-- Two stories are documented and the runtime import is added. -/
theorem transform_sampleModule :
    (transform sampleFilename sampleFile defaultPackage (sampleModule [] [[], []])).outcome =
      .ok true ∧
    ∃ content, (sampleModule [] [[], []]).compiledContent sampleFilename defaultPackage =
      .ok content ∧
      callsIn content (transform sampleFilename sampleFile defaultPackage
        (sampleModule [] [[], []])).module =
        List.zipWith documentedCall sampleFile.stories
          (callsIn content (sampleModule [] [[], []])) := by
  have hok : (transform sampleFilename sampleFile defaultPackage
    (sampleModule [] [[], []])).outcome = .ok true := rfl
  obtain ⟨content, -, hcontent, -, -, -, -, -, hcalls, -⟩ := transform_eq_ok hok
  exact ⟨hok, content, hcontent, hcalls⟩

/-- A transform that fails before it found everything leaves the module alone.  Otherwise it is an
    object literal that was refused: that of the component, and the module is left alone, or that of
    a story, and then the component and the stories before it are written as always, and the call of
    that story, all calls behind it and the imports are as they were. -/
theorem transform_eq_error {report : Report}
    (h : (transform filename file package module).outcome = .error report) :
    (correlated filename file package module = .error report ∧
      transform filename file package module = ⟨module, [], .error report⟩) ∨
    report.code = .propertyShape ∧ ∃ content object,
      module.compiledContent filename package = .ok content ∧
      metaObjectIn? content module = some object ∧
      (callsIn content module).length = file.stories.length ∧
      ((∃ e, report = (Problem.shape .component e).report filename ∧
          transform filename file package module = ⟨module, [], .error report⟩) ∨
        ∃ k story e,
          file.stories[k]? = some story ∧
          report = (Problem.shape (subjectOf story) e).report filename ∧
          (transform filename file package module).module = written file content k module ∧
          callsIn content (transform filename file package module).module =
            List.zipWith documentedCall (file.stories.take k) ((callsIn content module).take k) ++
              (callsIn content module).drop k ∧
          (transform filename file package module).module.statements.map outline =
            module.statements.map outline ∧
          (transform filename file package module).warnings =
            (ignoredIn file.metaDescription .component object ++
              (List.zipWith ignoredInCall (file.stories.take k)
                ((callsIn content module).take k)).flatten).map
                  (·.explicitDescription filename)) := by
  cases hc : correlated filename file package module with
  | error other =>
    have htransform := transform_of_correlated_eq_error hc
    rw [htransform] at h
    obtain rfl : other = report := Except.error.inj h
    exact .inl ⟨rfl, htransform⟩
  | ok found =>
    obtain ⟨content, pairs⟩ := found
    obtain ⟨before, declaration, after, object, hlocated, hlen⟩ := located_of_correlated hc
    have hcontent := hlocated.compiledContent filename
    have hobject := metaObjectIn?_of_located hlocated
    rcases transform_of_located hlocated hlen with
      ⟨e, -, htransform⟩ | ⟨-, ⟨-, htransform⟩ | ⟨k, story, call, e, hstory, -, -, -, htransform⟩⟩
    · rw [htransform] at h
      obtain rfl : (Problem.shape .component e).report filename = report := Except.error.inj h
      -- the component is refused before anything is written
      exact .inr ⟨rfl, content, object, hcontent, hobject, hlen.symm, .inl ⟨e, rfl, htransform⟩⟩
    · rw [htransform] at h
      exact nomatch h
    · rw [htransform] at h
      obtain rfl : (Problem.shape (subjectOf story) e).report filename = report :=
        Except.error.inj h
      -- a story is refused after those before it
      refine .inr ⟨rfl, content, object, hcontent, hobject, hlen.symm,
        .inr ⟨k, story, e, hstory, rfl, ?_⟩⟩
      rw [htransform]
      exact ⟨rfl, by rw [callsIn_written file k hlocated, documentedCalls_take hlen],
        map_outline_written file k hlocated, by rw [ignoredUpTo, ignoredInCalls_take hlen]⟩

/-- The second of two stories is refused, after the first one was written. -/
theorem transform_sampleModule_refused :
    ∃ content,
      (sampleModule [] [[], [.ofEntry "parameters" (.ofString "")]]).compiledContent sampleFilename
        defaultPackage =
        .ok content ∧
      (transform sampleFilename sampleFile defaultPackage
        (sampleModule [] [[], [.ofEntry "parameters" (.ofString "")]])).module =
        written sampleFile content 1 (sampleModule [] [[],
          [.ofEntry "parameters" (.ofString "")]]) := by
  have herror : (transform sampleFilename sampleFile defaultPackage
      (sampleModule [] [[], [.ofEntry "parameters" (.ofString "")]])).outcome =
      .error ((Problem.shape (.story (some "Plain")) ⟨"parameters"⟩).report sampleFilename) := rfl
  rcases transform_eq_error herror with ⟨hcorrelated, -⟩ | ⟨-, content, _, hcontent, -, -, hrefused⟩
  · exact absurd (congrArg Except.toBool hcorrelated) (show true ≠ false by decide)
  · refine ⟨content, hcontent, ?_⟩
    rcases hrefused with ⟨e, -, htransform⟩ | ⟨k, story, e, hstory, -, hmodule, hcalls, -⟩
    · -- the description of the component was written
      exact absurd (congrArg (·.module.statements) htransform) (by decide)
    · match k, hstory with
      | 0, _ =>
        -- and so was the first call
        have hcomponent : some storyComponent = some content.component :=
          congrArg (fun found => found.toOption.map (·.component)) hcontent
        rw [callsIn, callsIn, ← Option.some.inj hcomponent] at hcalls
        exact absurd hcalls (by decide)
      | 1, _ => exact hmodule

end SvelteStories.Edit
