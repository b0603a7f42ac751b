import Mathlib.Logic.Function.Iterate
import SvelteStories.Proofs.NodeMap
import SvelteStories.Proofs.Transform

/-!
# Transforming a module again

A transform finds its own work: in the module that it leaves, everything that it looks for is still
to be found, the component and the stories are described, and the runtime import is there.
`Settled` is what a transform leaves outside of the story calls and what it keeps when it is run
again.

The meta object may have story calls in it, so it changes with them.  What is read in it does not:
its *shell*, in which story calls are cut down to their outlines, stays the same.

## Key results

- `map_shell_replaceCallsAmong`: a change of the story calls keeps the shell
- `Settled.replaceCalls`, `Settled.transform_eq`: what a transform keeps, and what it does with it
- `iterate_transformed`: any number of transforms in a row
-/

namespace SvelteStories.Script.Node

open Text

variable {component : String} {kind : Kind} {span : Span} {parts : List Node}

/-! ## Shells -/

/-- A node with the outlines of its story calls in their places. -/
def shell (component : String) (node : Node) : Node :=
  node.replaceCalls component ((node.storyCalls component).map outline)

/-- Shells of the trees of a list, one by one. -/
theorem replaceCallsAmong_map_outline (nodes : List Node) :
    replaceCallsAmong component nodes ((storyCallsAmong component nodes).map outline) =
      nodes.map (shell component) := by
  induction nodes with
  | nil => rfl
  | cons node rest ih =>
    rw [storyCallsAmong_cons, List.map_append, replaceCallsAmong_cons _ (List.length_map _), ih,
      List.map_cons, shell]

/-- The shell of a node that is no story call goes on in its parts. -/
theorem shell_of_not_call (h : (mk kind span parts).isStoryCall component = false) :
    shell component (mk kind span parts) = mk kind span (parts.map (shell component)) := by
  rw [shell, replaceCalls_of_not_call h, storyCalls_of_not_call h, replaceCallsAmong_map_outline]

/-- The shell of a story call is its outline. -/
theorem shell_of_call (h : (mk kind span parts).isStoryCall component = true) :
    shell component (mk kind span parts) = (mk kind span parts).outline := by
  rw [shell, storyCalls_of_call h]
  simp only [replaceCalls, h, ↓reduceIte, List.map_cons, List.headD_cons]

/-- Shells keep object literals, with the shells of what they hold. -/
theorem keepsObjects_shell (component : String) : KeepsObjects (shell component) where
  kind node := by
    obtain ⟨kind, span, parts⟩ := node
    cases hc : (mk kind span parts).isStoryCall component with
    | false => rw [shell_of_not_call hc]; rfl
    | true => rw [shell_of_call hc, kind_outline]
  property _ _ _ span _ := ⟨span, shell_of_not_call rfl⟩
  object span _ := ⟨span, shell_of_not_call rfl⟩

/-- A change of the story calls of a node keeps its outline. -/
theorem outline_replaceCalls {node : Node} {calls : List Node}
    (h : calls.map outline = (node.storyCalls component).map outline) :
    (node.replaceCalls component calls).outline = node.outline := by
  have hone : calls.map outline = (storyCallsAmong component [node]).map outline := by
    rwa [storyCallsAmong_cons, storyCallsAmong, List.append_nil]
  have houtline := map_outline_replaceCallsAmong hone
  rw [← List.append_nil calls, replaceCallsAmong_cons _ (length_eq_of_map_outline h)] at houtline
  exact (List.cons.inj houtline).1

/-- A change of the story calls keeps the shells. -/
theorem map_shell_replaceCallsAmong {nodes calls : List Node}
    (h : calls.map outline = (storyCallsAmong component nodes).map outline) :
    (replaceCallsAmong component nodes calls).map (shell component) =
      nodes.map (shell component) := by
  rw [← replaceCallsAmong_map_outline, storyCallsAmong_replaceCallsAmong h,
    replaceCallsAmong_replaceCallsAmong h (List.length_map _), h, replaceCallsAmong_map_outline]

/-- A call with an object literal as its argument is rebuilt around the new story calls in it. -/
theorem replaceCalls_metaCall {optional : Bool} {at_ at' : Span} {callee : Node}
    {object : Properties} {function inside : List Node}
    (h : (mk (.call optional) at_ [callee, mk .object at' object]).isStoryCall component = false)
    (hfunction : function.map outline = (callee.storyCalls component).map outline)
    (hinside : inside.map outline = (storyCallsAmong component object).map outline) :
    (mk (.call optional) at_ [callee, mk .object at' object]).replaceCalls component
      (function ++ inside) =
      mk (.call optional) at_ [callee.replaceCalls component function,
        mk .object at' (replaceCallsAmong component object inside)] := by
  have hargument : (mk .object at' object).isStoryCall component = false := rfl
  -- the callee takes the first calls, the argument the others
  rw [replaceCalls_of_not_call h, replaceCallsAmong_cons _ (length_eq_of_map_outline hfunction),
    ← List.append_nil inside,
    replaceCallsAmong_cons_of_not_call hargument _ (length_eq_of_map_outline hinside),
    List.append_nil, replaceCallsAmong]

/-- After a change of the story calls of a meta declaration, there is a meta object with the same
    shell. -/
theorem metaObject?_replaceCalls {bound : String} {declaration : Node} {object : Properties}
    {calls : List Node} (h : declaration.metaObject? bound = some object)
    (hprops : ∀ call ∈ declaration.storyCalls component, call.props?.isSome = true)
    (hcalls : calls.map outline = (declaration.storyCalls component).map outline) :
    ∃ other, (declaration.replaceCalls component calls).metaObject? bound = some other ∧
      other.map (shell component) = object.map (shell component) := by
  obtain ⟨word, span, inner, pattern, optional, at_, callee, at', others, rfl, hcallee, hmeta⟩ :=
    exists_of_metaObject?_of_props h hprops
  -- the calls belong to the pattern, to the function, to the meta object, and to what comes behind
  rw [storyCalls_of_not_call rfl, storyCallsAmong_cons_of_not_call rfl, storyCallsAmong_cons,
    storyCallsAmong_cons, storyCallsAmong, List.append_nil, storyCalls_metaCall hmeta] at hcalls
  obtain ⟨first, behind, rfl, hfirst, -⟩ := exists_append_of_map_outline hcalls
  obtain ⟨left, middle, rfl, hleft, hmiddle⟩ := exists_append_of_map_outline hfirst
  obtain ⟨function, inside, rfl, hfunction, hinside⟩ := exists_append_of_map_outline hmiddle
  have hreference : (callee.replaceCalls component function).isReference bound = true := by
    rw [← isReference_outline, outline_replaceCalls hfunction, isReference_outline, hcallee]
  refine ⟨replaceCallsAmong component object inside, ?_, map_shell_replaceCallsAmong hinside⟩
  -- each part takes its own calls
  have hvalue : replaceCallsAmong component
      [pattern, mk (.call optional) at_ [callee, mk .object at' object]]
      (left ++ (function ++ inside)) =
      [pattern.replaceCalls component left, mk (.call optional) at_
        [callee.replaceCalls component function,
          mk .object at' (replaceCallsAmong component object inside)]] := by
    rw [replaceCallsAmong_cons _ (length_eq_of_map_outline hleft), ← List.append_nil (_ ++ inside),
      replaceCallsAmong_cons _ ?_, replaceCalls_metaCall hmeta hfunction hinside, replaceCallsAmong]
    rw [storyCalls_metaCall hmeta]
    exact length_eq_of_map_outline hmiddle
  rw [replaceCalls_of_not_call rfl, replaceCallsAmong_cons_of_not_call rfl _ ?_, hvalue]
  · simp only [metaObject?, firstDeclarator?, hreference, ↓reduceIte]
    rfl
  · rw [storyCallsAmong_cons, storyCallsAmong_cons, storyCallsAmong, List.append_nil,
      storyCalls_metaCall hmeta]
    exact length_eq_of_map_outline hfirst

end SvelteStories.Script.Node

namespace SvelteStories.Edit

open Text Diagnostic Script Node

variable {filename : String} {file : StoriesContent} {package component : String}
  {module : Module} {content : CompiledContent} {before after : List Node} {declaration : Node}
  {object : Properties} {story : Story} {call : Node} {stories : List Story} {calls : List Node}

/-! ## What a transform keeps -/

/-- Everything that a transform looks for is found in a module, and the component is described if it
    is to be. -/
def Settled (file : StoriesContent) (package component : String) (module : Module) : Prop :=
  ∃ content before declaration after object,
    module.Located package content before declaration after object ∧
      content.component = component ∧
      (file.metaDescription.isSome → isDescribed .component object = true)

/-- The statements of a module after a change of its story calls. -/
theorem replaceCallsAmong_of_located {calls : List Node}
    (h : module.Located package content before declaration after object)
    (hcalls : calls.map outline =
      (storyCallsAmong content.component module.statements).map outline) :
    ∃ first inner last,
      replaceCallsAmong content.component module.statements calls =
        replaceCallsAmong content.component before first ++
          declaration.replaceCalls content.component inner ::
            replaceCallsAmong content.component after last ∧
      first.map outline = (storyCallsAmong content.component before).map outline ∧
      inner.map outline = (declaration.storyCalls content.component).map outline ∧
      last.map outline = (storyCallsAmong content.component after).map outline := by
  -- the calls are cut where the statements are
  rw [h.statements] at hcalls ⊢
  rw [storyCallsAmong_append, storyCallsAmong_cons] at hcalls
  obtain ⟨first, behind, rfl, hfirst, hbehind⟩ := exists_append_of_map_outline hcalls
  obtain ⟨inner, last, rfl, hinner, hlast⟩ := exists_append_of_map_outline hbehind
  refine ⟨first, inner, last, ?_, hfirst, hinner, hlast⟩
  rw [replaceCallsAmong_append _ (length_eq_of_map_outline hfirst),
    replaceCallsAmong_cons _ (length_eq_of_map_outline hinner)]

/-- A settled module stays settled if its story calls are changed in their props only. -/
theorem Settled.replaceCalls {calls : List Node} (h : Settled file package component module)
    (hcalls : calls.map outline = (storyCallsAmong component module.statements).map outline)
    (hprops : ∀ call ∈ calls, call.props?.isSome = true) :
    Settled file package component
      { module with statements := replaceCallsAmong component module.statements calls } := by
  obtain ⟨content, before, declaration, after, object, hlocated, rfl, hmeta⟩ := h
  obtain ⟨first, inner, last, hstatements, hfirst, hinner, hlast⟩ :=
    replaceCallsAmong_of_located hlocated hcalls
  -- the calls in the declaration have props objects, as all calls do
  have hdeclared : ∀ call ∈ declaration.storyCalls content.component,
      call.props?.isSome = true := by
    intro call hmem
    refine hlocated.props call ?_
    rw [hlocated.statements, storyCallsAmong_append, storyCallsAmong_cons]
    exact List.mem_append_right _ (List.mem_append_left _ hmem)
  obtain ⟨other, hother, hshell⟩ :=
    metaObject?_replaceCalls hlocated.metaObject hdeclared hinner
  -- the lookups go by outlines, and the description by the shell of the meta object
  have houtlines := map_outline_replaceCallsAmong hcalls
  refine ⟨{ content with
      metaCall := (declaration.replaceCalls content.component inner).metaCallSpan
      calls := calls.filterMap fun call =>
        (call.storyCallShape? content.component).map fun shape => ⟨shape, call.span⟩ },
    _, _, _, other, ⟨?_, hstatements, ?_, ?_, hother, rfl, ?_, ?_, ?_⟩, rfl, ?_⟩
  · rw [Module.metaImport?_congr package houtlines]
    exact hlocated.imported
  · rw [length_replaceCallsAmong]
    exact hlocated.index
  · refine declaresMeta_of_map_outline ?_ hlocated.alone
    rw [List.map_append, List.map_append, map_outline_replaceCallsAmong hfirst,
      map_outline_replaceCallsAmong hlast]
  · rw [← storyBinding?_outline, outline_replaceCalls hinner, storyBinding?_outline]
    exact hlocated.binding
  · rwa [storyCallsAmong_replaceCallsAmong hcalls]
  · rw [storyCallsAmong_replaceCallsAmong hcalls]
  · -- a description is read in the shell, which is the same
    intro hdescription
    rw [← (keepsObjects_shell content.component).isDescribed_map, hshell,
      (keepsObjects_shell content.component).isDescribed_map]
    exact hmeta hdescription

/-- A settled module stays settled under the runtime import. -/
theorem Settled.import (h : Settled file package component module) :
    Settled file package component
      { module with statements := runtimeImport package :: module.statements } := by
  obtain ⟨content, before, declaration, after, object, hlocated, rfl, hmeta⟩ := h
  -- the declaration moves down by one
  refine ⟨{ content with metaIndex := content.metaIndex + 1 }, runtimeImport package :: before,
    declaration, after, object, ⟨?_, ?_, ?_, ?_, hlocated.metaObject, hlocated.metaCall,
      hlocated.binding, hlocated.props, hlocated.calls⟩, rfl, hmeta⟩
  · -- the runtime import does not import the function that declares metadata
    have hnone : ((runtimeImport package).specifiersFrom package).findSome?
        (·.importedAs? metaFunction) = none := by
      simp only [runtimeImport, made, specifiersFrom]
      split <;> rfl
    rw [Module.metaImport?, List.findSome?_cons, hnone]
    exact hlocated.imported
  · rw [hlocated.statements, List.cons_append]
  · rw [List.length_cons, hlocated.index]
  · rw [List.cons_append, List.forall_mem_cons]
    exact ⟨rfl, hlocated.alone⟩

/-- A module whose component could be described is settled after that. -/
theorem settled_describedModule (h : module.Located package content before declaration after object)
    (hfree : obstacle? (neededPath file.metaDescription []) object = none) :
    Settled file package content.component
      (describedModule file.metaDescription content module) := by
  have hcalls : storyCallsAmong content.component
      (describedModule file.metaDescription content module).statements =
        storyCallsAmong content.component module.statements :=
    callsIn_describedModule file.metaDescription h
  -- only the meta object differs from what was located
  refine ⟨content, before,
    declaration.withMetaObject (described file.metaDescription .component object), after, _,
    ⟨?_, statements_describedModule _ h, h.index, h.alone,
      metaObject?_withMetaObject h.metaObject _, ?_, ?_, hcalls.symm ▸ h.props,
      hcalls.symm ▸ h.calls⟩, rfl, ?_⟩
  · rw [Module.metaImport?_congr package (map_outline_describedModule _ h)]
    exact h.imported
  · rw [h.metaCall]
    obtain ⟨_, _, _, _, _, _, _, _, _, rfl, -⟩ := exists_of_metaObject?_eq_some h.metaObject
    rfl
  · -- the binding is in the outline, which a description keeps
    rw [← storyBinding?_outline, outline_withMetaObject h.metaObject, storyBinding?_outline]
    exact h.binding
  · intro hdescription
    -- what was written is there
    obtain ⟨comment, hcomment⟩ := Option.isSome_iff_exists.mp hdescription
    rw [hcomment] at hfree ⊢
    exact isDescribed_described comment .component hfree

/-- Calls have props after a change of their props. -/
theorem isSome_props?_zipWith (change : Story → Properties → Properties)
    (h : ∀ call ∈ calls, call.props?.isSome = true) :
    ∀ call ∈ List.zipWith (fun story => mapProps (change story)) stories calls,
      call.props?.isSome = true := by
  intro call hmem
  obtain ⟨i, hi, rfl⟩ := List.mem_iff_getElem.mp hmem
  rw [List.getElem_zipWith, props?_mapProps, Option.isSome_map]
  exact h _ (List.getElem_mem _)

/-- What a transform leaves when it succeeds is settled. -/
theorem settled_finished (filename : String)
    (h : module.Located package content before declaration after object)
    (hlen : file.stories.length = (callsIn content module).length)
    (hfree : obstacle? (neededPath file.metaDescription []) object = none) :
    Settled file package content.component
      (finished filename file package content module object).module := by
  have hdescribed := settled_describedModule h hfree
  have hcalls := callsIn_describedModule file.metaDescription h
  -- the calls that are written have the outlines of those in the module, and props
  have hwritten : Settled file package content.component
      (written file content file.stories.length module) := by
    refine hdescribed.replaceCalls ?_ ?_
    · rw [map_outline_documentedCalls]
      exact congrArg (List.map outline) hcalls.symm
    · rw [List.take_length, documentedCalls_eq_zipWith hlen]
      exact isSome_props?_zipWith documented h.props
  unfold finished
  cases module.hasRuntimeImport package with
  | true => exact hwritten
  | false => exact hwritten.import

/-- What a transform leaves when it succeeds has the runtime import. -/
theorem hasRuntimeImport_finished (filename : String) (file : StoriesContent)
    (h : module.Located package content before declaration after object) :
    (finished filename file package content module object).module.hasRuntimeImport package =
      true := by
  have hadded := Module.hasRuntimeImport_addRuntimeImport
    (written file content file.stories.length module) package
  have hwritten := hasRuntimeImport_written file file.stories.length h
  unfold finished
  unfold Module.addRuntimeImport at hadded
  rw [hwritten] at hadded
  -- the import was there, or it was put on top
  cases hm : module.hasRuntimeImport package with
  | true => exact hwritten.trans hm
  | false =>
    rw [hm] at hadded
    exact hadded

/-- A transform of a settled module with the runtime import documents the story calls, if nothing
    stands in the way of the stories, and does nothing else. -/
theorem Settled.transform_eq (h : Settled file package component module)
    (himport : module.hasRuntimeImport package = true)
    (hfree : Free file.stories (storyCallsAmong component module.statements)) :
    transform filename file package module =
      { module := { module with
          statements := replaceCallsAmong component module.statements
            (List.zipWith documentedCall file.stories
              (storyCallsAmong component module.statements)) }
        warnings := ((if file.metaDescription.isSome then [Subject.component] else []) ++
          (List.zipWith ignoredInCall file.stories
            (storyCallsAmong component module.statements)).flatten).map
              (·.explicitDescription filename)
        outcome := .ok false } := by
  obtain ⟨content, before, declaration, after, object, hlocated, rfl, hmeta⟩ := h
  have hlen : file.stories.length = (callsIn content module).length := hfree.length_eq
  -- the component has its description, so there is nothing to be written
  have hmetaFree : obstacle? (neededPath file.metaDescription []) object = none := by
    unfold neededPath
    split
    · rename_i hdescription
      exact obstacle?_of_isDescribed .component (hmeta hdescription)
    · rfl
  have hkept : (describedModule file.metaDescription content module).statements =
      module.statements := by
    rw [statements_describedModule _ hlocated, described_of_isDescribed hmeta,
      withMetaObject_of_metaObject? hlocated.metaObject, hlocated.statements]
  rw [transform_eq_finished hlocated hmetaFree hfree, finished, himport]
  simp only [written, hkept, List.take_length, documentedCalls_eq_zipWith hlen, ignoredUpTo,
    ignoredInCalls_eq_flatten hlen, Bool.not_true, Bool.false_eq_true, ↓reduceIte, List.nil_append]
  congr 3
  unfold ignoredIn
  cases hdescription : file.metaDescription.isSome with
  | false => rfl
  | true => simp [hmeta hdescription]

/-! ## Copies of the raw code -/

/-- A story call with further copies of the raw code of its story. -/
def copiedCall (n : Nat) (story : Story) : Node → Node :=
  mapProps (withCopies story n)

/-- The subjects whose comments are ignored when a transform is run again. -/
def ignoredAgain (file : StoriesContent) : List Subject :=
  (if file.metaDescription.isSome then [.component] else []) ++
    (file.stories.filter (·.comment.isSome)).map subjectOf

/-- A free call has props that are free. -/
theorem storyObstacle?_of_callObstacle? (h : callObstacle? story call = none)
    (properties : Properties) (hprops : call.props? = some properties) :
    storyObstacle? story properties = none := by
  rwa [callObstacle?, hprops, Option.bind_some] at h

theorem copiedCall_zero (h : callObstacle? story call = none) :
    copiedCall 0 story (documentedCall story call) = documentedCall story call := by
  rw [copiedCall, documentedCall, mapProps_mapProps]
  refine mapProps_congr fun properties hprops => ?_
  exact withCopies_zero (storyObstacle?_of_callObstacle? h properties hprops)

/-- Documenting a call again adds a copy. -/
theorem documentedCall_copiedCall (n : Nat) (h : callObstacle? story call = none) :
    documentedCall story (copiedCall n story (documentedCall story call)) =
      copiedCall (n + 1) story (documentedCall story call) := by
  rw [copiedCall, copiedCall, documentedCall, mapProps_mapProps, mapProps_mapProps,
    mapProps_mapProps]
  refine mapProps_congr fun properties hprops => ?_
  exact (documented_withCopies n (storyObstacle?_of_callObstacle? h properties hprops)).1

/-- A call with copies is as free as it was. -/
theorem callObstacle?_copiedCall (n : Nat) (h : callObstacle? story call = none) :
    callObstacle? story (copiedCall n story (documentedCall story call)) = none := by
  rw [callObstacle?, copiedCall, documentedCall, mapProps_mapProps, props?_mapProps]
  cases hprops : call.props? with
  | none => rfl
  | some properties =>
    exact storyObstacle?_withCopies n (storyObstacle?_of_callObstacle? h properties hprops)

/-- The comment of a call with copies is ignored. -/
theorem ignoredInCall_copiedCall (n : Nat) (h : callObstacle? story call = none)
    (hprops : call.props?.isSome = true) :
    ignoredInCall story (copiedCall n story (documentedCall story call)) =
      if story.comment.isSome then [subjectOf story] else [] := by
  obtain ⟨properties, hprops⟩ := Option.isSome_iff_exists.mp hprops
  rw [ignoredInCall, copiedCall, documentedCall, mapProps_mapProps, props?_mapProps, hprops]
  exact (documented_withCopies n (storyObstacle?_of_callObstacle? h properties hprops)).2

/-- What is said of one call, said of all calls of a run. -/
theorem zipWith_copiedCall (n : Nat) (hfree : Free stories calls)
    (hprops : ∀ call ∈ calls, call.props?.isSome = true) :
    Free stories (List.zipWith (copiedCall n) stories (List.zipWith documentedCall stories calls)) ∧
      List.zipWith documentedCall stories
          (List.zipWith (copiedCall n) stories (List.zipWith documentedCall stories calls)) =
        List.zipWith (copiedCall (n + 1)) stories (List.zipWith documentedCall stories calls) ∧
      (List.zipWith ignoredInCall stories
          (List.zipWith (copiedCall n) stories
            (List.zipWith documentedCall stories calls))).flatten =
        (stories.filter (·.comment.isSome)).map subjectOf := by
  induction hfree with
  | nil => exact ⟨List.Forall₂.nil, rfl, rfl⟩
  | cons hcall _ ih =>
    rw [List.forall_mem_cons] at hprops
    obtain ⟨hfree, hdocumented, hignored⟩ := ih hprops.2
    -- the first call as shown for one call, the others by induction
    refine ⟨List.Forall₂.cons (callObstacle?_copiedCall n hcall) hfree, ?_, ?_⟩
    · simp only [List.zipWith_cons_cons, documentedCall_copiedCall n hcall, hdocumented]
    · rw [List.zipWith_cons_cons, List.zipWith_cons_cons, List.zipWith_cons_cons, List.flatten_cons,
        ignoredInCall_copiedCall n hcall hprops.1, hignored, List.filter_cons]
      split <;> rfl

/-- Without further copies, the documented calls stay as they are. -/
theorem zipWith_copiedCall_zero (hfree : Free stories calls) :
    List.zipWith (copiedCall 0) stories (List.zipWith documentedCall stories calls) =
      List.zipWith documentedCall stories calls := by
  induction hfree with
  | nil => rfl
  | cons hcall _ ih =>
    rw [List.zipWith_cons_cons, List.zipWith_cons_cons, copiedCall_zero hcall, ih]

/-- Copies of raw code keep the outlines of the calls. -/
theorem map_outline_zipWith_copiedCall (n : Nat) (h : stories.length = calls.length) :
    (List.zipWith (copiedCall n) stories calls).map outline = calls.map outline := by
  induction stories generalizing calls with
  | nil =>
    obtain rfl : calls = [] := List.length_eq_zero_iff.mp h.symm
    rfl
  | cons story stories ih =>
    obtain ⟨call, calls, rfl⟩ := List.exists_cons_of_length_eq_add_one h.symm
    rw [List.zipWith_cons_cons, List.map_cons, List.map_cons, copiedCall, outline_mapProps,
      ih (by simpa using h)]

/-- A call that was documented has parameters. -/
theorem exists_parameters_of_mem (hfree : Free stories calls)
    (hprops : ∀ call ∈ calls, call.props?.isSome = true) :
    ∀ call ∈ List.zipWith documentedCall stories calls, ∃ properties parameters,
      call.props? = some properties ∧
        properties.at? Properties.parametersPath = .ok (some parameters) := by
  induction hfree with
  | nil => exact fun _ hmem => nomatch hmem
  | cons hcall _ ih =>
    rw [List.forall_mem_cons] at hprops
    rw [List.zipWith_cons_cons, List.forall_mem_cons]
    refine ⟨?_, ih hprops.2⟩
    -- the call had props and nothing stood in the way of its parameters
    obtain ⟨properties, hproperties⟩ := Option.isSome_iff_exists.mp hprops.1
    obtain ⟨parameters, hparameters⟩ :=
      at?_documented (storyObstacle?_of_callObstacle? hcall properties hproperties)
    refine ⟨_, parameters, ?_, hparameters⟩
    rw [documentedCall, props?_mapProps, hproperties, Option.map_some]

/-! ## Many transforms -/

/-- The module that a transform leaves. -/
def transformed (filename : String) (file : StoriesContent) (package : String) (module : Module) :
    Module :=
  (transform filename file package module).module

/-- A module with further copies of the raw code of every story. -/
def copied (file : StoriesContent) (content : CompiledContent) (n : Nat)
    (module : Module) : Module :=
  { module with
    statements := replaceCallsAmong content.component module.statements
      (List.zipWith (copiedCall n) file.stories (callsIn content module)) }

/-- A transform of a module with copies adds one to every story. -/
theorem transform_copied (filename : String) {others : List Node} (n : Nat)
    (hsettled : Settled file package content.component module)
    (himport : module.hasRuntimeImport package = true)
    (hcalls : callsIn content module = List.zipWith documentedCall file.stories others)
    (hfree : Free file.stories others) (hprops : ∀ call ∈ others, call.props?.isSome = true) :
    transform filename file package (copied file content n module) =
      ⟨copied file content (n + 1) module,
        (ignoredAgain file).map (·.explicitDescription filename), .ok false⟩ := by
  have hlen : file.stories.length = (callsIn content module).length := by
    rw [hcalls, List.length_zipWith, hfree.length_eq, Nat.min_self]
  have houtlines := map_outline_zipWith_copiedCall n hlen
  obtain ⟨hfreeAgain, hdocumented, hignored⟩ := zipWith_copiedCall n hfree hprops
  rw [← hcalls] at hfreeAgain hdocumented hignored
  have hpropsAgain : ∀ call ∈ List.zipWith (copiedCall n) file.stories (callsIn content module),
      call.props?.isSome = true := by
    rw [hcalls]
    exact isSome_props?_zipWith (withCopies · n) (isSome_props?_zipWith documented hprops)
  -- the copies are in the story calls of a module that is settled as before
  have hsettledAgain : Settled file package content.component (copied file content n module) :=
    hsettled.replaceCalls houtlines hpropsAgain
  have himportAgain : (copied file content n module).hasRuntimeImport package = true := by
    rw [← himport]
    exact Module.hasRuntimeImport_congr package (map_outline_replaceCallsAmong houtlines)
  -- what was put in the places of the calls is read and documented there
  have hread : storyCallsAmong content.component (copied file content n module).statements =
      List.zipWith (copiedCall n) file.stories (callsIn content module) :=
    storyCallsAmong_replaceCallsAmong houtlines
  rw [hsettledAgain.transform_eq himportAgain (by rwa [hread]), hread, hdocumented, hignored]
  simp only [copied]
  rw [replaceCallsAmong_replaceCallsAmong houtlines (by simp)]
  rfl

/-- After a transform that succeeds, every further one adds a copy of the raw code to every story,
    ignores all comments, and does nothing else. -/
theorem iterate_transformed {added : Bool}
    (h : (transform filename file package module).outcome = .ok added) :
    ∃ content, module.compiledContent filename package = .ok content ∧
      (callsIn content (transformed filename file package module)).length = file.stories.length ∧
      (∀ call ∈ callsIn content (transformed filename file package module), ∃ properties parameters,
        call.props? = some properties ∧
          properties.at? Properties.parametersPath = .ok (some parameters)) ∧
      ∀ n, (transformed filename file package)^[n + 1] module =
          copied file content n (transformed filename file package module) ∧
        (transform filename file package
          ((transformed filename file package)^[n + 1] module)).outcome = .ok false ∧
        (transform filename file package
          ((transformed filename file package)^[n + 1] module)).warnings =
            (ignoredAgain file).map (·.explicitDescription filename) := by
  obtain ⟨content, before, declaration, after, object, hlocated, hmeta, hfree, htransform, -⟩ :=
    located_of_outcome_eq_ok h
  have hlen : file.stories.length = (callsIn content module).length := hfree.length_eq
  have hfirst : transformed filename file package module =
      (finished filename file package content module object).module := congrArg
        (·.module) htransform
  -- the first transform leaves a module that needs no more
  have hsettled := settled_finished filename hlocated hlen hmeta
  have himport := hasRuntimeImport_finished filename file hlocated
  have hcalls := callsIn_finished filename file hlocated hlen
  rw [← hfirst] at hsettled himport hcalls
  have hagain (n : Nat) := transform_copied filename n hsettled himport hcalls hfree hlocated.props
  -- by induction each further transform is one of the module that the first one left, with copies
  have hiterate (n : Nat) : (transformed filename file package)^[n + 1] module =
      copied file content n (transformed filename file package module) := by
    induction n with
    | zero =>
      show transformed filename file package module = _
      rw [copied, hcalls, zipWith_copiedCall_zero hfree, ← hcalls, callsIn,
        replaceCallsAmong_storyCallsAmong]
    | succ n ih => rw [Function.iterate_succ_apply', ih, transformed, hagain]
  refine ⟨content, hlocated.compiledContent filename, ?_, ?_, ?_⟩
  · rw [hcalls, List.length_zipWith, hlen, Nat.min_self]
  · rw [hcalls]
    exact exists_parameters_of_mem hfree hlocated.props
  · intro n
    rw [hiterate, hagain]
    exact ⟨rfl, rfl, rfl⟩

end SvelteStories.Edit
