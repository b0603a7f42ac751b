import SvelteStories.Proofs.Agreement

/-!
# The two shapes of a story call are interchangeable

A production build calls the component of a story, and a development build calls what the validating
function makes of it.  To *recast* a plain call is to wrap its callee, as a development build does.
A transform does the same on a module and on the module in which some of its plain story calls are
recast: it succeeds on both of them or on none, and recasting the calls in what it leaves of the one
gives what it leaves of the other.

## Key results

- `interchange_recast`, `mapProps_recast`: a recast call in the place of a plain one
- `agreeOutside_recast`: a module in which calls are recast
- `transform_recast`: a transform of such a module
-/

namespace SvelteStories.Script

open Text Diagnostic

namespace Node

variable {component validator : String} {node : Node}

/-- What a development build calls instead of a component: the component, wrapped by the validating
    function of the object with the given name. -/
def wrapped (validator : String) (callee : Node) : Node :=
  made (.call false)
    [made (.member false) [made (.reference validator) [], made (.name validatingFunction) []],
      callee]

/-- A plain story call in the shape of a development build.  Any other node is kept. -/
def recast (component validator : String) : Node → Node
  | mk (.call optional) span (callee :: arguments) =>
    mk (.call optional) span
      ((if callee.isReference component then callee.wrapped validator else callee) :: arguments)
  | node => node

/-- A plain story call is recast by wrapping its callee. -/
theorem recast_plain (validator : String) (optional : Bool) (span at_ : Span)
    (parts arguments : List Node) :
    (mk (.call optional) span (mk (.reference component) at_ parts :: arguments)).recast component
        validator =
      mk (.call optional) span
        ((mk (.reference component) at_ parts).wrapped validator :: arguments) := by
  simp [recast, isReference]

/-- What is no plain story call is kept. -/
theorem recast_eq_self (h : ¬ Renders component node .plain) :
    node.recast component validator = node := by
  obtain ⟨kind, span, parts⟩ := node
  cases kind <;> try rfl
  rename_i optional
  rcases parts with _ | ⟨callee, arguments⟩
  · rfl
  · -- only a call whose callee is the component is recast, and that is a plain one
    cases hcallee : callee.isReference component with
    | false => simp only [recast, hcallee, Bool.false_eq_true, ↓reduceIte]
    | true =>
      obtain ⟨at_, parts, rfl⟩ := isReference_iff.mp hcallee
      exact absurd (.plain optional span at_ parts arguments) h

/-- A recast call may be put in the place of the call. -/
theorem interchange_recast (validator : String) (h : node.isStoryCall component = true) :
    Interchange component node (node.recast component validator) := by
  by_cases hplain : Renders component node .plain
  · obtain ⟨optional, span, at_, parts, arguments⟩ := hplain
    have hwrapped : Renders component (mk (.call optional) span
        ((mk (.reference component) at_ parts).wrapped validator :: arguments)) .validated :=
      .validated optional false span _ at_ parts [] arguments (.member false _ _ _ [])
    rw [recast_plain]
    refine ⟨isStoryCall_of_renders hwrapped,
      sketch_eq_of_renders (.plain optional span at_ parts arguments) hwrapped rfl,
      fun hwraps => ?_⟩
    -- the new callee is a call, and no such function validates
    obtain ⟨-, function, argument, others, hparts, hfunction, -⟩ := wraps_mk.mp hwraps
    obtain rfl := (List.cons.inj hparts).1
    exact nomatch hfunction
  · rw [recast_eq_self hplain]
    exact .refl h

/-- Recasting keeps the props, which are not in the callee. -/
@[simp] theorem props?_recast (node : Node) :
    (node.recast component validator).props? = node.props? := by
  obtain ⟨kind, span, parts⟩ := node
  cases kind <;> try rfl
  rcases parts with _ | ⟨_, _ | ⟨_, _ | ⟨_, _⟩⟩⟩ <;> rfl

/-- A change of the props does not depend on the shape of a call. -/
theorem mapProps_recast (change : Properties → Properties) (node : Node) :
    (node.mapProps change).recast component validator =
      (node.recast component validator).mapProps change := by
  cases hprops : node.props? with
  | none => simp only [mapProps, props?_recast, hprops]
  | some properties =>
    obtain ⟨_, _, _, _, _, _, rfl | ⟨_, rfl⟩⟩ := exists_of_props?_eq_some hprops <;> rfl

/-! ## Calls without spans -/

/-- The call of a story call is its own call. -/
theorem call_call (h : node.isStoryCall component = true) : node.call.call = node.call := by
  obtain ⟨shape, hshape⟩ := Option.isSome_iff_exists.mp h
  rcases storyCallShape?_eq_some.mp hshape with hrenders | ⟨-, statement, inner, rfl, hrenders⟩
  · rw [hrenders.call_eq, hrenders.call_eq]
  · exact hrenders.call_eq

/-- A story call and its call have the same props. -/
theorem bareProps?_call (h : node.isStoryCall component = true) :
    node.call.bareProps? = node.bareProps? := by
  unfold bareProps? props?
  rw [call_call h]

/-- Story calls and their calls have the same props, one by one. -/
theorem map_bareProps?_map_call {calls : List Node}
    (h : ∀ call ∈ calls, call.isStoryCall component = true) :
    (calls.map call).map bareProps? = calls.map bareProps? := by
  rw [List.map_map]
  exact List.map_congr_left fun call hcall => bareProps?_call (h call hcall)

/-- Spans are erased once and for all. -/
theorem map_eraseSpans_map_eraseSpans (nodes : List Node) :
    (nodes.map eraseSpans).map eraseSpans = nodes.map eraseSpans := by
  induction nodes using forest_induction with
  | nil => rfl
  | cons kind span parts rest ihParts ihRest =>
    rw [List.map_cons, List.map_cons, ihRest, eraseSpans_mk, made, eraseSpans_mk, ihParts]
    rfl

/-- The props without spans do not depend on the spans of the call. -/
theorem bareProps?_eraseSpans (call : Node) : call.eraseSpans.bareProps? = call.bareProps? := by
  unfold bareProps?
  rw [props?_eraseSpans, Option.map_map]
  congr 1
  exact funext map_eraseSpans_map_eraseSpans

/-- The calls that render a story are found before or after spans are erased. -/
theorem map_eraseSpans_renderingCalls (nodes : List Node) :
    (renderingCalls component nodes).map eraseSpans =
      renderingCalls component (nodes.map eraseSpans) := by
  rw [renderingCalls, renderingCalls, storyCallsAmong_map_eraseSpans, List.map_map, List.map_map]
  exact List.map_congr_left fun call _ => (call_eraseSpans call).symm

/-- Sketches have no spans, so that it makes no difference to erase them before. -/
theorem map_sketch_map_eraseSpans (nodes : List Node) :
    (nodes.map eraseSpans).map (sketch component) = nodes.map (sketch component) := by
  induction nodes using forest_induction with
  | nil => rfl
  | cons kind span parts rest ihParts ihRest =>
    rw [List.map_cons, List.map_cons, List.map_cons, ihRest]
    congr 1
    have hrenders (shape : CallShape) :
        Renders component (mk kind span parts).eraseSpans shape ↔
          Renders component (mk kind span parts) shape :=
      renders_congr (outline_eraseSpans (mk kind span parts))
    by_cases h : ∃ shape, Renders component (mk kind span parts) shape
    · obtain ⟨shape, h⟩ := h
      exact sketch_eq_of_renders h ((hrenders shape).mpr h) rfl
    · have h' (shape : CallShape) := mt (hrenders shape).mp (not_exists.mp h shape)
      rw [eraseSpans_mk, made] at h' ⊢
      rw [sketch_of_not_renders h', sketch_of_not_renders (not_exists.mp h), ihParts]

/-! ## Some of the calls -/

/-- Calls of which the chosen ones are recast. -/
def recastCalls (component validator : String) (chosen : Nat → Bool) (calls : List Node) :
    List Node :=
  calls.mapIdx fun index call => if chosen index then call.recast component validator else call

theorem recastCalls_cons (chosen : Nat → Bool) (call : Node) (calls : List Node) :
    recastCalls component validator chosen (call :: calls) =
      (if chosen 0 then call.recast component validator else call) ::
        recastCalls component validator (fun index => chosen (index + 1)) calls :=
  List.mapIdx_cons

/-- Each call may be interchanged with what it is recast to. -/
theorem forall₂_interchange_recastCalls (validator : String) (chosen : Nat → Bool)
    {calls : List Node} (h : ∀ call ∈ calls, call.isStoryCall component = true) :
    List.Forall₂ (Interchange component) calls (recastCalls component validator chosen calls) := by
  induction calls generalizing chosen with
  | nil => exact .nil
  | cons call calls ih =>
    have hcall := h call List.mem_cons_self
    rw [recastCalls_cons]
    refine .cons ?_ (ih _ fun other hother => h other (List.mem_cons_of_mem call hother))
    split
    · exact interchange_recast validator hcall
    · exact .refl hcall

/-- What story calls may be interchanged with are story calls. -/
theorem isStoryCall_of_interchange {calls others : List Node}
    (h : List.Forall₂ (Interchange component) calls others) :
    ∀ other ∈ others, other.isStoryCall component = true := by
  induction h with
  | nil => exact List.forall_mem_nil _
  | cons hcall _ ih => exact List.forall_mem_cons.mpr ⟨hcall.isStoryCall, ih⟩

/-- Recasting keeps the props of all calls. -/
theorem map_bareProps?_recastCalls (chosen : Nat → Bool) (calls : List Node) :
    (recastCalls component validator chosen calls).map bareProps? = calls.map bareProps? := by
  induction calls generalizing chosen with
  | nil => rfl
  | cons call calls ih =>
    rw [recastCalls_cons, List.map_cons, List.map_cons, ih]
    split
    · rw [bareProps?, props?_recast, bareProps?]
    · rfl

/-- It does not matter whether calls are documented before or after they are recast. -/
theorem recastCalls_zipWith_documentedCall (chosen : Nat → Bool) (stories : List Story)
    (calls : List Node) :
    recastCalls component validator chosen (List.zipWith Edit.documentedCall stories calls) =
      List.zipWith Edit.documentedCall stories (recastCalls component validator chosen calls) := by
  induction stories generalizing chosen calls with
  | nil => rfl
  | cons story stories ih =>
    cases calls with
    | nil => rfl
    | cons call calls =>
      rw [List.zipWith_cons_cons, recastCalls_cons, recastCalls_cons, List.zipWith_cons_cons, ih]
      -- documenting changes the props, recasting the callee
      split
      · rw [Edit.documentedCall, mapProps_recast]
      · rfl

/-- Calls are documented in statements and without spans as well. -/
theorem bare_zipWith_documentedCall (stories : List Story) {calls : List Node}
    (h : ∀ call ∈ calls, call.props?.isSome = true) :
    ((List.zipWith Edit.documentedCall stories calls).map call).map eraseSpans =
      List.zipWith Edit.documentedCall stories ((calls.map call).map eraseSpans) := by
  induction stories generalizing calls with
  | nil => rfl
  | cons story stories ih =>
    cases calls with
    | nil => rfl
    | cons call calls =>
      -- the props of a statement are those of the call in it
      have hcall : (Edit.documentedCall story call).call = Edit.documentedCall story call.call := by
        obtain ⟨properties, hprops⟩ := Option.isSome_iff_exists.mp (h call List.mem_cons_self)
        obtain ⟨_, _, _, _, _, _, rfl | ⟨_, rfl⟩⟩ := exists_of_props?_eq_some hprops <;> rfl
      rw [List.zipWith_cons_cons, List.map_cons, List.map_cons, List.map_cons, List.map_cons,
        List.zipWith_cons_cons, ih fun other hother => h other (List.mem_cons_of_mem call hother),
        hcall, Edit.documentedCall, eraseSpans_mapProps (Edit.ignoresSpans_documented story)]

end Node

namespace Module

/-- A module in which the chosen ones of its plain story calls are recast. -/
def recast (component validator : String) (chosen : Nat → Bool) (module : Module) : Module :=
  { module with
    statements := Node.replaceCallsAmong component module.statements
      (Node.recastCalls component validator chosen
        (Node.storyCallsAmong component module.statements)) }

variable {component validator : String} {chosen : Nat → Bool} {module other : Module}

/-- The story calls of a module may be interchanged with what they are recast to. -/
theorem forall₂_interchange_recast (component validator : String) (chosen : Nat → Bool)
    (module : Module) :
    let calls := Node.storyCallsAmong component module.statements
    List.Forall₂ (Node.Interchange component) calls
      (Node.recastCalls component validator chosen calls) :=
  Node.forall₂_interchange_recastCalls validator chosen fun _ => Node.isStoryCall_of_mem

/-- Recasting calls keeps the sketches. -/
theorem map_sketch_recast (component validator : String) (chosen : Nat → Bool) (module : Module) :
    (module.recast component validator chosen).statements.map (Node.sketch component) =
      module.statements.map (Node.sketch component) :=
  Node.map_sketch_replaceCallsAmong (module.forall₂_interchange_recast component validator chosen)

/-- The story calls of a recast module. -/
theorem renderingCalls_recast (component validator : String) (chosen : Nat → Bool)
    (module : Module) :
    Node.renderingCalls component (module.recast component validator chosen).statements =
      (Node.recastCalls component validator chosen
        (Node.storyCallsAmong component module.statements)).map Node.call :=
  Node.renderingCalls_replaceCallsAmong
    (module.forall₂_interchange_recast component validator chosen)

/-- The story calls of a module with the tree of a recast one. -/
theorem map_eraseSpans_renderingCalls_of_recast
    (h : Edit.SameTree (module.recast component validator chosen) other) :
    (Node.renderingCalls component other.statements).map Node.eraseSpans =
      ((Node.recastCalls component validator chosen
        (Node.storyCallsAmong component module.statements)).map Node.call).map Node.eraseSpans := by
  rw [Node.map_eraseSpans_renderingCalls, ← h.statements, ← Node.map_eraseSpans_renderingCalls,
    renderingCalls_recast]

/-- Recasting calls changes nothing outside of the story calls, and no props. -/
theorem agreeOutside_recast (h : Edit.SameTree (module.recast component validator chosen) other) :
    AgreeOutside component module other where
  hashbang := h.hashbang.symm
  directives := h.directives.symm
  sketch := by
    rw [← Node.map_sketch_map_eraseSpans, ← h.statements, Node.map_sketch_map_eraseSpans,
      map_sketch_recast]
  -- the calls that are read are the recast ones, with the props of the others
  props := by
    have hbare (calls : List Node) :
        (calls.map Node.eraseSpans).map Node.bareProps? = calls.map Node.bareProps? := by
      rw [List.map_map]
      exact List.map_congr_left fun call _ => Node.bareProps?_eraseSpans call
    have hcalls := congrArg (List.map Node.bareProps?) (map_eraseSpans_renderingCalls_of_recast h)
    rw [hbare, hbare, Node.renderingCalls,
      Node.map_bareProps?_map_call fun _ => Node.isStoryCall_of_mem,
      Node.map_bareProps?_map_call
        (Node.isStoryCall_of_interchange
          (module.forall₂_interchange_recast component validator chosen)),
      Node.map_bareProps?_recastCalls] at hcalls
    exact hcalls

end Module

end SvelteStories.Script

namespace SvelteStories.Edit

open Diagnostic Script Node

variable {filename : String} {file : StoriesContent} {package component validator : String}
  {chosen : Nat → Bool} {module other : Module} {content content' : CompiledContent}
  {before after before' after' : List Node} {declaration declaration' : Node}
  {object object' : Properties}

/-- What is left of two modules that agree has the same sketches. -/
theorem map_sketch_finished_congr (h : AgreeOutside component module other)
    (hbound : component ≠ content.metaBinding)
    (hlocated : module.Located package content before declaration after object)
    (hlocated' : other.Located package content' before' declaration' after' object')
    (hmeta : content'.metaBinding = content.metaBinding)
    (hindex : content'.metaIndex = content.metaIndex) (hcomponent : content.component = component)
    (hcomponent' : content'.component = component) :
    (finished filename file package content' other object').module.statements.map
      (sketch component) =
      (finished filename file package content module object).module.statements.map
        (sketch component) := by
  obtain ⟨hbefore, hdeclaration, hafter, hobject⟩ :=
    h.located hbound hlocated hlocated' hmeta hindex
  -- the sketches come from the parts around the calls, which agree
  rw [AgreeOutside.map_sketch_finished hcomponent' hlocated',
    AgreeOutside.map_sketch_finished hcomponent hlocated, h.hasRuntimeImport package,
    AgreeOutside.map_sketch_describedModule _ (hmeta ▸ hbound) hlocated',
    AgreeOutside.map_sketch_describedModule _ hbound hlocated, hbefore, hdeclaration,
    hafter, hobject]

/-- The comments that are ignored are the same for two modules that agree. -/
theorem ignoredUpTo_congr (h : AgreeOutside component module other)
    (hobject : object'.map (sketch component) = object.map (sketch component))
    (hcomponent : content.component = component) (hcomponent' : content'.component = component)
    (hlen : file.stories.length = (callsIn content module).length) :
    ignoredUpTo file content' file.stories.length other object' =
      ignoredUpTo file content file.stories.length module object := by
  have hobjects := (rebuildsObjects_sketch component).keepsObjects
  have hcalls := ignoredInCalls_congr (h.map_bareProps?_callsIn hcomponent hcomponent') hlen
  rw [ignoredUpTo, ignoredUpTo, List.take_length, hcalls, ignoredIn, ignoredIn,
    ← hobjects.isDescribed_map, hobject, hobjects.isDescribed_map]

/-- The story calls that a transform leaves of a recast module are those that it leaves of the
    module, recast. -/
theorem map_eraseSpans_renderingCalls_finished (filename : String)
    (h : SameTree (module.recast component validator chosen) other)
    (hlocated : module.Located package content before declaration after object)
    (hlocated' : other.Located package content' before' declaration' after' object')
    (hcomponent : content.component = component) (hcomponent' : content'.component = component)
    (hlen : file.stories.length = (callsIn content module).length) :
    (renderingCalls component
      ((finished filename file package content module object).module.recast component
        validator chosen).statements).map eraseSpans =
      (renderingCalls component
        (finished filename file package content' other object').module.statements).map
          eraseSpans := by
  subst hcomponent
  have hprops : ∀ call ∈ recastCalls content.component validator chosen (callsIn content module),
      call.props?.isSome = true :=
    (isSome_props?_congr (map_bareProps?_recastCalls chosen _)).mpr hlocated.props
  -- the other module has as many calls
  have hlen' : file.stories.length = (callsIn content' other).length := by
    have hsame := congrArg List.length
      ((Module.agreeOutside_recast h).map_bareProps?_callsIn rfl hcomponent')
    rw [List.length_map, List.length_map] at hsame
    exact hlen.trans hsame.symm
  have hfinished := callsIn_finished filename file hlocated hlen
  have hfinished' := callsIn_finished filename file hlocated' hlen'
  -- the calls may be recast before they are documented, and then they are those of the other module
  calc (renderingCalls content.component
        ((finished filename file package content module object).module.recast
          content.component validator chosen).statements).map eraseSpans
    _ = ((recastCalls content.component validator chosen
          (callsIn content (finished filename file package content module object).module)).map
            call).map eraseSpans := by
      rw [Module.renderingCalls_recast, callsIn]
    _ = List.zipWith documentedCall file.stories (((recastCalls content.component validator chosen
          (callsIn content module)).map call).map eraseSpans) := by
      rw [hfinished, recastCalls_zipWith_documentedCall, bare_zipWith_documentedCall _ hprops]
    _ = List.zipWith documentedCall file.stories (((callsIn content' other).map call).map
          eraseSpans) := by
      rw [callsIn, callsIn, hcomponent', ← Module.map_eraseSpans_renderingCalls_of_recast h,
        renderingCalls]
    _ = ((callsIn content' (finished filename file package content' other object').module).map
          call).map eraseSpans := by
      rw [hfinished', callsIn, bare_zipWith_documentedCall _ hlocated'.props]
    _ = _ := by rw [callsIn, hcomponent', renderingCalls]

/-- Recasting some of the plain story calls of a module recasts them in what a transform leaves of
    it, and changes nothing else: the transform succeeds with the same answer and gives the same
    warnings, or both modules are refused with the same code and wording. -/
theorem transform_recast (filename : String) (file : StoriesContent)
    (hbinds : BindsStory package component module)
    (h : SameTree (module.recast component validator chosen) other) :
    (∃ added, (transform filename file package module).outcome = .ok added ∧
        (transform filename file package other).outcome = .ok added ∧
        (transform filename file package other).warnings =
          (transform filename file package module).warnings ∧
        SameTree ((transform filename file package module).module.recast component validator chosen)
          (transform filename file package other).module) ∨
      ∃ report report', (transform filename file package module).outcome = .error report ∧
        (transform filename file package other).outcome = .error report' ∧
        report'.code = report.code ∧ report'.message = report.message := by
  have hagree := Module.agreeOutside_recast h
  -- modules that agree outside of the calls are refused alike or finished alike
  rcases hagree.transform_cases filename file hbinds with hrefused | ⟨content, content',
    before, declaration, after, before', declaration', after', object, object', hlocated,
    hlocated', hmeta, hindex, hcomponent, hcomponent', hlen, htransform, htransform'⟩
  · exact .inr hrefused
  · have hbound := hbinds.imported _ hlocated.imported
    obtain ⟨-, -, -, hobject⟩ := hagree.located hbound hlocated hlocated' hmeta hindex
    rw [htransform, htransform']
    refine .inl ⟨!module.hasRuntimeImport package, rfl, ?_,
      congrArg (List.map (Subject.explicitDescription · filename))
        (ignoredUpTo_congr hagree hobject hcomponent hcomponent' hlen),
      ⟨hagree.hashbang.symm, hagree.directives.symm, ?_⟩⟩
    · rw [finished, hagree.hasRuntimeImport package]
    · -- the module that is left is told by its sketches and its story calls
      refine map_eraseSpans_of_sketch ?_
        (map_eraseSpans_renderingCalls_finished filename h hlocated hlocated' hcomponent
          hcomponent' hlen)
      rw [Module.map_sketch_recast,
        map_sketch_finished_congr hagree hbound hlocated hlocated' hmeta hindex
          hcomponent hcomponent']

/-- The first of two plain story calls is recast, and both are documented. -/
theorem transform_recast_sampleModule :
    BindsStory defaultPackage storyComponent (sampleModule [] [[], []]) ∧
    ¬ SameTree ((sampleModule [] [[], []]).recast storyComponent "$" (· == 0))
      (sampleModule [] [[], []]) ∧
    (transform sampleFilename sampleFile defaultPackage
      ((sampleModule [] [[], []]).recast storyComponent "$" (· == 0))).outcome = .ok true ∧
    SameTree
      ((transform sampleFilename sampleFile defaultPackage (sampleModule [] [[], []])).module.recast
        storyComponent "$" (· == 0))
      (transform sampleFilename sampleFile defaultPackage
        ((sampleModule [] [[], []]).recast storyComponent "$" (· == 0))).module := by
  have hbinds : BindsStory defaultPackage storyComponent (sampleModule [] [[], []]) := by
    -- the module has one declaration, and it binds the component
    have hbinding : ∀ statement ∈ (sampleModule [] [[], []]).statements,
        statement.declaresMeta metaFunction = true →
          statement.storyBinding? = some storyComponent := by decide
    refine ⟨by decide, fun bound hbound => ?_,
      fun bound hbound statement hmem hdeclares name hname => ?_⟩
    · obtain rfl : metaFunction = bound := Option.some.inj hbound
      decide
    · obtain rfl : metaFunction = bound := Option.some.inj hbound
      exact Option.some.inj (hname.symm.trans (hbinding statement hmem hdeclares))
  have hok :
    (transform sampleFilename sampleFile defaultPackage (sampleModule [] [[], []])).outcome =
      .ok true := rfl
  refine ⟨hbinds, by decide, ?_⟩
  rcases transform_recast sampleFilename sampleFile hbinds (SameTree.refl _) with
    ⟨added, hadded, hother, -, htree⟩ | ⟨report, _, hreport, -⟩
  · obtain rfl : true = added := Except.ok.inj (hok.symm.trans hadded)
    exact ⟨hother, htree⟩
  · exact nomatch hok.symm.trans hreport

end SvelteStories.Edit
