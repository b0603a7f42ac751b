import SvelteStories.Proofs.Sketch

/-!
# Modules that agree outside of their story calls

A transform looks up the meta declaration outside of the story calls, and in the story calls it
looks at the props only.  So it does the same on two modules with the same sketches and the same
props, whatever the shapes of the story calls are: it finds the same, is refused for the same
reason, and leaves modules with the same sketches again.

## Key results

- `declaresMeta_sketch`, `metaObject?_sketch`: the meta declaration in a sketch
- `AgreeOutside.correlated`: what is found in the two modules
- `AgreeOutside.transform_cases`: what a transform of the two modules comes to
-/

namespace SvelteStories.Script

open Text Diagnostic

/-- Outcomes that agree: both are good and related, or both are reports with the same code and
    wording. -/
inductive Agree {α β : Type} (R : α → β → Prop) : Except Report α → Except Report β → Prop
  | ok {a : α} {b : β} (h : R a b) : Agree R (.ok a) (.ok b)
  | error {report other : Report} (hcode : other.code = report.code)
    (hmessage : other.message = report.message) : Agree R (.error report) (.error other)

/-- First steps that agree, followed by steps that agree on what the first ones found, agree as a
    whole. -/
theorem Agree.bind {α β γ δ : Type} {R : α → β → Prop} {S : γ → δ → Prop} {first : Except Report α}
    {second : Except Report β} {next : α → Except Report γ} {next' : β → Except Report δ}
    (h : Agree R first second) (hnext : ∀ a b, first = .ok a → R a b → Agree S (next a) (next' b)) :
    Agree S (first >>= next) (second >>= next') := by
  cases h with
  | ok h => exact hnext _ _ rfl h
  | error hcode hmessage => exact .error hcode hmessage

namespace Node

variable {component bound : String} {span : Span} {node : Node}

/-! ## The meta declaration in a sketch -/

/-- The callee of a call that renders a story is no other variable than the component. -/
theorem not_isReference_of_renders {optional : Bool} {callee : Node} {arguments : List Node}
    {shape : CallShape} {name : String}
    (h : Renders component (mk (.call optional) span (callee :: arguments)) shape)
    (hname : component ≠ name) : callee.isReference name = false := by
  cases h with
  | plain => exact beq_false_of_ne hname
  | validated => rfl

/-- A statement and its sketch declare the metadata alike, as a call that renders a story is no meta
    call. -/
theorem declaresMeta_sketch (hexported : component ≠ metaFunction) (hbound : component ≠ bound)
    (statement : Node) :
    (statement.sketch component).declaresMeta bound = statement.declaresMeta bound := by
  unfold declaresMeta
  rw [(keepsNames_sketch component).firstDeclarator?_map]
  rcases statement.firstDeclarator? with _ | ⟨pattern, ⟨kind, span, parts⟩⟩
  · rfl
  rw [Option.map_some]
  by_cases h : ∃ shape, Renders component (mk kind span parts) shape
  · -- the value renders a story: neither the call nor the bare one declares metadata
    obtain ⟨shape, h⟩ := h
    simp only [sketch_of_renders h]
    obtain ⟨optional, hkind⟩ := h.exists_kind
    obtain rfl : kind = .call optional := hkind
    rcases parts with _ | ⟨callee, arguments⟩
    · exact nomatch h
    · show (component == bound || component == metaFunction) =
        (callee.isReference bound || callee.isReference metaFunction)
      rw [not_isReference_of_renders h hbound, not_isReference_of_renders h hexported,
        beq_false_of_ne hbound, beq_false_of_ne hexported]
  · -- the value is sketched part by part, and its callee keeps its name
    simp only [sketch_of_not_renders (not_exists.mp h)]
    cases kind <;> try rfl
    rcases parts with _ | ⟨callee, arguments⟩
    · rfl
    · show ((callee.sketch component).isReference bound ||
        (callee.sketch component).isReference metaFunction) = _
      rw [(keepsNames_sketch component).isReference_map,
        (keepsNames_sketch component).isReference_map]

/-- The meta object of a sketch is the meta object, sketched. -/
theorem metaObject?_sketch (hbound : component ≠ bound) (declaration : Node) :
    (declaration.sketch component).metaObject? bound =
      (declaration.metaObject? bound).map (List.map (sketch component)) := by
  unfold metaObject?
  rw [(keepsNames_sketch component).firstDeclarator?_map]
  rcases declaration.firstDeclarator? with _ | ⟨pattern, ⟨kind, span, parts⟩⟩
  · rfl
  rw [Option.map_some]
  by_cases h : ∃ shape, Renders component (mk kind span parts) shape
  · -- a call that renders a story has no meta object, and neither has its sketch
    obtain ⟨shape, h⟩ := h
    simp only [sketch_of_renders h]
    obtain ⟨optional, hkind⟩ := h.exists_kind
    obtain rfl : kind = .call optional := hkind
    rcases parts with _ | ⟨callee, _ | ⟨argument, _ | ⟨_, _⟩⟩⟩ <;> try rfl
    show none = Option.map _ (if callee.isReference bound then argument.properties? else none)
    rw [not_isReference_of_renders h hbound]
    rfl
  · -- the sketch of any other call has the sketch of its argument as the meta object
    simp only [sketch_of_not_renders (not_exists.mp h)]
    cases kind <;> try rfl
    rcases parts with _ | ⟨callee, _ | ⟨argument, _ | ⟨_, _⟩⟩⟩ <;> try rfl
    show (if (callee.sketch component).isReference bound then
        (argument.sketch component).properties? else none) =
      Option.map _ (if callee.isReference bound then argument.properties? else none)
    rw [(keepsNames_sketch component).isReference_map,
      (rebuildsObjects_sketch component).keepsObjects.properties?_map]
    split <;> rfl

/-- The sketch of a meta declaration with another meta object. -/
theorem sketch_withMetaObject {declaration : Node} {object : Properties}
    (h : declaration.metaObject? bound = some object) (hbound : component ≠ bound)
    (other : Properties) :
    (declaration.withMetaObject other).sketch component =
      (declaration.sketch component).withMetaObject (other.map (sketch component)) := by
  obtain ⟨word, span, inner, pattern, optional, at_, callee, at', others, rfl, hcallee⟩ :=
    exists_of_metaObject?_eq_some h
  -- the call of `defineMeta` renders no story
  have hcall (properties : Properties) (shape : CallShape) :
      ¬ Renders component (mk (.call optional) at_ [callee, mk .object at' properties]) shape :=
    fun hrenders => by
      rw [not_isReference_of_renders hrenders hbound] at hcallee
      exact nomatch hcallee
  have hobject := (rebuildsObjects_sketch component).object
  rw [withMetaObject, sketch_of_not_renders (not_renders_of_kind (by simp)),
    sketch_of_not_renders (not_renders_of_kind (by simp)), List.map_cons, List.map_cons,
    sketch_of_not_renders (not_renders_of_kind (by simp)),
    sketch_of_not_renders (not_renders_of_kind (by simp))]
  simp only [List.map_cons, List.map_nil, sketch_of_not_renders (hcall _), hobject, made,
    withMetaObject]

/-! ## Props without spans -/

/-- The props of a story call without spans. -/
def bareProps? (call : Node) : Option Properties :=
  call.props?.map (List.map eraseSpans)

/-- A call has props with and without spans. -/
theorem isSome_bareProps? (call : Node) : call.bareProps?.isSome = call.props?.isSome :=
  Option.isSome_map

/-- Calls with the same props up to spans have props alike. -/
theorem isSome_props?_congr {calls others : List Node}
    (h : others.map bareProps? = calls.map bareProps?) :
    (∀ call ∈ others, call.props?.isSome = true) ↔ ∀ call ∈ calls, call.props?.isSome = true := by
  have hbare (calls : List Node) : (∀ call ∈ calls, call.props?.isSome = true) ↔
      ∀ props ∈ calls.map bareProps?, props.isSome = true := by
    simp only [List.forall_mem_map, isSome_bareProps?]
  rw [hbare, hbare, h]

/-- What stands in the way of documenting a call is seen in its props without spans. -/
theorem callObstacle?_eq (story : Story) (call : Node) :
    Edit.callObstacle? story call = call.bareProps?.bind (Edit.storyObstacle? story) := by
  unfold Edit.callObstacle? bareProps?
  cases call.props? with
  | none => rfl
  | some properties => exact (keepsObjects_eraseSpans.obstacle?_map _ properties).symm

/-- Which comments a call ignores is seen in its props without spans. -/
theorem ignoredInCall_eq (story : Story) (call : Node) :
    Edit.ignoredInCall story call =
      call.bareProps?.elim [] (Edit.ignoredIn story.comment (Edit.subjectOf story)) := by
  unfold Edit.ignoredInCall bareProps?
  cases call.props? with
  | none => rfl
  | some properties =>
    simp only [Option.map_some, Option.elim_some, Edit.ignoredIn,
      keepsObjects_eraseSpans.isDescribed_map]

end Node

/-- The name that a module binds the story component to is no name of `defineMeta`. -/
structure BindsStory (package component : String) (module : Module) : Prop where
  exported : component ≠ metaFunction
  imported : ∀ bound, module.metaImport? package = some bound → component ≠ bound
  binding : ∀ bound, module.metaImport? package = some bound →
    ∀ statement ∈ module.statements, statement.declaresMeta bound = true →
      ∀ name, statement.storyBinding? = some name → name = component

/-- Two modules with the same sketches and with the same props of their story calls. -/
structure AgreeOutside (component : String) (module other : Module) : Prop where
  hashbang : other.hashbang = module.hashbang
  directives : other.directives = module.directives
  sketch :
    other.statements.map (Node.sketch component) = module.statements.map (Node.sketch component)
  props : (Node.storyCallsAmong component other.statements).map Node.bareProps? =
    (Node.storyCallsAmong component module.statements).map Node.bareProps?

namespace AgreeOutside

variable {filename component package : String} {module other : Module}

/-! ## What is found -/

/-- Both modules import the function that declares metadata under the same name. -/
theorem metaImport? (h : AgreeOutside component module other) (package : String) :
    other.metaImport? package = module.metaImport? package :=
  Module.metaImport?_of_map (Node.keepsNames_sketch component) package h.sketch

/-- Both modules have the runtime import or neither has. -/
theorem hasRuntimeImport (h : AgreeOutside component module other) (package : String) :
    other.hasRuntimeImport package = module.hasRuntimeImport package :=
  Module.hasRuntimeImport_of_map (Node.keepsNames_sketch component) package h.sketch

/-- Both modules declare their metadata once and at the same place, or both are refused for the same
    reason. -/
theorem metaDeclaration {bound : String} (h : AgreeOutside component module other)
    (hexported : component ≠ metaFunction) (hbound : component ≠ bound) :
    Agree (fun found found' => found'.1 = found.1 ∧
        found'.2.sketch component = found.2.sketch component)
      (module.metaDeclaration filename bound) (other.metaDeclaration filename bound) := by
  -- the declarations are found among the sketches
  have hfilter (statements : List Node) :
      (statements.zipIdx.filter (·.1.declaresMeta bound)).map
        (Prod.map (Node.sketch component) id) =
        (statements.map (Node.sketch component)).zipIdx.filter (·.1.declaresMeta bound) := by
    rw [List.zipIdx_map, List.filter_map]
    simp only [Function.comp_def, Prod.map_fst, Node.declaresMeta_sketch hexported hbound]
  have hsame := hfilter other.statements
  rw [h.sketch, ← hfilter] at hsame
  unfold Module.metaDeclaration
  generalize module.statements.zipIdx.filter _ = found at hsame
  generalize other.statements.zipIdx.filter _ = found' at hsame
  -- none, one or several declarations were found in the first module, and as many in the other one
  rcases found with _ | ⟨⟨declaration, index⟩, _ | ⟨second, rest⟩⟩
  · obtain rfl := List.map_eq_nil_iff.mp hsame
    exact .error rfl rfl
  · obtain ⟨⟨declaration', index'⟩, rest', rfl, hhead, hrest⟩ := List.map_eq_cons_iff.mp hsame
    obtain rfl := List.map_eq_nil_iff.mp hrest
    exact .ok ⟨(Prod.mk.inj hhead).2, (Prod.mk.inj hhead).1⟩
  · obtain ⟨first', behind, rfl, -, hbehind⟩ := List.map_eq_cons_iff.mp hsame
    obtain ⟨second', rest', rfl, -, -⟩ := List.map_eq_cons_iff.mp hbehind
    exact .error rfl rfl

/-- Both declarations have a meta object or neither has. -/
theorem metaObject {bound : String} {declaration declaration' : Node} (hbound : component ≠ bound)
    (h : declaration'.sketch component = declaration.sketch component) :
    Agree (fun _ _ => True) (declaration.metaObject filename bound)
      (declaration'.metaObject filename bound) := by
  -- the meta objects have the same sketch, so that there are two or none
  have hobject := Node.metaObject?_sketch hbound declaration'
  rw [h, Node.metaObject?_sketch hbound] at hobject
  unfold Node.metaObject
  cases hread : declaration.metaObject? bound with
  | none =>
    rw [hread] at hobject
    rw [Option.map_eq_none_iff.mp hobject.symm]
    exact .error rfl rfl
  | some object =>
    rw [hread] at hobject
    obtain ⟨object', hread', -⟩ := Option.map_eq_some_iff.mp hobject.symm
    rw [hread']
    exact .ok trivial

/-- Both declarations bind the same story component. -/
theorem storyBinding {bound : String} {index : Nat} {declaration declaration' : Node}
    (hbinds : BindsStory package component module)
    (himport : module.metaImport? package = some bound)
    (hfound : module.metaDeclaration filename bound = .ok (index, declaration))
    (h : declaration'.sketch component = declaration.sketch component) :
    Agree (fun name name' => name = component ∧ name' = component)
      (declaration.storyBinding filename) (declaration'.storyBinding filename) := by
  -- the binding is found in the sketch, which the declarations have in common
  have hbinding : declaration'.storyBinding? = declaration.storyBinding? := by
    have hnames := Node.keepsNames_sketch component
    rw [← hnames.storyBinding?_map, h, hnames.storyBinding?_map]
  unfold Node.storyBinding
  rw [hbinding]
  cases hname : declaration.storyBinding? with
  | none => exact .error rfl rfl
  | some name =>
    obtain ⟨before, after, hstatements, -, hdeclares, -⟩ := Module.metaDeclaration_eq_ok.mp hfound
    -- the declaration is one of the module, so that its binding is the one that was assumed
    have hmem : declaration ∈ module.statements := by
      rw [hstatements]
      exact List.mem_append_right before List.mem_cons_self
    have hsame := hbinds.binding bound himport declaration hmem hdeclares name hname
    exact .ok ⟨hsame, hsame⟩

/-- As many story calls are found in both modules, or one without props in each. -/
theorem storyCalls (h : AgreeOutside component module other) :
    Agree (fun found found' => found'.length = found.length)
      (module.storyCalls filename component) (other.storyCalls filename component) := by
  cases hfound : module.storyCalls filename component with
  -- the same props are there, and as many
  | ok found =>
    have hother : other.storyCalls filename component = .ok _ := Module.storyCalls_eq_ok.mpr
      ⟨(Node.isSome_props?_congr h.props).mpr (Module.storyCalls_eq_ok.mp hfound).1, rfl⟩
    rw [hother]
    refine .ok ?_
    rw [Module.length_of_storyCalls hother, Module.length_of_storyCalls hfound]
    simpa using congrArg List.length h.props
  | error report =>
    cases hother : other.storyCalls filename component with
    | ok found' =>
      -- the module would have props everywhere as well
      have hmodule : module.storyCalls filename component = .ok _ := Module.storyCalls_eq_ok.mpr
        ⟨(Node.isSome_props?_congr h.props).mp (Module.storyCalls_eq_ok.mp hother).1, rfl⟩
      rw [hmodule] at hfound
      exact nomatch hfound
    | error report' =>
      obtain ⟨_, _, -, -, -, -, rfl⟩ := Module.storyCalls_eq_error hfound
      obtain ⟨_, _, -, -, -, -, rfl⟩ := Module.storyCalls_eq_error hother
      exact .error rfl rfl

/-- What is found in the one module is found in the other one. -/
theorem compiledContent (h : AgreeOutside component module other)
    (hbinds : BindsStory package component module) :
    Agree (fun content content' => content'.metaBinding = content.metaBinding ∧
        content.component = component ∧ content'.component = component ∧
        content'.metaIndex = content.metaIndex ∧ content'.calls.length = content.calls.length)
      (module.compiledContent filename package) (other.compiledContent filename package) := by
  unfold Module.compiledContent
  rw [h.metaImport? package]
  cases himport : module.metaImport? package with
  | none => exact .error rfl rfl
  | some bound =>
    -- each lookup agrees with its counterpart, and the next one starts from what both found
    refine (h.metaDeclaration hbinds.exported (hbinds.imported bound himport)).bind ?_
    rintro ⟨index, declaration⟩ ⟨index', declaration'⟩ hfound ⟨rfl, hdeclaration⟩
    refine (metaObject (hbinds.imported bound himport) hdeclaration).bind fun _ _ _ _ => ?_
    refine (storyBinding hbinds himport hfound hdeclaration).bind ?_
    rintro name name' - ⟨rfl, rfl⟩
    refine h.storyCalls.bind fun found found' _ hlen => ?_
    exact .ok ⟨rfl, rfl, rfl, rfl, hlen⟩

end AgreeOutside

end SvelteStories.Script

namespace SvelteStories.Edit

open Text Diagnostic Script Node

variable {file : StoriesContent} {package component : String} {module other : Module}
  {stories : List Story} {calls others : List Node}

/-! ## Story calls with the same props -/

/-- Obstacles depend on the props of the calls alone. -/
theorem free_congr (h : others.map bareProps? = calls.map bareProps?) :
    Free stories others ↔ Free stories calls := by
  have hbare (calls : List Node) : Free stories calls ↔
      List.Forall₂ (fun story props => Option.bind props (storyObstacle? story) = none) stories
        (calls.map bareProps?) := by
    rw [Free, List.forall₂_map_right_iff]
    simp only [callObstacle?_eq]
  rw [hbare, hbare, h]

/-- Which comments are ignored depends on the props of the calls alone. -/
theorem ignoredInCalls_congr (h : others.map bareProps? = calls.map bareProps?)
    (hlen : stories.length = calls.length) :
    ignoredInCalls stories others = ignoredInCalls stories calls := by
  have hlen' : stories.length = others.length := by
    rw [hlen]
    simpa using (congrArg List.length h).symm
  -- the calls enter through their props without spans
  have hbare (calls : List Node) : List.zipWith ignoredInCall stories calls =
      List.zipWith
        (fun story props => Option.elim props [] (ignoredIn story.comment (subjectOf story)))
        stories (calls.map bareProps?) := by
    rw [List.zipWith_map_right]
    exact congrArg (List.zipWith · stories calls) (funext₂ ignoredInCall_eq)
  rw [ignoredInCalls_eq_flatten hlen, ignoredInCalls_eq_flatten hlen', hbare, hbare, h]

/-- The first story that is refused is at or behind the end of the stories that are not. -/
theorem le_of_free_take {n k : Nat} {story : Story} {call : Node} {e : ShapeError}
    (hfree : Free (stories.take n) (calls.take n)) (hstory : stories[k]? = some story)
    (hcall : calls[k]? = some call) (he : callObstacle? story call = some e) : n ≤ k := by
  by_contra hlt
  have hstory' : (stories.take n)[k]? = some story := by
    rw [List.getElem?_take, if_pos (by omega), hstory]
  have hcall' : (calls.take n)[k]? = some call := by
    rw [List.getElem?_take, if_pos (by omega), hcall]
  rw [hfree.callObstacle?_eq_none hstory' hcall'] at he
  exact nomatch he

/-- Documented calls may be interchanged with the calls as they were. -/
theorem forall₂_interchange_documentedCalls (stories : List Story)
    (h : ∀ call ∈ calls, call.isStoryCall component = true) :
    List.Forall₂ (Interchange component) calls (documentedCalls stories calls) := by
  induction stories generalizing calls with
  | nil => exact List.forall₂_same.mpr fun call hcall => .refl (h call hcall)
  | cons story stories ih =>
    cases calls with
    | nil => exact .nil
    | cons call calls =>
      refine .cons (interchange_of_outline (h call List.mem_cons_self) (outline_mapProps _ call)) ?_
      exact ih fun other hother => h other (List.mem_cons_of_mem call hother)

end SvelteStories.Edit

namespace SvelteStories.Script.AgreeOutside

open Diagnostic Edit

variable {filename : String} {file : StoriesContent} {package component : String}
  {module other : Module}

/-- As many stories as there are story calls are found in both modules or in none. -/
theorem correlated (filename : String) (file : StoriesContent)
    (h : AgreeOutside component module other) (hbinds : BindsStory package component module) :
    Agree (fun found found' => found'.1.metaBinding = found.1.metaBinding ∧
        found.1.component = component ∧ found'.1.component = component ∧
        found'.1.metaIndex = found.1.metaIndex)
      (Edit.correlated filename file package module)
      (Edit.correlated filename file package other) := by
  refine (h.compiledContent hbinds).bind fun content content' _ hcontent => ?_
  obtain ⟨hbound, hcomponent, hcomponent', hindex, hlen⟩ := hcontent
  -- the pairing only compares numbers, and these are the same
  have hpair : Agree (fun _ _ => True) (Story.pair filename file.stories content.calls)
      (Story.pair filename file.stories content'.calls) := by
    unfold Story.pair
    rw [hlen]
    split
    · exact .ok trivial
    · exact .error rfl rfl
  exact hpair.bind fun _ _ _ _ => .ok ⟨hbound, hcomponent, hcomponent', hindex⟩

variable {content content' : CompiledContent} {before after before' after' : List Node}
  {declaration declaration' : Node} {object object' : Properties}

/-- The statements around the meta declarations of both modules, the declarations and the meta
    objects have the same sketches. -/
theorem located (h : AgreeOutside component module other) (hbound : component ≠ content.metaBinding)
    (hlocated : module.Located package content before declaration after object)
    (hlocated' : other.Located package content' before' declaration' after' object')
    (hmeta : content'.metaBinding = content.metaBinding)
    (hindex : content'.metaIndex = content.metaIndex) :
    before'.map (Node.sketch component) = before.map (Node.sketch component) ∧
      declaration'.sketch component = declaration.sketch component ∧
      after'.map (Node.sketch component) = after.map (Node.sketch component) ∧
      object'.map (Node.sketch component) = object.map (Node.sketch component) := by
  have hsketch := h.sketch
  rw [hlocated.statements, hlocated'.statements, List.map_append, List.map_append, List.map_cons,
    List.map_cons] at hsketch
  have hlen : (before'.map (Node.sketch component)).length =
      (before.map (Node.sketch component)).length := by
    rw [List.length_map, List.length_map, hlocated.index, hlocated'.index, hindex]
  obtain ⟨hbefore, hbehind⟩ := List.append_inj hsketch hlen
  obtain ⟨hdeclaration, hafter⟩ := List.cons.inj hbehind
  have hobject := Node.metaObject?_sketch hbound declaration'
  rw [hdeclaration, Node.metaObject?_sketch hbound, hlocated.metaObject, ← hmeta,
    hlocated'.metaObject] at hobject
  exact ⟨hbefore, hdeclaration, hafter, (Option.some.inj hobject).symm⟩

/-- The story calls of both modules have the same props. -/
theorem map_bareProps?_callsIn (h : AgreeOutside component module other)
    (hcomponent : content.component = component) (hcomponent' : content'.component = component) :
    (callsIn content' other).map Node.bareProps? =
      (callsIn content module).map Node.bareProps? := by
  rw [callsIn, callsIn, hcomponent, hcomponent', h.props]

/-- The description of the component makes the same of both modules, up to sketches. -/
theorem map_sketch_describedModule (comment : Option String)
    (hbound : component ≠ content.metaBinding)
    (hlocated : module.Located package content before declaration after object) :
    (describedModule comment content module).statements.map (Node.sketch component) =
      before.map (Node.sketch component) ++
        (declaration.sketch component).withMetaObject
          (described comment .component (object.map (Node.sketch component))) ::
        after.map (Node.sketch component) := by
  rw [statements_describedModule comment hlocated, List.map_append, List.map_cons,
    Node.sketch_withMetaObject hlocated.metaObject hbound,
    (Node.rebuildsObjects_sketch component).commutes_described]

/-- A transform that succeeds leaves the sketches that the description of the component leaves,
    below the runtime import. -/
theorem map_sketch_finished (hcomponent : content.component = component)
    (hlocated : module.Located package content before declaration after object) :
    (finished filename file package content module object).module.statements.map
      (Node.sketch component) =
      (if !module.hasRuntimeImport package then [runtimeImport package] else []).map
          (Node.sketch component) ++
        (describedModule file.metaDescription content module).statements.map
          (Node.sketch component) := by
  -- each documented call can stand in for the call that it was
  have hcalls : List.Forall₂ (Node.Interchange component)
      (Node.storyCallsAmong component
        (describedModule file.metaDescription content module).statements)
      (documentedCalls (file.stories.take file.stories.length) (callsIn content module)) := by
    have hread := callsIn_describedModule file.metaDescription hlocated
    unfold callsIn at hread
    rw [hcomponent] at hread
    rw [hread, callsIn, hcomponent]
    exact forall₂_interchange_documentedCalls _ fun _ => Node.isStoryCall_of_mem
  simp only [finished, List.map_append]
  congr 1
  rw [written, hcomponent]
  exact Node.map_sketch_replaceCallsAmong hcalls

/-- Of two modules that agree, the same story is refused for the same reason. -/
theorem refused_alike {stories : List Story} {calls others : List Node} {n n' : Nat}
    {story story' : Story} {call call' : Node} {e e' : ShapeError}
    (hprops : others.map Node.bareProps? = calls.map Node.bareProps?)
    (hstory : stories[n]? = some story) (hcall : calls[n]? = some call)
    (hfree : Free (stories.take n) (calls.take n)) (he : callObstacle? story call = some e)
    (hstory' : stories[n']? = some story') (hcall' : others[n']? = some call')
    (hfree' : Free (stories.take n') (others.take n'))
    (he' : callObstacle? story' call' = some e') :
    story' = story ∧ e' = e := by
  -- what is said of the other calls holds of the calls with the same props
  obtain ⟨twin, htwin, hbare⟩ :
      ∃ twin, calls[n']? = some twin ∧ twin.bareProps? = call'.bareProps? := by
    have hread := congrArg (·[n']?) hprops
    simp only [List.getElem?_map, hcall', Option.map_some] at hread
    exact Option.map_eq_some_iff.mp hread.symm
  have heTwin : callObstacle? story' twin = some e' := by
    rw [Node.callObstacle?_eq, hbare, ← Node.callObstacle?_eq, he']
  have hfreeTwin : Free (stories.take n') (calls.take n') := by
    refine (free_congr ?_).mp hfree'
    rw [List.map_take, List.map_take, hprops]
  obtain rfl : n' = n := Nat.le_antisymm (le_of_free_take hfreeTwin hstory hcall he)
    (le_of_free_take hfree hstory' htwin heTwin)
  obtain rfl := Option.some.inj (hstory'.symm.trans hstory)
  obtain rfl := Option.some.inj (htwin.symm.trans hcall)
  exact ⟨rfl, Option.some.inj (heTwin.symm.trans he)⟩

/-- A transform of two modules that agree is refused with the same code and wording, or it finishes
    on both of them. -/
theorem transform_cases (filename : String) (file : StoriesContent)
    (h : AgreeOutside component module other) (hbinds : BindsStory package component module) :
    (∃ report report', (transform filename file package module).outcome = .error report ∧
        (transform filename file package other).outcome = .error report' ∧
        report'.code = report.code ∧ report'.message = report.message) ∨
      ∃ content content' before declaration after before' declaration' after' object object',
        module.Located package content before declaration after object ∧
        other.Located package content' before' declaration' after' object' ∧
        content'.metaBinding = content.metaBinding ∧ content'.metaIndex = content.metaIndex ∧
        content.component = component ∧ content'.component = component ∧
        file.stories.length = (callsIn content module).length ∧
        transform filename file package module =
          finished filename file package content module object ∧
        transform filename file package other =
          finished filename file package content' other object' := by
  have hfound := h.correlated filename file hbinds
  -- both modules are correlated or neither is
  cases hc : Edit.correlated filename file package module with
  | error report =>
    cases hc' : Edit.correlated filename file package other with
    | ok _ =>
      rw [hc, hc'] at hfound
      exact nomatch hfound
    | error report' =>
      rw [hc, hc'] at hfound
      obtain _ | ⟨hcode, hmessage⟩ := hfound
      refine .inl ⟨report, report', ?_, ?_, hcode, hmessage⟩
      · rw [transform_of_correlated_eq_error hc]
      · rw [transform_of_correlated_eq_error hc']
  | ok found =>
    cases hc' : Edit.correlated filename file package other with
    | error _ =>
      rw [hc, hc'] at hfound
      exact nomatch hfound
    | ok found' =>
      rw [hc, hc'] at hfound
      obtain ⟨content, pairs⟩ := found
      obtain ⟨content', pairs'⟩ := found'
      obtain ⟨hmeta, hcomponent, hcomponent', hindex⟩ | _ := hfound
      obtain ⟨before, declaration, after, object, hlocated, hlen⟩ := located_of_correlated hc
      obtain ⟨before', declaration', after', object', hlocated', hlen'⟩ := located_of_correlated hc'
      -- the calls have the same props objects, one by one
      have hprops := h.map_bareProps?_callsIn hcomponent hcomponent'
      obtain ⟨-, -, -, hobject⟩ :=
        h.located (hbinds.imported _ hlocated.imported) hlocated hlocated' hmeta hindex
      -- the meta objects have the same sketch, and with it the same obstacles
      have hobstacle : obstacle? (neededPath file.metaDescription []) object' =
          obstacle? (neededPath file.metaDescription []) object := by
        have hobjects := (Node.rebuildsObjects_sketch component).keepsObjects
        rw [← hobjects.obstacle?_map, hobject, hobjects.obstacle?_map]
      rcases transform_of_located hlocated hlen with
        ⟨e, he, htransform⟩ | ⟨hnone, ⟨hfree, htransform⟩ |
          ⟨n, story, call, e, hstory, hcall, hfree, he, htransform⟩⟩
      · -- the component is refused in both modules
        rcases transform_of_located hlocated' hlen' with ⟨e', he', htransform'⟩ | ⟨hnone', -⟩
        · obtain rfl : e' = e := Option.some.inj (he'.symm.trans (hobstacle.trans he))
          exact .inl ⟨_, _, congrArg (·.outcome) htransform, congrArg (·.outcome) htransform',
            rfl, rfl⟩
        · rw [hobstacle, he] at hnone'
          exact nomatch hnone'
      · -- both modules take all edits
        have hfree' : Free file.stories (callsIn content' other) := (free_congr hprops).mpr hfree
        exact .inr ⟨content, content', before, declaration, after, before', declaration', after',
          object, object', hlocated, hlocated', hmeta, hindex, hcomponent, hcomponent',
          hlen, htransform, transform_eq_finished hlocated' (hobstacle.trans hnone) hfree'⟩
      · -- a story is refused in both modules
        rcases transform_of_located hlocated' hlen' with
          ⟨e', he', -⟩ | ⟨-, ⟨hfree', -⟩ |
            ⟨n', story', call', e', hstory', hcall', hfree', he', htransform'⟩⟩
        · -- the other module is refused for a story too, and for the same one
          rw [hobstacle, hnone] at he'
          exact nomatch he'
        · rw [((free_congr hprops).mp hfree').callObstacle?_eq_none hstory hcall] at he
          exact nomatch he
        · obtain ⟨rfl, rfl⟩ :=
            refused_alike hprops hstory hcall hfree he hstory' hcall' hfree' he'
          exact .inl ⟨_, _, congrArg (·.outcome) htransform, congrArg (·.outcome) htransform',
            rfl, rfl⟩

end SvelteStories.Script.AgreeOutside
