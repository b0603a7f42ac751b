import SvelteStories.Proofs.NodeMap
import SvelteStories.Proofs.Transform

/-!
# Transforms do not depend on spans

Spans tell where the parts of a tree were read.  A transform works the same on two trees that differ
in their spans only: every lookup and every edit goes through `eraseSpans`.

## Key results

- `eraseSpans_mapProps`, `ignoresSpans_documented`: documenting a call
- `map_eraseSpans_replaceCallsAmong`, `storyCallsAmong_map_eraseSpans`: the story calls of a forest
- `SameTree.transform`: a transform that succeeds on one of two trees does the same on the other one
-/

namespace SvelteStories.Script

open Text

namespace Node

mutual

/-- A node without spans. -/
def eraseSpans : Node → Node
  | mk kind _ parts => made kind (eraseSpansAmong parts)

/-- The given nodes without spans. -/
def eraseSpansAmong : List Node → List Node
  | [] => []
  | node :: rest => node.eraseSpans :: eraseSpansAmong rest

end

variable {component : String}

theorem eraseSpansAmong_eq_map (nodes : List Node) :
    eraseSpansAmong nodes = nodes.map eraseSpans := by
  induction nodes with
  | nil => rfl
  | cons node rest ih => rw [eraseSpansAmong, ih, List.map_cons]

theorem eraseSpans_mk (kind : Kind) (span : Span) (parts : List Node) :
    (mk kind span parts).eraseSpans = made kind (parts.map eraseSpans) := by
  rw [eraseSpans, eraseSpansAmong_eq_map]

/-! ## Outlines -/

/-- An outline has no spans anyway. -/
theorem map_outline_map_eraseSpans (nodes : List Node) :
    (nodes.map eraseSpans).map outline = nodes.map outline := by
  induction nodes using forest_induction with
  | nil => rfl
  | cons kind span parts rest ihParts ihRest =>
    rw [List.map_cons, List.map_cons, ihRest, List.map_cons, eraseSpans_mk, made,
      outline_mk_congr kind _ span ihParts]

/-- An outline has no spans, so that there are none to erase before it. -/
theorem outline_eraseSpans (node : Node) : node.eraseSpans.outline = node.outline :=
  (List.cons.inj (map_outline_map_eraseSpans [node])).1

/-- Nodes that differ in their spans only have the same outline. -/
theorem outline_eq_of_eraseSpans {node other : Node} (h : node.eraseSpans = other.eraseSpans) :
    node.outline = other.outline := by
  rw [← outline_eraseSpans, h, outline_eraseSpans]

/-- Lists that differ in their spans only have the same outlines. -/
theorem map_outline_eq_of_eraseSpans {nodes others : List Node}
    (h : nodes.map eraseSpans = others.map eraseSpans) :
    nodes.map outline = others.map outline := by
  rw [← map_outline_map_eraseSpans, h, map_outline_map_eraseSpans]

/-! ## Object literals -/

/-- Erasing spans rebuilds object literals from their parts. -/
theorem rebuildsObjects_eraseSpans : RebuildsObjects eraseSpans where
  kind node := by
    obtain ⟨kind, span, parts⟩ := node
    rfl
  property _ _ _ span parts := eraseSpans_mk _ span parts
  object span properties := eraseSpans_mk _ span properties
  leaf kind := eraseSpans_mk kind _ []

/-- Erasing spans keeps the object literals, up to spans. -/
theorem keepsObjects_eraseSpans : KeepsObjects eraseSpans :=
  rebuildsObjects_eraseSpans.keepsObjects

/-- A change of properties that does the same without spans. -/
def IgnoresSpans (change : Properties → Properties) : Prop :=
  ∀ properties, change (properties.map eraseSpans) = (change properties).map eraseSpans

variable {change : Properties → Properties}

/-! ## Story calls -/

/-- A node is a story call with and without spans. -/
theorem isStoryCall_eraseSpans (component : String) (node : Node) :
    node.eraseSpans.isStoryCall component = node.isStoryCall component :=
  isStoryCall_congr component (outline_eraseSpans node)

/-- The story calls are found where the spans are erased, by induction on the forest. -/
theorem storyCallsAmong_map_eraseSpans (component : String) (nodes : List Node) :
    storyCallsAmong component (nodes.map eraseSpans) =
      (storyCallsAmong component nodes).map eraseSpans := by
  induction nodes using forest_induction with
  | nil => rfl
  | cons kind span parts rest ihParts ihRest =>
    have hkept := isStoryCall_eraseSpans component (mk kind span parts)
    rw [eraseSpans_mk, made] at hkept
    rw [List.map_cons, eraseSpans_mk, made]
    -- a call is kept as a whole, any other node is searched
    cases hc : (mk kind span parts).isStoryCall component with
    | true =>
      rw [storyCallsAmong_cons_of_call (hkept.trans hc), storyCallsAmong_cons_of_call hc, ihRest,
        List.map_cons, eraseSpans_mk, made]
    | false =>
      rw [storyCallsAmong_cons_of_not_call (hkept.trans hc), storyCallsAmong_cons_of_not_call hc,
        ihParts, ihRest, List.map_append]

/-- A node has as many story calls with spans as without. -/
theorem length_storyCalls_eraseSpans (node : Node) :
    (node.eraseSpans.storyCalls component).length = (node.storyCalls component).length := by
  have h := congrArg List.length (storyCallsAmong_map_eraseSpans component [node])
  simpa [storyCallsAmong] using h

/-- Story calls can be replaced before or after the spans are erased. -/
theorem map_eraseSpans_replaceCallsAmong (nodes calls : List Node) :
    (replaceCallsAmong component nodes calls).map eraseSpans =
      replaceCallsAmong component (nodes.map eraseSpans) (calls.map eraseSpans) := by
  induction nodes using forest_induction generalizing calls with
  | nil => rfl
  | cons kind span parts rest ihParts ihRest =>
    rw [List.map_cons, replaceCallsAmong, replaceCallsAmong, length_storyCalls_eraseSpans,
      List.map_cons, ihRest, List.map_drop, ← List.map_take]
    congr 1
    -- what is left to show is about the first node and the calls for it
    generalize calls.take _ = here
    have hkept := isStoryCall_eraseSpans component (mk kind span parts)
    cases hc : (mk kind span parts).isStoryCall component with
    | false =>
      rw [hc, eraseSpans_mk, made] at hkept
      rw [replaceCalls_of_not_call hc, eraseSpans_mk, eraseSpans_mk, made, made,
        replaceCalls_of_not_call hkept, ihParts]
    | true =>
      rw [hc, eraseSpans_mk, made] at hkept
      rw [eraseSpans_mk, made]
      simp only [replaceCalls, hc, hkept, ↓reduceIte]
      cases here with
      | nil => exact eraseSpans_mk kind span parts
      | cons call _ => rfl

/-! ## The meta declaration -/

/-- Erasing spans keeps names, so that lookups find the same. -/
theorem keepsNames_eraseSpans : KeepsNames eraseSpans where
  kind := keepsObjects_eraseSpans.kind
  parts kind span parts _ _ := ⟨_, eraseSpans_mk kind span parts⟩

/-- The meta object of a declaration without spans is its meta object without spans. -/
theorem metaObject?_eraseSpans (bound : String) (declaration : Node) :
    declaration.eraseSpans.metaObject? bound =
      (declaration.metaObject? bound).map (List.map eraseSpans) := by
  unfold metaObject?
  rw [keepsNames_eraseSpans.firstDeclarator?_map]
  rcases declaration.firstDeclarator? with _ | ⟨pattern, ⟨kind, span, parts⟩⟩
  · rfl
  cases kind <;> try rfl
  rcases parts with _ | ⟨callee, _ | ⟨argument, _ | ⟨_, _⟩⟩⟩ <;> try rfl
  -- whether the callee is the meta function does not depend on spans
  have hcallee : callee.eraseSpans.isReference bound = callee.isReference bound := by
    rw [← isReference_outline, outline_eraseSpans, isReference_outline]
  show (if callee.eraseSpans.isReference bound then argument.eraseSpans.properties? else none) =
    Option.map (List.map eraseSpans) (if callee.isReference bound then
      argument.properties? else none)
  rw [hcallee, keepsObjects_eraseSpans.properties?_map]
  split <;> rfl

/-- Declarations that differ in their spans only have such meta objects. -/
theorem exists_metaObject?_of_eraseSpans {bound : String} {declaration other : Node}
    {object : Properties} (h : other.eraseSpans = declaration.eraseSpans)
    (hobject : declaration.metaObject? bound = some object) :
    ∃ object', other.metaObject? bound = some object' ∧
      object'.map eraseSpans = object.map eraseSpans := by
  have hread := metaObject?_eraseSpans bound other
  rw [h, metaObject?_eraseSpans, hobject, Option.map_some] at hread
  obtain ⟨object', hobject', hsame⟩ := Option.map_eq_some_iff.mp hread.symm
  exact ⟨object', hobject', hsame⟩

/-- A declaration gets a new meta object before or after its spans are erased. -/
theorem eraseSpans_withMetaObject {bound : String} {declaration : Node} {object : Properties}
    (h : declaration.metaObject? bound = some object) (other : Properties) :
    (declaration.withMetaObject other).eraseSpans =
      declaration.eraseSpans.withMetaObject (other.map eraseSpans) := by
  obtain ⟨_, _, _, _, _, _, _, _, _, rfl, -⟩ := exists_of_metaObject?_eq_some h
  simp only [withMetaObject, eraseSpans_mk, made, List.map_cons, List.map_nil]

/-! ## The props object -/

/-- The call of a statement without spans is its call without spans. -/
theorem call_eraseSpans (call : Node) : call.eraseSpans.call = call.call.eraseSpans := by
  obtain ⟨kind, span, parts⟩ := call
  cases kind <;> try rfl
  rcases parts with _ | ⟨inner, _ | ⟨_, _⟩⟩ <;> rfl

/-- The props of a call without spans are its props without spans. -/
theorem props?_eraseSpans (call : Node) :
    call.eraseSpans.props? = call.props?.map (List.map eraseSpans) := by
  unfold props?
  rw [call_eraseSpans]
  rcases call.call with ⟨kind, span, parts⟩
  cases kind <;> try rfl
  rcases parts with _ | ⟨_, _ | ⟨_, _ | ⟨props, _⟩⟩⟩ <;> try rfl
  exact keepsObjects_eraseSpans.properties?_map props

/-- Calls that differ in their spans only have props alike. -/
theorem isSome_props?_of_map_eraseSpans {calls others : List Node}
    (h : others.map eraseSpans = calls.map eraseSpans)
    (hprops : ∀ call ∈ calls, call.props?.isSome = true) :
    ∀ call ∈ others, call.props?.isSome = true := by
  intro call hmem
  -- the call has a counterpart among the others, and that one has props
  have hmem' : call.eraseSpans ∈ calls.map eraseSpans := by
    rw [← h]
    exact List.mem_map_of_mem hmem
  obtain ⟨call', hcall', hsame⟩ := List.mem_map.mp hmem'
  have hsome := hprops call' hcall'
  rw [← Option.isSome_map, ← props?_eraseSpans, hsame, props?_eraseSpans,
    Option.isSome_map] at hsome
  exact hsome

/-- A change of props that does not look at spans can be made before or after they are erased. -/
theorem eraseSpans_mapProps (h : IgnoresSpans change) (call : Node) :
    (call.mapProps change).eraseSpans = call.eraseSpans.mapProps change := by
  cases hprops : call.props? with
  | none =>
    have hnone : call.eraseSpans.props? = none := by rw [props?_eraseSpans, hprops, Option.map_none]
    simp only [mapProps, hprops, hnone]
  | some properties =>
    have hsome : call.eraseSpans.props? = some (properties.map eraseSpans) := by
      rw [props?_eraseSpans, hprops, Option.map_some]
    rw [mapProps_of_props? hprops, mapProps_of_props? hsome, h properties]
    -- the call stands alone or is validated
    obtain ⟨_, _, _, _, _, _, rfl | ⟨_, rfl⟩⟩ := exists_of_props?_eq_some hprops
    · simp only [withProps, withSecondArgument, eraseSpans_mk, made, List.map_cons]
    · simp only [withProps, withSecondArgument, eraseSpans_mk, made, List.map_cons, List.map_nil]

end Node

end SvelteStories.Script

namespace SvelteStories.Edit

open Diagnostic Script Node

variable {file : StoriesContent} {filename package : String} {module other : Module}
  {content : CompiledContent} {before after : List Node} {declaration : Node} {object : Properties}

/-! ## Edits -/

/-- Descriptions are written without a look at spans. -/
theorem ignoresSpans_described (comment : Option String) (subject : Subject) :
    IgnoresSpans (described comment subject) :=
  rebuildsObjects_eraseSpans.commutes_described comment subject

/-- Stories are documented without a look at spans. -/
theorem ignoresSpans_documented (story : Story) : IgnoresSpans (documented story) :=
  rebuildsObjects_eraseSpans.commutes_documented story

/-- What stands in the way of documenting a call does not depend on spans. -/
theorem callObstacle?_eraseSpans (story : Story) (call : Node) :
    callObstacle? story call.eraseSpans = callObstacle? story call := by
  unfold callObstacle?
  rw [props?_eraseSpans]
  cases call.props? with
  | none => rfl
  | some properties => exact keepsObjects_eraseSpans.obstacle?_map _ properties

/-- Which comments a call ignores does not depend on spans. -/
theorem ignoredInCall_eraseSpans (story : Story) (call : Node) :
    ignoredInCall story call.eraseSpans = ignoredInCall story call := by
  unfold ignoredInCall
  rw [props?_eraseSpans]
  cases call.props? with
  | none => rfl
  | some properties =>
    simp only [Option.map_some, ignoredIn, keepsObjects_eraseSpans.isDescribed_map]

/-- Calls are documented before or after their spans are erased, one by one. -/
theorem map_eraseSpans_documentedCalls (stories : List Story) (calls : List Node) :
    (documentedCalls stories calls).map eraseSpans =
      documentedCalls stories (calls.map eraseSpans) := by
  induction stories generalizing calls with
  | nil => rfl
  | cons story stories ih =>
    cases calls with
    | nil => rfl
    | cons call calls =>
      rw [documentedCalls, List.map_cons, List.map_cons, documentedCalls, ih, documentedCall,
        eraseSpans_mapProps (ignoresSpans_documented story)]

/-- Which comments the calls ignore does not depend on spans. -/
theorem ignoredInCalls_map_eraseSpans (stories : List Story) (calls : List Node) :
    ignoredInCalls stories (calls.map eraseSpans) = ignoredInCalls stories calls := by
  induction stories generalizing calls with
  | nil => rfl
  | cons story stories ih =>
    cases calls with
    | nil => rfl
    | cons call calls =>
      rw [List.map_cons, ignoredInCalls, ignoredInCalls, ignoredInCall_eraseSpans, ih]

/-- Calls are free of obstacles with and without spans. -/
theorem free_map_eraseSpans {stories : List Story} {calls : List Node} :
    Free stories (calls.map eraseSpans) ↔ Free stories calls := by
  unfold Free
  rw [List.forall₂_map_right_iff]
  simp only [callObstacle?_eraseSpans]

/-! ## Modules -/

/-- Two modules have the same tree up to spans. -/
structure SameTree (module other : Module) : Prop where
  hashbang : module.hashbang = other.hashbang
  directives : module.directives = other.directives
  statements : module.statements.map eraseSpans = other.statements.map eraseSpans

instance (module other : Module) : Decidable (SameTree module other) :=
  decidable_of_iff (module.hashbang = other.hashbang ∧ module.directives = other.directives ∧
      module.statements.map eraseSpans = other.statements.map eraseSpans)
    ⟨fun h => ⟨h.1, h.2.1, h.2.2⟩, fun h => ⟨h.hashbang, h.directives, h.statements⟩⟩

theorem SameTree.refl (module : Module) : SameTree module module := ⟨rfl, rfl, rfl⟩

theorem SameTree.symm (h : SameTree module other) : SameTree other module :=
  ⟨h.hashbang.symm, h.directives.symm, h.statements.symm⟩

theorem SameTree.trans {third : Module} (h : SameTree module other) (h' : SameTree other third) :
    SameTree module third :=
  ⟨h.hashbang.trans h'.hashbang, h.directives.trans h'.directives,
    h.statements.trans h'.statements⟩

/-- The lookups find the same in two modules with the same tree. -/
theorem SameTree.located (h : SameTree module other)
    (hlocated : module.Located package content before declaration after object) :
    ∃ content' before' declaration' after' object',
      other.Located package content' before' declaration' after' object' ∧
      content'.component = content.component ∧
      before'.map eraseSpans = before.map eraseSpans ∧
      declaration'.eraseSpans = declaration.eraseSpans ∧
      after'.map eraseSpans = after.map eraseSpans ∧
      object'.map eraseSpans = object.map eraseSpans := by
  have hstatements := h.statements
  rw [hlocated.statements, List.map_append, List.map_cons] at hstatements
  obtain ⟨before', behind, hother, hbefore, hbehind⟩ := List.map_eq_append_iff.mp hstatements.symm
  obtain ⟨declaration', after', rfl, hdeclaration, hafter⟩ := List.map_eq_cons_iff.mp hbehind
  -- the declarations have the same outline, and meta objects that differ in spans only
  have houtline := outline_eq_of_eraseSpans hdeclaration
  obtain ⟨object', hobject, hsame⟩ :=
    exists_metaObject?_of_eraseSpans hdeclaration hlocated.metaObject
  have hcalls : (storyCallsAmong content.component other.statements).map eraseSpans =
      (storyCallsAmong content.component module.statements).map eraseSpans := by
    rw [← storyCallsAmong_map_eraseSpans, ← h.statements, storyCallsAmong_map_eraseSpans]
  refine ⟨{ content with
      metaCall := declaration'.metaCallSpan
      calls := (storyCallsAmong content.component other.statements).filterMap fun call =>
        (call.storyCallShape? content.component).map fun shape => ⟨shape, call.span⟩ },
    before', declaration', after', object',
    ⟨?_, hother, ?_, ?_, hobject, rfl, ?_,
      isSome_props?_of_map_eraseSpans hcalls hlocated.props, rfl⟩,
    rfl, hbefore, hdeclaration, hafter, hsame⟩
  · rw [← hlocated.imported]
    exact (Module.metaImport?_congr package (map_outline_eq_of_eraseSpans h.statements)).symm
  · rw [← hlocated.index]
    simpa using congrArg List.length hbefore
  · refine declaresMeta_of_map_outline ?_ hlocated.alone
    refine map_outline_eq_of_eraseSpans ?_
    rw [List.map_append, List.map_append, hbefore, hafter]
  · rw [← storyBinding?_outline, houtline, storyBinding?_outline]
    exact hlocated.binding

/-- A transform that succeeds on one of two modules with the same tree does the same on the other
    one. -/
theorem SameTree.transform {added : Bool} (h : SameTree module other)
    (hok : (Edit.transform filename file package module).outcome = .ok added) :
    (Edit.transform filename file package other).outcome = .ok added ∧
      (Edit.transform filename file package other).warnings =
        (Edit.transform filename file package module).warnings ∧
      SameTree (Edit.transform filename file package module).module
        (Edit.transform filename file package other).module := by
  obtain ⟨content, before, declaration, after, object, hlocated, hmeta, hfree,
      htransform, hadded⟩ :=
    located_of_outcome_eq_ok hok
  obtain ⟨content', before', declaration', after', object', hlocated', hcomponent, hbefore,
    hdeclaration, hafter, hobject⟩ := h.located hlocated
  have hcalls : (callsIn content' other).map eraseSpans =
      (callsIn content module).map eraseSpans := by
    rw [callsIn, callsIn, hcomponent, ← storyCallsAmong_map_eraseSpans, ← h.statements,
      storyCallsAmong_map_eraseSpans]
  have himport : other.hasRuntimeImport package = module.hasRuntimeImport package :=
    (Module.hasRuntimeImport_congr package (map_outline_eq_of_eraseSpans h.statements)).symm
  -- nothing stands in the way of the transform of the other module either
  have hmeta' : obstacle? (neededPath file.metaDescription []) object' = none := by
    rw [← keepsObjects_eraseSpans.obstacle?_map, hobject, keepsObjects_eraseSpans.obstacle?_map,
      hmeta]
  have hfree' : Free file.stories (callsIn content' other) := by
    rw [← free_map_eraseSpans, hcalls, free_map_eraseSpans]
    exact hfree
  have htransform' : Edit.transform filename file package other = _ :=
    transform_eq_finished hlocated' hmeta' hfree'
  -- the three parts of the work, one after the other
  have hdescribed :
    (describedModule file.metaDescription content' other).statements.map eraseSpans =
      (describedModule file.metaDescription content module).statements.map eraseSpans := by
    rw [statements_describedModule _ hlocated', statements_describedModule _ hlocated,
      List.map_append, List.map_append, List.map_cons, List.map_cons, hbefore, hafter,
      eraseSpans_withMetaObject hlocated'.metaObject, eraseSpans_withMetaObject hlocated.metaObject,
      hdeclaration, ← ignoresSpans_described, ← ignoresSpans_described, hobject]
  have hwritten : (written file content' file.stories.length other).statements.map eraseSpans =
      (written file content file.stories.length module).statements.map eraseSpans := by
    rw [written, written, map_eraseSpans_replaceCallsAmong, map_eraseSpans_replaceCallsAmong,
      hdescribed, map_eraseSpans_documentedCalls, map_eraseSpans_documentedCalls,
      hcalls, hcomponent]
  have hignored : ignoredUpTo file content' file.stories.length other object' =
      ignoredUpTo file content file.stories.length module object := by
    unfold ignoredUpTo ignoredIn
    rw [← keepsObjects_eraseSpans.isDescribed_map, hobject, keepsObjects_eraseSpans.isDescribed_map,
      ← ignoredInCalls_map_eraseSpans, hcalls, ignoredInCalls_map_eraseSpans]
  rw [htransform, htransform']
  refine ⟨?_, congrArg (List.map (Subject.explicitDescription · filename)) hignored,
    ⟨h.hashbang, h.directives, ?_⟩⟩
  · rw [hadded, finished, himport]
  · simp only [finished, himport, List.map_append, hwritten]

end SvelteStories.Edit
