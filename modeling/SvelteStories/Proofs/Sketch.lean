import SvelteStories.Proofs.CallPlaces
import SvelteStories.Proofs.Spans

/-!
# Sketches

The *sketch* of a node cuts each outermost call that renders a story down to a bare call of the
component and forgets all spans.  It keeps what a transform looks up outside of the story calls, and
together with the calls it tells the tree.  Story calls may be put in the places of others without
any change of the sketch, even if they have the other shape.

## Key results

- `keepsNames_sketch`, `rebuildsObjects_sketch`: what is looked up in a sketch
- `map_eraseSpans_of_sketch`: a forest is told, up to spans, by its sketches and its calls
- `map_sketch_replaceCallsAmong`, `renderingCalls_replaceCallsAmong`: a forest after its story calls
  were interchanged with others
-/

namespace SvelteStories.Script.Node

open Text

variable {component : String} {kind : Kind} {span : Span} {parts : List Node} {node : Node}
  {shape : CallShape}

mutual

/-- A node without spans, and with bare calls for the outermost calls that render a story. -/
def sketch (component : String) : Node → Node
  | mk kind span parts =>
    if ((mk kind span parts).callShape? component).isSome then
      made kind [made (.reference component) []]
    else made kind (sketchAmong component parts)

/-- The sketches of the given nodes. -/
def sketchAmong (component : String) : List Node → List Node
  | [] => []
  | node :: rest => node.sketch component :: sketchAmong component rest

end

theorem sketchAmong_eq_map (nodes : List Node) :
    sketchAmong component nodes = nodes.map (sketch component) := by
  induction nodes with
  | nil => rfl
  | cons node rest ih => rw [sketchAmong, ih, List.map_cons]

/-- A call that renders a story is cut down to a bare call. -/
theorem sketch_of_renders (h : Renders component (mk kind span parts) shape) :
    (mk kind span parts).sketch component = made kind [made (.reference component) []] := by
  simp only [sketch, callShape?_eq_some.mpr h, Option.isSome_some, ↓reduceIte]

/-- Any other node is sketched part by part. -/
theorem sketch_of_not_renders (h : ∀ shape, ¬ Renders component (mk kind span parts) shape) :
    (mk kind span parts).sketch component = made kind (parts.map (sketch component)) := by
  simp only [sketch, callShape?_eq_none.mpr h, Option.isSome_none, Bool.false_eq_true, ↓reduceIte,
    sketchAmong_eq_map]

/-- A sketch keeps the kind. -/
@[simp] theorem kind_sketch (node : Node) : (node.sketch component).kind = node.kind := by
  obtain ⟨kind, span, parts⟩ := node
  by_cases h : ∃ shape, Renders component (mk kind span parts) shape
  · rw [sketch_of_renders h.choose_spec]
    rfl
  · rw [sketch_of_not_renders (not_exists.mp h)]
    rfl

/-- Only calls render a story. -/
theorem not_renders_of_kind (h : ∀ optional, kind ≠ .call optional) (shape : CallShape) :
    ¬ Renders component (mk kind span parts) shape := fun hrenders =>
  hrenders.exists_kind.elim fun optional hkind => h optional hkind

/-- Sketches keep names, so that lookups find the same in them. -/
theorem keepsNames_sketch (component : String) : KeepsNames (sketch component) where
  kind := kind_sketch
  parts _ _ _ _ hcall := ⟨_, sketch_of_not_renders (not_renders_of_kind hcall)⟩

/-- Sketches rebuild object literals from the sketches of their properties. -/
theorem rebuildsObjects_sketch (component : String) : RebuildsObjects (sketch component) where
  kind := kind_sketch
  property _ _ _ _ _ := sketch_of_not_renders (not_renders_of_kind fun _ => Kind.noConfusion)
  object _ _ := sketch_of_not_renders (not_renders_of_kind fun _ => Kind.noConfusion)
  leaf _ := sketch_of_not_renders fun _ h => by cases h

/-! ## Calls in a sketch -/

/-- A call of the validating function with the component as its first argument. -/
def Wraps (component : String) (callee : Node) : Prop :=
  Renders component (made (.call false) [callee]) .validated

/-- A call wraps the component by its first two parts: the validating function and a reference to
    the component. -/
theorem wraps_mk : Wraps component (mk kind span parts) ↔
    (∃ optional, kind = .call optional) ∧ ∃ function argument others,
      parts = function :: argument :: others ∧ function.validates = true ∧
        argument.isReference component = true := by
  constructor
  · rintro ⟨⟩
    rename_i inner at' function parts others h
    exact ⟨⟨inner, rfl⟩, function, _, others, rfl, validates_iff.mpr h,
      isReference_iff.mpr ⟨_, _, rfl⟩⟩
  · rintro ⟨⟨optional, rfl⟩, function, argument, others, rfl, hfunction, hargument⟩
    obtain ⟨at', parts, rfl⟩ := isReference_iff.mp hargument
    exact .validated false optional _ span at' parts others [] (validates_iff.mp hfunction)

/-- A call renders a story by its callee. -/
theorem exists_renders_call {optional : Bool} {callee : Node} {arguments : List Node} :
    (∃ shape, Renders component (mk (.call optional) span (callee :: arguments)) shape) ↔
      callee.isReference component = true ∨ Wraps component callee := by
  constructor
  · rintro ⟨shape, h⟩
    cases h with
    | plain => exact .inl (isReference_iff.mpr ⟨_, _, rfl⟩)
    | validated _ inner _ at_ at' parts others _ h =>
      exact .inr (.validated false inner _ at_ at' parts others [] h)
  · -- the callee is the component, or the component wrapped by the validating function
    rintro (h | h)
    · obtain ⟨at_, parts, rfl⟩ := isReference_iff.mp h
      exact ⟨_, .plain optional span at_ parts arguments⟩
    · obtain ⟨kind, at_, parts⟩ := callee
      obtain ⟨⟨inner, rfl⟩, function, argument, others, rfl, hfunction, hargument⟩ := wraps_mk.mp h
      obtain ⟨at', parts, rfl⟩ := isReference_iff.mp hargument
      exact ⟨_, .validated optional inner span at_ at' parts others arguments
        (validates_iff.mp hfunction)⟩

/-- Parts tell by their sketches whether they make a call that wraps the component. -/
theorem wraps_map_sketch {span' : Span} :
    Wraps component (mk kind span' (parts.map (sketch component))) ↔
      Wraps component (mk kind span parts) := by
  have hnames := keepsNames_sketch component
  rw [wraps_mk, wraps_mk]
  -- a sketch keeps the kind; the parts are told by names, which it keeps as well
  refine and_congr_right fun _ => ?_
  constructor
  · rintro ⟨function, argument, others, hparts, hfunction, hargument⟩
    obtain ⟨function, rest, rfl, rfl, hrest⟩ := List.map_eq_cons_iff.mp hparts
    obtain ⟨argument, others, rfl, rfl, -⟩ := List.map_eq_cons_iff.mp hrest
    rw [hnames.validates_map] at hfunction
    rw [hnames.isReference_map] at hargument
    exact ⟨function, argument, others, rfl, hfunction, hargument⟩
  · rintro ⟨function, argument, others, rfl, hfunction, hargument⟩
    exact ⟨_, _, _, rfl, (hnames.validates_map function).trans hfunction,
      (hnames.isReference_map component argument).trans hargument⟩

/-- Calls whose parts have the same sketches wrap the component alike. -/
theorem wraps_congr {span' : Span} {parts' : List Node}
    (h : parts'.map (sketch component) = parts.map (sketch component)) :
    Wraps component (mk kind span' parts') ↔ Wraps component (mk kind span parts) := by
  rw [← @wraps_map_sketch component kind span' parts' span', h, wraps_map_sketch]

/-- A node renders a story exactly if its sketch does. -/
theorem exists_renders_sketch :
    (∃ shape, Renders component (node.sketch component) shape) ↔
      ∃ shape, Renders component node shape := by
  obtain ⟨kind, span, parts⟩ := node
  by_cases h : ∃ shape, Renders component (mk kind span parts) shape
  · refine iff_of_true ?_ h
    obtain ⟨optional, hkind⟩ := h.choose_spec.exists_kind
    obtain rfl : kind = .call optional := hkind
    rw [sketch_of_renders h.choose_spec]
    exact ⟨_, .plain optional _ _ [] []⟩
  · refine iff_of_false ?_ h
    rw [sketch_of_not_renders (not_exists.mp h)]
    rintro ⟨shape, hsketch⟩
    obtain ⟨optional, hkind⟩ := hsketch.exists_kind
    obtain rfl : kind = .call optional := hkind
    -- the callee of the sketch is the sketch of the callee
    rcases parts with _ | ⟨⟨inner, at_, innerParts⟩, arguments⟩
    · exact nomatch hsketch
    · rcases exists_renders_call.mp ⟨shape, hsketch⟩ with hcallee | hcallee
      · rw [(keepsNames_sketch component).isReference_map] at hcallee
        exact h (exists_renders_call.mpr (.inl hcallee))
      · by_cases hinner : ∃ shape, Renders component (mk inner at_ innerParts) shape
        · rw [sketch_of_renders hinner.choose_spec] at hcallee
          obtain ⟨-, _, _, _, hparts, -⟩ := wraps_mk.mp hcallee
          exact nomatch hparts
        · rw [sketch_of_not_renders (not_exists.mp hinner)] at hcallee
          exact h (exists_renders_call.mpr (.inr (wraps_map_sketch.mp hcallee)))

/-- Nodes with the same sketch render a story alike. -/
theorem exists_renders_congr {other : Node} (h : other.sketch component = node.sketch component) :
    (∃ shape, Renders component other shape) ↔ ∃ shape, Renders component node shape := by
  rw [← exists_renders_sketch, h, exists_renders_sketch]

/-! ## The calls that a sketch leaves out -/

/-- The outermost calls that render a story, without the statements that some of them are. -/
def renderingCalls (component : String) (nodes : List Node) : List Node :=
  (storyCallsAmong component nodes).map call

/-- A call that renders a story is a story call. -/
theorem isStoryCall_of_renders (h : Renders component node shape) :
    node.isStoryCall component = true :=
  Option.isSome_iff_exists.mpr ⟨shape, storyCallShape?_eq_some.mpr (.inl h)⟩

/-- A call that renders a story is the first of the rendering calls. -/
theorem renderingCalls_cons_of_renders {rest : List Node}
    (h : Renders component (mk kind span parts) shape) :
    renderingCalls component (mk kind span parts :: rest) =
      mk kind span parts :: renderingCalls component rest := by
  rw [renderingCalls, storyCallsAmong_cons_of_call (isStoryCall_of_renders h), List.map_cons,
    h.call_eq, renderingCalls]

/-- In any other node the rendering calls are those of its parts. -/
theorem renderingCalls_cons_of_not_renders {rest : List Node}
    (h : ∀ shape, ¬ Renders component (mk kind span parts) shape) :
    renderingCalls component (mk kind span parts :: rest) =
      renderingCalls component parts ++ renderingCalls component rest := by
  cases hc : (mk kind span parts).isStoryCall component with
  | false =>
    rw [renderingCalls, storyCallsAmong_cons_of_not_call hc, List.map_append]
    rfl
  | true =>
    -- a statement that is all of a validated call
    obtain ⟨shape, hshape⟩ := Option.isSome_iff_exists.mp hc
    rcases storyCallShape?_eq_some.mp hshape with
      hrenders | ⟨-, statement, ⟨inner, at_, rest⟩, heq, hcall⟩
    · exact absurd hrenders (h shape)
    · obtain ⟨rfl, -, rfl⟩ := mk.inj heq
      rw [renderingCalls, storyCallsAmong_cons_of_call hc, renderingCalls_cons_of_renders hcall]
      rfl

/-- Sketches tell the number of calls. -/
theorem length_renderingCalls_map_sketch (nodes : List Node) :
    (renderingCalls component (nodes.map (sketch component))).length =
      (renderingCalls component nodes).length := by
  induction nodes using forest_induction with
  | nil => rfl
  | cons kind span parts rest ihParts ihRest =>
    have hrenders := @exists_renders_sketch component (mk kind span parts)
    rw [List.map_cons]
    -- a call that renders a story counts once and is not searched
    by_cases h : ∃ shape, Renders component (mk kind span parts) shape
    · have hsketch := hrenders.mpr h
      rw [sketch_of_renders h.choose_spec, made] at hsketch ⊢
      rw [renderingCalls_cons_of_renders hsketch.choose_spec,
        renderingCalls_cons_of_renders h.choose_spec, List.length_cons, List.length_cons, ihRest]
    · have hsketch := mt hrenders.mp h
      rw [sketch_of_not_renders (not_exists.mp h), made] at hsketch ⊢
      rw [renderingCalls_cons_of_not_renders (not_exists.mp hsketch),
        renderingCalls_cons_of_not_renders (not_exists.mp h), List.length_append,
        List.length_append, ihParts, ihRest]

/-- A forest is told, up to spans, by its sketches and by the calls that render stories in it. -/
theorem map_eraseSpans_of_sketch {nodes others : List Node}
    (hsketch : nodes.map (sketch component) = others.map (sketch component))
    (hcalls : (renderingCalls component nodes).map eraseSpans =
      (renderingCalls component others).map eraseSpans) :
    nodes.map eraseSpans = others.map eraseSpans := by
  -- the two forests have their calls in the same places
  induction nodes using forest_induction generalizing others with
  | nil =>
    obtain rfl : others = [] := List.map_eq_nil_iff.mp hsketch.symm
    rfl
  | cons kind span parts rest ihParts ihRest =>
    obtain ⟨⟨kind', span', parts'⟩, rest', rfl, hhead, hrest⟩ :=
      List.map_eq_cons_iff.mp hsketch.symm
    obtain rfl : kind' = kind := by
      have := congrArg Node.kind hhead
      rwa [kind_sketch, kind_sketch] at this
    have hrenders := exists_renders_congr hhead
    by_cases h : ∃ shape, Renders component (mk kind' span parts) shape
    · rw [renderingCalls_cons_of_renders h.choose_spec,
        renderingCalls_cons_of_renders (hrenders.mpr h).choose_spec, List.map_cons,
        List.map_cons] at hcalls
      obtain ⟨hcall, hcalls⟩ := List.cons.inj hcalls
      rw [List.map_cons, List.map_cons, hcall, ihRest hrest.symm hcalls]
    · have h' := mt hrenders.mp h
      rw [renderingCalls_cons_of_not_renders (not_exists.mp h),
        renderingCalls_cons_of_not_renders (not_exists.mp h'), List.map_append,
        List.map_append] at hcalls
      rw [sketch_of_not_renders (not_exists.mp h),
        sketch_of_not_renders (not_exists.mp h')] at hhead
      have hparts := (mk.inj hhead).2.2
      have hlen : ((renderingCalls component parts).map eraseSpans).length =
          ((renderingCalls component parts').map eraseSpans).length := by
        rw [List.length_map, List.length_map, ← length_renderingCalls_map_sketch, ← hparts,
          length_renderingCalls_map_sketch]
      obtain ⟨hinner, hbehind⟩ := List.append_inj hcalls hlen
      rw [List.map_cons, List.map_cons, eraseSpans_mk, eraseSpans_mk, ihParts hparts.symm hinner,
        ihRest hrest.symm hbehind]

/-! ## Interchanging story calls -/

/-- A story call that may be put in the place of another one.  It must not wrap the component,
    unless the other one did: as the callee of a call it would make a story call of that call. -/
structure Interchange (component : String) (call other : Node) : Prop where
  isStoryCall : other.isStoryCall component = true
  sketch : other.sketch component = call.sketch component
  wraps : Wraps component other → Wraps component call

theorem Interchange.refl {call : Node} (h : call.isStoryCall component = true) :
    Interchange component call call :=
  ⟨h, rfl, id⟩

/-- Whether the first of some nodes wraps the component. -/
def HeadWraps (component : String) (nodes : List Node) : Prop :=
  nodes.head?.elim False (Wraps component)

/-- Parts with the sketches of others make no call either, if the first one wraps nothing new. -/
theorem not_renders_of_parts {parts' : List Node}
    (hsketch : parts'.map (Node.sketch component) = parts.map (Node.sketch component))
    (hwraps : HeadWraps component parts' → HeadWraps component parts)
    (h : ∀ shape, ¬ Renders component (mk kind span parts) shape) (shape : CallShape) :
    ¬ Renders component (mk kind span parts') shape := by
  intro hrenders
  obtain ⟨optional, hkind⟩ := hrenders.exists_kind
  obtain rfl : kind = .call optional := hkind
  rcases parts' with _ | ⟨callee', arguments'⟩
  · exact nomatch hrenders
  obtain ⟨callee, arguments, rfl, hcallee, -⟩ := List.map_eq_cons_iff.mp hsketch.symm
  -- if the new call rendered a story by its callee, the old one would
  refine absurd (exists_renders_call.mpr ?_) (not_exists.mpr h)
  rcases exists_renders_call.mp ⟨shape, hrenders⟩ with hreference | hwrapped
  · have hnames := keepsNames_sketch component
    rw [← hnames.isReference_map, ← hcallee, hnames.isReference_map] at hreference
    exact .inl hreference
  · exact .inr (hwraps hwrapped)

/-- Lists that are related to an appended list split where it does. -/
theorem exists_append_of_forall₂ {R : Node → Node → Prop} {first second calls : List Node}
    (h : List.Forall₂ R (first ++ second) calls) :
    ∃ a b, calls = a ++ b ∧ List.Forall₂ R first a ∧ List.Forall₂ R second b := by
  induction first generalizing calls with
  | nil => exact ⟨[], calls, rfl, .nil, h⟩
  | cons call first ih =>
    obtain ⟨other, others, hcall, hothers, rfl⟩ := List.forall₂_cons_left_iff.mp h
    obtain ⟨a, b, rfl, ha, hb⟩ := ih hothers
    exact ⟨other :: a, b, rfl, .cons hcall ha, hb⟩

/-- A forest after some story calls were put in the places of others: its sketches are as they were,
    the new calls are read, and its first node wraps the component only if it did. -/
theorem interchanged {nodes calls : List Node}
    (h : List.Forall₂ (Interchange component) (storyCallsAmong component nodes) calls) :
    (replaceCallsAmong component nodes calls).map (Node.sketch component) =
        nodes.map (Node.sketch component) ∧
      renderingCalls component (replaceCallsAmong component nodes calls) = calls.map call ∧
      (HeadWraps component (replaceCallsAmong component nodes calls) →
        HeadWraps component nodes) := by
  induction nodes using forest_induction generalizing calls with
  | nil =>
    obtain rfl := List.forall₂_nil_left_iff.mp h
    exact ⟨rfl, rfl, id⟩
  | cons kind span parts rest ihParts ihRest =>
    cases hc : (mk kind span parts).isStoryCall component with
    | true =>
      -- the first node is replaced as a whole
      rw [storyCallsAmong_cons_of_call hc] at h
      obtain ⟨⟨kind', span', parts'⟩, calls, hcall, hcalls, rfl⟩ := List.forall₂_cons_left_iff.mp h
      obtain ⟨hsketch, hread, -⟩ := ihRest hcalls
      rw [replaceCallsAmong_cons_of_call hc]
      refine ⟨?_, ?_, hcall.wraps⟩
      · rw [List.map_cons, List.map_cons, hcall.sketch, hsketch]
      · rw [renderingCalls, storyCallsAmong_cons_of_call hcall.isStoryCall, List.map_cons,
          List.map_cons]
        exact congrArg _ hread
    | false =>
      -- the calls split into those in the parts of the first node and those behind it
      rw [storyCallsAmong_cons_of_not_call hc] at h
      obtain ⟨here, behind, rfl, hhere, hbehind⟩ := exists_append_of_forall₂ h
      obtain ⟨hparts, hpartsRead, hpartsWrap⟩ := ihParts hhere
      obtain ⟨hrest, hrestRead, -⟩ := ihRest hbehind
      -- the first node does not become a call by what is put in it
      have hnode (shape : CallShape) : ¬ Renders component (mk kind span parts) shape :=
        fun hrenders => absurd (isStoryCall_of_renders hrenders) (Bool.eq_false_iff.mp hc)
      have hnode' := not_renders_of_parts hparts hpartsWrap hnode
      rw [replaceCallsAmong_cons_of_not_call hc _ hhere.length_eq.symm]
      refine ⟨?_, ?_, (wraps_congr hparts).mp⟩
      · rw [List.map_cons, List.map_cons, sketch_of_not_renders hnode, sketch_of_not_renders hnode',
          hparts, hrest]
      · rw [renderingCalls_cons_of_not_renders hnode', hpartsRead, hrestRead, List.map_append]

/-- Interchanging story calls keeps the sketches. -/
theorem map_sketch_replaceCallsAmong {nodes calls : List Node}
    (h : List.Forall₂ (Interchange component) (storyCallsAmong component nodes) calls) :
    (replaceCallsAmong component nodes calls).map (Node.sketch component) =
      nodes.map (Node.sketch component) :=
  (interchanged h).1

/-- The calls that were put in the places of others are read there. -/
theorem renderingCalls_replaceCallsAmong {nodes calls : List Node}
    (h : List.Forall₂ (Interchange component) (storyCallsAmong component nodes) calls) :
    renderingCalls component (replaceCallsAmong component nodes calls) = calls.map call :=
  (interchanged h).2.1

/-- The sketch of a call that renders a story only tells the kind of call. -/
theorem sketch_eq_of_renders {other : Node} {shape' : CallShape} (h : Renders component node shape)
    (h' : Renders component other shape') (hkind : other.kind = node.kind) :
    other.sketch component = node.sketch component := by
  obtain ⟨kind, span, parts⟩ := node
  obtain ⟨kind', span', parts'⟩ := other
  obtain rfl : kind' = kind := hkind
  rw [sketch_of_renders h, sketch_of_renders h']

/-- Nodes with the same outline render a story of the same shape. -/
theorem renders_congr {other : Node} (h : other.outline = node.outline) :
    Renders component other shape ↔ Renders component node shape := by
  rw [← callShape?_eq_some, ← callShape?_eq_some, ← callShape?_outline, h, callShape?_outline]

theorem kind_eq_of_outline {other : Node} (h : other.outline = node.outline) :
    other.kind = node.kind := by
  rw [← kind_outline, h, kind_outline]

/-- Story calls with the same outline may be interchanged. -/
theorem interchange_of_outline {call other : Node} (hcall : call.isStoryCall component = true)
    (h : other.outline = call.outline) : Interchange component call other := by
  have hcallee : [other].map outline = [call].map outline := congrArg (fun node => [node]) h
  refine ⟨(isStoryCall_congr component h).trans hcall, ?_,
    (renders_congr (outline_mk_congr (.call false) _ _ hcallee)).mp⟩
  -- the call renders a story, or it is a statement around one that does
  obtain ⟨shape, hshape⟩ := Option.isSome_iff_exists.mp hcall
  rcases storyCallShape?_eq_some.mp hshape with hrenders | ⟨-, statement, inner, rfl, hrenders⟩
  · exact sketch_eq_of_renders hrenders ((renders_congr h).mpr hrenders) (kind_eq_of_outline h)
  · -- both are statements, and the calls in them have the same outline
    obtain ⟨kind, span, parts⟩ := other
    obtain rfl : kind = .expression := kind_eq_of_outline h
    rw [outline_mk (by simp), outline_mk (by simp)] at h
    obtain ⟨inner', rest, rfl, hinner, hrest⟩ := List.map_eq_cons_iff.mp (mk.inj h).2.2
    obtain rfl := List.map_eq_nil_iff.mp hrest
    rw [sketch_of_not_renders (not_renders_of_kind (by simp)),
      sketch_of_not_renders (not_renders_of_kind (by simp)), List.map_cons, List.map_cons,
      sketch_eq_of_renders hrenders ((renders_congr hinner).mpr hrenders)
        (kind_eq_of_outline hinner)]

end SvelteStories.Script.Node
