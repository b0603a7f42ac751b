import Mathlib.Data.List.Forall2
import SvelteStories.Proofs.Location
import SvelteStories.Script.Parse

/-!
# Where story calls are found

The walk over a module finds the outermost calls that render a story: each of them, once, in source
order, and nothing else.  To say so, this module names the nodes of a tree by their paths and says
without the walk what a call that renders a story is.  In a tree whose spans are nested and in
source order, the places that are reported are disjoint and in source order as well.

## Key results

- `callShape?_eq_some`: the two shapes of a call that renders a story
- `mem_callPaths`, `pairwise_callPathsFrom`: the paths of the outermost calls, in source order
- `forall₂_stands`: the calls that the walk lists stand at these paths
- `storyCalls_outermost`: what is found in a module, and what is reported of it
-/

namespace SvelteStories.Script

open Text Diagnostic

namespace Node

variable {component : String} {kind : Kind} {span : Span} {parts : List Node} {tree node : Node}
  {path : List Nat} {shape : CallShape}

/-! ## Calls that render a story -/

/-- The validating function, or a member of that name of any object. -/
inductive IsValidating : Node → Prop
  | reference (span : Span) (parts : List Node) :
    IsValidating (mk (.reference validatingFunction) span parts)
  | member (optional : Bool) (span : Span) (object : Node) (at_ : Span) (parts : List Node) :
    IsValidating (mk (.member optional) span [object, mk (.name validatingFunction) at_ parts])

/-- A call that renders a story: the callee is the component, or a call of the validating function
    with the component as its first argument. -/
inductive Renders (component : String) : Node → CallShape → Prop
  | plain (optional : Bool) (span at_ : Span) (parts arguments : List Node) :
    Renders component
      (mk (.call optional) span (mk (.reference component) at_ parts :: arguments)) .plain
  | validated (optional inner : Bool) (span at_ at' : Span) {function : Node}
    (parts others arguments : List Node) (h : IsValidating function) :
    Renders component
      (mk (.call optional) span
        (mk (.call inner) at_ (function :: mk (.reference component) at' parts :: others) ::
          arguments))
      .validated

/-- A node refers to a name exactly if it is a reference with this name. -/
theorem isReference_iff {name : String} :
    node.isReference name = true ↔ ∃ span parts, node = mk (.reference name) span parts := by
  obtain ⟨kind, span, parts⟩ := node
  cases kind <;> simp [isReference]

/-- The lookup recognises the validating function and nothing else. -/
theorem validates_iff : node.validates = true ↔ IsValidating node := by
  constructor
  · intro h
    unfold validates at h
    -- the function is a member of that name, or a reference
    split at h
    · rename_i optional span object name at_ parts
      obtain rfl : name = validatingFunction := by simpa using h
      exact .member optional span object at_ parts
    · obtain ⟨span, parts, rfl⟩ := isReference_iff.mp h
      exact .reference span parts
  · rintro (⟨span, parts⟩ | ⟨optional, span, object, at_, parts⟩) <;> rfl

/-- A node has the shape of a story call exactly if it is a call that renders a story. -/
theorem callShape?_eq_some :
    node.callShape? component = some shape ↔ Renders component node shape := by
  constructor
  · intro h
    unfold callShape? at h
    -- the node is a call; its callee is the component, or a call itself
    split at h
    · rename_i optional span callee arguments
      split at h
      · rename_i hcallee
        obtain rfl := Option.some.inj h
        obtain ⟨at_, parts, rfl⟩ := isReference_iff.mp hcallee
        exact .plain optional span at_ parts arguments
      · split at h
        · rename_i inner at_ function argument others _
          split at h
          · -- the function validates, and its first argument is the component
            rename_i hinner
            obtain ⟨hfunction, hargument⟩ := Bool.and_eq_true_iff.mp hinner
            obtain rfl := Option.some.inj h
            obtain ⟨at', parts, rfl⟩ := isReference_iff.mp hargument
            exact .validated optional inner span at_ at' parts others arguments
              (validates_iff.mp hfunction)
          · exact nomatch h
        · exact nomatch h
    · exact nomatch h
  · rintro (⟨optional, span, at_, parts, arguments⟩ |
      ⟨optional, inner, span, at_, at', parts, others, arguments, hfunction⟩)
    · simp [callShape?, isReference]
    · simp [callShape?, isReference, validates_iff.mpr hfunction]

/-- A node has no shape exactly if it renders no story. -/
theorem callShape?_eq_none :
    node.callShape? component = none ↔ ∀ shape, ¬ Renders component node shape := by
  simp only [Option.eq_none_iff_forall_ne_some, ne_eq, callShape?_eq_some]

/-- A call that renders a story is its own call. -/
theorem Renders.call_eq (h : Renders component node shape) : node.call = node := by
  cases h <;> rfl

/-- What renders a story is a call. -/
theorem Renders.exists_kind (h : Renders component node shape) :
    ∃ optional, node.kind = .call optional := by
  cases h <;> exact ⟨_, rfl⟩

/-- What renders a story is no statement. -/
theorem Renders.kind_ne (h : Renders component node shape) : node.kind ≠ .expression := by
  obtain ⟨optional, hkind⟩ := h.exists_kind
  rw [hkind]
  exact Kind.noConfusion

/-- A story call is a call that renders a story, or a statement that is all of a validated one. -/
theorem storyCallShape?_eq_some :
    node.storyCallShape? component = some shape ↔
      Renders component node shape ∨ shape = .validated ∧ ∃ statement call,
        node = mk .expression statement [call] ∧ Renders component call .validated := by
  constructor
  · intro h
    unfold storyCallShape? at h
    -- a statement counts if all of it is a validated call; anything else counts as a call
    split at h
    · rename_i statement call
      split at h
      · rename_i hcall
        exact .inr ⟨(Option.some.inj h).symm, statement, call, rfl,
          callShape?_eq_some.mp (by simpa using hcall)⟩
      · exact nomatch h
    · exact .inl (callShape?_eq_some.mp h)
  · rintro (h | ⟨rfl, statement, call, rfl, h⟩)
    · rw [← callShape?_eq_some.mpr h]
      cases h <;> rfl
    · simp [storyCallShape?, callShape?_eq_some.mpr h]

/-- A statement that is all of a validated call is a story call. -/
theorem isStoryCall_statement {call : Node} (h : Renders component call .validated)
    (statement : Span) : (mk .expression statement [call]).isStoryCall component = true :=
  Option.isSome_iff_exists.mpr
    ⟨.validated, storyCallShape?_eq_some.mpr (.inr ⟨rfl, statement, call, rfl, h⟩)⟩

/-! ## Paths -/

/-- The node at a path.  Each step of a path is the index of a part. -/
def at? : Node → List Nat → Option Node
  | node, [] => some node
  | node, index :: path => node.parts[index]?.bind (·.at? path)

/-- There is a call that renders a story at a path, and none around it. -/
structure Outermost (component : String) (tree : Node) (path : List Nat) : Prop where
  here : ∃ call shape, tree.at? path = some call ∧ Renders component call shape
  around : ∀ n < path.length, ∀ above shape,
    tree.at? (path.take n) = some above → ¬ Renders component above shape

mutual

/-- The paths of the outermost calls that render a story. -/
def callPaths (component : String) : Node → List (List Nat)
  | mk kind span parts =>
    if ((mk kind span parts).callShape? component).isSome then [[]]
    else callPathsFrom component parts 0

/-- The paths of the outermost calls among parts of which the first has the given index. -/
def callPathsFrom (component : String) : List Node → Nat → List (List Nat)
  | [], _ => []
  | node :: rest, index =>
    (node.callPaths component).map (index :: ·) ++ callPathsFrom component rest (index + 1)

end

/-- A call that renders a story is its only outermost call. -/
theorem callPaths_of_renders (h : Renders component (mk kind span parts) shape) :
    (mk kind span parts).callPaths component = [[]] := by
  simp only [callPaths, callShape?_eq_some.mpr h, Option.isSome_some, ↓reduceIte]

/-- In any other node the outermost calls are those in its parts. -/
theorem callPaths_of_not_renders (h : ∀ shape, ¬ Renders component (mk kind span parts) shape) :
    (mk kind span parts).callPaths component = callPathsFrom component parts 0 := by
  simp only [callPaths, callShape?_eq_none.mpr h, Option.isSome_none,
    Bool.false_eq_true, ↓reduceIte]

/-- The only outermost call in a statement around a validated call is this call. -/
theorem callPaths_statement {call : Node} (h : Renders component call .validated)
    (statement : Span) : (mk .expression statement [call]).callPaths component = [[0]] := by
  obtain ⟨kind, span, parts⟩ := call
  rw [callPaths_of_not_renders fun shape hstatement => hstatement.kind_ne rfl, callPathsFrom,
    callPaths_of_renders h]
  rfl

/-- A path into some parts starts with the index of a part and goes on inside it. -/
theorem mem_callPathsFrom {nodes : List Node} {index : Nat} :
    path ∈ callPathsFrom component nodes index ↔
      ∃ i node below, nodes[i]? = some node ∧ below ∈ node.callPaths component ∧
        path = (index + i) :: below := by
  induction nodes generalizing index with
  | nil => simp [callPathsFrom]
  | cons node rest ih =>
    rw [callPathsFrom, List.mem_append, List.mem_map, ih]
    constructor
    · rintro (⟨below, hbelow, rfl⟩ | ⟨i, part, below, hpart, hbelow, rfl⟩)
      · exact ⟨0, node, below, rfl, hbelow, rfl⟩
      · exact ⟨i + 1, part, below, hpart, hbelow, by rw [Nat.add_right_comm, Nat.add_assoc]⟩
    · rintro ⟨i, part, below, hpart, hbelow, rfl⟩
      -- the path leads into the first part or into one of the others, whose indices are one less
      cases i with
      | zero =>
        obtain rfl := Option.some.inj hpart
        exact .inl ⟨below, hbelow, rfl⟩
      | succ i =>
        exact .inr ⟨i, part, below, hpart, hbelow, by rw [Nat.add_right_comm, Nat.add_assoc]⟩

/-- The empty path leads to the node itself, which has to render a story. -/
theorem outermost_nil : Outermost component node [] ↔ ∃ shape, Renders component node shape := by
  constructor
  · rintro ⟨⟨call, shape, hcall, hrenders⟩, -⟩
    obtain rfl := Option.some.inj hcall
    exact ⟨shape, hrenders⟩
  · rintro ⟨shape, hrenders⟩
    exact ⟨⟨node, shape, rfl, hrenders⟩, fun n hn => absurd hn (Nat.not_lt_zero n)⟩

/-- A path leads to an outermost call through a node that is no call and a part of it. -/
theorem outermost_cons {index : Nat} :
    Outermost component node (index :: path) ↔
      (∀ shape, ¬ Renders component node shape) ∧
        ∃ part, node.parts[index]? = some part ∧ Outermost component part path := by
  constructor
  · rintro ⟨⟨call, shape, hcall, hrenders⟩, haround⟩
    obtain ⟨part, hpart, hbelow⟩ := Option.bind_eq_some_iff.mp hcall
    refine ⟨fun shape => haround 0 (Nat.zero_lt_succ _) node shape rfl, part, hpart,
      ⟨call, shape, hbelow, hrenders⟩, fun n hn above shape habove => ?_⟩
    -- what is around the call in the part is around it in the node
    refine haround (n + 1) (Nat.succ_lt_succ hn) above shape ?_
    rw [List.take_succ_cons, at?, hpart, Option.bind_some, habove]
  · rintro ⟨hnode, part, hpart, ⟨call, shape, hcall, hrenders⟩, haround⟩
    refine ⟨⟨call, shape, ?_, hrenders⟩, fun n hn above shape habove => ?_⟩
    · rw [at?, hpart, Option.bind_some, hcall]
    · -- around the call are the node itself and what is around it in the part
      cases n with
      | zero =>
        obtain rfl := Option.some.inj habove
        exact hnode shape
      | succ n =>
        rw [List.take_succ_cons, at?, hpart, Option.bind_some] at habove
        exact haround n (Nat.lt_of_succ_lt_succ hn) above shape habove

/-- The walk finds the outermost calls and nothing else. -/
theorem mem_callPaths : path ∈ node.callPaths component ↔ Outermost component node path := by
  induction path generalizing node with
  | nil =>
    obtain ⟨kind, span, parts⟩ := node
    rw [outermost_nil]
    constructor
    · intro h
      -- the walk adds an index to each path that it takes from the parts
      by_contra hnot
      rw [callPaths_of_not_renders (not_exists.mp hnot), mem_callPathsFrom] at h
      obtain ⟨_, _, _, -, -, h⟩ := h
      exact nomatch h
    · rintro ⟨shape, hrenders⟩
      rw [callPaths_of_renders hrenders]
      exact List.mem_singleton_self []
  | cons index path ih =>
    obtain ⟨kind, span, parts⟩ := node
    rw [outermost_cons]
    -- inside a call that renders a story the walk looks for no other ones
    by_cases hrenders : ∃ shape, Renders component (mk kind span parts) shape
    · obtain ⟨shape, hrenders⟩ := hrenders
      rw [callPaths_of_renders hrenders]
      exact ⟨fun h => absurd (List.mem_singleton.mp h) (List.cons_ne_nil index path),
        fun h => absurd hrenders (h.1 shape)⟩
    · rw [callPaths_of_not_renders (not_exists.mp hrenders), mem_callPathsFrom,
        and_iff_right (not_exists.mp hrenders)]
      simp only [Nat.zero_add, List.cons.injEq]
      constructor
      · rintro ⟨_, part, _, hpart, hbelow, rfl, rfl⟩
        exact ⟨part, hpart, ih.mp hbelow⟩
      · rintro ⟨part, hpart, hbelow⟩
        exact ⟨index, part, path, hpart, ih.mpr hbelow, rfl, rfl⟩

/-- The paths are in source order: of two calls, the one that comes first has the first path. -/
theorem pairwise_callPathsFrom (nodes : List Node) (index : Nat) :
    (callPathsFrom component nodes index).Pairwise (· < ·) := by
  induction nodes using forest_induction generalizing index with
  | nil => exact List.Pairwise.nil
  | cons kind span parts rest ihParts ihRest =>
    have hnode : ((mk kind span parts).callPaths component).Pairwise (· < ·) := by
      by_cases hrenders : ∃ shape, Renders component (mk kind span parts) shape
      · rw [callPaths_of_renders hrenders.choose_spec]
        exact List.pairwise_singleton _ _
      · rw [callPaths_of_not_renders (not_exists.mp hrenders)]
        exact ihParts 0
    rw [callPathsFrom, List.pairwise_append, List.pairwise_map]
    refine ⟨hnode.imp fun h => List.cons_lt_cons_self.mpr h, ihRest (index + 1), ?_⟩
    -- the index of a node is before those of the nodes behind it
    intro first hfirst second hsecond
    obtain ⟨below, -, rfl⟩ := List.mem_map.mp hfirst
    obtain ⟨i, _, below', -, -, rfl⟩ := mem_callPathsFrom.mp hsecond
    exact List.cons_lt_cons_iff.mpr (.inl (by omega))

/-! ## Calls at their paths -/

/-- What is reported of the call at a path: its shape and its span or, if a validated call is all of
    a statement, the span of the statement. -/
inductive SiteAt (component : String) (tree : Node) : List Nat → StoryCall → Prop
  | plain {path : List Nat} {call : Node} (h : tree.at? path = some call)
    (hcall : Renders component call .plain) : SiteAt component tree path ⟨.plain, call.span⟩
  | statement {path : List Nat} {statement : Span} {call : Node}
    (h : tree.at? path = some (mk .expression statement [call]))
    (hcall : Renders component call .validated) :
    SiteAt component tree (path ++ [0]) ⟨.validated, statement⟩
  | validated {path : List Nat} {call : Node} (h : tree.at? path = some call)
    (hcall : Renders component call .validated)
    (hpart : ∀ statement, tree.at? path.dropLast ≠ some (mk .expression statement [call])) :
    SiteAt component tree path ⟨.validated, call.span⟩

/-- The call at a path has an object literal as its second argument. -/
def HasProps (tree : Node) (path : List Nat) : Prop :=
  ∃ optional span callee first at_ properties others,
    tree.at? path =
      some (mk (.call optional) span (callee :: first :: mk .object at_ properties :: others))

/-- A story call of the walk stands at a path, and its place is what is reported there. -/
structure Stands (component : String) (tree : Node) (path : List Nat) (call : Node) : Prop where
  here : tree.at? path = some call.call
  site : ∃ site, call.site? component = some site ∧ SiteAt component tree path site

/-- The call at a path has an object literal as its second argument exactly if the story call has
    props. -/
theorem Stands.hasProps_iff {call : Node} (h : Stands component tree path call) :
    HasProps tree path ↔ call.props?.isSome = true := by
  constructor
  · rintro ⟨optional, span, callee, first, at_, properties, others, hcall⟩
    -- the call at the path is the call of the node
    have heq := Option.some.inj (h.here.symm.trans hcall)
    simp only [props?, heq, properties?, Option.isSome_some]
  · intro hprops
    obtain ⟨properties, hprops⟩ := Option.isSome_iff_exists.mp hprops
    unfold props? at hprops
    split at hprops
    · rename_i optional span callee first props others hcall
      obtain ⟨at_, rfl⟩ := properties?_eq_some.mp hprops
      exact ⟨optional, span, callee, first, at_, properties, others,
        h.here.trans (congrArg some hcall)⟩
    · exact nomatch hprops

/-- What stands in a part of a node stands in the node, if the node is no story call. -/
theorem Stands.below {index : Nat} {call : Node} (htree : tree.isStoryCall component = false)
    (hpart : tree.parts[index]? = some node) (h : Stands component node path call) :
    Stands component tree (index :: path) call := by
  have hat (below : List Nat) : tree.at? (index :: below) = node.at? below := by
    rw [at?, hpart, Option.bind_some]
  obtain ⟨hhere, site, hsite, hreport⟩ := h
  refine ⟨(hat path).trans hhere, site, hsite, ?_⟩
  cases hreport with
  | plain h hcall => exact .plain ((hat _).trans h) hcall
  | statement h hcall => exact .statement ((hat _).trans h) hcall
  | validated h hcall hwhole =>
    refine .validated ((hat _).trans h) hcall fun statement hstatement => ?_
    cases path with
    | nil =>
      -- the node around the call would be a story call itself
      rw [Option.some.inj (show some tree = _ from hstatement),
        isStoryCall_statement hcall] at htree
      exact nomatch htree
    | cons next path =>
      rw [List.dropLast_cons_of_ne_nil (List.cons_ne_nil next path), hat] at hstatement
      exact hwhole statement hstatement

/-- A call that renders a story stands at the empty path. -/
theorem stands_of_renders (h : Renders component node shape) : Stands component node [] node := by
  refine ⟨congrArg some h.call_eq.symm, ⟨shape, node.span⟩, ?_, ?_⟩
  · rw [site?, storyCallShape?_eq_some.mpr (.inl h), Option.map_some]
  · cases shape with
    | plain => exact .plain rfl h
    | validated =>
      refine .validated rfl h fun statement hstatement => h.kind_ne ?_
      exact congrArg kind (Option.some.inj (show some node = _ from hstatement))

/-- A statement around a validated call stands at the path of the call. -/
theorem stands_statement {call : Node} (h : Renders component call .validated) (statement : Span) :
    Stands component (mk .expression statement [call]) [0] (mk .expression statement [call]) := by
  refine ⟨rfl, ⟨.validated, statement⟩, ?_,
    show SiteAt component _ ([] ++ [0]) _ from .statement rfl h⟩
  rw [site?, storyCallShape?_eq_some.mpr (.inr ⟨rfl, statement, call, rfl, h⟩), Option.map_some]
  rfl

/-- The story calls of the walk stand at the paths of the outermost calls. -/
theorem forall₂_stands_from (nodes : List Node) (index : Nat) (tree : Node)
    (htree : tree.isStoryCall component = false)
    (hparts : ∀ i node, nodes[i]? = some node → tree.parts[index + i]? = some node) :
    List.Forall₂ (Stands component tree) (callPathsFrom component nodes index)
      (storyCallsAmong component nodes) := by
  induction nodes using forest_induction generalizing index tree with
  | nil => exact List.Forall₂.nil
  | cons kind span parts rest ihParts ihRest =>
    have hnode : List.Forall₂ (Stands component (mk kind span parts))
        ((mk kind span parts).callPaths component) ((mk kind span parts).storyCalls component) := by
      cases hc : (mk kind span parts).isStoryCall component with
      | true =>
        rw [storyCalls_of_call hc]
        obtain ⟨shape, hshape⟩ := Option.isSome_iff_exists.mp hc
        rcases storyCallShape?_eq_some.mp hshape with hrenders | ⟨-, statement, call, heq, hrenders⟩
        · rw [callPaths_of_renders hrenders]
          exact .cons (stands_of_renders hrenders) .nil
        · -- the walk takes the whole statement
          rw [heq, callPaths_statement hrenders]
          exact .cons (stands_statement hrenders statement) .nil
      | false =>
        rw [storyCalls_of_not_call hc, callPaths_of_not_renders ?_]
        · exact ihParts 0 _ hc fun i node hnode => by rwa [Nat.zero_add]
        · -- a call that renders a story would be a story call
          intro shape hrenders
          rw [isStoryCall, storyCallShape?_eq_some.mpr (.inl hrenders)] at hc
          cases hc
    -- the paths into the first node get its index, those into the others are one further
    rw [callPathsFrom, storyCallsAmong_cons]
    refine List.rel_append ?_ (ihRest (index + 1) tree htree fun i node hnode => ?_)
    · rw [List.forall₂_map_left_iff]
      exact hnode.imp fun path call h => h.below htree (hparts 0 _ rfl)
    · rw [Nat.add_right_comm, Nat.add_assoc]
      exact hparts (i + 1) node hnode

/-! ## Spans in source order -/

mutual

/-- Whether the spans of a tree are nested and in source order.  Only nodes with parts count: a name
    that is written once may stand for two nodes, and a part that is left out has no place. -/
def inOrder : Node → Bool
  | mk _ span parts => decide (span.start < span.stop) && inOrderBetween parts span.start span.stop

/-- Whether the spans of the given trees are nested, and in source order between two offsets. -/
def inOrderBetween : (nodes : List Node) → (start stop : Nat) → Bool
  | [], start, stop => decide (start ≤ stop)
  | node :: rest, start, stop =>
    if node.parts.isEmpty then inOrderBetween rest start stop
    else decide (start ≤ node.span.start) && node.inOrder && inOrderBetween rest node.span.stop stop

end

theorem storyCalls_of_parts_nil (kind : Kind) (span : Span) :
    (mk kind span []).storyCalls component = [] := by
  refine storyCalls_of_not_call ?_
  cases kind <;> rfl

/-- The spans of a list are in order if those of its first node are, and those of the others behind
    it. -/
theorem inOrderBetween_cons {part : Node} {rest : List Node} {start stop : Nat} :
    inOrderBetween (mk kind span (part :: parts) :: rest) start stop = true ↔
      start ≤ span.start ∧ span.start < span.stop ∧
        inOrderBetween (part :: parts) span.start span.stop = true ∧
        inOrderBetween rest span.stop stop = true := by
  show (decide (start ≤ span.start) && (decide (span.start < span.stop) &&
    inOrderBetween (part :: parts) span.start span.stop) && inOrderBetween rest span.stop stop) =
      true ↔ _
  simp only [Bool.and_eq_true, decide_eq_true_eq, and_assoc]

/-- Trees in order between two offsets leave these in order. -/
theorem le_of_inOrderBetween {nodes : List Node} {start stop : Nat}
    (h : inOrderBetween nodes start stop = true) : start ≤ stop := by
  induction nodes generalizing start with
  | nil => exact of_decide_eq_true h
  | cons node rest ih =>
    obtain ⟨kind, span, _ | ⟨part, parts⟩⟩ := node
    · exact ih h
    · obtain ⟨hstart, hspan, -, hrest⟩ := inOrderBetween_cons.mp h
      have := ih hrest
      omega

/-- In trees with spans in source order, the story calls are disjoint and in source order. -/
theorem span_storyCallsAmong {nodes : List Node} {start stop : Nat}
    (h : inOrderBetween nodes start stop = true) :
    (storyCallsAmong component nodes).Pairwise (fun call next => call.span.stop ≤ next.span.start) ∧
      ∀ call ∈ storyCallsAmong component nodes,
        start ≤ call.span.start ∧ call.span.start < call.span.stop ∧ call.span.stop ≤ stop := by
  induction nodes using forest_induction generalizing start stop with
  | nil => exact ⟨.nil, fun _ hcall => nomatch hcall⟩
  | cons kind span parts rest ihParts ihRest =>
    rw [storyCallsAmong_cons]
    rcases parts with _ | ⟨part, parts⟩
    · rw [storyCalls_of_parts_nil, List.nil_append]
      exact ihRest h
    obtain ⟨hstart, hspan, hparts, hrest⟩ := inOrderBetween_cons.mp h
    have hstop := le_of_inOrderBetween hrest
    obtain ⟨hrestOrder, hrestBounds⟩ := ihRest hrest
    -- the story calls of the first node lie in its span
    have hnode : ((mk kind span (part :: parts)).storyCalls component).Pairwise
        (fun call next => call.span.stop ≤ next.span.start) ∧
        ∀ call ∈ (mk kind span (part :: parts)).storyCalls component,
          span.start ≤ call.span.start ∧ call.span.start < call.span.stop ∧
            call.span.stop ≤ span.stop := by
      cases hc : (mk kind span (part :: parts)).isStoryCall component with
      | true =>
        rw [storyCalls_of_call hc]
        refine ⟨List.pairwise_singleton _ _, fun call hcall => ?_⟩
        obtain rfl := List.mem_singleton.mp hcall
        exact ⟨Nat.le_refl _, hspan, Nat.le_refl _⟩
      | false =>
        rw [storyCalls_of_not_call hc]
        exact ihParts hparts
    -- they end before the nodes behind it start
    refine ⟨List.pairwise_append.mpr ⟨hnode.1, hrestOrder, fun call hcall next hnext => ?_⟩,
      fun call hcall => ?_⟩
    · exact Nat.le_trans (hnode.2 call hcall).2.2 (hrestBounds next hnext).1
    · rcases List.mem_append.mp hcall with hcall | hcall
      · have := hnode.2 call hcall
        omega
      · have := hrestBounds call hcall
        omega

end Node

/-! ## What is found in a module -/

namespace Module

variable {module : Module} {filename component : String} {found : List StoryCall}

/-- The tree of a module, with its statements as parts. -/
def tree (module : Module) : Node :=
  .made (.body module.directives) module.statements

/-- Whether the spans of a module are nested, in source order, and inside the source. -/
def isInOrder (module : Module) : Bool :=
  Node.inOrderBetween module.statements 0 (byteLength module.source)

/-- The story calls of a module stand at the paths of the outermost calls. -/
theorem forall₂_stands (module : Module) (component : String) :
    List.Forall₂ (Node.Stands component module.tree) (module.tree.callPaths component)
      (Node.storyCallsAmong component module.statements) := by
  rw [tree, Node.made, Node.callPaths_of_not_renders fun shape h => by cases h]
  exact Node.forall₂_stands_from module.statements 0 _ rfl fun i node hnode => by
    rwa [Nat.zero_add]

/-- The paths of the outermost calls are in lexicographic order. -/
theorem pairwise_callPaths (module : Module) (component : String) :
    (module.tree.callPaths component).Pairwise (· < ·) := by
  rw [tree, Node.made, Node.callPaths_of_not_renders fun shape h => by cases h]
  exact Node.pairwise_callPathsFrom module.statements 0

/-- What is found are the places of the story calls. -/
theorem forall₂_siteAt (h : module.storyCalls filename component = .ok found) :
    List.Forall₂ (Node.SiteAt component module.tree) (module.tree.callPaths component) found := by
  obtain ⟨-, hfound⟩ := storyCalls_eq_ok.mp h
  obtain rfl : found = (Node.storyCallsAmong component module.statements).filterMap
    (Node.site? component) := hfound
  have hstands := forall₂_stands module component
  -- the lists of paths and of calls are gone through side by side
  generalize module.tree.callPaths component = paths,
    Node.storyCallsAmong component module.statements = calls at hstands ⊢
  induction hstands with
  | nil => exact .nil
  | cons hcall _ ih =>
    obtain ⟨site, hsite, hreport⟩ := hcall.site
    rw [List.filterMap_cons_some hsite]
    exact .cons hreport ih

/-- In a module with spans in source order, the places of the story calls are disjoint and in source
    order. -/
theorem pairwise_span_found (h : module.storyCalls filename component = .ok found)
    (horder : module.isInOrder = true) :
    found.Pairwise fun site next =>
      site.span.stop ≤ next.span.start ∧ site.span.start < next.span.start := by
  obtain ⟨-, rfl⟩ := storyCalls_eq_ok.mp h
  obtain ⟨hpairwise, hbounds⟩ := Node.span_storyCallsAmong horder
  -- a story call takes some text, so the one behind it starts later
  have hstarts := hpairwise.imp_of_mem fun {call next} hcall _ hstop =>
    show call.span.stop ≤ next.span.start ∧ call.span.start < next.span.start from
      ⟨hstop, Nat.lt_of_lt_of_le (hbounds call hcall).2.1 hstop⟩
  refine hstarts.filterMap _ fun call next hcall site hsite site' hsite' => ?_
  obtain ⟨_, -, rfl⟩ := Option.map_eq_some_iff.mp hsite
  obtain ⟨_, -, rfl⟩ := Option.map_eq_some_iff.mp hsite'
  exact hcall

/-- What is related to a list has a counterpart for each of its members. -/
theorem exists_mem_of_forall₂ {α β : Type} {R : α → β → Prop} {first : List α} {second : List β}
    (h : List.Forall₂ R first second) {a : α} (ha : a ∈ first) : ∃ b ∈ second, R a b := by
  induction h with
  | nil => exact nomatch ha
  | cons hhead _ ih =>
    rcases List.mem_cons.mp ha with rfl | ha
    · exact ⟨_, List.mem_cons_self, hhead⟩
    · obtain ⟨b, hb, hab⟩ := ih ha
      exact ⟨b, List.mem_cons_of_mem _ hb, hab⟩

/-- Finding fails at the first outermost call without a props object. -/
theorem storyCalls_eq_error {report : Report}
    (h : module.storyCalls filename component = .error report) :
    ∃ path site, Node.Outermost component module.tree path ∧ ¬ Node.HasProps module.tree path ∧
      (∀ earlier < path, Node.Outermost component module.tree earlier →
        Node.HasProps module.tree earlier) ∧
      Node.SiteAt component module.tree path site ∧
      report = (Problem.storyProps (position module.source site.span.start)
        ((site.span.slice? module.source).map String.ofList)).report filename := by
  simp only [storyCalls] at h
  split at h
  · rename_i call hfind
    obtain rfl := Except.error.inj h
    -- the call is the first one without a props object
    rw [List.find?_eq_some_iff_append] at hfind
    obtain ⟨hmissing, before, after, hcalls, hbefore⟩ := hfind
    have hstands := forall₂_stands module component
    rw [hcalls] at hstands
    -- the paths come in the pieces that the calls come in
    obtain ⟨path, later, hcall, -, hdrop⟩ :=
      List.forall₂_cons_right_iff.mp (List.forall₂_drop_append _ _ _ hstands)
    have hearlier := List.forall₂_take_append _ _ _ hstands
    have hpaths := List.take_append_drop before.length (module.tree.callPaths component)
    rw [hdrop] at hpaths
    generalize (module.tree.callPaths component).take before.length = first at hearlier hpaths
    obtain ⟨site, hsite, hreport⟩ := hcall.site
    obtain ⟨shape, -, rfl⟩ := Option.map_eq_some_iff.mp hsite
    refine ⟨path, _, ?_, ?_, fun earlier hlt houtermost => ?_, hreport, rfl⟩
    · rw [← Node.mem_callPaths, ← hpaths]
      exact List.mem_append_right first List.mem_cons_self
    · rw [hcall.hasProps_iff]
      simpa using hmissing
    · -- an earlier path belongs to an earlier call, and that call has a props object
      have hmem : earlier ∈ first := by
        have hordered := pairwise_callPaths module component
        rw [← Node.mem_callPaths, ← hpaths, List.mem_append, List.mem_cons] at houtermost
        rw [← hpaths, List.pairwise_append, List.pairwise_cons] at hordered
        rcases houtermost with hmem | rfl | hmem
        · exact hmem
        · exact absurd hlt (List.lt_irrefl earlier)
        · exact absurd hlt (List.lt_asymm (hordered.2.1.1 earlier hmem))
      obtain ⟨other, hother, hstandsOther⟩ := exists_mem_of_forall₂ hearlier hmem
      rw [hstandsOther.hasProps_iff]
      simpa using hbefore other hother
  · cases h

/-- The outermost calls that render a story are found completely, once, and in source order, and
    their places are disjoint and in source order if all spans are.  Finding fails exactly if one of
    these calls has no object literal as its second argument, and reports the first that has
    none. -/
theorem storyCalls_outermost (module : Module) (filename component : String) :
    (∀ found, module.storyCalls filename component = .ok found →
      (∃ paths : List (List Nat), paths.Pairwise (· < ·) ∧
        (∀ path, path ∈ paths ↔ Node.Outermost component module.tree path) ∧
        List.Forall₂ (Node.SiteAt component module.tree) paths found) ∧
      (module.isInOrder = true → found.Pairwise fun site next =>
        site.span.stop ≤ next.span.start ∧ site.span.start < next.span.start)) ∧
    ((∃ report, module.storyCalls filename component = .error report) ↔
      ∃ path, Node.Outermost component module.tree path ∧ ¬ Node.HasProps module.tree path) ∧
    ∀ report, module.storyCalls filename component = .error report →
      ∃ path site, Node.Outermost component module.tree path ∧ ¬ Node.HasProps module.tree path ∧
        (∀ earlier < path, Node.Outermost component module.tree earlier →
          Node.HasProps module.tree earlier) ∧
        Node.SiteAt component module.tree path site ∧
        report = (Problem.storyProps (position module.source site.span.start)
          ((site.span.slice? module.source).map String.ofList)).report filename := by
  refine ⟨fun found hfound =>
    ⟨⟨module.tree.callPaths component, pairwise_callPaths module component,
      fun path => Node.mem_callPaths, forall₂_siteAt hfound⟩, pairwise_span_found hfound⟩, ?_,
    fun report => storyCalls_eq_error⟩
  constructor
  · rintro ⟨report, hreport⟩
    obtain ⟨path, _, houtermost, hprops, -⟩ := storyCalls_eq_error hreport
    exact ⟨path, houtermost, hprops⟩
  · rintro ⟨path, houtermost, hprops⟩
    cases hfound : module.storyCalls filename component with
    | error report => exact ⟨report, rfl⟩
    | ok found =>
      -- all story calls that are found have a props object
      obtain ⟨call, hcall, hstands⟩ := exists_mem_of_forall₂ (forall₂_stands module component)
        (Node.mem_callPaths.mpr houtermost)
      exact absurd (hstands.hasProps_iff.mpr ((storyCalls_eq_ok.mp hfound).1 call hcall)) hprops

/-- A story call in either shape, one of them in a branch. -/
def shapesSource : String :=
  "Story(a, \x7b\x7d);\nif (b) $.validate_component(Story)(c, \x7b\x7d);"

/-- The validated call is all of a statement, so the place of the statement is found. -/
theorem storyCalls_shapesSource :
    ∃ module, parse? shapesSource false = some module ∧ module.isInOrder = true ∧
      module.storyCalls "Shapes.stories.svelte" storyComponent =
        .ok [⟨.plain, ⟨0, 12⟩⟩, ⟨.validated, ⟨21, 56⟩⟩] ∧
      (∃ paths : List (List Nat), paths.Pairwise (· < ·) ∧
        (∀ path, path ∈ paths ↔ Node.Outermost storyComponent module.tree path) ∧
        List.Forall₂ (Node.SiteAt storyComponent module.tree) paths
          [⟨.plain, ⟨0, 12⟩⟩, ⟨.validated, ⟨21, 56⟩⟩]) ∧
      [StoryCall.mk .plain ⟨0, 12⟩, ⟨.validated, ⟨21, 56⟩⟩].Pairwise fun site next =>
        site.span.stop ≤ next.span.start ∧ site.span.start < next.span.start := by
  have hparsed : (parse? shapesSource false).map (fun module =>
      (module.isInOrder, (module.storyCalls "Shapes.stories.svelte" storyComponent).toOption)) =
      some (true, some [⟨.plain, ⟨0, 12⟩⟩, ⟨.validated, ⟨21, 56⟩⟩]) := by decide +kernel
  obtain ⟨module, hmodule, heq⟩ := Option.map_eq_some_iff.mp hparsed
  obtain ⟨horder, hsites⟩ := Prod.mk.inj heq
  cases hfound : module.storyCalls "Shapes.stories.svelte" storyComponent with
  | error report =>
    rw [hfound] at hsites
    exact nomatch hsites
  | ok found =>
    rw [hfound] at hsites
    obtain rfl := Option.some.inj hsites
    obtain ⟨hpaths, hspans⟩ := (storyCalls_outermost module _ storyComponent).1 _ hfound
    exact ⟨module, hmodule, horder, hfound, hpaths, hspans horder⟩

end Module

end SvelteStories.Script
