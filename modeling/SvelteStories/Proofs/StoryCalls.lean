import SvelteStories.Proofs.ObjectPath
import SvelteStories.Proofs.Outline

/-!
# Story calls as parts of a forest

`storyCallsAmong` reads the outermost story calls of a forest and `editCallsAmong` runs an edit over
them.  `replaceCallsAmong` puts other nodes in their places and rebuilds everything around them as
it was; together with the reader it obeys the laws of a lens, as long as the new calls have the
outlines of the old ones.  A run of edits is then a run over the list of calls, with no tree in
sight.

## Key results

- `replaceCallsAmong_storyCallsAmong`, `storyCallsAmong_replaceCallsAmong`,
  `replaceCallsAmong_replaceCallsAmong`: the laws
- `run_editCallsAmong`: a run of edits over a forest is a run over its story calls
-/

namespace SvelteStories.Script.Node

open Text

variable {component : String} {kind : Kind} {span : Span} {parts rest : List Node}

/-- Whether a node is a story call. -/
def isStoryCall (component : String) (node : Node) : Bool :=
  (node.storyCallShape? component).isSome

/-- Nodes with the same outline are story calls alike. -/
theorem isStoryCall_congr (component : String) {node other : Node}
    (h : node.outline = other.outline) :
    node.isStoryCall component = other.isStoryCall component := by
  unfold isStoryCall
  rw [← storyCallShape?_outline, h, storyCallShape?_outline]

/-- Induction over a forest: over the parts of its first node and over the nodes behind it. -/
theorem forest_induction {P : List Node → Prop} (nil : P [])
    (cons : ∀ kind span parts rest, P parts → P rest → P (mk kind span parts :: rest)) :
    ∀ nodes, P nodes
  | [] => nil
  | mk kind span parts :: rest =>
    cons kind span parts rest (forest_induction nil cons parts) (forest_induction nil cons rest)

/-! ## Reading -/

/-- A story call is its only story call, as none is looked for inside it. -/
theorem storyCalls_of_call (h : (mk kind span parts).isStoryCall component = true) :
    (mk kind span parts).storyCalls component = [mk kind span parts] := by
  unfold isStoryCall at h
  simp only [storyCalls, h, ↓reduceIte]

/-- Any other node has the story calls of its parts. -/
theorem storyCalls_of_not_call (h : (mk kind span parts).isStoryCall component = false) :
    (mk kind span parts).storyCalls component = storyCallsAmong component parts := by
  unfold isStoryCall at h
  simp only [storyCalls, h, Bool.false_eq_true, ↓reduceIte]

theorem storyCallsAmong_cons (node : Node) (rest : List Node) :
    storyCallsAmong component (node :: rest) =
      node.storyCalls component ++ storyCallsAmong component rest := rfl

/-- A story call in front of a list is the first of its story calls. -/
theorem storyCallsAmong_cons_of_call (h : (mk kind span parts).isStoryCall component = true) :
    storyCallsAmong component (mk kind span parts :: rest) =
      mk kind span parts :: storyCallsAmong component rest := by
  rw [storyCallsAmong_cons, storyCalls_of_call h, List.singleton_append]

/-- Any other node in front of a list gives way to its parts. -/
theorem storyCallsAmong_cons_of_not_call (h : (mk kind span parts).isStoryCall component = false) :
    storyCallsAmong component (mk kind span parts :: rest) =
      storyCallsAmong component parts ++ storyCallsAmong component rest := by
  rw [storyCallsAmong_cons, storyCalls_of_not_call h]

/-- The story calls of two lists one after the other. -/
theorem storyCallsAmong_append (nodes others : List Node) :
    storyCallsAmong component (nodes ++ others) =
      storyCallsAmong component nodes ++ storyCallsAmong component others := by
  induction nodes with
  | nil => rfl
  | cons node nodes ih =>
    rw [List.cons_append, storyCallsAmong_cons, storyCallsAmong_cons, ih, List.append_assoc]

/-- What is read are story calls. -/
theorem isStoryCall_of_mem {call : Node} {nodes : List Node}
    (h : call ∈ storyCallsAmong component nodes) : call.isStoryCall component = true := by
  induction nodes using forest_induction with
  | nil => exact nomatch h
  | cons kind span parts rest ihParts ihRest =>
    -- a call is listed itself, any other node lists the calls in its parts
    cases hc : (mk kind span parts).isStoryCall component with
    | true =>
      rw [storyCallsAmong_cons_of_call hc, List.mem_cons] at h
      rcases h with rfl | h
      · exact hc
      · exact ihRest h
    | false =>
      rw [storyCallsAmong_cons_of_not_call hc, List.mem_append] at h
      exact h.elim ihParts ihRest

/-- The story calls of a list, node by node. -/
theorem storyCallsAmong_eq_flatMap (nodes : List Node) :
    storyCallsAmong component nodes = nodes.flatMap (storyCalls component) := by
  induction nodes with
  | nil => rfl
  | cons node nodes ih => rw [storyCallsAmong_cons, ih, List.flatMap_cons]

/-- Story calls are collected from all parts of properties and object literals. -/
theorem collectsParts_storyCalls (component : String) : CollectsParts (storyCalls component) where
  property _ _ _ _ _ := by rw [storyCalls_of_not_call rfl, storyCallsAmong_eq_flatMap]
  object _ _ := by rw [storyCalls_of_not_call rfl, storyCallsAmong_eq_flatMap]
  name _ _ _ := by rw [storyCalls_of_not_call rfl, storyCallsAmong_eq_flatMap]
  ofString _ := by rw [ofString, made, storyCalls_of_not_call rfl, storyCallsAmong]

/-! ## Replacing -/

mutual

/-- A node with other nodes in the places of its story calls. -/
def replaceCalls (component : String) : Node → List Node → Node
  | mk kind span parts, calls =>
    if (mk kind span parts).isStoryCall component then calls.headD (mk kind span parts)
    else mk kind span (replaceCallsAmong component parts calls)

/-- The given nodes with other nodes in the places of their story calls, in source order. -/
def replaceCallsAmong (component : String) : (nodes calls : List Node) → List Node
  | [], _ => []
  | node :: rest, calls =>
    let here := (node.storyCalls component).length
    node.replaceCalls component (calls.take here) ::
      replaceCallsAmong component rest (calls.drop here)

end

/-- In a node that is no story call, the calls in its parts are replaced. -/
theorem replaceCalls_of_not_call (h : (mk kind span parts).isStoryCall component = false)
    (calls : List Node) : (mk kind span parts).replaceCalls component calls =
      mk kind span (replaceCallsAmong component parts calls) := by
  simp only [replaceCalls, h, Bool.false_eq_true, ↓reduceIte]

/-- The first node of a list takes as many calls as it has story calls. -/
theorem replaceCallsAmong_cons {node : Node} {here : List Node} (calls : List Node)
    (hlen : here.length = (node.storyCalls component).length) :
    replaceCallsAmong component (node :: rest) (here ++ calls) =
      node.replaceCalls component here :: replaceCallsAmong component rest calls := by
  simp only [replaceCallsAmong, List.take_left' hlen, List.drop_left' hlen]

/-- Calls that are as many as two lists of calls come in two pieces. -/
theorem exists_append_of_length {calls first second : List Node}
    (h : calls.length = first.length + second.length) :
    ∃ a b, calls = a ++ b ∧ a.length = first.length ∧ b.length = second.length := by
  refine ⟨calls.take first.length, calls.drop first.length,
    (List.take_append_drop _ _).symm, ?_, ?_⟩
  · rw [List.length_take]
    omega
  · rw [List.length_drop]
    omega

/-- Of two lists one after the other, the first takes as many calls as it has story calls. -/
theorem replaceCallsAmong_append {nodes others here : List Node} (calls : List Node)
    (hlen : here.length = (storyCallsAmong component nodes).length) :
    replaceCallsAmong component (nodes ++ others) (here ++ calls) =
      replaceCallsAmong component nodes here ++ replaceCallsAmong component others calls := by
  induction nodes generalizing here with
  | nil =>
    obtain rfl : here = [] := List.length_eq_zero_iff.mp hlen
    rfl
  | cons node nodes ih =>
    rw [storyCallsAmong_cons, List.length_append] at hlen
    -- the calls of the first node, and those of the nodes behind it
    obtain ⟨first, second, rfl, hfirst, hsecond⟩ := exists_append_of_length hlen
    rw [List.append_assoc, List.cons_append, replaceCallsAmong_cons _ hfirst,
      replaceCallsAmong_cons _ hfirst, ih hsecond, List.cons_append]

/-- A list has as many nodes after its story calls were replaced. -/
theorem length_replaceCallsAmong (nodes calls : List Node) :
    (replaceCallsAmong component nodes calls).length = nodes.length := by
  induction nodes generalizing calls with
  | nil => rfl
  | cons node rest ih => rw [replaceCallsAmong, List.length_cons, List.length_cons, ih]

/-- A story call in front of a list makes room for the first of the calls. -/
theorem replaceCallsAmong_cons_of_call (h : (mk kind span parts).isStoryCall component = true)
    (call : Node) (calls : List Node) :
    replaceCallsAmong component (mk kind span parts :: rest) (call :: calls) =
      call :: replaceCallsAmong component rest calls := by
  simp only [replaceCallsAmong, replaceCalls, storyCalls_of_call h, h, ↓reduceIte,
    List.length_singleton, List.take_succ_cons, List.take_zero, List.headD_cons,
    List.drop_succ_cons, List.drop_zero]

/-- Any other node in front of a list keeps its kind, and the calls in its parts are replaced. -/
theorem replaceCallsAmong_cons_of_not_call
    (h : (mk kind span parts).isStoryCall component = false) {here : List Node}
    (calls : List Node) (hlen : here.length = (storyCallsAmong component parts).length) :
    replaceCallsAmong component (mk kind span parts :: rest) (here ++ calls) =
      mk kind span (replaceCallsAmong component parts here) ::
        replaceCallsAmong component rest calls := by
  simp only [replaceCallsAmong, replaceCalls, storyCalls_of_not_call h, h, Bool.false_eq_true,
    ↓reduceIte, List.take_left' hlen, List.drop_left' hlen]

/-- Calls that match the story calls of a node and of the nodes behind it come in two pieces. -/
theorem exists_append_of_map_outline {calls first second : List Node}
    (h : calls.map outline = (first ++ second).map outline) :
    ∃ a b, calls = a ++ b ∧ a.map outline = first.map outline ∧
      b.map outline = second.map outline := by
  rw [List.map_append] at h
  obtain ⟨a, b, rfl, ha, hb⟩ := List.map_eq_append_iff.mp h
  exact ⟨a, b, rfl, ha, hb⟩

theorem length_eq_of_map_outline {calls others : List Node}
    (h : calls.map outline = others.map outline) : calls.length = others.length := by
  simpa using congrArg List.length h

/-- Putting back what is there changes nothing. -/
theorem replaceCallsAmong_storyCallsAmong (nodes : List Node) :
    replaceCallsAmong component nodes (storyCallsAmong component nodes) = nodes := by
  induction nodes using forest_induction with
  | nil => rfl
  | cons kind span parts rest ihParts ihRest =>
    cases hc : (mk kind span parts).isStoryCall component with
    | true => rw [storyCallsAmong_cons_of_call hc, replaceCallsAmong_cons_of_call hc, ihRest]
    | false =>
      rw [storyCallsAmong_cons_of_not_call hc, replaceCallsAmong_cons_of_not_call hc _ rfl, ihParts,
        ihRest]

/-- Calls with the outlines of the old ones leave all outlines as they were. -/
theorem map_outline_replaceCallsAmong {nodes calls : List Node}
    (h : calls.map outline = (storyCallsAmong component nodes).map outline) :
    (replaceCallsAmong component nodes calls).map outline = nodes.map outline := by
  -- the two lists are used up together: each node takes as many calls as it has
  induction nodes using forest_induction generalizing calls with
  | nil => rfl
  | cons kind span parts rest ihParts ihRest =>
    cases hc : (mk kind span parts).isStoryCall component with
    | true =>
      rw [storyCallsAmong_cons_of_call hc, List.map_cons] at h
      obtain ⟨call, calls, rfl, hcall, hcalls⟩ := List.map_eq_cons_iff.mp h
      rw [replaceCallsAmong_cons_of_call hc, List.map_cons, List.map_cons, hcall, ihRest hcalls]
    | false =>
      rw [storyCallsAmong_cons_of_not_call hc] at h
      obtain ⟨here, calls, rfl, hhere, hcalls⟩ := exists_append_of_map_outline h
      rw [replaceCallsAmong_cons_of_not_call hc _ (length_eq_of_map_outline hhere), List.map_cons,
        List.map_cons, ihRest hcalls, outline_mk_congr kind span span (ihParts hhere)]

/-- What was put in the places of the story calls is read there. -/
theorem storyCallsAmong_replaceCallsAmong {nodes calls : List Node}
    (h : calls.map outline = (storyCallsAmong component nodes).map outline) :
    storyCallsAmong component (replaceCallsAmong component nodes calls) = calls := by
  induction nodes using forest_induction generalizing calls with
  | nil =>
    obtain rfl : calls = [] := by simpa [storyCallsAmong] using h
    rfl
  | cons kind span parts rest ihParts ihRest =>
    cases hc : (mk kind span parts).isStoryCall component with
    | true =>
      rw [storyCallsAmong_cons_of_call hc, List.map_cons] at h
      obtain ⟨⟨callKind, callSpan, callParts⟩, calls, rfl, hcall, hcalls⟩ :=
        List.map_eq_cons_iff.mp h
      rw [replaceCallsAmong_cons_of_call hc,
        storyCallsAmong_cons_of_call ((isStoryCall_congr component hcall).trans hc), ihRest hcalls]
    | false =>
      rw [storyCallsAmong_cons_of_not_call hc] at h
      obtain ⟨here, calls, rfl, hhere, hcalls⟩ := exists_append_of_map_outline h
      -- what is put into the parts of a node does not make it a story call
      have hkept := isStoryCall_congr component
        (outline_mk_congr kind span span (map_outline_replaceCallsAmong hhere))
      rw [replaceCallsAmong_cons_of_not_call hc _ (length_eq_of_map_outline hhere),
        storyCallsAmong_cons_of_not_call (hkept.trans hc), ihParts hhere, ihRest hcalls]

/-- The second of two replacements counts. -/
theorem replaceCallsAmong_replaceCallsAmong {nodes calls others : List Node}
    (h : calls.map outline = (storyCallsAmong component nodes).map outline)
    (hothers : others.length = calls.length) :
    replaceCallsAmong component (replaceCallsAmong component nodes calls) others =
      replaceCallsAmong component nodes others := by
  induction nodes using forest_induction generalizing calls others with
  | nil => rfl
  | cons kind span parts rest ihParts ihRest =>
    cases hc : (mk kind span parts).isStoryCall component with
    | true =>
      rw [storyCallsAmong_cons_of_call hc, List.map_cons] at h
      obtain ⟨⟨callKind, callSpan, callParts⟩, calls, rfl, hcall, hcalls⟩ :=
        List.map_eq_cons_iff.mp h
      -- the node is replaced twice, and the second replacement stays
      obtain ⟨other, others, rfl⟩ := List.exists_cons_of_length_eq_add_one hothers
      rw [replaceCallsAmong_cons_of_call hc, replaceCallsAmong_cons_of_call hc,
        replaceCallsAmong_cons_of_call ((isStoryCall_congr component hcall).trans hc),
        ihRest hcalls (by simpa using hothers)]
    | false =>
      rw [storyCallsAmong_cons_of_not_call hc] at h
      obtain ⟨here, calls, rfl, hhere, hcalls⟩ := exists_append_of_map_outline h
      -- the replaced parts have as many calls as before, so the second run is cut in the same
      -- places
      have hkept := isStoryCall_congr component
        (outline_mk_congr kind span span (map_outline_replaceCallsAmong hhere))
      have hread := storyCallsAmong_replaceCallsAmong hhere
      have hlen := length_eq_of_map_outline hhere
      rw [List.length_append] at hothers
      obtain ⟨first, second, rfl, hfirst, hsecond⟩ := exists_append_of_length hothers
      rw [replaceCallsAmong_cons_of_not_call hc _ hlen,
        replaceCallsAmong_cons_of_not_call (hkept.trans hc) _ (by rw [hread, hfirst]),
        replaceCallsAmong_cons_of_not_call hc _ (hfirst.trans hlen), ihParts hhere hfirst,
        ihRest hcalls hsecond]

/-! ## Editing -/

/-- Runs an edit over a list of calls. -/
def editAll {σ : Type} (edit : Node → StateM σ Node) : List Node → σ → List Node × σ
  | [], s => ([], s)
  | call :: calls, s =>
    let edited : Node × σ := edit call s
    let others := editAll edit calls edited.2
    (edited.1 :: others.1, others.2)

/-- A run over two lists one after the other goes on in the second from where it was after the
    first. -/
theorem editAll_append {σ : Type} (edit : Node → StateM σ Node) (first second : List Node) (s : σ) :
    editAll edit (first ++ second) s =
      ((editAll edit first s).1 ++ (editAll edit second (editAll edit first s).2).1,
        (editAll edit second (editAll edit first s).2).2) := by
  induction first generalizing s with
  | nil => rfl
  | cons call first ih => simp only [List.cons_append, editAll, ih]

/-- A run leaves as many calls as there were. -/
theorem length_editAll {σ : Type} (edit : Node → StateM σ Node) (calls : List Node) (s : σ) :
    (editAll edit calls s).1.length = calls.length := by
  induction calls generalizing s with
  | nil => rfl
  | cons call calls ih => simp only [editAll, List.length_cons, ih]

/-- A run of edits over a forest meets its story calls, in source order, and nothing else: it is a
    run over the list of calls. -/
theorem run_editCallsAmong {σ : Type} (edit : Node → StateM σ Node) (nodes : List Node) (s : σ) :
    editCallsAmong component edit nodes s =
      (replaceCallsAmong component nodes (editAll edit (storyCallsAmong component nodes) s).1,
        (editAll edit (storyCallsAmong component nodes) s).2) := by
  -- the state passes through the parts of a node before it gets to the nodes behind it
  induction nodes using forest_induction generalizing s with
  | nil => rfl
  | cons kind span parts rest ihParts ihRest =>
    cases hc : (mk kind span parts).isStoryCall component with
    | true =>
      have hs := hc
      unfold isStoryCall at hs
      rw [storyCallsAmong_cons_of_call hc]
      simp only [editAll, replaceCallsAmong_cons_of_call hc]
      simp only [editCallsAmong, editCalls, hs, ↓reduceIte]
      show (_ :: (editCallsAmong component edit rest _).1,
        (editCallsAmong component edit rest _).2) = _
      rw [ihRest]
    | false =>
      have hs := hc
      unfold isStoryCall at hs
      rw [storyCallsAmong_cons_of_not_call hc, editAll_append,
        replaceCallsAmong_cons_of_not_call hc _ (length_editAll _ _ _)]
      simp only [editCallsAmong, editCalls, hs, Bool.false_eq_true, ↓reduceIte]
      show (mk kind span (editCallsAmong component edit parts s).1 ::
          (editCallsAmong component edit rest (editCallsAmong component edit parts s).2).1,
        (editCallsAmong component edit rest (editCallsAmong component edit parts s).2).2) = _
      -- the state that the parts leave is the one that the others start with
      rw [ihParts, ihRest]

/-! ## The props object -/

/-- A story call with a props object is a call with an object literal as its second argument, or a
    statement that is one. -/
theorem exists_of_props?_eq_some {call : Node} {properties : Properties}
    (h : call.props? = some properties) :
    ∃ optional at_ callee first object arguments,
      call =
        mk (.call optional) at_ (callee :: first :: mk .object object properties :: arguments) ∨
      ∃ statement, call = mk .expression statement
        [mk (.call optional) at_ (callee :: first :: mk .object object properties ::
          arguments)] := by
  unfold props? at h
  split at h
  · rename_i optional at_ callee first props arguments hcall
    obtain ⟨object, rfl⟩ := properties?_eq_some.mp h
    -- the call with the props is the node itself, or it is all of a statement
    unfold Node.call at hcall
    split at hcall
    · rename_i statement inner
      obtain rfl := hcall
      exact ⟨optional, at_, callee, first, object, arguments, .inr ⟨statement, rfl⟩⟩
    · obtain rfl := hcall
      exact ⟨optional, at_, callee, first, object, arguments, .inl rfl⟩
  · exact nomatch h

variable {call : Node} {properties : Properties}

/-- A props object that was written is read. -/
theorem props?_withProps (h : call.props? = some properties) (others : Properties) :
    (call.withProps others).props? = some others := by
  obtain ⟨_, _, _, _, _, _, rfl | ⟨_, rfl⟩⟩ := exists_of_props?_eq_some h <;> rfl

/-- Writing the props object that is there changes nothing. -/
theorem withProps_of_props? (h : call.props? = some properties) :
    call.withProps properties = call := by
  obtain ⟨_, _, _, _, _, _, rfl | ⟨_, rfl⟩⟩ := exists_of_props?_eq_some h <;> rfl

/-- The second of two props objects counts. -/
theorem withProps_withProps (h : call.props? = some properties) (first second : Properties) :
    (call.withProps first).withProps second = call.withProps second := by
  obtain ⟨_, _, _, _, _, _, rfl | ⟨_, rfl⟩⟩ := exists_of_props?_eq_some h <;> rfl

/-- The props object of a story call is no part of its outline. -/
theorem outline_withProps (h : call.props? = some properties) (others : Properties) :
    (call.withProps others).outline = call.outline := by
  obtain ⟨_, _, _, _, _, _, rfl | ⟨_, rfl⟩⟩ := exists_of_props?_eq_some h <;> rfl

/-- A story call with a change of its props object, if it has one. -/
def mapProps (change : Properties → Properties) (call : Node) : Node :=
  match call.props? with
  | some properties => call.withProps (change properties)
  | none => call

/-- A change of the props of a call that has props. -/
theorem mapProps_of_props? (h : call.props? = some properties) (change : Properties → Properties) :
    call.mapProps change = call.withProps (change properties) := by
  simp only [mapProps, h]

/-- A change of the props keeps the outline. -/
@[simp] theorem outline_mapProps (change : Properties → Properties) (call : Node) :
    (call.mapProps change).outline = call.outline := by
  unfold mapProps
  split
  · -- without props there is nothing to change
    rename_i hprops
    exact outline_withProps hprops _
  · rfl

/-- After a change, the props are what the change made of them. -/
@[simp] theorem props?_mapProps (change : Properties → Properties) (call : Node) :
    (call.mapProps change).props? = call.props?.map change := by
  cases hprops : call.props? with
  | none => simp only [mapProps, hprops, Option.map_none]
  | some properties => rw [mapProps_of_props? hprops, props?_withProps hprops, Option.map_some]

/-- Two changes of a props object are one. -/
theorem mapProps_mapProps (first second : Properties → Properties) (call : Node) :
    (call.mapProps first).mapProps second = call.mapProps fun inner => second (first inner) := by
  cases hprops : call.props? with
  | none => simp only [mapProps, hprops]
  | some properties =>
    rw [mapProps_of_props? hprops, mapProps_of_props? (props?_withProps hprops _),
      mapProps_of_props? hprops, withProps_withProps hprops]

theorem mapProps_id (call : Node) : call.mapProps id = call := by
  cases hprops : call.props? with
  | none => simp only [mapProps, hprops]
  | some properties => rw [mapProps_of_props? hprops, id, withProps_of_props? hprops]

/-- A change only depends on what it makes of the props object that is there. -/
theorem mapProps_congr {first second : Properties → Properties}
    (h : ∀ properties, call.props? = some properties → first properties = second properties) :
    call.mapProps first = call.mapProps second := by
  cases hprops : call.props? with
  | none => simp only [mapProps, hprops]
  | some properties =>
    rw [mapProps_of_props? hprops, mapProps_of_props? hprops, h properties hprops]

end SvelteStories.Script.Node
