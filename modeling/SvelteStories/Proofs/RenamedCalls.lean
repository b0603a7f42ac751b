import SvelteStories.Proofs.Location
import SvelteStories.Proofs.Rename

/-!
# Story calls and the meta object after a variable was renamed

The story calls of a tree in which a variable is renamed are the renamed story calls, if nothing had
the new name before.  So are the nodes that are put in their places, and so are the meta object and
the props objects.

## Key results

- `storyCallsAmong_rename`, `replaceCallsAmong_rename`: the story calls of a forest
- `props?_rename`, `withProps_rename`: the props object of a story call
- `metaObject?_rename`, `declaresMeta_rename`: the meta declaration
-/

namespace SvelteStories.Script.Node

open Text

variable {old new name component bound : String} {kind : Kind} {span : Span} {parts : List Node}

/-! ## Story calls -/

/-- Only an expression statement can be a story call without being a call. -/
theorem storyCallShape?_of_kind {node : Node} (h : node.kind ≠ .expression) :
    node.storyCallShape? component = node.callShape? component := by
  obtain ⟨kind, span, parts⟩ := node
  cases kind <;> first | rfl | exact absurd rfl h

/-- What stands in the place of a story call has the kind of one: a call or a statement. -/
def hasCallKind (node : Node) : Bool :=
  node.kind matches .call _ | .expression

/-- A story call has the kind of one. -/
theorem hasCallKind_of_isStoryCall {node : Node} (h : node.isStoryCall component = true) :
    node.hasCallKind = true := by
  obtain ⟨kind, span, parts⟩ := node
  cases kind <;> first | rfl | exact nomatch h

/-- What has the kind of a story call is no fixed name. -/
theorem nameText?_of_hasCallKind {node : Node} (h : node.hasCallKind = true) :
    node.nameText? = none := by
  obtain ⟨kind, span, parts⟩ := node
  cases kind <;> first | rfl | exact nomatch h

/-- Only a specifier that starts with a plain name is renamed. -/
theorem renameLocal_eq_self (h : kind = .exportName → parts.head?.bind (·.nameText?) = none) :
    (mk kind span parts).renameLocal old new = mk kind span parts := by
  unfold renameLocal
  split
  · rename_i heq
    obtain ⟨rfl, rfl, rfl⟩ := mk.inj heq
    exact nomatch h rfl
  · rfl

/-- The first of some nodes is a fixed name if it has the text of one. -/
theorem exists_of_nameText?_head (h : ¬ parts.head?.bind (·.nameText?) = none) :
    ∃ text at_ inner rest, parts = mk (.name text) at_ inner :: rest := by
  rcases parts with _ | ⟨⟨kind, at_, inner⟩, rest⟩
  · exact absurd rfl h
  · cases kind <;> first | exact ⟨_, _, _, _, rfl⟩ | exact absurd rfl h

/-- What has the kind of a story call is no specifier of an export. -/
theorem renameLocal_of_hasCallKind {node : Node} (h : node.hasCallKind = true) :
    node.renameLocal old new = node := by
  obtain ⟨kind, span, parts⟩ := node
  cases kind <;> first | rfl | exact nomatch h

theorem hasCallKind_rename (node : Node) :
    (node.rename old new).hasCallKind = node.hasCallKind := by
  rw [hasCallKind, kind_rename]
  cases hkind : node.kind <;> simp [hasCallKind, Kind.rename, hkind]

/-! ### Specifiers -/

/-- A specifier holds the story calls that it held before its variable was renamed. -/
theorem storyCalls_renameLocal (node : Node) :
    (node.renameLocal old new).storyCalls component = node.storyCalls component := by
  unfold renameLocal
  split
  · rw [storyCalls_of_not_call rfl, storyCalls_of_not_call rfl,
      storyCallsAmong_cons_of_not_call rfl, storyCallsAmong_cons_of_not_call rfl]
  · rfl

/-- The specifiers of an export hold the same story calls after they were renamed. -/
theorem storyCallsAmong_map_renameLocal (nodes : List Node) :
    storyCallsAmong component (nodes.map (renameLocal old new)) =
      storyCallsAmong component nodes := by
  induction nodes with
  | nil => rfl
  | cons node rest ih =>
    rw [List.map_cons, storyCallsAmong_cons, storyCalls_renameLocal, ih, storyCallsAmong_cons]

/-- The parts of a renamed node hold the story calls of its renamed parts. -/
theorem storyCallsAmong_parts_rename {parts' : List Node} {kind' : Kind} {span' : Span}
    (component : String) (h : (mk kind span parts).rename old new = mk kind' span' parts') :
    storyCallsAmong component parts' = storyCallsAmong component (parts.map (rename old new)) := by
  by_cases hexport : ∃ attributes, kind = .exportNames none attributes
  · obtain ⟨attributes, rfl⟩ := hexport
    rw [rename_exportNames] at h
    obtain ⟨-, -, rfl⟩ := mk.inj h
    exact storyCallsAmong_map_renameLocal _
  · rw [rename_mk fun attributes hkind => hexport ⟨attributes, hkind⟩] at h
    obtain ⟨-, -, rfl⟩ := mk.inj h
    rfl

/-- The name that the first of some nodes is stays, whatever is put in the places of story calls. -/
theorem nameText?_head_replaceCallsAmong (nodes : List Node) {calls : List Node}
    (hcalls : ∀ call ∈ calls, call.hasCallKind = true) :
    (replaceCallsAmong component nodes calls).head?.bind (·.nameText?) =
      nodes.head?.bind (·.nameText?) := by
  rcases nodes with _ | ⟨⟨kind, span, parts⟩, rest⟩
  · rfl
  rw [replaceCallsAmong, List.head?_cons, List.head?_cons, Option.bind_some, Option.bind_some]
  cases hc : (mk kind span parts).isStoryCall component with
  | false => rw [replaceCalls_of_not_call hc]; rfl
  -- a story call is no name, and neither is what stands in its place
  | true =>
    simp only [replaceCalls, hc, ↓reduceIte]
    rw [nameText?_of_hasCallKind (hasCallKind_of_isStoryCall hc)]
    cases htake : calls.take ((mk kind span parts).storyCalls component).length with
    | nil => exact nameText?_of_hasCallKind (hasCallKind_of_isStoryCall hc)
    | cons call others =>
      have hmem : call ∈ calls := List.mem_of_mem_take (by rw [htake]; exact List.mem_cons_self)
      exact nameText?_of_hasCallKind (hcalls call hmem)

/-- Story calls in a specifier of an export can be replaced before or after it is renamed. -/
theorem replaceCalls_renameLocal (node : Node) {calls : List Node}
    (hcalls : ∀ call ∈ calls, call.hasCallKind = true) :
    (node.renameLocal old new).replaceCalls component calls =
      (node.replaceCalls component calls).renameLocal old new := by
  obtain ⟨kind, span, parts⟩ := node
  by_cases hname : kind = .exportName → parts.head?.bind (·.nameText?) = none
  · -- the node is not renamed, and neither is it after the calls in it were replaced
    rw [renameLocal_eq_self hname]
    cases hc : (mk kind span parts).isStoryCall component with
    | false =>
      rw [replaceCalls_of_not_call hc, renameLocal_eq_self fun hkind =>
        (nameText?_head_replaceCallsAmong parts hcalls).trans (hname hkind)]
    | true =>
      simp only [replaceCalls, hc, ↓reduceIte]
      cases calls with
      | nil => exact (renameLocal_eq_self hname).symm
      | cons call others =>
        exact (renameLocal_of_hasCallKind (hcalls call List.mem_cons_self)).symm
  · -- its name holds no calls
    rw [Classical.not_imp] at hname
    obtain ⟨rfl, hname⟩ := hname
    obtain ⟨text, at_, inner, rest, rfl⟩ := exists_of_nameText?_head hname
    rw [renameLocal, replaceCalls_of_not_call rfl, replaceCalls_of_not_call rfl, replaceCallsAmong,
      replaceCallsAmong, replaceCalls_of_not_call rfl, replaceCalls_of_not_call rfl,
      storyCalls_of_not_call rfl, storyCalls_of_not_call rfl, renameLocal]

/-- Story calls in the specifiers of an export can be replaced before or after these are renamed. -/
theorem replaceCallsAmong_map_renameLocal (nodes : List Node) {calls : List Node}
    (hcalls : ∀ call ∈ calls, call.hasCallKind = true) :
    replaceCallsAmong component (nodes.map (renameLocal old new)) calls =
      (replaceCallsAmong component nodes calls).map (renameLocal old new) := by
  induction nodes generalizing calls with
  | nil => rfl
  | cons node rest ih =>
    rw [List.map_cons, replaceCallsAmong, replaceCallsAmong, storyCalls_renameLocal, List.map_cons,
      replaceCalls_renameLocal node fun call h => hcalls call (List.mem_of_mem_take h),
      ih fun call h => hcalls call (List.mem_of_mem_drop h)]

/-! ### Forests -/

/-- The variables of a story call are variables of the forest. -/
theorem mem_variableNamesAmong_of_storyCall {nodes : List Node} {call : Node}
    (hcall : call ∈ storyCallsAmong component nodes) (h : name ∈ call.variableNames) :
    name ∈ variableNamesAmong nodes := by
  induction nodes using forest_induction with
  | nil => exact nomatch hcall
  | cons kind span parts rest ihParts ihRest =>
    rw [variableNamesAmong_cons, List.mem_append]
    cases hc : (mk kind span parts).isStoryCall component with
    | true =>
      rw [storyCallsAmong_cons_of_call hc, List.mem_cons] at hcall
      rcases hcall with rfl | hcall
      · exact .inl h
      · exact .inr (ihRest hcall)
    -- the call is in the parts of the first node or among the others
    | false =>
      rw [storyCallsAmong_cons_of_not_call hc, List.mem_append] at hcall
      exact hcall.imp (fun hcall => mem_variableNames_of_parts (ihParts hcall)) ihRest

section StoryCalls

variable (hold : validatingFunction ≠ old) (hnew : validatingFunction ≠ new)
  (hcomponent : component ≠ new)

include hold hnew hcomponent

/-- A call of the component is one of the renamed component, and of the same shape. -/
theorem callShape?_rename {node : Node} (hfresh : new ∉ node.variableNames) :
    (node.rename old new).callShape? (renamed old new component) = node.callShape? component := by
  obtain ⟨kind, span, parts⟩ := node
  obtain ⟨parts', himage, hparts⟩ := exists_rename_mk old new kind span parts
  rw [himage]
  cases kind <;> try rfl
  obtain rfl := hparts nofun
  rcases parts with _ | ⟨callee, arguments⟩
  · rfl
  -- the new name is none of those that the callee is made of
  have hcallee : new ∉ callee.variableNames := fun h =>
    hfresh (mem_variableNames_of_part List.mem_cons_self h)
  simp only [Kind.rename, List.map_cons, callShape?, isReference_rename hcomponent hcallee]
  split
  · rfl
  · -- the callee decides: it has to be a call itself
    obtain ⟨inner, calleeSpan, calleeParts⟩ := callee
    obtain ⟨calleeParts', hcalleeImage, hcalleeParts⟩ :=
      exists_rename_mk old new inner calleeSpan calleeParts
    rw [hcalleeImage]
    cases inner <;> try rfl
    obtain rfl := hcalleeParts nofun
    rcases calleeParts with _ | ⟨function, _ | ⟨argument, others⟩⟩ <;> try rfl
    have hargument : new ∉ argument.variableNames := fun h =>
      hcallee (mem_variableNames_of_part (by simp) h)
    simp only [Kind.rename, List.map_cons, isReference_rename hcomponent hargument,
      (carriesNames_rename old new).validates_map (isReference_rename_of_ne hold hnew)]

/-- A statement that is a story call is one of the renamed component. -/
theorem storyCallShape?_rename {node : Node} (hfresh : new ∉ node.variableNames) :
    (node.rename old new).storyCallShape? (renamed old new component) =
      node.storyCallShape? component := by
  obtain ⟨kind, span, parts⟩ := node
  by_cases hkind : kind = .expression
  · subst hkind
    rw [rename_expression]
    rcases parts with _ | ⟨inner, _ | ⟨_, _⟩⟩ <;> try rfl
    -- the statement is a story call if what it evaluates is
    have hinner : new ∉ inner.variableNames := fun h =>
      hfresh (mem_variableNames_of_part List.mem_cons_self h)
    simp only [List.map_cons, List.map_nil, storyCallShape?,
      callShape?_rename hold hnew hcomponent hinner]
  · replace hkind : (mk kind span parts).kind ≠ .expression := hkind
    rw [storyCallShape?_of_kind hkind,
      storyCallShape?_of_kind (mt kind_rename_eq_expression.mp hkind),
      callShape?_rename hold hnew hcomponent hfresh]

/-- The story calls of the renamed component are those that were story calls before. -/
theorem isStoryCall_rename {node : Node} (hfresh : new ∉ node.variableNames) :
    (node.rename old new).isStoryCall (renamed old new component) = node.isStoryCall component := by
  rw [isStoryCall, storyCallShape?_rename hold hnew hcomponent hfresh, isStoryCall]

/-- The story calls of a renamed forest are its story calls renamed, by induction on the forest. -/
theorem storyCallsAmong_rename {nodes : List Node} (hfresh : new ∉ variableNamesAmong nodes) :
    storyCallsAmong (renamed old new component) (nodes.map (rename old new)) =
      (storyCallsAmong component nodes).map (rename old new) := by
  induction nodes using forest_induction with
  | nil => rfl
  | cons kind span parts rest ihParts ihRest =>
    rw [variableNamesAmong_cons, List.mem_append, not_or] at hfresh
    have hkept := isStoryCall_rename hold hnew hcomponent hfresh.1
    obtain ⟨parts', himage, hparts⟩ := exists_rename_mk old new kind span parts
    rw [himage] at hkept
    rw [List.map_cons, himage]
    cases hc : (mk kind span parts).isStoryCall component with
    | true =>
      rw [storyCallsAmong_cons_of_call (hkept.trans hc), storyCallsAmong_cons_of_call hc,
        ihRest hfresh.2, List.map_cons, himage]
    | false =>
      -- the parts of the image may be renamed once more, which keeps the story calls
      have hinner := storyCallsAmong_parts_rename (renamed old new component) himage
      rw [storyCallsAmong_cons_of_not_call (hkept.trans hc), storyCallsAmong_cons_of_not_call hc,
        hinner, ihParts fun h => hfresh.1 (mem_variableNames_of_parts h), ihRest hfresh.2,
        List.map_append]

/-- Renaming keeps the number of story calls. -/
theorem length_storyCalls_rename {node : Node} (hfresh : new ∉ node.variableNames) :
    ((node.rename old new).storyCalls (renamed old new component)).length =
      (node.storyCalls component).length := by
  have h := congrArg List.length (storyCallsAmong_rename hold hnew hcomponent
    (show new ∉ variableNamesAmong [node] by simpa [variableNamesAmong] using hfresh))
  simpa [storyCallsAmong] using h

/-- Calls that are put in the places of story calls can be renamed before or after: in a node, if so
    they can in its parts. -/
theorem replaceCalls_rename (hfresh : new ∉ (mk kind span parts).variableNames) {calls : List Node}
    (hcalls : ∀ call ∈ calls, call.hasCallKind = true)
    (hparts : replaceCallsAmong (renamed old new component) (parts.map (rename old new))
        (calls.map (rename old new)) =
      (replaceCallsAmong component parts calls).map (rename old new)) :
    ((mk kind span parts).rename old new).replaceCalls (renamed old new component)
        (calls.map (rename old new)) =
      ((mk kind span parts).replaceCalls component calls).rename old new := by
  have hkept := isStoryCall_rename hold hnew hcomponent hfresh
  cases hc : (mk kind span parts).isStoryCall component with
  -- a story call is replaced as a whole
  | true =>
    obtain ⟨parts', himage, -⟩ := exists_rename_mk old new kind span parts
    rw [hc, himage] at hkept
    rw [himage]
    simp only [replaceCalls, hc, hkept, ↓reduceIte]
    cases calls with
    | nil => exact himage.symm
    | cons call others => rfl
  | false =>
    rw [hc] at hkept
    rw [replaceCalls_of_not_call hc]
    by_cases hexport : ∃ attributes, kind = .exportNames none attributes
    · -- the specifiers are renamed once more than the other parts of nodes
      obtain ⟨attributes, rfl⟩ := hexport
      have hrenamed : ∀ call ∈ calls.map (rename old new), call.hasCallKind = true :=
        List.forall_mem_map.mpr fun call hmem => (hasCallKind_rename call).trans (hcalls call hmem)
      rw [rename_exportNames] at hkept
      rw [rename_exportNames, rename_exportNames, replaceCalls_of_not_call hkept,
        replaceCallsAmong_map_renameLocal _ hrenamed, hparts]
    · have hplain : ∀ attributes, kind ≠ .exportNames none attributes := not_exists.mp hexport
      rw [rename_mk hplain] at hkept
      rw [rename_mk hplain, rename_mk hplain, replaceCalls_of_not_call hkept, hparts,
        kind_rename_congr kind (nameText?_head_replaceCallsAmong parts hcalls)]

/-- Calls that are put in the places of story calls can be renamed before or after. -/
theorem replaceCallsAmong_rename {nodes : List Node} (hfresh : new ∉ variableNamesAmong nodes)
    {calls : List Node} (hcalls : ∀ call ∈ calls, call.hasCallKind = true) :
    replaceCallsAmong (renamed old new component) (nodes.map (rename old new))
        (calls.map (rename old new)) =
      (replaceCallsAmong component nodes calls).map (rename old new) := by
  induction nodes using forest_induction generalizing calls with
  | nil => rfl
  | cons kind span parts rest ihParts ihRest =>
    rw [variableNamesAmong_cons, List.mem_append, not_or] at hfresh
    -- the first node takes as many calls as before
    have hfirst : ∀ call ∈ calls.take ((mk kind span parts).storyCalls component).length,
        call.hasCallKind = true := fun call h => hcalls call (List.mem_of_mem_take h)
    rw [List.map_cons, replaceCallsAmong, replaceCallsAmong,
      length_storyCalls_rename hold hnew hcomponent hfresh.1, List.map_cons, ← List.map_drop,
      ihRest hfresh.2 fun call h => hcalls call (List.mem_of_mem_drop h), ← List.map_take,
      replaceCalls_rename hold hnew hcomponent hfresh.1 hfirst
        (ihParts (fun h => hfresh.1 (mem_variableNames_of_parts h)) hfirst)]

end StoryCalls

/-! ## The props object -/

/-- The call of a renamed statement is its call renamed. -/
theorem call_rename (call : Node) : (call.rename old new).call = call.call.rename old new := by
  obtain ⟨kind, span, parts⟩ := call
  by_cases hkind : kind = .expression
  · subst hkind
    rw [rename_expression]
    rcases parts with _ | ⟨inner, _ | ⟨_, _⟩⟩ <;>
      simp only [List.map_cons, List.map_nil, Node.call, rename_expression]
  · -- what is no expression statement is its own call
    have hself {node : Node} (h : node.kind ≠ .expression) : node.call = node := by
      obtain ⟨kind, span, parts⟩ := node
      cases kind <;> first | rfl | exact absurd rfl h
    replace hkind : (mk kind span parts).kind ≠ .expression := hkind
    rw [hself hkind, hself (mt kind_rename_eq_expression.mp hkind)]

/-- The props of a renamed call are its props renamed. -/
theorem props?_rename (call : Node) :
    (call.rename old new).props? = call.props?.map (List.map (rename old new)) := by
  unfold props?
  rw [call_rename]
  obtain ⟨kind, span, parts⟩ := call.call
  obtain ⟨parts', himage, hparts⟩ := exists_rename_mk old new kind span parts
  rw [himage]
  cases kind <;> try rfl
  obtain rfl := hparts nofun
  rcases parts with _ | ⟨_, _ | ⟨_, _ | ⟨props, _⟩⟩⟩ <;> try rfl
  exact (carriesObjects_rename old new).properties?_map props

/-- A call gets new props before or after it is renamed. -/
theorem withProps_rename {call : Node} {properties : Properties} (h : call.props? = some properties)
    (others : Properties) :
    (call.rename old new).withProps (others.map (rename old new)) =
      (call.withProps others).rename old new := by
  obtain ⟨_, _, _, _, _, _, rfl | ⟨_, rfl⟩⟩ := exists_of_props?_eq_some h
  · simp only [withProps, withSecondArgument, rename_call, rename_object, List.map_cons]
  · simp only [withProps, withSecondArgument, rename_expression, rename_call, rename_object,
      List.map_cons, List.map_nil]

/-! ## The meta declaration -/

section Declaration

variable {declaration : Node} {object : Properties}

/-- The metadata is reported at the same place. -/
theorem metaCallSpan_rename (declaration : Node) :
    (declaration.rename old new).metaCallSpan = declaration.metaCallSpan := by
  unfold metaCallSpan
  rw [(carriesNames_rename old new).firstDeclarator?_map]
  cases declaration.firstDeclarator? with
  | none => exact span_rename declaration
  | some found =>
    have habsent : (found.2.rename old new).isAbsent = found.2.isAbsent := by
      rw [isAbsent, kind_rename, isAbsent]
      cases found.2.kind <;> rfl
    simp only [Option.map_some, habsent, span_rename]

variable (hold : metaFunction ≠ old) (hnew : metaFunction ≠ new) (hbound : bound ≠ new)

include hbound

/-- The meta object of a renamed declaration is its meta object renamed. -/
theorem metaObject?_rename (hfresh : new ∉ declaration.variableNames) :
    (declaration.rename old new).metaObject? (renamed old new bound) =
      (declaration.metaObject? bound).map (List.map (rename old new)) := by
  unfold metaObject?
  rw [(carriesNames_rename old new).firstDeclarator?_map]
  cases hdeclarator : declaration.firstDeclarator? with
  | none => rfl
  | some found =>
    obtain ⟨pattern, ⟨kind, span, parts⟩⟩ := found
    have hvalue : new ∉ (mk kind span parts).variableNames := fun h =>
      hfresh ((mem_variableNames_of_firstDeclarator? hdeclarator).2 h)
    rw [Option.map_some]
    obtain ⟨parts', himage, hparts⟩ := exists_rename_mk old new kind span parts
    simp only [himage]
    cases kind <;> try rfl
    obtain rfl := hparts nofun
    rcases parts with _ | ⟨callee, _ | ⟨argument, _ | ⟨_, _⟩⟩⟩ <;> try rfl
    -- the callee is a reference to the meta function, under its new name
    have hcallee : new ∉ callee.variableNames := fun h =>
      hvalue (mem_variableNames_of_part List.mem_cons_self h)
    simp only [Kind.rename, List.map_cons, List.map_nil, isReference_rename hbound hcallee,
      (carriesObjects_rename old new).properties?_map]
    split <;> rfl

include hold hnew

/-- A renamed declaration declares the metadata exactly if it did before. -/
theorem declaresMeta_rename {statement : Node} (hfresh : new ∉ statement.variableNames) :
    (statement.rename old new).declaresMeta (renamed old new bound) =
      statement.declaresMeta bound := by
  unfold declaresMeta
  rw [(carriesNames_rename old new).firstDeclarator?_map]
  cases hdeclarator : statement.firstDeclarator? with
  | none => rfl
  | some found =>
    obtain ⟨pattern, ⟨kind, span, parts⟩⟩ := found
    -- the new name does not stand in the value
    have hvalue : new ∉ (mk kind span parts).variableNames := fun h =>
      hfresh ((mem_variableNames_of_firstDeclarator? hdeclarator).2 h)
    rw [Option.map_some]
    obtain ⟨parts', himage, hparts⟩ := exists_rename_mk old new kind span parts
    simp only [himage]
    cases kind <;> try rfl
    obtain rfl := hparts nofun
    rcases parts with _ | ⟨callee, arguments⟩
    · rfl
    -- the callee is the function exactly if its image is that of the function
    have hcallee : new ∉ callee.variableNames := fun h =>
      hvalue (mem_variableNames_of_part List.mem_cons_self h)
    simp only [Kind.rename, List.map_cons, isReference_rename hbound hcallee,
      isReference_rename_of_ne hold hnew]

end Declaration

/-- A declaration gets a new meta object before or after it is renamed. -/
theorem withMetaObject_rename {declaration : Node} {object : Properties}
    (h : declaration.metaObject? bound = some object) (others : Properties) :
    (declaration.rename old new).withMetaObject (others.map (rename old new)) =
      (declaration.withMetaObject others).rename old new := by
  obtain ⟨_, _, _, _, _, _, _, _, _, rfl, -⟩ := exists_of_metaObject?_eq_some h
  simp only [withMetaObject, rename_declaration, rename_declarator, rename_call, rename_object,
    List.map_cons, List.map_nil]

end SvelteStories.Script.Node
