import SvelteStories.Edit.Transform
import SvelteStories.Proofs.StoryCalls

/-!
# What is found in a compiled module

`Module.compiledContent` looks up the meta import, the only meta declaration, the story binding and
the story calls.  `Located` says of a module what the lookups found: the statements before and after
the meta declaration, the declaration itself and its meta object.

## Key results

- `located_of_compiledContent`, `Located.compiledContent`: the lookups succeed exactly if there is
  something to be found
- `Located.storyCallsAmong_withMetaObject`: story calls are found again after a change of the meta
  object
-/

namespace SvelteStories.Script

open Text Diagnostic

namespace Node

/-- The meta object of a declaration is the only argument of a call by the local name. -/
theorem exists_of_metaObject?_eq_some {bound : String} {declaration : Node} {object : Properties}
    (h : declaration.metaObject? bound = some object) :
    ∃ word span inner pattern optional call callee at_ others,
      declaration = mk (.declaration word) span (mk .declarator inner
        [pattern, mk (.call optional) call [callee, mk .object at_ object]] :: others) ∧
      callee.isReference bound = true := by
  unfold metaObject? at h
  split at h
  · rename_i pattern optional call callee argument hdeclarator
    split at h
    · rename_i hcallee
      obtain ⟨at_, rfl⟩ := properties?_eq_some.mp h
      -- the pattern, the function and the argument of the first declarator
      unfold firstDeclarator? at hdeclarator
      split at hdeclarator
      · rename_i word span inner _ _ others
        obtain ⟨rfl, rfl⟩ := Prod.mk.inj (Option.some.inj hdeclarator)
        exact ⟨word, span, inner, _, optional, call, callee, at_, others, rfl, hcallee⟩
      · exact nomatch hdeclarator
    · exact nomatch h
  · exact nomatch h

variable {bound : String} {declaration : Node} {object : Properties}

/-- A statement with a meta object declares variables. -/
theorem isVariables_of_metaObject? (h : declaration.metaObject? bound = some object) :
    declaration.isVariables = true := by
  obtain ⟨_, _, _, _, _, _, _, _, _, rfl, -⟩ := exists_of_metaObject?_eq_some h
  rfl

/-- A statement with a meta object declares the metadata. -/
theorem declaresMeta_of_metaObject? (h : declaration.metaObject? bound = some object) :
    declaration.declaresMeta bound = true := by
  obtain ⟨_, _, _, _, _, _, callee, _, _, rfl, hcallee⟩ := exists_of_metaObject?_eq_some h
  simp only [declaresMeta, firstDeclarator?, hcallee, Bool.true_or]

/-- Statements with the outlines of others declare metadata where the others do. -/
theorem declaresMeta_of_map_outline {bound : String} {statements others : List Node}
    (h : statements.map outline = others.map outline)
    (hothers : ∀ statement ∈ others, statement.declaresMeta bound = false) :
    ∀ statement ∈ statements, statement.declaresMeta bound = false := by
  intro statement hmem
  have houtline : statement.outline ∈ others.map outline := by
    rw [← h]
    exact List.mem_map_of_mem hmem
  obtain ⟨other, hother, hsame⟩ := List.mem_map.mp houtline
  rw [← declaresMeta_outline, ← hsame, declaresMeta_outline]
  exact hothers other hother

/-- A meta object that was written is read. -/
theorem metaObject?_withMetaObject (h : declaration.metaObject? bound = some object)
    (other : Properties) : (declaration.withMetaObject other).metaObject? bound = some other := by
  obtain ⟨_, _, _, _, _, _, callee, _, _, rfl, hcallee⟩ := exists_of_metaObject?_eq_some h
  simp only [withMetaObject, metaObject?, firstDeclarator?, hcallee, ↓reduceIte]
  rfl

/-- Writing the meta object that is there changes nothing. -/
theorem withMetaObject_of_metaObject? (h : declaration.metaObject? bound = some object) :
    declaration.withMetaObject object = declaration := by
  obtain ⟨_, _, _, _, _, _, _, _, _, rfl, -⟩ := exists_of_metaObject?_eq_some h
  rfl

/-- The meta object is no part of the outline of its declaration. -/
theorem outline_withMetaObject (h : declaration.metaObject? bound = some object)
    (other : Properties) : (declaration.withMetaObject other).outline = declaration.outline := by
  obtain ⟨_, _, _, _, _, _, _, _, _, rfl, -⟩ := exists_of_metaObject?_eq_some h
  rfl

/-- The call of `defineMeta` has one argument, so it is no story call if each story call has
    props. -/
theorem exists_of_metaObject?_of_props {component : String}
    (h : declaration.metaObject? bound = some object)
    (hprops : ∀ call ∈ declaration.storyCalls component, call.props?.isSome = true) :
    ∃ word span inner pattern optional at_ callee at' others,
      declaration = mk (.declaration word) span (mk .declarator inner
        [pattern, mk (.call optional) at_ [callee, mk .object at' object]] :: others) ∧
      callee.isReference bound = true ∧
      (mk (.call optional) at_ [callee, mk .object at' object]).isStoryCall component = false := by
  obtain ⟨word, span, inner, pattern, optional, at_, callee, at', others, rfl, hcallee⟩ :=
    exists_of_metaObject?_eq_some h
  refine ⟨word, span, inner, pattern, optional, at_, callee, at', others, rfl, hcallee, ?_⟩
  cases hc : (mk (.call optional) at_ [callee, mk .object at' object]).isStoryCall component with
  | false => rfl
  | true =>
    -- the call would be among the story calls, and it has no second argument
    rw [storyCalls_of_not_call rfl, storyCallsAmong_cons_of_not_call rfl, storyCallsAmong_cons,
      storyCallsAmong_cons_of_call hc] at hprops
    exact nomatch hprops (mk (.call optional) at_ [callee, mk .object at' object]) (by simp)

/-- The story calls of a call with an object literal as its argument. -/
theorem storyCalls_metaCall {component : String} {optional : Bool} {at_ at' : Span} {callee : Node}
    {properties : Properties}
    (h : (mk (.call optional) at_ [callee, mk .object at' properties]).isStoryCall component =
      false) :
    (mk (.call optional) at_ [callee, mk .object at' properties]).storyCalls component =
      callee.storyCalls component ++ storyCallsAmong component properties := by
  rw [storyCalls_of_not_call h, storyCallsAmong_cons, storyCallsAmong_cons_of_not_call rfl,
    storyCallsAmong, List.append_nil]

/-- A declaration keeps its story calls if its meta object keeps them. -/
theorem storyCalls_withMetaObject {component : String} {other : Properties}
    (h : declaration.metaObject? bound = some object)
    (hprops : ∀ call ∈ declaration.storyCalls component, call.props?.isSome = true)
    (hcalls : storyCallsAmong component other = storyCallsAmong component object) :
    (declaration.withMetaObject other).storyCalls component = declaration.storyCalls component := by
  obtain ⟨word, span, inner, pattern, optional, at_, callee, at', others, rfl, -, hmeta⟩ :=
    exists_of_metaObject?_of_props h hprops
  -- the call of the meta function is no story call with the other object either
  have hkept := isStoryCall_congr component (outline_mk_congr (.call optional) at_ at_
    (show [callee, mk .object at' other].map outline = [callee, mk .object at' object].map outline
      from rfl))
  rw [withMetaObject, storyCalls_of_not_call rfl, storyCallsAmong_cons_of_not_call rfl,
    storyCalls_of_not_call rfl, storyCallsAmong_cons_of_not_call rfl, storyCallsAmong_cons pattern,
    storyCallsAmong_cons pattern, storyCallsAmong_cons, storyCallsAmong_cons,
    storyCalls_metaCall hmeta, storyCalls_metaCall (hkept.trans hmeta), hcalls]

/-- The place of a node, if it is a story call. -/
def site? (component : String) (node : Node) : Option StoryCall :=
  (node.storyCallShape? component).map fun shape => ⟨shape, node.span⟩

end Node

namespace Module

/-- No statement declares the metadata if the search among the numbered ones finds none. -/
theorem filter_zipIdx_eq_nil {bound : String} (statements : List Node) (start : Nat) :
    (statements.zipIdx start).filter (·.1.declaresMeta bound) = [] ↔
      ∀ statement ∈ statements, statement.declaresMeta bound = false := by
  rw [List.filter_eq_nil_iff]
  constructor
  · intro h statement hmem
    -- the statement is found under its number
    obtain ⟨i, hi, rfl⟩ := List.mem_iff_getElem.mp hmem
    simpa using h (statements[i], start + i)
      (List.mk_add_mem_zipIdx_iff_getElem?.mpr (List.getElem?_eq_getElem hi))
  · intro h pair hmem
    simp [h pair.1 (List.fst_mem_of_mem_zipIdx hmem)]

/-- The meta declaration that is found is the only one. -/
theorem metaDeclaration_eq_ok {module : Module} {filename bound : String} {index : Nat}
    {declaration : Node} : module.metaDeclaration filename bound = .ok (index, declaration) ↔
      ∃ before after, module.statements = before ++ declaration :: after ∧ before.length = index ∧
        declaration.declaresMeta bound = true ∧
        ∀ statement ∈ before ++ after, statement.declaresMeta bound = false := by
  constructor
  · intro h
    unfold metaDeclaration at h
    split at h
    · exact nomatch h
    · rename_i hfilter
      obtain ⟨rfl, rfl⟩ := Prod.mk.inj (Except.ok.inj h)
      -- the filter keeps one pair: no statement before it and none behind it declares metadata
      obtain ⟨first, second, hzip, hfirst, hdeclares, hsecond⟩ := List.filter_eq_cons_iff.mp hfilter
      obtain ⟨before, others, hstatements, rfl, hothers⟩ := List.zipIdx_eq_append_iff.mp hzip
      obtain ⟨_, after, rfl, hhead, rfl⟩ := List.zipIdx_eq_cons_iff.mp hothers.symm
      obtain ⟨rfl, rfl⟩ := Prod.mk.inj hhead
      refine ⟨before, after, hstatements, by simp, hdeclares, ?_⟩
      intro statement hmem
      rcases List.mem_append.mp hmem with hmem | hmem
      · exact (filter_zipIdx_eq_nil before 0).mp (List.filter_eq_nil_iff.mpr hfirst) statement hmem
      · exact (filter_zipIdx_eq_nil after _).mp hsecond statement hmem
    · exact nomatch h
  · rintro ⟨before, after, hstatements, rfl, hdeclares, hothers⟩
    -- and the other way round
    have hfilter : module.statements.zipIdx.filter (·.1.declaresMeta bound) =
        [(declaration, before.length)] := by
      rw [hstatements, List.zipIdx_append, List.filter_append, List.zipIdx_cons,
        (filter_zipIdx_eq_nil before 0).mpr fun s hs => hothers s (List.mem_append_left after hs),
        List.filter_cons_of_pos (by exact hdeclares),
        (filter_zipIdx_eq_nil after _).mpr fun s hs => hothers s (List.mem_append_right before hs)]
      simp
    unfold metaDeclaration
    rw [hfilter]

/-- The story calls that are found are those of the tree, if each of them has a props object. -/
theorem storyCalls_eq_ok {module : Module} {filename component : String} {calls : List StoryCall} :
    module.storyCalls filename component = .ok calls ↔
      (∀ call ∈ Node.storyCallsAmong component module.statements, call.props?.isSome = true) ∧
        calls = (Node.storyCallsAmong component module.statements).filterMap fun call =>
          (call.storyCallShape? component).map fun shape => ⟨shape, call.span⟩ := by
  simp only [storyCalls]
  split
  · rename_i call hfind
    -- a call without props was found
    have hmissing := List.find?_some hfind
    simp only [reduceCtorEq, false_iff, not_and]
    intro h
    have := h call (List.mem_of_find?_eq_some hfind)
    simp [Option.isNone_iff_eq_none.mp hmissing] at this
  · rename_i hfind
    rw [List.find?_eq_none] at hfind
    rw [Except.ok.injEq, eq_comm]
    refine (and_iff_right ?_).symm
    intro call hmem
    have := hfind call hmem
    rwa [Option.isNone_iff_eq_none, ← ne_eq, Option.ne_none_iff_isSome] at this

/-- The places that are found are those of the story calls, in their order. -/
theorem map_site?_of_storyCalls {module : Module} {filename component : String}
    {found : List StoryCall} (h : module.storyCalls filename component = .ok found) :
    (Node.storyCallsAmong component module.statements).map (·.site? component) =
      found.map some := by
  obtain ⟨-, rfl⟩ := storyCalls_eq_ok.mp h
  -- every story call has a place, so that filtering leaves them all
  have hsites : ∀ call ∈ Node.storyCallsAmong component module.statements,
      (call.site? component).isSome = true := by
    intro call hcall
    simpa [Node.site?, Node.isStoryCall] using Node.isStoryCall_of_mem hcall
  symm
  calc _ = ((Node.storyCallsAmong component module.statements).map (·.site? component)).filter
          fun site => site.isSome := List.map_filterMap_some_eq_filter_map_isSome
    _ = _ := List.filter_eq_self.mpr (List.forall_mem_map.mpr hsites)

/-- As many places are found as there are story calls. -/
theorem length_of_storyCalls {module : Module} {filename component : String}
    {found : List StoryCall} (h : module.storyCalls filename component = .ok found) :
    found.length = (Node.storyCallsAmong component module.statements).length := by
  simpa using (congrArg List.length (map_site?_of_storyCalls h)).symm

/-- What the lookups find in a module: the statements around the meta declaration, the declaration,
    and its meta object.  The name of the stories file has no part in it. -/
structure Located (module : Module) (package : String) (content : CompiledContent)
    (before : List Node) (declaration : Node) (after : List Node) (object : Properties) : Prop where
  imported : module.metaImport? package = some content.metaBinding
  statements : module.statements = before ++ declaration :: after
  index : before.length = content.metaIndex
  alone : ∀ statement ∈ before ++ after, statement.declaresMeta content.metaBinding = false
  metaObject : declaration.metaObject? content.metaBinding = some object
  metaCall : content.metaCall = declaration.metaCallSpan
  binding : declaration.storyBinding? = some content.component
  /-- Every story call that is found has a props object. -/
  props : ∀ call ∈ Node.storyCallsAmong content.component module.statements,
    call.props?.isSome = true
  calls : content.calls = (Node.storyCallsAmong content.component module.statements).filterMap
    fun call => (call.storyCallShape? content.component).map fun shape => ⟨shape, call.span⟩

/-- What the lookups answer with is what they found. -/
theorem located_of_compiledContent {module : Module} {filename package : String}
    {content : CompiledContent} (h : module.compiledContent filename package = .ok content) :
    ∃ before declaration after object,
      module.Located package content before declaration after object := by
  -- the lookups are made one after the other, and all of them succeed
  simp only [compiledContent, bind, Except.bind] at h
  cases himport : module.metaImport? package with
  | none => simp [himport] at h
  | some bound =>
    simp only [himport] at h
    cases hdeclared : module.metaDeclaration filename bound with
    | error e => simp [hdeclared] at h
    | ok found =>
      obtain ⟨index, declaration⟩ := found
      simp only [hdeclared, Node.metaObject, Node.storyBinding] at h
      cases hobject : declaration.metaObject? bound with
      | none => simp [hobject] at h
      | some object =>
        cases hbinding : declaration.storyBinding? with
        | none => simp [hobject, hbinding] at h
        | some component =>
          simp only [hobject, hbinding] at h
          cases hcalls : module.storyCalls filename component with
          | error e => simp [hcalls] at h
          | ok calls =>
            simp only [hcalls, pure, Except.pure, Except.ok.injEq] at h
            obtain rfl := h
            -- one statement declares metadata, and all calls have a props object
            obtain ⟨before, after, hstatements, hindex, -, halone⟩ :=
              metaDeclaration_eq_ok.mp hdeclared
            obtain ⟨hprops, rfl⟩ := storyCalls_eq_ok.mp hcalls
            exact ⟨before, declaration, after, object, himport, hstatements, hindex,
              halone, hobject, rfl, hbinding, hprops, rfl⟩

namespace Located

variable {module : Module} {package : String} {content : CompiledContent} {before after : List Node}
  {declaration : Node} {object : Properties}

/-- The story calls are found for stories files of all names. -/
theorem storyCalls (h : module.Located package content before declaration after object)
    (filename : String) : module.storyCalls filename content.component = .ok content.calls :=
  storyCalls_eq_ok.mpr ⟨h.props, h.calls⟩

/-- What there is to be found is found, for stories files of all names. -/
theorem compiledContent (h : module.Located package content before declaration after object)
    (filename : String) : module.compiledContent filename package = .ok content := by
  have hdeclared : module.metaDeclaration filename content.metaBinding =
      .ok (content.metaIndex, declaration) :=
    metaDeclaration_eq_ok.mpr ⟨before, after, h.statements, h.index,
      Node.declaresMeta_of_metaObject? h.metaObject, h.alone⟩
  simp only [Module.compiledContent, bind, Except.bind, h.imported, hdeclared, Node.metaObject,
    h.metaObject, Node.storyBinding, h.binding, h.storyCalls, ← h.metaCall]
  rfl

/-- The story calls that are found have the spans of those in the tree, in their order. -/
theorem map_span_calls (h : module.Located package content before declaration after object) :
    content.calls.map (·.span) =
      (Node.storyCallsAmong content.component module.statements).map Node.span := by
  rw [h.calls]
  have hcalls : ∀ call ∈ Node.storyCallsAmong content.component module.statements,
      call.isStoryCall content.component = true := fun _ => Node.isStoryCall_of_mem
  -- each story call has a shape, so none is lost in the list of places
  generalize Node.storyCallsAmong content.component module.statements = calls at hcalls
  induction calls with
  | nil => rfl
  | cons call calls ih =>
    obtain ⟨shape, hshape⟩ := Option.isSome_iff_exists.mp (hcalls call List.mem_cons_self)
    rw [List.filterMap_cons_some (by rw [hshape, Option.map_some]), List.map_cons, List.map_cons,
      ih fun c hc => hcalls c (List.mem_cons_of_mem call hc)]

/-- As many story calls are found as there are in the module. -/
theorem length_calls (h : module.Located package content before declaration after object) :
    content.calls.length =
      (Node.storyCallsAmong content.component module.statements).length :=
  by simpa using congrArg List.length h.map_span_calls

/-- Changing the meta object changes the meta declaration. -/
theorem modify_statements (h : module.Located package content before declaration after object)
    (change : Node → Node) :
    module.statements.modify content.metaIndex change = before ++ change declaration :: after := by
  rw [h.statements, ← h.index, List.modify_eq_take_cons_drop (by simp)]
  simp

/-- The story calls of a module are found again after a change of the meta object that keeps the
    story calls in it. -/
theorem storyCallsAmong_withMetaObject
    (h : module.Located package content before declaration after object) {other : Properties}
    (hother : Node.storyCallsAmong content.component other =
      Node.storyCallsAmong content.component object) :
    Node.storyCallsAmong content.component (before ++ declaration.withMetaObject other :: after) =
      Node.storyCallsAmong content.component module.statements := by
  -- the story calls of the declaration are among those of the module, all of which have props
  have hprops : ∀ call ∈ declaration.storyCalls content.component, call.props?.isSome = true := by
    intro call hmem
    refine h.props call ?_
    rw [h.statements, Node.storyCallsAmong_append, Node.storyCallsAmong_cons]
    exact List.mem_append_right _ (List.mem_append_left _ hmem)
  rw [h.statements, Node.storyCallsAmong_append, Node.storyCallsAmong_append,
    Node.storyCallsAmong_cons, Node.storyCallsAmong_cons,
    Node.storyCalls_withMetaObject h.metaObject hprops hother]

end Located

end Module

end SvelteStories.Script
