import SvelteStories.Proofs.CallPlaces
import SvelteStories.Proofs.StoryRun

/-!
# Edits meet the story calls that are found

Story calls are found by one walk and edited by another one, which changes the tree while it goes
through it.  `visits` records what an edit is called with.  As long as the edit only changes props
objects, it is called with the story calls that were found, in their order, and what it does to one
of them is not seen at any other.

## Key results

- `editAll_edit`, `visits_eq`: a run of an edit in terms of its visits
- `storyCalls_afterVisits`: the story calls that are found while the edit is under way
- `editStoryCalls_agrees`: the two walks agree
-/

namespace SvelteStories.Script

open Text Diagnostic Node

variable {σ ε : Type} {filename component : String} {module : Module} {found : List StoryCall}
  {change : Nat → σ → Node → EditedCall σ ε}

/-! ## Visits -/

/-- What an edit is called with, and what it comes to. -/
structure Visit (σ ε : Type) where
  index : Nat
  state : σ
  call : Node
  edited : EditedCall σ ε

/-- An edit that keeps a record of its visits. -/
def recording (change : Nat → σ → Node → EditedCall σ ε) (index : Nat)
    (state : σ × List (Visit σ ε))
    (call : Node) : EditedCall (σ × List (Visit σ ε)) ε :=
  let edited := change index state.1 call
  ⟨edited.call, (edited.state, state.2 ++ [⟨index, state.1, call, edited⟩]), edited.failure⟩

/-- The visits of an edit in its walk over a module. -/
def Module.visits (module : Module) (component : String) (state : σ)
    (change : Nat → σ → Node → EditedCall σ ε) : List (Visit σ ε) :=
  (module.editStoryCalls component (state, []) (recording change)).2.state.2

/-- A module with the story calls that the first `k` visits left. -/
def Module.afterVisits (module : Module) (component : String)
    (visits : List (Visit σ ε)) (k : Nat) :
    Module :=
  { module with
    statements := replaceCallsAmong component module.statements
      ((visits.take k).map (·.edited.call) ++
        (storyCallsAmong component module.statements).drop k) }

/-- The visits of an edit to the given calls, up to the first that fails. -/
def visitsTo (change : Nat → σ → Node → EditedCall σ ε) : Nat → σ → List Node → List (Visit σ ε)
  | _, _, [] => []
  | index, state, call :: calls =>
    let edited := change index state call
    ⟨index, state, call, edited⟩ ::
      if edited.failure.isSome then [] else visitsTo change (index + 1) edited.state calls

/-- The failure that the last of some visits ended with. -/
def lastFailure (visits : List (Visit σ ε)) : Option ε :=
  visits.getLast?.bind (·.edited.failure)

/-- A visit that fails is the only one. -/
theorem visitsTo_cons_of_failure {index : Nat} {state : σ} {call : Node} {calls : List Node}
    (h : (change index state call).failure.isSome = true) :
    visitsTo change index state (call :: calls) =
      [⟨index, state, call, change index state call⟩] := by
  simp only [visitsTo, h, ↓reduceIte]

/-- After a visit that does not fail come those to the other calls. -/
theorem visitsTo_cons {index : Nat} {state : σ} {call : Node} {calls : List Node}
    (h : (change index state call).failure = none) :
    visitsTo change index state (call :: calls) =
      ⟨index, state, call, change index state call⟩ ::
        visitsTo change (index + 1) (change index state call).state calls := by
  simp only [visitsTo, h, Option.isSome_none, Bool.false_eq_true, ↓reduceIte]

/-- The visits are to the first calls, one after the other. -/
theorem getElem?_visitsTo {calls : List Node} {index k : Nat} {state : σ} {visit : Visit σ ε}
    (h : (visitsTo change index state calls)[k]? = some visit) :
    visit.index = index + k ∧ calls[k]? = some visit.call ∧
      visit.edited = change visit.index visit.state visit.call := by
  induction calls generalizing index k state with
  | nil => exact nomatch h
  | cons call calls ih =>
    cases k with
    | zero =>
      obtain rfl := Option.some.inj h
      exact ⟨rfl, rfl, rfl⟩
    | succ k =>
      -- after a failure there are no more visits
      cases hfailure : (change index state call).failure with
      | some e =>
        rw [visitsTo_cons_of_failure (by rw [hfailure]; rfl)] at h
        exact nomatch h
      | none =>
        rw [visitsTo_cons hfailure, List.getElem?_cons_succ] at h
        obtain ⟨hindex, hcall, hedited⟩ := ih h
        exact ⟨by omega, hcall, hedited⟩

/-- The visits are to the first calls. -/
theorem map_call_visitsTo (index : Nat) (state : σ) (calls : List Node) :
    (visitsTo change index state calls).map (·.call) =
      calls.take (visitsTo change index state calls).length := by
  refine List.ext_getElem? fun k => ?_
  rw [List.getElem?_map, List.getElem?_take]
  split
  · rename_i hk
    rw [List.getElem?_eq_getElem hk, Option.map_some]
    exact (getElem?_visitsTo (List.getElem?_eq_getElem hk)).2.1.symm
  · rename_i hk
    rw [List.getElem?_eq_none (by omega), Option.map_none]

/-- A visit that fails is the last one. -/
theorem length_visitsTo_of_failure {calls : List Node} {index k : Nat} {state : σ}
    {visit : Visit σ ε} (h : (visitsTo change index state calls)[k]? = some visit)
    (hfailure : visit.edited.failure.isSome = true) :
    (visitsTo change index state calls).length = k + 1 := by
  induction calls generalizing index k state with
  | nil => exact nomatch h
  | cons call calls ih =>
    cases hfirst : (change index state call).failure with
    | some e =>
      rw [visitsTo_cons_of_failure (by rw [hfirst]; rfl)] at h ⊢
      cases k with
      | zero => rfl
      | succ k => exact nomatch h
    | none =>
      rw [visitsTo_cons hfirst] at h ⊢
      -- the first visit did not fail, so that the failing one is among the others
      cases k with
      | zero =>
        obtain rfl := Option.some.inj h
        rw [show Visit.edited _ = _ from rfl, hfirst] at hfailure
        exact nomatch hfailure
      | succ k => rw [List.length_cons, ih h]

/-- If no visit fails, all calls are visited. -/
theorem length_visitsTo_of_ok {calls : List Node} {index : Nat} {state : σ}
    (h : ∀ visit ∈ visitsTo change index state calls, visit.edited.failure = none) :
    (visitsTo change index state calls).length = calls.length := by
  induction calls generalizing index state with
  | nil => rfl
  | cons call calls ih =>
    have hfirst : (change index state call).failure = none := h _ List.mem_cons_self
    rw [visitsTo_cons hfirst] at h ⊢
    rw [List.length_cons, List.length_cons,
      ih fun visit hvisit => h visit (List.mem_cons_of_mem _ hvisit)]

/-! ## Runs in terms of their visits -/

/-- A first visit that does not fail leaves the failure to the others. -/
theorem lastFailure_cons (visit : Visit σ ε) {visits : List (Visit σ ε)}
    (h : visit.edited.failure = none) : lastFailure (visit :: visits) = lastFailure visits := by
  cases visits with
  | nil => exact h
  | cons next visits => rfl

/-- Visits of which none fails end without a failure. -/
theorem lastFailure_of_ok {visits : List (Visit σ ε)}
    (h : ∀ visit ∈ visits, visit.edited.failure = none) : lastFailure visits = none := by
  rw [lastFailure, Option.bind_eq_none_iff]
  exact fun visit hvisit => h visit (List.mem_of_getLast? hvisit)

/-- The last of some visits tells their failure. -/
theorem lastFailure_of_last {visits : List (Visit σ ε)} {visit : Visit σ ε} {k : Nat}
    (h : visits[k]? = some visit) (hlen : visits.length = k + 1) :
    lastFailure visits = visit.edited.failure := by
  rw [lastFailure, List.getLast?_eq_getElem?, hlen, Nat.add_sub_cancel, h, Option.bind_some]

/-- A run of an edit over a list of calls leaves what its visits left, and the other calls as they
    were. -/
theorem editAll_edit (change : Nat → σ → Node → EditedCall σ ε) (calls : List Node) (index : Nat)
    (state : σ) :
    ∃ last, editAll (CallRun.edit change) calls { index, state } =
      ((visitsTo change index state calls).map (·.edited.call) ++
          calls.drop (visitsTo change index state calls).length,
        { index := index + (visitsTo change index state calls).length, state := last
          failure := lastFailure (visitsTo change index state calls) }) := by
  induction calls generalizing index state with
  | nil => exact ⟨state, rfl⟩
  | cons call calls ih =>
    simp only [editAll, CallRun.edit, Option.isSome_none, Bool.false_eq_true, ↓reduceIte]
    cases hfailure : (change index state call).failure with
    | some e =>
      -- the run has failed: the other calls are not looked at
      refine ⟨(change index state call).state, ?_⟩
      rw [visitsTo_cons_of_failure (by rw [hfailure]; rfl), Edit.editAll_of_failure _ _ rfl]
      simp [lastFailure, hfailure]
    | none =>
      obtain ⟨last, hrun⟩ := ih (index + 1) (change index state call).state
      refine ⟨last, ?_⟩
      rw [visitsTo_cons hfailure, lastFailure_cons _ hfailure, hrun]
      simp only [List.map_cons, List.cons_append, List.length_cons, List.drop_succ_cons,
        Nat.add_right_comm index 1, Nat.add_assoc]

/-- The record of a recording edit are its visits. -/
theorem editAll_recording (calls : List Node) (index : Nat) (state : σ) (seen : List (Visit σ ε)) :
    (editAll (CallRun.edit (recording change)) calls { index, state := (state, seen) }).2.state.2 =
      seen ++ visitsTo change index state calls := by
  induction calls generalizing index state seen with
  | nil => exact (List.append_nil seen).symm
  | cons call calls ih =>
    simp only [editAll, CallRun.edit, Option.isSome_none, Bool.false_eq_true, ↓reduceIte, recording]
    cases hfailure : (change index state call).failure with
    | some e =>
      rw [visitsTo_cons_of_failure (by rw [hfailure]; rfl), Edit.editAll_of_failure _ _ rfl]
    | none =>
      rw [visitsTo_cons hfailure, ih, List.append_assoc, List.singleton_append]

/-- The visits of a walk are those to the story calls. -/
theorem visits_eq (state : σ) :
    module.visits component state change =
      visitsTo change 0 state (storyCallsAmong component module.statements) := by
  simp only [Module.visits, Module.editStoryCalls, StateT.run, run_editCallsAmong]
  exact editAll_recording _ 0 state []

/-- A walk leaves what its visits left. -/
theorem editStoryCalls_eq (module : Module) (component : String) (state : σ)
    (change : Nat → σ → Node → EditedCall σ ε) :
    (module.editStoryCalls component state change).1 =
        module.afterVisits component (module.visits component state change)
          (module.visits component state change).length ∧
      (module.editStoryCalls component state change).2.index =
        (module.visits component state change).length ∧
      (module.editStoryCalls component state change).2.failure =
        lastFailure (module.visits component state change) := by
  -- the walk edits the calls as a list, up to the first failure
  obtain ⟨last, hrun⟩ :=
    editAll_edit change (storyCallsAmong component module.statements) 0 state
  simp only [Module.editStoryCalls, StateT.run, run_editCallsAmong, hrun, visits_eq,
    Module.afterVisits, List.take_length, Nat.zero_add, and_self]

/-! ## Edits of props objects -/

namespace Node

/-- The props object of a story call is no part of its span. -/
@[simp] theorem span_mapProps (change : Properties → Properties) (call : Node) :
    (call.mapProps change).span = call.span := by
  unfold mapProps
  split
  · rename_i hprops
    obtain ⟨_, _, _, _, _, _, rfl | ⟨_, rfl⟩⟩ := exists_of_props?_eq_some hprops <;> rfl
  · rfl

/-- A change of the props keeps the shape of a story call. -/
@[simp] theorem storyCallShape?_mapProps (component : String) (change : Properties → Properties)
    (call : Node) :
    (call.mapProps change).storyCallShape? component = call.storyCallShape? component := by
  rw [← storyCallShape?_outline, outline_mapProps, storyCallShape?_outline]

end Node

/-- An edit that only changes the props objects of the calls that it is given. -/
def ChangesProps (change : Nat → σ → Node → EditedCall σ ε) : Prop :=
  ∀ index state call, ∃ inner, (change index state call).call = call.mapProps inner

/-- What does not depend on the props objects of calls is the same after any visits. -/
theorem map_afterCalls {α : Type} {view : Node → α} (h : ChangesProps change)
    (hview : ∀ inner call, view (call.mapProps inner) = view call) (index : Nat) (state : σ)
    (calls : List Node) {k : Nat} (hk : k ≤ (visitsTo change index state calls).length) :
    (((visitsTo change index state calls).take k).map (·.edited.call) ++ calls.drop k).map view =
      calls.map view := by
  -- a visit leaves the call that it is to, but for its props
  have hvisited : ∀ visit ∈ visitsTo change index state calls,
      view visit.edited.call = view visit.call := by
    intro visit hvisit
    obtain ⟨i, hi⟩ := List.mem_iff_getElem?.mp hvisit
    obtain ⟨-, -, hedited⟩ := getElem?_visitsTo hi
    obtain ⟨inner, hinner⟩ := h visit.index visit.state visit.call
    rw [hedited, hinner, hview]
  -- the visits are to the first calls
  have hfirst : (((visitsTo change index state calls).take k).map (·.edited.call)).map view =
      (calls.take k).map view := by
    calc (((visitsTo change index state calls).take k).map (·.edited.call)).map view
        = (((visitsTo change index state calls).take k).map (·.call)).map view := by
          rw [List.map_map, List.map_map]
          exact List.map_congr_left fun visit hvisit => hvisited visit (List.mem_of_mem_take hvisit)
      _ = (calls.take k).map view := by
          rw [List.map_take, map_call_visitsTo, List.take_take, Nat.min_eq_left hk]
  rw [List.map_append, hfirst, ← List.map_append, List.take_append_drop]

/-! ## Places of story calls -/

/-- A change of the props keeps the place of a story call. -/
@[simp] theorem Node.site?_mapProps (component : String) (inner : Properties → Properties)
    (call : Node) : (call.mapProps inner).site? component = call.site? component := by
  simp only [site?, storyCallShape?_mapProps, span_mapProps]

/-- The same places are found among story calls at the same places, with props objects where the
    others have them. -/
theorem storyCalls_congr {other : Module} (h : module.storyCalls filename component = .ok found)
    (hsites : (storyCallsAmong component other.statements).map (·.site? component) =
      (storyCallsAmong component module.statements).map (·.site? component))
    (hprops : (storyCallsAmong component other.statements).map (·.props?.isSome) =
      (storyCallsAmong component module.statements).map (·.props?.isSome)) :
    other.storyCalls filename component = .ok found := by
  obtain ⟨hsome, hfound⟩ := Module.storyCalls_eq_ok.mp h
  refine Module.storyCalls_eq_ok.mpr ⟨fun call hcall => ?_, ?_⟩
  · -- each call has a counterpart, and with it props
    have hmem := List.mem_map_of_mem (f := fun call : Node => call.props?.isSome) hcall
    rw [hprops] at hmem
    obtain ⟨original, horiginal, heq⟩ := List.mem_map.mp hmem
    rw [← heq, hsome original horiginal]
  · calc found =
        ((storyCallsAmong component module.statements).map (·.site? component)).filterMap id := by
          rw [hfound, List.filterMap_map]
          rfl
      _ = _ := by
          rw [← hsites, List.filterMap_map]
          rfl

/-- A story call that is a statement is a statement with a validated call. -/
theorem isStatementCall_iff {call : Node} {shape : CallShape}
    (h : call.storyCallShape? component = some shape) :
    call.isStatementCall = true ↔
      shape = .validated ∧ ∃ span inner, call = mk .expression span [inner] := by
  constructor
  · intro hstatement
    rcases storyCallShape?_eq_some.mp h with hrenders | ⟨hshape, span, inner, hcall, -⟩
    · exact absurd (by simpa [isStatementCall] using hstatement) hrenders.kind_ne
    · exact ⟨hshape, span, inner, hcall⟩
  · rintro ⟨-, span, inner, rfl⟩
    rfl

/-! ## While an edit is under way -/

section Agreement

variable {state : σ}

/-- What does not depend on the props objects of story calls is the same while an edit is under
    way. -/
theorem map_afterVisits {α : Type} {view : Node → α} (h : ChangesProps change)
    (hview : ∀ inner call, view (call.mapProps inner) = view call) {k : Nat}
    (hk : k ≤ (module.visits component state change).length) :
    (((module.visits component state change).take k).map (·.edited.call) ++
        (storyCallsAmong component module.statements).drop k).map view =
      (storyCallsAmong component module.statements).map view := by
  rw [visits_eq] at hk ⊢
  exact map_afterCalls h hview 0 state _ hk

/-- After some visits, the first story calls are those that the visits left. -/
theorem storyCallsAmong_afterVisits (h : ChangesProps change) {k : Nat}
    (hk : k ≤ (module.visits component state change).length) :
    storyCallsAmong component
        (module.afterVisits component (module.visits component state change) k).statements =
      ((module.visits component state change).take k).map (·.edited.call) ++
        (storyCallsAmong component module.statements).drop k :=
  storyCallsAmong_replaceCallsAmong (map_afterVisits h outline_mapProps hk)

/-- After some visits, the same story calls are found. -/
theorem storyCalls_afterVisits (h : ChangesProps change)
    (hfound : module.storyCalls filename component = .ok found) {k : Nat}
    (hk : k ≤ (module.visits component state change).length) :
    (module.afterVisits component (module.visits component state change) k).storyCalls filename
      component = .ok found := by
  have hcalls := storyCallsAmong_afterVisits h hk
  refine storyCalls_congr hfound ?_ ?_
  · rw [hcalls, map_afterVisits h (Node.site?_mapProps component) hk]
  · rw [hcalls, map_afterVisits h (fun inner call => ?_) hk]
    rw [props?_mapProps, Option.isSome_map]

/-- The visit with an index is the one to the story call that was found there. -/
theorem site_of_visit (hfound : module.storyCalls filename component = .ok found) {k : Nat}
    {visit : Visit σ ε} (hvisit : (module.visits component state change)[k]? = some visit) :
    ∃ shape, found[k]? = some ⟨shape, visit.call.span⟩ ∧
      visit.call.storyCallShape? component = some shape := by
  rw [visits_eq] at hvisit
  obtain ⟨-, hcall, -⟩ := getElem?_visitsTo hvisit
  obtain ⟨shape, hshape⟩ := Option.isSome_iff_exists.mp
    (isStoryCall_of_mem (List.mem_of_getElem? hcall))
  -- the lists of places and of calls are read at the same index
  have hsites := congrArg (·[k]?) (Module.map_site?_of_storyCalls hfound)
  simp only [List.getElem?_map, hcall, Option.map_some, Node.site?, hshape] at hsites
  obtain ⟨site, hsite, heq⟩ := Option.map_eq_some_iff.mp hsites.symm
  obtain rfl := Option.some.inj heq
  exact ⟨shape, hsite, hshape⟩

/-- The walk that edits a module meets the story calls that the other walk found: with their
    indices, in their order, as statements where they are statements.  Whatever the edits before did
    to props objects, the same story calls are found and the ones that are left are as they were.
    If no edit fails, all of them are visited; otherwise the first that fails is the last visit. -/
theorem editStoryCalls_agrees (state : σ)
    (hfound : module.storyCalls filename component = .ok found) (hchange : ChangesProps change) :
    let calls := storyCallsAmong component module.statements
    let visits := module.visits component state change
    let edited := module.editStoryCalls component state change
    (∀ k (visit : Visit σ ε), visits[k]? = some visit →
      visit.index = k ∧ calls[k]? = some visit.call ∧
      visit.edited = change visit.index visit.state visit.call ∧
      ∃ shape, found[k]? = some ⟨shape, visit.call.span⟩ ∧
        visit.call.storyCallShape? component = some shape ∧
        (visit.call.isStatementCall = true ↔
          shape = .validated ∧ ∃ span inner, visit.call = mk .expression span [inner])) ∧
    (∀ k ≤ visits.length,
      (module.afterVisits component visits k).storyCalls filename component = .ok found ∧
      storyCallsAmong component (module.afterVisits component visits k).statements =
        (visits.take k).map (·.edited.call) ++ calls.drop k) ∧
    edited.1 = module.afterVisits component visits visits.length ∧
    ((∀ visit ∈ visits, visit.edited.failure = none) →
      visits.length = found.length ∧ edited.2.failure = none ∧ edited.2.index = found.length) ∧
    ∀ k (visit : Visit σ ε) e, visits[k]? = some visit → visit.edited.failure = some e →
      visits.length = k + 1 ∧ edited.2.failure = some e ∧
      (storyCallsAmong component edited.1.statements).drop (k + 1) = calls.drop (k + 1) := by
  intro calls visits edited
  have hvisits : visits = visitsTo change 0 state calls := visits_eq state
  obtain ⟨hmodule, hindex, hfailure⟩ := editStoryCalls_eq module component state change
  refine ⟨fun k visit hvisit => ?_, fun k hk => ?_, hmodule, fun hok => ?_,
    fun k visit e hvisit he => ?_⟩
  · obtain ⟨shape, hsite, hshape⟩ := site_of_visit hfound hvisit
    rw [hvisits] at hvisit
    -- a visit is to the call of its index, which was found with its shape and span
    obtain ⟨hk, hcall, hedited⟩ := getElem?_visitsTo hvisit
    exact ⟨by omega, hcall, hedited, shape, hsite, hshape, isStatementCall_iff hshape⟩
  · exact ⟨storyCalls_afterVisits hchange hfound hk, storyCallsAmong_afterVisits hchange hk⟩
  · -- if no edit fails, there is a visit to each call
    have hlen : visits.length = found.length := by
      rw [hvisits, length_visitsTo_of_ok (by rwa [← hvisits]), Module.length_of_storyCalls hfound]
    exact ⟨hlen, hfailure.trans (lastFailure_of_ok hok), hindex.trans hlen⟩
  · -- the visit that fails is the last one, and the calls behind it are left
    have hlen : visits.length = k + 1 := by
      rw [hvisits] at hvisit ⊢
      exact length_visitsTo_of_failure hvisit (by rw [he]; rfl)
    refine ⟨hlen, hfailure.trans ((lastFailure_of_last hvisit hlen).trans he), ?_⟩
    have hfirst : ((visits.take visits.length).map (·.edited.call)).length = k + 1 := by
      rw [List.take_length, List.length_map, hlen]
    rw [hmodule, storyCallsAmong_afterVisits hchange (Nat.le_refl _), List.drop_left' hfirst, hlen]

end Agreement

/-- A module that renders a story in either shape and then a third one inside a function. -/
def shapesModule : Module where
  source := []
  hashbang := none
  directives := []
  statements :=
    let props := [.made (.reference "node") [], .ofProperties []]
    let story := .made (.reference storyComponent) []
    [.made .expression [.made (.call false) (story :: props)],
      .made .expression [.made (.call false)
        (.made (.call false) [.made (.reference validatingFunction) [], story] :: props)],
      .made .expression [.made (.arrow false)
        [.made .parameters [],
          .made (.body []) [.made .expression [.made (.call false) (story :: props)]]]]]
  comments := []

/-- Adds the index of each call to its props, and fails at the second call. -/
def shapesEdit (index : Nat) (_ : Unit) (call : Node) : EditedCall Unit String :=
  ⟨call.mapProps fun properties =>
    Properties.add properties "index" (.made (.number (toString index)) []), (),
      if index = 1 then some "second" else none⟩

/-- Three story calls are found, two of them are visited, and the third one stays as it was. -/
theorem editStoryCalls_shapesModule :
    let visits := shapesModule.visits storyComponent () shapesEdit
    shapesModule.storyCalls "Shapes.stories.svelte" storyComponent =
      .ok [⟨.plain, ⟨0, 0⟩⟩, ⟨.validated, ⟨0, 0⟩⟩, ⟨.plain, ⟨0, 0⟩⟩] ∧
    ChangesProps shapesEdit ∧ visits.map (·.call.isStatementCall) = [false, true] ∧
    visits.length = 2 ∧
    (shapesModule.editStoryCalls storyComponent () shapesEdit).2.failure = some "second" := by
  intro visits
  have hfound : shapesModule.storyCalls "Shapes.stories.svelte" storyComponent =
      .ok [⟨.plain, ⟨0, 0⟩⟩, ⟨.validated, ⟨0, 0⟩⟩, ⟨.plain, ⟨0, 0⟩⟩] := rfl
  have hchange : ChangesProps shapesEdit := fun _ _ _ => ⟨_, rfl⟩
  -- the second visit fails, so that it is the last one
  obtain ⟨-, -, -, -, hfailure⟩ := editStoryCalls_agrees () hfound hchange
  obtain ⟨hlen, hfailed, -⟩ := hfailure 1 _ "second" rfl rfl
  exact ⟨hfound, hchange, rfl, hlen, hfailed⟩

end SvelteStories.Script
