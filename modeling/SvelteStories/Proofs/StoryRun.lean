import Mathlib.Data.List.Forall2
import SvelteStories.Proofs.Description
import SvelteStories.Proofs.Location

/-!
# A run over the story calls

A transform edits the story calls one after the other, each with the story that it was paired with,
and ends at the first story that cannot be documented.  Whatever happens, a run leaves some first
calls documented and all others as they were.

## Key results

- `editStoryCall_eq`: one step documents its call or leaves it alone
- `editAll_editStoryCall`: a whole run
-/

namespace SvelteStories.Edit

open Text Diagnostic Script Node

variable {story : Story} {call : Node} {stories : List Story} {calls : List Node}

/-! ## Documented calls -/

/-- What stands in the way of a story in the props object of its call. -/
def callObstacle? (story : Story) (call : Node) : Option ShapeError :=
  call.props?.bind (storyObstacle? story)

/-- A story call with the description and the raw code of its story. -/
def documentedCall (story : Story) : Node → Node :=
  mapProps (documented story)

/-- The story of a call, if its comment is ignored. -/
def ignoredInCall (story : Story) (call : Node) : List Subject :=
  match call.props? with
  | some properties => ignoredIn story.comment (subjectOf story) properties
  | none => []

/-- The given calls, the first of them documented with the given stories. -/
def documentedCalls : List Story → List Node → List Node
  | story :: stories, call :: calls => documentedCall story call :: documentedCalls stories calls
  | _, calls => calls

/-- The stories whose comments are ignored in their calls. -/
def ignoredInCalls : List Story → List Node → List Subject
  | story :: stories, call :: calls => ignoredInCall story call ++ ignoredInCalls stories calls
  | _, _ => []

/-- Nothing stands in the way of the stories in their calls. -/
def Free (stories : List Story) (calls : List Node) : Prop :=
  List.Forall₂ (fun story call => callObstacle? story call = none) stories calls

/-- As many stories as calls, if nothing stands in their way. -/
theorem Free.length_eq (h : Free stories calls) : stories.length = calls.length :=
  List.Forall₂.length_eq h

/-- Nothing stands in the way of a story in the call of its place. -/
theorem Free.callObstacle?_eq_none (h : Free stories calls) {n : Nat}
    (hstory : stories[n]? = some story) (hcall : calls[n]? = some call) :
    callObstacle? story call = none := by
  induction h generalizing n with
  | nil => exact nomatch hstory
  | cons hhead _ ih =>
    cases n with
    | zero =>
      obtain rfl := Option.some.inj hstory
      obtain rfl := Option.some.inj hcall
      exact hhead
    | succ n => exact ih hstory hcall

@[simp] theorem documentedCalls_nil (calls : List Node) : documentedCalls [] calls = calls := rfl

@[simp] theorem ignoredInCalls_nil (calls : List Node) : ignoredInCalls [] calls = [] := rfl

/-- Documenting calls keeps their outlines. -/
theorem map_outline_documentedCalls (stories : List Story) (calls : List Node) :
    (documentedCalls stories calls).map outline = calls.map outline := by
  induction stories generalizing calls with
  | nil => rfl
  | cons story stories ih =>
    cases calls with
    | nil => rfl
    | cons call calls =>
      rw [documentedCalls, List.map_cons, List.map_cons, documentedCall, outline_mapProps, ih]

/-- The first calls are documented with the stories of their places. -/
theorem documentedCalls_take (hlen : stories.length = calls.length) (n : Nat) :
    documentedCalls (stories.take n) calls =
      List.zipWith documentedCall (stories.take n) (calls.take n) ++ calls.drop n := by
  -- the stories and the calls are used up together
  induction stories generalizing calls n with
  | nil =>
    obtain rfl : calls = [] := List.length_eq_zero_iff.mp hlen.symm
    simp
  | cons story stories ih =>
    obtain ⟨call, calls, rfl⟩ := List.exists_cons_of_length_eq_add_one hlen.symm
    cases n with
    | zero => rfl
    | succ n =>
      rw [List.take_succ_cons, documentedCalls, ih (by simpa using hlen) n]
      rfl

/-- With a story for each call, each call is documented with its story. -/
theorem documentedCalls_eq_zipWith (hlen : stories.length = calls.length) :
    documentedCalls stories calls = List.zipWith documentedCall stories calls := by
  have h := documentedCalls_take hlen stories.length
  rwa [List.take_length, hlen, List.take_length, List.drop_length, List.append_nil] at h

/-- The ignored comments are those of the first calls. -/
theorem ignoredInCalls_take (hlen : stories.length = calls.length) (n : Nat) :
    ignoredInCalls (stories.take n) calls =
      (List.zipWith ignoredInCall (stories.take n) (calls.take n)).flatten := by
  induction stories generalizing calls n with
  | nil =>
    obtain rfl : calls = [] := List.length_eq_zero_iff.mp hlen.symm
    simp
  | cons story stories ih =>
    obtain ⟨call, calls, rfl⟩ := List.exists_cons_of_length_eq_add_one hlen.symm
    -- the first call counts unless none does
    cases n with
    | zero => rfl
    | succ n =>
      rw [List.take_succ_cons, ignoredInCalls, ih (by simpa using hlen) n]
      rfl

/-- With a story for each call, the ignored comments are those of the pairs, in order. -/
theorem ignoredInCalls_eq_flatten (hlen : stories.length = calls.length) :
    ignoredInCalls stories calls = (List.zipWith ignoredInCall stories calls).flatten := by
  have h := ignoredInCalls_take hlen stories.length
  rwa [List.take_length, hlen, List.take_length] at h

/-! ## One step -/

/-- A step for a call with the story that the call was paired with. -/
theorem editStoryCall_eq (filename : String) {pairs : List Story.Pair} {index : Nat}
    {found : StoryCall} (hpair : pairs[index]? = some (story, found))
    (hspan : found.span = call.span) (hprops : call.props?.isSome = true)
    (warnings : List Warning) :
    editStoryCall filename pairs index warnings call =
      match callObstacle? story call with
      | some e => ⟨call, warnings, some ((Problem.shape (subjectOf story) e).report filename)⟩
      | none =>
        ⟨documentedCall story call,
          warnings ++ (ignoredInCall story call).map (·.explicitDescription filename), none⟩ := by
  obtain ⟨properties, hproperties⟩ := Option.isSome_iff_exists.mp hprops
  simp only [editStoryCall, hpair, hspan, ↓reduceIte, Node.props, hproperties, callObstacle?,
    Option.bind_some, editProps_eq, documentedCall, mapProps_of_props? hproperties, ignoredInCall]
  cases storyObstacle? story properties with
  -- the props object is put back as it was
  | some e => simp only [withProps_of_props? hproperties, List.append_nil]
  | none => rfl

/-! ## A run -/

/-- A run that has failed leaves the calls that are left as they are. -/
theorem editAll_of_failure {σ ε : Type} (change : Nat → σ → Node → EditedCall σ ε)
    (calls : List Node) {run : CallRun σ ε} (h : run.failure.isSome = true) :
    editAll (CallRun.edit change) calls run = (calls, run) := by
  induction calls with
  | nil => rfl
  | cons call calls ih =>
    have hstep : CallRun.edit change call run = (call, run) := if_pos h
    simp only [editAll, hstep, ih]

/-- A run documents some first calls, as nothing stands in their way, and leaves all others.  Either
    these are all calls, or the run ended at the call behind them, as something stands in its
    way. -/
theorem editAll_editStoryCall (filename : String) {pairs : List Story.Pair} {index : Nat}
    (hpairs : (pairs.drop index).map (fun pair => (pair.1, pair.2.span)) =
      stories.zip (calls.map Node.span))
    (hlen : stories.length = calls.length)
    (hprops : ∀ call ∈ calls, call.props?.isSome = true) (warnings : List Warning) :
    ∃ n last failure,
      editAll (CallRun.edit (editStoryCall filename pairs)) calls { index, state := warnings } =
        (documentedCalls (stories.take n) calls,
          { index := last
            state := warnings ++
              (ignoredInCalls (stories.take n) calls).map (·.explicitDescription filename)
            failure }) ∧
      Free (stories.take n) (calls.take n) ∧
      ((failure = none ∧ n = stories.length) ∨
        ∃ story call e, stories[n]? = some story ∧ calls[n]? = some call ∧
          callObstacle? story call = some e ∧
          failure = some ((Problem.shape (subjectOf story) e).report filename)) := by
  -- induction on the stories that are left, with the index of the next pair
  induction stories generalizing calls index warnings with
  | nil =>
    obtain rfl : calls = [] := List.length_eq_zero_iff.mp hlen.symm
    exact ⟨0, index, none, by simp [editAll], List.Forall₂.nil, .inl ⟨rfl, rfl⟩⟩
  | cons story stories ih =>
    obtain ⟨call, calls, rfl⟩ := List.exists_cons_of_length_eq_add_one hlen.symm
    -- the pair of the call is the next one
    obtain ⟨⟨paired, found⟩, rest, hdrop, hhead, hrest⟩ := List.map_eq_cons_iff.mp hpairs
    obtain rfl : story = paired := (Prod.mk.inj hhead).1.symm
    have hspan : found.span = call.span := (Prod.mk.inj hhead).2
    -- so the step finds the story of the call, at the place of the call
    have hpair : pairs[index]? = some (story, found) := by
      rw [← List.head?_drop, hdrop, List.head?_cons]
    have hnext : (pairs.drop (index + 1)).map (fun pair => (pair.1, pair.2.span)) =
        stories.zip (calls.map Node.span) := by
      rw [← List.tail_drop, hdrop, List.tail_cons]
      exact hrest
    have hstep := editStoryCall_eq filename hpair hspan (hprops call List.mem_cons_self) warnings
    cases hobstacle : callObstacle? story call with
    | some e =>
      -- the run ends here
      simp only [hobstacle] at hstep
      refine ⟨0, index + 1, some ((Problem.shape (subjectOf story) e).report filename), ?_,
        List.Forall₂.nil, .inr ⟨story, call, e, rfl, rfl, hobstacle, rfl⟩⟩
      simp only [editAll, CallRun.edit, Option.isSome_none, Bool.false_eq_true, ↓reduceIte, hstep,
        List.take_zero, documentedCalls_nil, ignoredInCalls_nil, List.map_nil, List.append_nil]
      rw [editAll_of_failure _ calls rfl]
    | none =>
      simp only [hobstacle] at hstep
      obtain ⟨n, last, failure, hrun, hfree, hend⟩ := ih hnext (by simpa using hlen)
        (fun c hc => hprops c (List.mem_cons_of_mem call hc))
        (warnings ++ (ignoredInCall story call).map (·.explicitDescription filename))
      refine ⟨n + 1, last, failure, ?_, List.Forall₂.cons hobstacle hfree, ?_⟩
      · simp only [editAll, CallRun.edit, Option.isSome_none, Bool.false_eq_true, ↓reduceIte, hstep]
        rw [hrun]
        simp only [List.take_succ_cons, documentedCalls, ignoredInCalls, List.map_append,
          List.append_assoc]
      · rcases hend with ⟨hfailure, rfl⟩ | ⟨story', call', e, hstory, hcall, he, hfailure⟩
        · exact .inl ⟨hfailure, rfl⟩
        · exact .inr ⟨story', call', e, by simpa using hstory, by simpa using hcall, he, hfailure⟩

end SvelteStories.Edit
