import SvelteStories.Meta.Declaration

/-!
# Story calls

A compiled module renders a story by a call in one of two shapes:

    Story(node, { name: "Primary" });
    $.validate_component(Story)(node, { name: "Primary" });

Either way the props of the story are the second argument, an object literal: the *props object*.  A
`StoryCall` is a place where a story is rendered: the call, or the whole statement if a validated
call is all of it.  Story calls are found and edited in source order, and nothing inside a story
call is looked at.

`storyCalls` lists the calls of a tree and `editCalls` runs an edit over them; `callShape?` alone
decides for both what a story call is.
-/

namespace SvelteStories.Script

open Text Diagnostic

/-- The two shapes of a story call. -/
inductive CallShape
  | plain
  | validated
deriving Repr, DecidableEq

/-- A place where a compiled module renders a story. -/
structure StoryCall where
  shape : CallShape
  span : Span
deriving Repr, DecidableEq

/-- The function that a development build wraps a component in. -/
def validatingFunction : String := "validate_component"

namespace Node

/-- Whether a callee is the validating function, by itself or as a member. -/
def validates : Node → Bool
  | mk (.member _) _ [_, mk (.name name) _ _] => name == validatingFunction
  | node => node.isReference validatingFunction

/-- The shape of a call of the given component, if a node is one. -/
def callShape? (component : String) : Node → Option CallShape
  | mk (.call _) _ (callee :: _) =>
    if callee.isReference component then some .plain
    else match callee with
      | mk (.call _) _ (inner :: argument :: _) =>
        if inner.validates && argument.isReference component then some .validated else none
      | _ => none
  | _ => none

/-- The shape of the story call that a node is: a call, or a statement that is a validated call. -/
def storyCallShape? (component : String) : Node → Option CallShape
  | mk .expression _ [inner] =>
    if inner.callShape? component == some .validated then some .validated else none
  | node => node.callShape? component

/-- The call of a node that is a story call. -/
def call : Node → Node
  | mk .expression _ [inner] => inner
  | node => node

/-- Whether a story call is a whole statement. -/
def isStatementCall (node : Node) : Bool :=
  node.kind == .expression

/-- The properties of the props object of a story call. -/
def props? (node : Node) : Option Properties :=
  match node.call with
  | mk (.call _) _ (_ :: _ :: props :: _) => props.properties?
  | _ => none

/-- A call with other properties in the object literal that is its second argument. -/
def withSecondArgument (properties : Properties) : Node → Node
  | mk (.call optional) span (callee :: first :: mk .object object _ :: rest) =>
    mk (.call optional) span (callee :: first :: mk .object object properties :: rest)
  | node => node

/-- A story call with other properties in its props object. -/
def withProps (properties : Properties) : Node → Node
  | mk .expression span [inner] => mk .expression span [inner.withSecondArgument properties]
  | node => node.withSecondArgument properties

/-! ## Finding -/

mutual

/-- The story calls of a tree, in source order. -/
def storyCalls (component : String) : Node → List Node
  | mk kind span parts =>
    if ((mk kind span parts).storyCallShape? component).isSome then [mk kind span parts]
    else storyCallsAmong component parts

/-- The story calls of the given trees, in source order. -/
def storyCallsAmong (component : String) : List Node → List Node
  | [] => []
  | node :: rest => node.storyCalls component ++ storyCallsAmong component rest

end

/-! ## Editing -/

mutual

/-- Runs an edit over the story calls of a tree, in source order. -/
def editCalls {m : Type → Type} [Monad m] (component : String) (edit : Node → m Node) :
    Node → m Node
  | mk kind span parts =>
    if ((mk kind span parts).storyCallShape? component).isSome then edit (mk kind span parts)
    else mk kind span <$> editCallsAmong component edit parts

/-- Runs an edit over the story calls of the given trees, in source order. -/
def editCallsAmong {m : Type → Type} [Monad m] (component : String) (edit : Node → m Node) :
    List Node → m (List Node)
  | [] => pure []
  | node :: rest => do
    let node ← node.editCalls component edit
    return node :: (← editCallsAmong component edit rest)

end

end Node

/-! ## Edits that may fail -/

/-- A run of edits over story calls: the index of the next call, a state of the edits, and the
    failure that ended them. -/
structure CallRun (σ ε : Type) where
  index : Nat := 0
  state : σ
  failure : Option ε := none

/-- What an edit of a story call comes to.  An edit that fails leaves a call and a state as well. -/
structure EditedCall (σ ε : Type) where
  call : Node
  state : σ
  failure : Option ε := none

/-- Edits the next story call of a run, unless the run has failed.  A failure of the edit ends the
    run. -/
def CallRun.edit {σ ε : Type} (change : Nat → σ → Node → EditedCall σ ε) (call : Node) :
    StateM (CallRun σ ε) Node := fun run =>
  if run.failure.isSome then (call, run)
  else
    let edited := change run.index run.state call
    (edited.call,
      { index := run.index + 1, state := edited.state, failure := edited.failure })

namespace Module

/-- Edits the story calls of a module one after the other, up to the first edit that fails. -/
def editStoryCalls {σ ε : Type} (module : Module) (component : String) (state : σ)
    (change : Nat → σ → Node → EditedCall σ ε) : Module × CallRun σ ε :=
  let (statements, run) :=
    (Node.editCallsAmong component (CallRun.edit change) module.statements).run { state }
  ({ module with statements }, run)

/-- What is wrong with a story call without a props object. -/
def propsProblem (module : Module) (call : Node) : Problem :=
  .storyProps (position module.source call.span.start)
    ((call.span.slice? module.source).map String.ofList)

/-- The story calls of a module, in source order.  Each of them must have a props object. -/
def storyCalls (module : Module) (filename component : String) :
    Except Report (List StoryCall) :=
  let calls := Node.storyCallsAmong component module.statements
  match calls.find? (·.props?.isNone) with
  | some call => .error ((module.propsProblem call).report filename)
  | none => .ok (calls.filterMap fun call =>
      (call.storyCallShape? component).map fun shape => ⟨shape, call.span⟩)

end Module

/-- The props object of a story call. -/
def Node.props (call : Node) (filename : String) : Except Report Properties :=
  match call.props? with
  | some properties => .ok properties
  | none => .error ((Problem.storyProps .unknown none).report filename)

end SvelteStories.Script
