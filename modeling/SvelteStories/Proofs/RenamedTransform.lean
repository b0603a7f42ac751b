import SvelteStories.Proofs.EditWalk
import SvelteStories.Proofs.RenamedCalls
import SvelteStories.Proofs.Spans

/-!
# A transform does not depend on the name of the story component

The component of a module can be bound to any name that is not taken.  A transform of a module in
which a variable is renamed does what it does to the module, with the variable renamed: the lookups
find the same places under the new name, each step over the story calls comes to the renamed call,
and nothing that is added has the old name.

## Key results

- `Located.rename`: what is found in a renamed module
- `editStoryCall_rename`, `editStoryCalls_rename`: one step, and a run over the story calls
- `transform_rename`: a transform, whatever it comes to
- `transform_renameComponent`: a transform of any module with the tree of the renamed one
-/

namespace SvelteStories

open Text Diagnostic Script

/-- What is found in a compiled module, after a variable was renamed. -/
def CompiledContent.rename (old new : String) (content : CompiledContent) : CompiledContent :=
  { content with
    metaBinding := renamed old new content.metaBinding
    component := renamed old new content.component }

namespace Script

open Node

variable {old new name package component : String} {module : Module} {content : CompiledContent}
  {before after : List Node} {declaration : Node} {object : Properties}

/-- The functions that are looked for by their own names. -/
def fixedNames : List String := [metaFunction, validatingFunction, runtimeFunction]

namespace Module

/-- A module after the variable `old` was renamed to `new`. -/
def rename (old new : String) (module : Module) : Module :=
  { module with statements := module.statements.map (Node.rename old new) }

/-- A variable can be renamed if neither of its names is looked for by itself, and no variable of
    the module has the new one. -/
structure CanRename (old new : String) (module : Module) : Prop where
  oldFree : old ∉ fixedNames
  newFree : new ∉ fixedNames
  fresh : new ∉ variableNamesAmong module.statements

/-- The runtime import is found in a renamed module if it is found in the module. -/
theorem hasRuntimeImport_rename (hold : runtimeFunction ≠ old) (hnew : runtimeFunction ≠ new)
    (module : Module) (package : String) :
    (module.rename old new).hasRuntimeImport package = module.hasRuntimeImport package :=
  (carriesNames_rename old new).hasRuntimeImport_map (renamed_eq_iff_of_ne hold hnew) package
    module.statements

/-- The runtime import has none of the names of the variable, so it can be added before or after. -/
theorem addRuntimeImport_rename (hold : runtimeFunction ≠ old) (hnew : runtimeFunction ≠ new)
    (module : Module) (package : String) :
    (module.rename old new).addRuntimeImport package =
      ((module.addRuntimeImport package).1.rename old new,
        (module.addRuntimeImport package).2) := by
  -- the import binds the runtime function, which is not renamed
  have himport : (runtimeImport package).rename old new = runtimeImport package := by
    simp only [runtimeImport, made, Node.rename, renameAmong, Kind.rename, renamed,
      hold, ↓reduceIte]
  unfold addRuntimeImport
  rw [hasRuntimeImport_rename hold hnew]
  split
  · rfl
  · simp only [rename, List.map_cons, himport]

/-! ## What is found -/

/-- The function that declares metadata is a variable of the module. -/
theorem mem_variableNamesAmong_of_metaImport? (h : module.metaImport? package = some name) :
    name ∈ variableNamesAmong module.statements := by
  unfold metaImport? at h
  obtain ⟨statement, hstatement, hfound⟩ := List.exists_of_findSome?_eq_some h
  obtain ⟨specifier, hspecifier, hname⟩ := List.exists_of_findSome?_eq_some hfound
  exact mem_variableNamesAmong.mpr ⟨statement, hstatement,
    mem_variableNames_of_specifiersFrom hspecifier (mem_variableNames_of_importedAs? hname)⟩

namespace CanRename

/-- A name that is looked for by itself is neither of the two names. -/
theorem ne_of_mem (h : module.CanRename old new) (hname : name ∈ fixedNames) :
    name ≠ old ∧ name ≠ new :=
  ⟨fun heq => h.oldFree (heq ▸ hname), fun heq => h.newFree (heq ▸ hname)⟩

/-- The validating function has none of the two names. -/
theorem validating_ne (h : module.CanRename old new) :
    validatingFunction ≠ old ∧ validatingFunction ≠ new :=
  h.ne_of_mem (by simp [fixedNames])

/-- A variable of the module does not have the new name. -/
theorem ne_new (h : module.CanRename old new)
    (hname : name ∈ variableNamesAmong module.statements) :
    name ≠ new :=
  fun heq => h.fresh (heq ▸ hname)

/-- The new name is fresh in every statement. -/
theorem fresh_of_mem (h : module.CanRename old new) {statement : Node}
    (hmem : statement ∈ module.statements) : new ∉ statement.variableNames :=
  fun hname => h.fresh (mem_variableNamesAmong.mpr ⟨statement, hmem, hname⟩)

/-- The story calls of the renamed module are its story calls renamed. -/
theorem storyCallsAmong (h : module.CanRename old new) (hcomponent : component ≠ new) :
    storyCallsAmong (renamed old new component) (module.rename old new).statements =
      (storyCallsAmong component module.statements).map (Node.rename old new) := by
  obtain ⟨hold, hnew⟩ := h.validating_ne
  exact storyCallsAmong_rename hold hnew hcomponent h.fresh

/-- The story calls of a renamed module have props objects if those of the module have. -/
theorem props (h : module.CanRename old new) (hcomponent : component ≠ new)
    (hprops : ∀ call ∈ Node.storyCallsAmong component module.statements,
      call.props?.isSome = true) :
    ∀ call ∈ Node.storyCallsAmong (renamed old new component) (module.rename old new).statements,
      call.props?.isSome = true := by
  rw [h.storyCallsAmong hcomponent, List.forall_mem_map]
  intro call hcall
  rw [props?_rename, Option.isSome_map]
  exact hprops call hcall

/-- The story calls of a renamed module are found in their places. -/
theorem filterMap_site? (h : module.CanRename old new) (hcomponent : component ≠ new) :
    (Node.storyCallsAmong (renamed old new component) (module.rename old new).statements).filterMap
        (·.site? (renamed old new component)) =
      (Node.storyCallsAmong component module.statements).filterMap (·.site? component) := by
  rw [h.storyCallsAmong hcomponent, List.filterMap_map]
  refine List.filterMap_congr fun call hcall => ?_
  have hfresh : new ∉ call.variableNames := fun hname =>
    h.fresh (mem_variableNamesAmong_of_storyCall hcall hname)
  obtain ⟨hold, hnew⟩ := h.validating_ne
  simp only [Function.comp_apply, Node.site?, storyCallShape?_rename hold hnew hcomponent hfresh,
    span_rename]

end CanRename

namespace Located

variable (h : module.Located package content before declaration after object)
  (hrename : module.CanRename old new)

include h hrename

/-- The function that declares metadata does not have the new name. -/
theorem metaBinding_ne_new : content.metaBinding ≠ new :=
  hrename.ne_new (mem_variableNamesAmong_of_metaImport? h.imported)

/-- The new name is fresh in the meta declaration. -/
theorem declaration_fresh : new ∉ declaration.variableNames :=
  hrename.fresh_of_mem (by simp [h.statements])

/-- The story component does not have the new name. -/
theorem component_ne_new : content.component ≠ new := fun heq =>
  h.declaration_fresh hrename (heq ▸ mem_variableNames_of_storyBinding? h.binding)

/-- In a renamed module the same is found in the same places. -/
theorem rename :
    (module.rename old new).Located package (content.rename old new)
      (before.map (Node.rename old new))
      (declaration.rename old new) (after.map (Node.rename old new))
      (object.map (Node.rename old new)) := by
  obtain ⟨hold, hnew⟩ := hrename.ne_of_mem (show metaFunction ∈ fixedNames by simp [fixedNames])
  have hbound := h.metaBinding_ne_new hrename
  exact {
    imported := ((carriesNames_rename old new).metaImport?_map package module.statements).trans
      (congrArg (Option.map (renamed old new)) h.imported)
    statements := by simp only [Module.rename, h.statements, List.map_append, List.map_cons]
    index := (List.length_map _).trans h.index
    alone := by
      rw [← List.map_append, List.forall_mem_map]
      -- the other statements declare no metadata, and do so under no other name
      intro statement hmem
      have hfresh : new ∉ statement.variableNames := by
        refine hrename.fresh_of_mem ?_
        rw [h.statements, List.mem_append, List.mem_cons]
        exact (List.mem_append.mp hmem).imp_right .inr
      exact (declaresMeta_rename hold hnew hbound hfresh).trans (h.alone statement hmem)
    metaObject := (metaObject?_rename hbound (h.declaration_fresh hrename)).trans
      (congrArg (Option.map (List.map (Node.rename old new))) h.metaObject)
    metaCall := h.metaCall.trans (metaCallSpan_rename declaration).symm
    binding := ((carriesNames_rename old new).storyBinding?_map declaration).trans
      (congrArg (Option.map (renamed old new)) h.binding)
    props := hrename.props (h.component_ne_new hrename) h.props
    calls := h.calls.trans (hrename.filterMap_site? (h.component_ne_new hrename)).symm }

end Located

end Module

/-! ## Runs of edits -/

section Runs

variable {σ ε : Type} {change : Nat → σ → Node → EditedCall σ ε}

/-- What an edit of a story call comes to, after a variable was renamed. -/
def EditedCall.rename (old new : String) (edited : EditedCall σ ε) : EditedCall σ ε :=
  { edited with call := edited.call.rename old new }

/-- If each step comes to the renamed call, so does a run. -/
theorem editAll_rename
    (hchange : ∀ index state call,
      change index state (call.rename old new) = (change index state call).rename old new)
    (calls : List Node) (run : CallRun σ ε) :
    editAll (CallRun.edit change) (calls.map (Node.rename old new)) run =
      ((editAll (CallRun.edit change) calls run).1.map (Node.rename old new),
        (editAll (CallRun.edit change) calls run).2) := by
  induction calls generalizing run with
  | nil => rfl
  | cons call calls ih =>
    -- a run that has failed keeps the calls, any other one takes the step
    have hstep : CallRun.edit change (call.rename old new) run =
        ((CallRun.edit change call run).1.rename old new, (CallRun.edit change call run).2) := by
      unfold CallRun.edit
      split
      · rfl
      · rw [hchange]
        rfl
    simp only [List.map_cons, editAll, hstep, ih]

/-- A run over story calls leaves calls and statements in their places. -/
theorem hasCallKind_editAll (hprops : ChangesProps change) {calls : List Node}
    (hcalls : ∀ call ∈ calls, call.hasCallKind = true) (index : Nat) (state : σ) :
    ∀ call ∈ (editAll (CallRun.edit change) calls { index, state }).1, call.hasCallKind = true := by
  -- a change of props keeps the outline, and with it the kind
  have hview (inner : Properties → Properties) (call : Node) :
      (call.mapProps inner).hasCallKind = call.hasCallKind := by
    rw [hasCallKind, ← kind_outline, outline_mapProps, kind_outline, hasCallKind]
  obtain ⟨last, hrun⟩ := editAll_edit change calls index state
  have hkinds := map_afterCalls hprops hview index state calls (Nat.le_refl _)
  rw [List.take_length] at hkinds
  intro call hmem
  rw [hrun] at hmem
  have hkind := List.mem_map_of_mem (f := hasCallKind) hmem
  rw [hkinds] at hkind
  -- the call was edited from one that was there
  obtain ⟨original, horiginal, hsame⟩ := List.mem_map.mp hkind
  rw [← hsame, hcalls original horiginal]

/-- A run over the story calls of a renamed module leaves the renamed module. -/
theorem editStoryCalls_rename
    (hchange : ∀ index state call,
      change index state (call.rename old new) = (change index state call).rename old new)
    (hprops : ChangesProps change) (hrename : module.CanRename old new)
    (hcomponent : component ≠ new) (state : σ) :
    (module.rename old new).editStoryCalls (renamed old new component) state change =
      ((module.editStoryCalls component state change).1.rename old new,
        (module.editStoryCalls component state change).2) := by
  obtain ⟨hold, hnew⟩ := hrename.validating_ne
  have hfound : ∀ call ∈ storyCallsAmong component module.statements, call.hasCallKind = true :=
    fun _ hmem => hasCallKind_of_isStoryCall (isStoryCall_of_mem hmem)
  -- the calls are edited as a list, and then put back in their places
  simp only [Module.editStoryCalls, StateT.run, run_editCallsAmong,
    hrename.storyCallsAmong hcomponent, editAll_rename hchange]
  simp only [Module.rename, replaceCallsAmong_rename hold hnew hcomponent hrename.fresh
    (hasCallKind_editAll hprops hfound 0 state)]

end Runs

end Script

namespace Edit

open Node

variable {filename : String} {file : StoriesContent} {old new package component : String}
  {module other : Module} {content : CompiledContent} {before after : List Node}
  {declaration : Node} {object : Properties}

/-! ## The meta object -/

/-- What a part of the work comes to, after a variable was renamed. -/
def Transformed.rename {α : Type} (old new : String) (transformed : Transformed α) :
    Transformed α :=
  { transformed with module := transformed.module.rename old new }

/-- A description adds no variables. -/
theorem variableNamesAmong_described (comment : Option String) (subject : Subject)
    (properties : Properties) :
    variableNamesAmong (described comment subject properties) = variableNamesAmong properties := by
  rw [variableNamesAmong_eq_flatMap, variableNamesAmong_eq_flatMap,
    flatMap_described collectsParts_variableNames]

/-- The variables of a declaration are those around its meta object, and those in it. -/
theorem mem_variableNames_withMetaObject {bound name : String} {others : Properties}
    (h : declaration.metaObject? bound = some object)
    (hothers : variableNamesAmong others = variableNamesAmong object) :
    name ∈ (declaration.withMetaObject others).variableNames ↔
      name ∈ declaration.variableNames := by
  obtain ⟨_, _, _, _, _, _, _, _, _, rfl, -⟩ := exists_of_metaObject?_eq_some h
  simp only [withMetaObject, variableNames, variableNamesAmong, hothers]

/-- Describing the component of a renamed module. -/
theorem describedModule_rename (comment : Option String)
    (h : module.Located package content before declaration after object)
    (hrename : module.CanRename old new) :
    describedModule comment (content.rename old new) (module.rename old new) =
      (describedModule comment content module).rename old new := by
  have hstatements : (describedModule comment (content.rename old new)
      (module.rename old new)).statements =
        (describedModule comment content module).statements.map (Node.rename old new) := by
    rw [statements_describedModule comment (h.rename hrename), statements_describedModule comment h,
      (carriesEdits_rename old new).commutes_described, withMetaObject_rename h.metaObject,
      List.map_append, List.map_cons]
  exact congrArg (fun statements => { module with statements }) hstatements

/-- The component is described before or after the variable is renamed. -/
theorem editMetaObject_rename (filename : String) (comment : Option String)
    (h : module.Located package content before declaration after object)
    (hrename : module.CanRename old new) :
    (module.rename old new).editMetaObject filename (content.rename old new)
        (describe filename comment .component) =
      (module.editMetaObject filename content
        (describe filename comment .component)).rename old new := by
  rw [editMetaObject_eq filename comment (h.rename hrename), editMetaObject_eq filename comment h,
    (carriesObjects_rename old new).obstacle?_map, (carriesObjects_rename old new).ignoredIn_map,
    describedModule_rename comment h hrename]
  cases obstacle? (neededPath comment []) object <;> rfl

/-- A variable can be renamed as well after the component was described. -/
theorem canRename_describedModule (comment : Option String)
    (h : module.Located package content before declaration after object)
    (hrename : module.CanRename old new) :
    (describedModule comment content module).CanRename old new := by
  refine ⟨hrename.oldFree, hrename.newFree, ?_⟩
  have hfresh := hrename.fresh
  rw [h.statements, variableNamesAmong_append, variableNamesAmong_cons] at hfresh
  rw [statements_describedModule comment h, variableNamesAmong_append, variableNamesAmong_cons]
  simpa only [List.mem_append, mem_variableNames_withMetaObject h.metaObject
    (variableNamesAmong_described comment .component object)] using hfresh

/-! ## The story calls -/

/-- A step comes to the renamed call. -/
theorem editStoryCall_rename (filename : String) (pairs : List Story.Pair) (index : Nat)
    (warnings : List Warning) (call : Node) :
    editStoryCall filename pairs index warnings (call.rename old new) =
      (editStoryCall filename pairs index warnings call).rename old new := by
  unfold editStoryCall
  cases pairs[index]? with
  | none => rfl
  | some pair =>
    -- a call is found by its span, which renaming keeps
    simp only [span_rename]
    split
    · rw [Node.props, Node.props, props?_rename]
      cases hprops : call.props? with
      | none => rfl
      | some properties =>
        simp only [Option.map_some, (carriesEdits_rename old new).editProps_map,
          withProps_rename hprops, EditedCall.rename]
    · rfl

/-- A step changes nothing but a props object. -/
theorem changesProps_editStoryCall (filename : String) (pairs : List Story.Pair) :
    ChangesProps (editStoryCall filename pairs) := by
  intro index warnings call
  unfold editStoryCall
  cases pairs[index]? with
  | none => exact ⟨id, (mapProps_id call).symm⟩
  | some pair =>
    -- without a story, or with that of another call, nothing is changed
    dsimp only
    split
    · rw [Node.props]
      cases hprops : call.props? with
      | none => exact ⟨id, (mapProps_id call).symm⟩
      | some properties =>
        refine ⟨fun inner => (editProps filename pair.1 inner).properties, ?_⟩
        rw [mapProps_of_props? hprops]
    · exact ⟨id, (mapProps_id call).symm⟩

/-- What the work on the stories comes to, after a variable was renamed. -/
theorem editStories_rename (filename : String) (pairs : List Story.Pair)
    (hrename : module.CanRename old new) (hcomponent : component ≠ new) (warnings : List Warning) :
    editStories filename package (renamed old new component) pairs
      (module.rename old new) warnings =
      (editStories filename package component pairs module warnings).rename old new := by
  obtain ⟨hold, hnew⟩ := hrename.ne_of_mem (show runtimeFunction ∈ fixedNames by simp [fixedNames])
  simp only [editStories, editStoryCalls_rename (editStoryCall_rename filename pairs)
    (changesProps_editStoryCall filename pairs) hrename hcomponent]
  cases (module.editStoryCalls component warnings (editStoryCall filename pairs)).2.failure with
  | some report => rfl
  | none => simp only [Module.addRuntimeImport_rename hold hnew, Transformed.rename]

/-! ## The whole transform -/

/-- A transform of a module in which a variable is renamed comes to the same, and leaves what it
    leaves of the module, with the variable renamed. -/
theorem transform_rename (file : StoriesContent)
    (hcontent : module.compiledContent filename package = .ok content)
    (hrename : module.CanRename old new) :
    transform filename file package (module.rename old new) =
      (transform filename file package module).rename old new := by
  obtain ⟨before, declaration, after, object, h⟩ := Module.located_of_compiledContent hcontent
  have hcontent' := (h.rename hrename).compiledContent filename
  cases hpairs : Story.pair filename file.stories content.calls with
  | error report =>
    -- pairing only counts the calls that were found
    have hpairs' : Story.pair filename file.stories (content.rename old new).calls =
      .error report := hpairs
    simp only [transform, correlated, bind, Except.bind, hcontent, hcontent', hpairs, hpairs',
      Transformed.rename]
  | ok pairs =>
    have hpairs' : Story.pair filename file.stories (content.rename old new).calls = .ok pairs :=
      hpairs
    simp only [transform, correlated, bind, Except.bind, pure, Except.pure, hcontent,
      hcontent', hpairs, hpairs', editMetaObject_rename filename file.metaDescription h hrename,
      editMetaObject_eq filename file.metaDescription h]
    cases obstacle? (neededPath file.metaDescription []) object with
    | some e => rfl
    | none =>
      exact editStories_rename filename pairs
        (canRename_describedModule file.metaDescription h hrename)
        (h.component_ne_new hrename) _

/-- Binding the story component to another name changes nothing but the name.  A transform comes to
    the same report or the same answer, gives the same warnings, and leaves what it leaves of the
    module, with the component renamed.  So it does up to spans for any module that is written
    differently, but has the tree of the renamed one. -/
theorem transform_renameComponent (file : StoriesContent) {name : String}
    (hcontent : module.compiledContent filename package = .ok content)
    (hrename : module.CanRename content.component name) :
    transform filename file package (module.rename content.component name) =
        (transform filename file package module).rename content.component name ∧
      ∀ other, SameTree (module.rename content.component name) other → ∀ added,
        ((transform filename file package other).outcome = .ok added ↔
          (transform filename file package module).outcome = .ok added) ∧
        ((transform filename file package module).outcome = .ok added →
          (transform filename file package other).warnings =
            (transform filename file package module).warnings ∧
          SameTree ((transform filename file package module).module.rename content.component name)
            (transform filename file package other).module) := by
  have heq := transform_rename file hcontent hrename
  refine ⟨heq, fun other hother added => ⟨⟨fun hok => ?_, fun hok => ?_⟩, fun hok => ?_⟩⟩
  · -- a module with the tree of the renamed one is transformed as that one
    rw [← (hother.symm.transform hok).1, heq]
    rfl
  · exact (hother.transform (heq ▸ hok)).1
  · have hok' : (transform filename file package (module.rename content.component name)).outcome =
        .ok added :=
      heq ▸ hok
    obtain ⟨-, hwarnings, hmodule⟩ := hother.transform hok'
    rw [heq] at hwarnings hmodule
    exact ⟨hwarnings, hmodule⟩

/-- The component of the sample module is bound to another name. -/
theorem transform_renameComponent_sampleModule :
    (sampleModule [] [[], []]).CanRename storyComponent "Button" ∧
    ((sampleModule [] [[], []]).rename storyComponent "Button").compiledContent sampleFilename
      defaultPackage =
      .ok ⟨metaFunction, "Button", 1, ⟨0, 0⟩, [⟨.plain, ⟨0, 0⟩⟩, ⟨.plain, ⟨0, 0⟩⟩]⟩ ∧
    (transform sampleFilename sampleFile defaultPackage
      ((sampleModule [] [[], []]).rename storyComponent "Button")).outcome = .ok true ∧
    SameTree
      ((transform sampleFilename sampleFile defaultPackage (sampleModule [] [[], []])).module.rename
        storyComponent "Button")
      (transform sampleFilename sampleFile defaultPackage
        ((sampleModule [] [[], []]).rename storyComponent "Button")).module := by
  have hcontent : (sampleModule [] [[], []]).compiledContent sampleFilename defaultPackage =
      .ok ⟨metaFunction, storyComponent, 1, ⟨0, 0⟩, [⟨.plain, ⟨0, 0⟩⟩, ⟨.plain, ⟨0, 0⟩⟩]⟩ := rfl
  have hrename : (sampleModule [] [[], []]).CanRename storyComponent "Button" :=
    ⟨by decide, by decide, by decide⟩
  have hok : (transform sampleFilename sampleFile defaultPackage
    (sampleModule [] [[], []])).outcome = .ok true := rfl
  obtain ⟨-, hsame⟩ := transform_renameComponent sampleFile hcontent hrename
  obtain ⟨hiff, hleft⟩ := hsame _ (SameTree.refl _) true
  exact ⟨hrename, rfl, hiff.mpr hok, (hleft hok).2⟩

end Edit

end SvelteStories
