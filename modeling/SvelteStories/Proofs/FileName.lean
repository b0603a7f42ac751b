import Mathlib.Data.List.Forall2
import SvelteStories.Compile
import SvelteStories.Proofs.Outcome
import SvelteStories.Proofs.StoryCalls

/-!
# The name of a stories file

The name of the stories file is passed on by hand: from `compile` to the reader of the stories file,
to the lookups in both modules, to the pairing and to every edit, down to whoever reports a problem
or gives a warning.  Each of these functions is run here under two names.  The two runs find the
same, edit the same and fail at the same problem; their diagnostics differ in the file and in
nothing else, and each run puts the name that it was given into all of its own.

The lemma about a function follows its text step by step and uses the lemmas about the functions
that it calls.  A function that passes on another name, or none, or that acts on the name, has no
such lemma.

## Key results

- `read_reportedIn`: the reader of stories files
- `compiledContent_reportedIn`, `pair_reportedIn`: what is found in a compiled module, and its
  pairing
- `editStoryCalls_inFile`: the walk over the story calls
- `transform_inFile`: a transform, with the warnings that it gives
- `compile_inFile`: with another name, the same is compiled and the diagnostics carry that name
- `compile_sameButFile`: two compilations that differ only in the name, and whose name is in their
  diagnostics
- `compileRepeatedly_inFile`, `compileAll_inFile`: the same of a file that is compiled over and
  over, and of many files
-/

namespace SvelteStories

open Diagnostic Script

/-! ## Diagnostics of another file -/

/-- The report, of another file. -/
def Diagnostic.Report.inFile (file : String) (report : Report) : Report :=
  { report with file }

/-- The warning, of another file. -/
def Diagnostic.Warning.inFile (file : String) (warning : Warning) : Warning :=
  { warning with file }

/-- What a computation answers with, its report being of another file. -/
def reportedIn {α : Type} (file : String) (answer : Except Report α) : Except Report α :=
  answer.mapError (·.inFile file)

/-- The properties after an edit, with diagnostics of another file. -/
def Edit.Described.inFile (file : String) (described : Edit.Described) : Edit.Described where
  properties := described.properties
  warnings := described.warnings.map (·.inFile file)
  failure := described.failure.map (·.inFile file)

/-- A module after a part of the work, with diagnostics of another file. -/
def Edit.Transformed.inFile {α : Type} (file : String) (transformed : Edit.Transformed α) :
    Edit.Transformed α where
  module := transformed.module
  warnings := transformed.warnings.map (·.inFile file)
  outcome := reportedIn file transformed.outcome

/-- A story call after an edit, with diagnostics of another file. -/
def Script.EditedCall.inFile (file : String) (edited : EditedCall (List Warning) Report) :
    EditedCall (List Warning) Report where
  call := edited.call
  state := edited.state.map (·.inFile file)
  failure := edited.failure.map (·.inFile file)

/-- A run over story calls, with diagnostics of another file. -/
def Script.CallRun.inFile (file : String) (run : CallRun (List Warning) Report) :
    CallRun (List Warning) Report where
  index := run.index
  state := run.state.map (·.inFile file)
  failure := run.failure.map (·.inFile file)

/-- What a compilation answers with, with diagnostics of another file. -/
def inFile (file : String) : Except Report CompileResult → Except Report CompileResult
  | .error report => .error (report.inFile file)
  | .ok result => .ok { result with warnings := result.warnings.map (·.inFile file) }

/-- The two compilations come to the same, except for the file in their diagnostics. -/
def SameButFile : Except Report CompileResult → Except Report CompileResult → Prop
  | .ok result, .ok other => result.code = other.code ∧ result.summary = other.summary ∧
      result.stories = other.stories ∧ result.importInserted = other.importInserted ∧
      List.Forall₂ (fun warning warning' => warning.inFile warning'.file = warning')
        result.warnings other.warnings
  | .error report, .error report' => report.inFile report'.file = report'
  | _, _ => False

/-- Every diagnostic of the compilation is of the given file. -/
def NamesFile (file : String) : Except Report CompileResult → Prop
  | .ok result => ∀ warning ∈ result.warnings, warning.file = file
  | .error report => report.file = file

variable (filename other : String)

/-- Two steps, one after the other, that report of the file that they were given. -/
theorem bind_reportedIn {α β : Type} {first first' : Except Report α}
    {next next' : α → Except Report β} (hfirst : first' = reportedIn other first)
    (hnext : ∀ a, next' a = reportedIn other (next a)) :
    first' >>= next' = reportedIn other (first >>= next) := by
  subst hfirst
  cases first with
  | error report => rfl
  | ok a => exact hnext a

/-! ## Finding -/

section Finding

variable (declaration call : Node) (module : Module) (package : String)

/-- The lookup of the meta declaration. -/
theorem metaDeclaration_reportedIn (bound : String) :
    module.metaDeclaration other bound =
      reportedIn other (module.metaDeclaration filename bound) := by
  unfold Module.metaDeclaration
  split <;> rfl

/-- The lookup of the meta object in its declaration. -/
theorem metaObject_reportedIn (bound : String) :
    declaration.metaObject other bound =
      reportedIn other (declaration.metaObject filename bound) := by
  unfold Node.metaObject
  cases declaration.metaObject? bound <;> rfl

/-- The lookup of the name that the story component is bound to. -/
theorem storyBinding_reportedIn :
    declaration.storyBinding other = reportedIn other (declaration.storyBinding filename) := by
  unfold Node.storyBinding
  cases declaration.storyBinding? <;> rfl

/-- The lookup of the story calls. -/
theorem storyCalls_reportedIn (component : String) :
    module.storyCalls other component =
      reportedIn other (module.storyCalls filename component) := by
  simp only [Module.storyCalls]
  split <;> rfl

/-- The lookup of the props object of a story call. -/
theorem props_reportedIn : call.props other = reportedIn other (call.props filename) := by
  unfold Node.props
  cases call.props? <;> rfl

/-- The lookups in a compiled module. -/
theorem compiledContent_reportedIn :
    module.compiledContent other package =
      reportedIn other (module.compiledContent filename package) := by
  unfold Module.compiledContent
  cases module.metaImport? package with
  | none => rfl
  | some bound =>
    -- one lookup after the other, each with the name that all of them were given
    refine bind_reportedIn other rfl fun bound => ?_
    refine bind_reportedIn other (metaDeclaration_reportedIn filename other module bound)
      fun found => ?_
    refine bind_reportedIn other (metaObject_reportedIn filename other found.2 bound) fun _ => ?_
    refine bind_reportedIn other (storyBinding_reportedIn filename other found.2)
      fun component => ?_
    exact bind_reportedIn other (storyCalls_reportedIn filename other module component) fun _ => rfl

/-- The pairing of the stories with the calls. -/
theorem pair_reportedIn (stories : List Story) (calls : List StoryCall) :
    Story.pair other stories calls = reportedIn other (Story.pair filename stories calls) := by
  unfold Story.pair
  split <;> rfl

/-- A fault in the markup is reported of the file that is scanned. -/
theorem markup_reportedIn (source : List Char) :
    StoriesFile.markup other source = reportedIn other (StoriesFile.markup filename source) := by
  unfold StoriesFile.markup
  cases Markup.parse source <;> rfl

/-- The reading of the module script. -/
theorem scriptModule_reportedIn (source : List Char) (script : Markup.RawBlock) :
    StoriesFile.scriptModule other source script =
      reportedIn other (StoriesFile.scriptModule filename source script) := by
  unfold StoriesFile.scriptModule
  split <;> rfl

/-- The reader of stories files. -/
theorem read_reportedIn (source : String) :
    StoriesFile.read other source package =
      reportedIn other (StoriesFile.read filename source package) := by
  unfold StoriesFile.read
  refine bind_reportedIn other (markup_reportedIn filename other _) fun nodes => ?_
  cases StoriesFile.moduleScript? nodes with
  | none => rfl
  | some script =>
    refine bind_reportedIn other rfl fun script => ?_
    refine bind_reportedIn other (scriptModule_reportedIn filename other _ script) fun module => ?_
    cases module.metaImport? package with
    | none => rfl
    | some bound =>
      -- the script is searched like a compiled module
      refine bind_reportedIn other rfl fun bound => ?_
      refine bind_reportedIn other (metaDeclaration_reportedIn filename other module bound)
        fun found => ?_
      refine bind_reportedIn other (metaObject_reportedIn filename other found.2 bound) fun _ => ?_
      exact bind_reportedIn other (storyBinding_reportedIn filename other found.2) fun _ => rfl

/-- The reading of the compiled module. -/
theorem compiledModule_reportedIn (compiled : String) :
    compiledModule other compiled = reportedIn other (compiledModule filename compiled) := by
  unfold compiledModule
  split <;> rfl

end Finding

/-! ## Editing -/

section Editing

open Edit

variable (package component : String) (story : Story) (module : Module)

/-- The description of a story or of the component. -/
theorem describe_inFile (comment : Option String) (subject : Subject) (properties : Properties) :
    describe other comment subject properties =
      (describe filename comment subject properties).inFile other := by
  cases comment with
  | none => rfl
  | some comment =>
    simp only [describe]
    cases (describeBy comment subject properties).outcome with
    | error e => rfl
    | ok kept => cases kept <;> rfl

/-- The link to the raw code of a story. -/
theorem link_inFile (properties : Properties) :
    link other story properties = (link filename story properties).inFile other := by
  simp only [link]
  split <;> rfl

/-- Two edits, one after the other. -/
theorem andThen_inFile {described : Described} {next next' : Properties → Described}
    (h : ∀ properties, next' properties = (next properties).inFile other) :
    (described.inFile other).andThen next' = (described.andThen next).inFile other := by
  unfold Described.andThen
  cases hfailure : described.failure with
  | some report => simp [Described.inFile, hfailure]
  | none => simp [Described.inFile, hfailure, h]

/-- The edit of the props object of a story call. -/
theorem editProps_inFile (properties : Properties) :
    editProps other story properties = (editProps filename story properties).inFile other := by
  rw [editProps, editProps, describe_inFile filename]
  exact andThen_inFile other (link_inFile filename other story)

/-- The edit of the meta object. -/
theorem editMetaObject_inFile (content : CompiledContent) {change change' : Properties → Described}
    (h : ∀ properties, change' properties = (change properties).inFile other) :
    module.editMetaObject other content change' =
      (module.editMetaObject filename content change).inFile other := by
  unfold Module.editMetaObject
  cases module.statements[content.metaIndex]? with
  | none => rfl
  | some declaration =>
    cases hvariables : declaration.isVariables with
    | false =>
      simp only [hvariables, Bool.false_eq_true, ↓reduceIte]
      rfl
    | true =>
      -- the report of the lookup or of the change is passed on
      simp only [hvariables, ↓reduceIte, metaObject_reportedIn filename other declaration, h]
      cases declaration.metaObject filename content.metaBinding with
      | error report => rfl
      | ok properties =>
        simp only [reportedIn, Except.mapError, Described.inFile]
        cases (change properties).failure <;> rfl

/-- The edit of one story call, with the warnings that were given before it. -/
theorem editStoryCall_inFile (pairs : List Story.Pair) (index : Nat) (warnings : List Warning)
    (call : Node) :
    editStoryCall other pairs index (warnings.map (·.inFile other)) call =
      (editStoryCall filename pairs index warnings call).inFile other := by
  unfold editStoryCall
  cases pairs[index]? with
  | none => rfl
  | some pair =>
    obtain ⟨story, found⟩ := pair
    -- a call that is not where it was paired is left alone, and reported
    by_cases hspan : found.span = call.span
    · simp only [hspan, ↓reduceIte, props_reportedIn filename other call,
        editProps_inFile filename other story]
      cases call.props filename with
      | error report => rfl
      | ok properties =>
        simp only [reportedIn, Except.mapError, EditedCall.inFile, Described.inFile,
          List.map_append]
    · simp only [hspan, ↓reduceIte]
      rfl

/-- One step of a run. -/
theorem edit_inFile {change change' : Nat → List Warning → Node → EditedCall (List Warning) Report}
    (h : ∀ index warnings call, change' index (warnings.map (·.inFile other)) call =
      (change index warnings call).inFile other)
    (call : Node) (run : CallRun (List Warning) Report) :
    CallRun.edit change' call (run.inFile other) =
      ((CallRun.edit change call run).1, (CallRun.edit change call run).2.inFile other) := by
  obtain ⟨index, warnings, failure⟩ := run
  cases failure with
  | some report => rfl
  | none =>
    simp only [CallRun.edit, CallRun.inFile, Option.map_none, Option.isSome_none,
      Bool.false_eq_true, ↓reduceIte, h]
    rfl

/-- A run over a list of calls, by induction on the calls that are left. -/
theorem editAll_inFile {change change' : Nat → List Warning → Node →
    EditedCall (List Warning) Report}
    (h : ∀ index warnings call, change' index (warnings.map (·.inFile other)) call =
      (change index warnings call).inFile other)
    (calls : List Node) (run : CallRun (List Warning) Report) :
    Node.editAll (CallRun.edit change') calls (run.inFile other) =
      ((Node.editAll (CallRun.edit change) calls run).1,
        (Node.editAll (CallRun.edit change) calls run).2.inFile other) := by
  induction calls generalizing run with
  | nil => rfl
  | cons call calls ih => simp only [Node.editAll, edit_inFile other h, ih]

/-- The walk over the story calls of a module. -/
theorem editStoryCalls_inFile
    {change change' : Nat → List Warning → Node → EditedCall (List Warning) Report}
    (h : ∀ index warnings call, change' index (warnings.map (·.inFile other)) call =
      (change index warnings call).inFile other)
    (warnings : List Warning) :
    module.editStoryCalls component (warnings.map (·.inFile other)) change' =
      ((module.editStoryCalls component warnings change).1,
        (module.editStoryCalls component warnings change).2.inFile other) := by
  -- the walk is a run over the list of calls
  have hrun := editAll_inFile other h (Node.storyCallsAmong component module.statements)
    { state := warnings }
  simp only [Module.editStoryCalls, StateT.run, Node.run_editCallsAmong]
  rw [show ({ state := warnings.map (·.inFile other) } : CallRun (List Warning) Report) =
    CallRun.inFile other { state := warnings } from rfl, hrun]

/-- The edit of all story calls, with the warnings that were given before. -/
theorem editStories_inFile (pairs : List Story.Pair) (warnings : List Warning) :
    editStories other package component pairs module (warnings.map (·.inFile other)) =
      (editStories filename package component pairs module warnings).inFile other := by
  unfold editStories
  rw [editStoryCalls_inFile other component module
    (editStoryCall_inFile filename other pairs)]
  obtain ⟨edited, index, state, failure⟩ :=
    module.editStoryCalls component warnings (editStoryCall filename pairs)
  cases failure <;> rfl

variable (file : StoriesContent)

/-- What a transform finds before it edits anything. -/
theorem correlated_reportedIn :
    correlated other file package module =
      reportedIn other (correlated filename file package module) := by
  refine bind_reportedIn other (compiledContent_reportedIn filename other module package)
    fun content => ?_
  exact bind_reportedIn other (pair_reportedIn filename other file.stories content.calls)
    fun _ => rfl

/-- A transform with another name leaves the same module, and gives the same warnings and the same
    outcome with that name. -/
theorem transform_inFile :
    transform other file package module =
      (transform filename file package module).inFile other := by
  unfold transform
  rw [correlated_reportedIn filename]
  cases correlated filename file package module with
  | error report => rfl
  | ok found =>
    obtain ⟨content, pairs⟩ := found
    -- the meta object first, and then the story calls
    have hmeta := editMetaObject_inFile filename other module content
      (describe_inFile filename other file.metaDescription .component)
    simp only [reportedIn, Except.mapError, hmeta]
    obtain ⟨edited, warnings, outcome⟩ := module.editMetaObject filename content
      (describe filename file.metaDescription .component)
    cases outcome with
    | error report => rfl
    | ok _ =>
      exact editStories_inFile filename other package content.component edited pairs warnings

end Editing

/-! ## Compiling -/

variable (options : CompileOptions)

/-- A compilation up to the printing of the module. -/
theorem compileModule_reportedIn :
    compileModule { options with filename } =
      reportedIn filename ((compileModule options).map fun (file, transformed, importInserted) =>
        (file, transformed.inFile filename, importInserted)) := by
  simp only [compileModule, read_reportedIn options.filename filename,
    compiledModule_reportedIn options.filename filename, transform_inFile options.filename filename]
  -- the first of the three steps that fails decides
  cases StoriesFile.read options.filename options.source options.package with
  | error report => rfl
  | ok file =>
    cases compiledModule options.filename options.compiled with
    | error report => rfl
    | ok module =>
      simp only [bind, Except.bind, reportedIn, Except.mapError]
      obtain ⟨edited, warnings, outcome⟩ :=
        Edit.transform options.filename file.content options.package module
      cases outcome <;> rfl

/-- With another name, the same is compiled and the diagnostics carry that name. -/
theorem compile_inFile :
    compile { options with filename } = inFile filename (compile options) := by
  unfold compile
  rw [compileModule_reportedIn]
  cases compileModule options <;> rfl

/-- The diagnostics of a compilation carry the name of its file. -/
theorem namesFile_compile : NamesFile options.filename (compile options) := by
  -- a compilation is itself with its own name in the diagnostics
  have hself : compile options = inFile options.filename (compile options) :=
    compile_inFile options.filename options
  rw [hself]
  cases compile options with
  | error report => rfl
  | ok result =>
    intro warning hmem
    obtain ⟨_, -, rfl⟩ := List.mem_map.mp hmem
    rfl

/-- Diagnostics of another file are the only difference. -/
theorem sameButFile_inFile (outcome : Except Report CompileResult) :
    SameButFile outcome (inFile filename outcome) := by
  cases outcome with
  | error report => rfl
  | ok result =>
    refine ⟨rfl, rfl, rfl, rfl, ?_⟩
    rw [List.forall₂_map_right_iff, List.forall₂_same]
    exact fun _ _ => rfl

/-- Of two compilations that differ only in the name of the file, both succeed or both fail.  They
    come to the same except for the file in the diagnostics, and that is the name that was given. -/
theorem compile_sameButFile : SameButFile (compile options) (compile { options with filename }) ∧
    NamesFile options.filename (compile options) ∧
    NamesFile filename (compile { options with filename }) :=
  ⟨compile_inFile filename options ▸ sameButFile_inFile filename (compile options),
    namesFile_compile options, namesFile_compile { options with filename }⟩

/-- A stories file whose story has a comment and, in the compiled module, a description of its
    own. -/
def warnedOptions : CompileOptions where
  filename := "Button.stories.svelte"
  source := "<script module>import \x7bdefineMeta\x7d from \"csf\";" ++
    "const \x7bStory\x7d = defineMeta(\x7b\x7d);</script><!--Usual--><Story/>"
  compiled :=
    "import \x7bdefineMeta\x7d from \"csf\";const \x7bStory\x7d = defineMeta(\x7b\x7d);" ++
    "Story(n, \x7bparameters: \x7bdocs: \x7bdescription: \x7bstory: 1\x7d\x7d\x7d\x7d);"
  package := "csf"

/-- The warning of the ignored comment is of the file under either name, and so is the report of a
    compiled module without metadata. -/
theorem compile_sameButFile_warnedOptions :
    (∃ result other, compile warnedOptions = .ok result ∧
      compile { warnedOptions with filename := "Icon.stories.svelte" } = .ok other ∧
      result.code = other.code ∧ result.warnings.map (·.file) = ["Button.stories.svelte"] ∧
      other.warnings.map (·.file) = ["Icon.stories.svelte"]) ∧
    (∃ report other, compile { warnedOptions with compiled := "" } = .error report ∧
      compile { warnedOptions with compiled := "", filename := "Icon.stories.svelte" } =
        .error other ∧
      report.file = "Button.stories.svelte" ∧ other.file = "Icon.stories.svelte") := by
  constructor
  · have hcheck : (compile warnedOptions).toOption.any (·.warnings.length == 1) := by decide +kernel
    obtain ⟨result, hresult, hlength⟩ := exists_ok_of_any hcheck
    obtain ⟨hsame, hown, hnew⟩ := compile_sameButFile "Icon.stories.svelte" warnedOptions
    rw [hresult] at hsame hown
    obtain ⟨warning, hwarning⟩ := List.length_eq_one_iff.mp (eq_of_beq hlength)
    cases hother : compile { warnedOptions with filename := "Icon.stories.svelte" } with
    | error report => exact (hother ▸ hsame).elim
    | ok other =>
      -- each of the two has one warning
      rw [hother] at hsame hnew
      obtain ⟨hcode, -, -, -, hwarnings⟩ := hsame
      obtain ⟨warning', hwarning'⟩ :=
        List.length_eq_one_iff.mp (hwarnings.length_eq.symm.trans (eq_of_beq hlength))
      simp only [NamesFile, hwarning, hwarning', List.forall_mem_singleton] at hown hnew
      exact ⟨result, other, hresult, rfl, hcode, by simp [hwarning, hown, warnedOptions],
        by simp [hwarning', hnew]⟩
  · have hcheck : (compile { warnedOptions with compiled := "" }).isOk = false := by decide +kernel
    obtain ⟨hsame, hown, hnew⟩ :=
      compile_sameButFile "Icon.stories.svelte" { warnedOptions with compiled := "" }
    cases hreport : compile { warnedOptions with compiled := "" } with
    | ok result => rw [hreport] at hcheck; cases hcheck
    | error report =>
      -- without a compiled module both of them fail
      rw [hreport] at hsame hown
      cases hother : compile
          { warnedOptions with compiled := "", filename := "Icon.stories.svelte" } with
      | ok other => exact (hother ▸ hsame).elim
      | error other => exact ⟨report, other, rfl, rfl, hown, (hother ▸ hnew :)⟩

/-- With another name, every round of compiling a file over and over comes to the same. -/
theorem compileRepeatedly_inFile (times : Nat) :
    compileRepeatedly times { options with filename } =
      (compileRepeatedly times options).map (inFile filename) := by
  induction times generalizing options with
  | zero => rfl
  | succ times ih =>
    rw [compileRepeatedly, compileRepeatedly, compile_inFile]
    cases compile options with
    | error report => rfl
    | ok result =>
      -- the code that the next round starts with is the same
      simp only [inFile, List.map_cons]
      rw [← ih]

/-- With other names, every one of many files comes to the same. -/
theorem compileAll_inFile (name : CompileOptions → String) (inputs : List CompileOptions) :
    compileAll (inputs.map fun options => { options with filename := name options }) =
      List.zipWith (fun options entry => (name options, inFile (name options) entry.2)) inputs
        (compileAll inputs) := by
  induction inputs with
  | nil => rfl
  | cons options inputs ih =>
    simp only [compileAll, List.map_cons, List.zipWith_cons_cons, compile_inFile] at ih ⊢
    rw [ih]

end SvelteStories
