import SvelteStories.Proofs.FileName
import SvelteStories.Proofs.Outcome
import SvelteStories.Proofs.Rerun
import SvelteStories.Proofs.Spans

/-!
# Compiling the code of a compilation

Compiling a stories file again, with the code of the time before as its compiled module, prints a
module and reads it.  As long as the module that is read has the tree of the one that was printed,
this is the same as transforming the module itself again and again.

## Key results

- `exists_follows_of_le`: each compilation does what a transform does
- `transform_again`: transforms and compilations after a transform that succeeded
-/

namespace SvelteStories

open Diagnostic Script Edit

variable {options : CompileOptions} {declared : StoriesFile} {module base : Module}

/-! ## One compilation -/

/-- The module whose code a compilation answers with. -/
def compiledTo? (options : CompileOptions) : Option Module :=
  (compileModule options).toOption.map (·.2.1.module)

/-- The module whose code the compilation with the given index answers with, when a stories file is
    compiled repeatedly. -/
def printedModule? : (options : CompileOptions) → (index : Nat) → Option Module
  | options, 0 => compiledTo? options
  | options, index + 1 =>
    match compile options with
    | .error _ => none
    | .ok result => printedModule? { options with compiled := result.code } index

/-- The code of a module is read as a module with the same tree. -/
def ReadsBack (module : Module) : Prop :=
  ∃ read, Module.parse? module.print false = some read ∧ SameTree module read

instance (module : Module) : Decidable (ReadsBack module) :=
  match h : Module.parse? module.print false with
  | none => isFalse fun ⟨_, hread, _⟩ => nomatch h.symm.trans hread
  | some read => decidable_of_iff (SameTree module read)
    ⟨fun hsame => ⟨read, h, hsame⟩,
      fun ⟨_, hread, hsame⟩ => Option.some.inj (h.symm.trans hread) ▸ hsame⟩

/-- A compilation that answers with a result, and with the code of a module, did what a transform
    did. -/
structure Follows (transformed : Transformed Bool) (result : CompileResult) (printed : Module) :
    Prop where
  code : result.code = printed.print
  tree : SameTree transformed.module printed
  importInserted : transformed.outcome = .ok result.importInserted
  warnings : result.warnings = transformed.warnings

/-- A compilation succeeds if its transform does, also if the transform works on another module with
    the same tree. -/
theorem exists_follows {added : Bool}
    (hdeclared : StoriesFile.read options.filename options.source options.package = .ok declared)
    (hmodule : Module.parse? options.compiled false = some module) (hbase : SameTree base module)
    (hok : (transform options.filename declared.content options.package base).outcome = .ok added) :
    ∃ result printed, compile options = .ok result ∧ compiledTo? options = some printed ∧
      Follows (transform options.filename declared.content options.package base)
        result printed := by
  obtain ⟨hsame, hwarnings, htree⟩ := hbase.transform hok
  -- the transform of the module that was read comes to what that of the base does
  have hsource : compileModule options =
      .ok (declared, transform options.filename declared.content options.package module,
        added) := by
    simp only [compileModule, bind, Except.bind, hdeclared, compiledModule, hmodule, hsame]
    rfl
  have hcompile : compile options = .ok {
      code := (transform options.filename declared.content options.package module).module.print
      warnings := (transform options.filename declared.content options.package module).warnings
      summary := declared.summary
      stories := declared.stories.map (·.entry)
      importInserted := added } := by
    simp only [compile, hsource]
    rfl
  have hprinted : compiledTo? options =
      some (transform options.filename declared.content options.package module).module := by
    simp only [compiledTo?, hsource]
    rfl
  exact ⟨_, _, hcompile, hprinted, rfl, htree, hok, hwarnings⟩

/-- A compilation that comes to something has read both of its texts, and its transform
    succeeded. -/
theorem exists_of_compileModule {found : StoriesFile × Transformed Bool × Bool}
    (h : compileModule options = .ok found) :
    ∃ declared module added, StoriesFile.read options.filename options.source options.package =
      .ok declared ∧
      Module.parse? options.compiled false = some module ∧
      (transform options.filename declared.content options.package module).outcome = .ok added ∧
      found = (declared, transform options.filename declared.content options.package module,
        added) := by
  unfold compileModule at h
  -- the three steps of a compilation, one after the other
  obtain ⟨declared, hdeclared, h⟩ := exists_of_bind_eq_ok h
  obtain ⟨module, hmodule, h⟩ := exists_of_bind_eq_ok h
  obtain ⟨added, hok, h⟩ := exists_of_bind_eq_ok h
  refine ⟨declared, module, added, hdeclared, ?_, hok, (Except.ok.inj h).symm⟩
  unfold compiledModule at hmodule
  split at hmodule
  · rename_i hparse
    rw [hparse, Except.ok.inj hmodule]
  · exact nomatch hmodule

/-- A compilation that answers with code has read both of its texts, and its transform succeeded. -/
theorem exists_of_compiledTo? {printed : Module} (h : compiledTo? options = some printed) :
    ∃ declared module added, StoriesFile.read options.filename options.source options.package =
      .ok declared ∧
      Module.parse? options.compiled false = some module ∧
      (transform options.filename declared.content options.package module).outcome = .ok added := by
  cases hsource : compileModule options with
  | error report => simp [compiledTo?, hsource, Except.toOption] at h
  | ok found =>
    obtain ⟨declared, module, added, hdeclared, hmodule, hok, -⟩ := exists_of_compileModule hsource
    exact ⟨declared, module, added, hdeclared, hmodule, hok⟩

/-! ## Many compilations -/

/-- The compilation with the given index does what the transform with that index does. -/
theorem exists_follows_of_le {n i : Nat} (hi : i ≤ n)
    (hdeclared : StoriesFile.read options.filename options.source options.package = .ok declared)
    (hmodule : Module.parse? options.compiled false = some module) (hbase : SameTree base module)
    (hok : ∀ k ≤ n, ∃ added, (transform options.filename declared.content options.package
      ((transformed options.filename declared.content options.package)^[k] base)).outcome =
        .ok added)
    (hread : ∀ k < n, ∀ printed, printedModule? options k = some printed → ReadsBack printed) :
    ∃ result printed, (compileRepeatedly (n + 1) options)[i]? = some (.ok result) ∧
      printedModule? options i = some printed ∧
      Follows (transform options.filename declared.content options.package
        ((transformed options.filename declared.content options.package)^[i] base))
          result printed := by
  induction i generalizing n options module base with
  | zero =>
    obtain ⟨added, hadded⟩ := hok 0 hi
    obtain ⟨result, printed, hcompile, hprinted, hfollows⟩ :=
      exists_follows hdeclared hmodule hbase hadded
    refine ⟨result, printed, ?_, hprinted, hfollows⟩
    rw [compileRepeatedly, hcompile]
    rfl
  | succ i ih =>
    obtain ⟨n, rfl⟩ :=
      Nat.exists_eq_add_of_le' (Nat.succ_le_of_lt (Nat.lt_of_lt_of_le i.succ_pos hi))
    obtain ⟨added, hadded⟩ := hok 0 (Nat.zero_le _)
    obtain ⟨first, printed, hcompile, hprinted, hfollows⟩ :=
      exists_follows hdeclared hmodule hbase hadded
    -- the code is read as the module that the transform left, and everything starts again from
    -- there
    obtain ⟨module', hmodule', htree⟩ := hread 0 n.succ_pos printed hprinted
    rw [← hfollows.code] at hmodule'
    have hnext (k : Nat) : printedModule? options (k + 1) =
        printedModule? { options with compiled := first.code } k := by
      rw [printedModule?, hcompile]
    obtain ⟨result, printed', hresult, hprinted', hfollows'⟩ :=
      @ih { options with compiled := first.code } module'
        (transformed options.filename declared.content options.package base) n
          (Nat.le_of_succ_le_succ hi) hdeclared
        hmodule' (hfollows.tree.trans htree)
        (fun k hk => hok (k + 1) (Nat.succ_le_succ hk))
        (fun k hk printed h => hread (k + 1) (Nat.succ_lt_succ hk) printed (by rwa [hnext]))
    refine ⟨result, printed', ?_, by rwa [hnext], hfollows'⟩
    rw [compileRepeatedly, hcompile, List.getElem?_cons_succ]
    exact hresult

/-! ## Transforming and compiling again -/

/-- After a transform that succeeds, every further transform with the same stories succeeds, finds
    the runtime import, adds a copy of the raw code to the parameters of every story, ignores all
    comments, and does nothing else.  The same holds for compilations that work on the code of the
    ones before, as long as what they read has the trees that were printed. -/
theorem transform_again {filename : String} {file : StoriesContent} {package : String}
    {module : Module} {added : Bool}
    (h : (transform filename file package module).outcome = .ok added) :
    ∃ content, module.compiledContent filename package = .ok content ∧
      (callsIn content (transformed filename file package module)).length = file.stories.length ∧
      (∀ call ∈ callsIn content (transformed filename file package module), ∃ properties parameters,
        call.props? = some properties ∧
          properties.at? Properties.parametersPath = .ok (some parameters)) ∧
      (∀ n, (transformed filename file package)^[n + 1] module =
          copied file content n (transformed filename file package module) ∧
        (transform filename file package ((transformed filename file package)^[n + 1]
          module)).outcome = .ok false ∧
        (transform filename file package ((transformed filename file package)^[n + 1]
          module)).warnings =
          (ignoredAgain file).map (·.explicitDescription filename)) ∧
      ∀ (options : CompileOptions) (declared : StoriesFile) (n : Nat),
        StoriesFile.read options.filename options.source package = .ok declared →
        declared.content = file → options.package = package →
        Module.parse? options.compiled false = some module →
        (∀ k < n, ∀ printed, printedModule? options k = some printed → ReadsBack printed) →
        ∀ i ≤ n, ∃ result printed,
          (compileRepeatedly (n + 1) options)[i]? = some (.ok result) ∧
          printedModule? options i = some printed ∧
          result.code = printed.print ∧
          SameTree (copied file content i (transformed filename file package module)) printed ∧
          (i = 0 → result.importInserted = added) ∧
          (0 < i → result.importInserted = false ∧
            result.warnings =
              (ignoredAgain file).map (·.explicitDescription options.filename)) := by
  obtain ⟨content, hcontent, hlen, hparameters, hagain⟩ := iterate_transformed h
  refine ⟨content, hcontent, hlen, hparameters, hagain, ?_⟩
  rintro options declared n hdeclared rfl rfl hmodule hread i hi
  -- the file that is compiled may have another name, which only shows in the warnings
  have hname (module : Module) :=
    transform_inFile filename options.filename options.package module declared.content
  have hmodules : transformed options.filename declared.content options.package =
      transformed filename declared.content options.package := by
    funext module
    rw [transformed, hname]
    rfl
  -- each of the transforms comes to an end, the first one and all others
  have hok : ∀ k ≤ n, ∃ added, (transform options.filename declared.content options.package
      ((transformed options.filename declared.content options.package)^[k] module)).outcome =
        .ok added := by
    intro k _
    rw [hmodules, hname]
    cases k with
    | zero => exact ⟨added, congrArg (reportedIn options.filename) h⟩
    | succ k => exact ⟨false, congrArg (reportedIn options.filename) (hagain k).2.1⟩
  obtain ⟨result, printed, hresult, hprinted, hfollows⟩ :=
    exists_follows_of_le hi hdeclared hmodule (SameTree.refl module) hok hread
  rw [hmodules, hname] at hfollows
  -- the printed module is that of the transforms one after the other, up to spans
  have htree : SameTree (transformed filename declared.content options.package
      ((transformed filename declared.content options.package)^[i] module)) printed := hfollows.tree
  rw [← Function.iterate_succ_apply' (transformed filename declared.content options.package),
    (hagain i).1] at htree
  refine ⟨result, printed, hresult, hprinted, hfollows.code, htree, ?_, ?_⟩
  · rintro rfl
    have hfirst := (congrArg (reportedIn options.filename) h).symm.trans hfollows.importInserted
    exact (Except.ok.inj hfirst).symm
  · intro hpos
    -- a later compilation is a transform of a module that was transformed
    obtain ⟨k, rfl⟩ := Nat.exists_eq_add_of_le' hpos
    have himport := (congrArg (reportedIn options.filename) (hagain k).2.1).symm.trans
      hfollows.importInserted
    have hwarnings := hfollows.warnings
    simp only [Transformed.inFile, (hagain k).2.2, List.map_map] at hwarnings
    exact ⟨(Except.ok.inj himport).symm, hwarnings⟩

/-- A stories file with one story, and its compiled module. -/
def sampleOptions : CompileOptions where
  filename := "Button.stories.svelte"
  source := "<script module>\nimport \x7b defineMeta \x7d from \"csf\";\n" ++
    "const \x7b Story \x7d = defineMeta(\x7b\x7d);\n</script>\n<!--Usual.-->\n<Story />\n"
  compiled := "import \x7b defineMeta \x7d from \"csf\";\n" ++
    "const \x7b Story \x7d = defineMeta(\x7b\x7d);\nStory(n, \x7b\x7d);\n"
  package := "csf"

/-- The second compilation of a stories file finds the runtime import. -/
theorem compileRepeatedly_sampleOptions :
    ∃ result, (compileRepeatedly 2 sampleOptions)[1]? = some (.ok result) ∧
      result.importInserted = false := by
  have hprinted : (compiledTo? sampleOptions).any (fun printed => decide (ReadsBack printed)) =
      true := by
    decide +kernel
  obtain ⟨printed, hsome, hreads⟩ := (Option.any_eq_true _ _).mp hprinted
  obtain ⟨declared, module, added, hdeclared, hmodule, hok⟩ := exists_of_compiledTo? hsome
  obtain ⟨content, -, -, -, -, hcompile⟩ := transform_again hok
  -- the code of the first round is read back, which is all that the second one needs
  have hread : ∀ k < 1, ∀ printed, printedModule? sampleOptions k = some printed →
      ReadsBack printed := by
    intro k hk other hother
    obtain rfl : k = 0 := Nat.lt_one_iff.mp hk
    obtain rfl : printed = other := Option.some.inj (hsome.symm.trans hother)
    exact of_decide_eq_true hreads
  obtain ⟨result, -, hresult, -, -, -, -, himport⟩ :=
    hcompile sampleOptions declared 1 hdeclared rfl rfl hmodule hread 1 (Nat.le_refl 1)
  exact ⟨result, hresult, (himport Nat.one_pos).1⟩

end SvelteStories
