import Mathlib.Tactic.Tauto
import SvelteStories.Edit.RuntimeImport
import SvelteStories.Script.Parse
import SvelteStories.Story.File

/-!
# The runtime imports of a module

A module has the runtime import of a package if it imports the runtime function from the module of
the package that exports it, under the name of the function.  The lookup asks for the local name
alone, so that another export of the same module can stand in for the function: it takes the name,
and then nothing is put on top of the module.  In every other case the runtime import is there
afterwards, and once.

## Key results

- `hasRuntimeImport_iff_providesRuntime_or`: what the lookup finds
- `addRuntimeImport_inserts`: one insertion
- `InsertsAll.cons`: one more insertion before others
- `addRuntimeImports_once`: insertions one after the other
-/

namespace SvelteStories.Script

/-- A module imports something under the name of the runtime function from the module of the package
    that exports the function. -/
def Module.ImportsRuntime (package : String) (module : Module) : Prop :=
  ∃ typeOnly attributes span specifiers at_ imported at' parts,
    Node.mk (.import (runtimePath package) typeOnly attributes) span specifiers ∈
      module.statements ∧
    Node.mk .importNamed at_ [imported, .mk (.binding runtimeFunction) at' parts] ∈ specifiers

/-- A named import binds a name exactly if this is its second part. -/
theorem Node.importsAs_iff {bound : String} {specifier : Node} :
    specifier.importsAs bound = true ↔ ∃ at_ imported at' parts,
      specifier = .mk .importNamed at_ [imported, .mk (.binding bound) at' parts] := by
  constructor
  · intro h
    unfold importsAs at h
    split at h
    · obtain rfl := eq_of_beq h
      exact ⟨_, _, _, _, rfl⟩
    · exact nomatch h
  · rintro ⟨at_, imported, at', parts, rfl⟩
    exact beq_self_eq_true bound

/-- A specifier comes from a source exactly if it stands in an import from there. -/
theorem Node.mem_specifiersFrom {source : String} {statement specifier : Node} :
    specifier ∈ statement.specifiersFrom source ↔ ∃ typeOnly attributes span specifiers,
      statement = .mk (.import source typeOnly attributes) span specifiers ∧
        specifier ∈ specifiers := by
  constructor
  · intro h
    unfold specifiersFrom at h
    -- only an import has specifiers, and it has to be from this source
    split at h
    · split at h
      · rename_i horigin
        obtain rfl := eq_of_beq horigin
        exact ⟨_, _, _, _, rfl, h⟩
      · exact nomatch h
    · exact nomatch h
  · rintro ⟨typeOnly, attributes, span, specifiers, rfl, h⟩
    simpa [specifiersFrom] using h

/-- The lookup finds an import of the runtime function, whatever it is called where it comes
    from. -/
theorem Module.hasRuntimeImport_iff {package : String} {module : Module} :
    module.hasRuntimeImport package = true ↔ module.ImportsRuntime package := by
  simp only [hasRuntimeImport, List.any_eq_true, Node.importsAs_iff, Node.mem_specifiersFrom]
  constructor
  · rintro ⟨_, hstatement, _, ⟨typeOnly, attributes, span, specifiers, rfl, hmem⟩,
      at_, imported, at', parts, rfl⟩
    exact ⟨typeOnly, attributes, span, specifiers, at_, imported, at', parts, hstatement, hmem⟩
  · rintro ⟨typeOnly, attributes, span, specifiers, at_, imported, at', parts, hstatement, hmem⟩
    exact ⟨_, hstatement, _, ⟨typeOnly, attributes, span, specifiers, rfl, hmem⟩,
      at_, imported, at', parts, rfl⟩

namespace Module

variable {module : Module} {package other : String}

/-! ## What an import binds -/

/-- A module imports the runtime function of a package, by the exported name and under the same
    local name. -/
def ProvidesRuntime (package : String) (module : Module) : Prop :=
  ∃ statement ∈ module.statements, ∃ specifier ∈ statement.specifiersFrom (runtimePath package),
    specifier.importedAs? runtimeFunction = some runtimeFunction

/-- A module imports another export under the name of the runtime function, from the module of the
    package that exports the function. -/
def TakesRuntimeName (package : String) (module : Module) : Prop :=
  ∃ statement ∈ module.statements, ∃ specifier ∈ statement.specifiersFrom (runtimePath package),
    specifier.importsAs runtimeFunction = true ∧
      specifier.importedAs? runtimeFunction ≠ some runtimeFunction

instance (package : String) (module : Module) : Decidable (module.ProvidesRuntime package) :=
  inferInstanceAs (Decidable (∃ statement ∈ module.statements,
    ∃ specifier ∈ statement.specifiersFrom (runtimePath package),
      specifier.importedAs? runtimeFunction = some runtimeFunction))

/-- What is imported under a name binds this name. -/
theorem importsAs_of_importedAs? {imported bound : String} {specifier : Node}
    (h : specifier.importedAs? imported = some bound) : specifier.importsAs bound = true := by
  unfold Node.importedAs? at h
  split at h
  · split at h
    · obtain rfl := Option.some.inj h
      exact beq_self_eq_true _
    · exact nomatch h
  · exact nomatch h

/-- The lookup finds the runtime function, or another export that takes its name. -/
theorem hasRuntimeImport_iff_providesRuntime_or :
    module.hasRuntimeImport package = true ↔
      module.ProvidesRuntime package ∨ module.TakesRuntimeName package := by
  simp only [hasRuntimeImport, List.any_eq_true]
  constructor
  · rintro ⟨statement, hstatement, specifier, hspecifier, hbinds⟩
    -- the specifier binds the name, to the runtime function or to something else
    by_cases himported : specifier.importedAs? runtimeFunction = some runtimeFunction
    · exact .inl ⟨statement, hstatement, specifier, hspecifier, himported⟩
    · exact .inr ⟨statement, hstatement, specifier, hspecifier, hbinds, himported⟩
  · rintro (⟨statement, hstatement, specifier, hspecifier, himported⟩ |
      ⟨statement, hstatement, specifier, hspecifier, hbinds, -⟩)
    · exact ⟨statement, hstatement, specifier, hspecifier, importsAs_of_importedAs? himported⟩
    · exact ⟨statement, hstatement, specifier, hspecifier, hbinds⟩

/-- Different packages have different modules with the runtime function. -/
theorem runtimePath_inj : runtimePath package = runtimePath other ↔ package = other := by
  rw [runtimePath, runtimePath, String.append_left_inj]

/-! ## One insertion -/

/-- On top of a module the import of one package stands, and none of another package. -/
theorem mem_specifiersFrom_runtimeImport {specifier : Node} :
    specifier ∈ (runtimeImport other).specifiersFrom (runtimePath package) ↔
      package = other ∧
        specifier = .made .importNamed [.made (.name runtimeFunction) [],
          .made (.binding runtimeFunction) []] := by
  by_cases hother : package = other
  · subst hother
    simp [runtimeImport, Node.made, Node.specifiersFrom]
  · have hpath : ¬ runtimePath other = runtimePath package :=
      fun h => hother (runtimePath_inj.mp h).symm
    simp [runtimeImport, Node.made, Node.specifiersFrom, hpath, hother]

/-- A runtime import on top provides the function of its own package and of no other. -/
theorem providesRuntime_cons :
    ProvidesRuntime package { module with statements := runtimeImport other :: module.statements } ↔
      package = other ∨ module.ProvidesRuntime package := by
  simp only [ProvidesRuntime, List.mem_cons, exists_eq_or_imp, mem_specifiersFrom_runtimeImport]
  refine or_congr_left ⟨?_, ?_⟩
  · rintro ⟨specifier, ⟨hpackage, -⟩, -⟩
    exact hpackage
  · exact fun hpackage => ⟨_, ⟨hpackage, rfl⟩, rfl⟩

/-- The runtime import takes the name for the runtime function itself. -/
theorem takesRuntimeName_cons :
    TakesRuntimeName package { module with statements := runtimeImport other ::
      module.statements } ↔
      module.TakesRuntimeName package := by
  simp only [TakesRuntimeName, List.mem_cons, exists_eq_or_imp, mem_specifiersFrom_runtimeImport]
  refine or_iff_right ?_
  rintro ⟨specifier, ⟨-, rfl⟩, -, himported⟩
  exact himported rfl

/-- What one insertion does to a module: whether there was one, and the module after it. -/
structure Inserts (package : String) (module : Module) (inserted : Bool)
    (after : Module) : Prop where
  inserted_iff : inserted = true ↔
    ¬ module.ProvidesRuntime package ∧ ¬ module.TakesRuntimeName package
  /-- The import stands on top of what was there before. -/
  onTop : inserted = true →
    after = { module with statements := runtimeImport package :: module.statements }
  unchanged : inserted = false → after = module
  /-- Afterwards the import is there, unless another export has taken the name.  Those of other
      packages are there as before. -/
  provides_iff : ∀ other, after.ProvidesRuntime other ↔
    module.ProvidesRuntime other ∨ other = package ∧ ¬ module.TakesRuntimeName other
  takes_iff : ∀ other, after.TakesRuntimeName other ↔ module.TakesRuntimeName other

/-- What one insertion does, by whether the lookup finds the runtime function. -/
theorem addRuntimeImport_inserts (package : String) (module : Module) :
    Inserts package module (module.addRuntimeImport package).2
      (module.addRuntimeImport package).1 := by
  unfold addRuntimeImport
  have hlookup : module.hasRuntimeImport package = true ↔
      module.ProvidesRuntime package ∨ module.TakesRuntimeName package :=
    hasRuntimeImport_iff_providesRuntime_or
  by_cases hfound : module.hasRuntimeImport package = true
  · rw [if_pos hfound]
    -- something was found, and nothing is put on top
    have hfound := hlookup.mp hfound
    refine ⟨?_, (fun h => nomatch h), fun _ => rfl, fun other => ?_, fun other => Iff.rfl⟩
    · refine iff_of_false Bool.false_ne_true ?_
      rintro ⟨hprovides, htakes⟩
      exact hfound.elim hprovides htakes
    · refine (or_iff_left_of_imp ?_).symm
      rintro ⟨rfl, htakes⟩
      exact hfound.resolve_right htakes
  · rw [if_neg hfound]
    -- nothing was found, and the import is put on top
    rw [hlookup, not_or] at hfound
    refine ⟨iff_of_true rfl hfound, fun _ => rfl, (fun h => nomatch h), fun other => ?_,
      fun other => takesRuntimeName_cons⟩
    rw [providesRuntime_cons, or_comm]
    refine or_congr_right (iff_self_and.mpr ?_)
    rintro rfl
    exact hfound.2

/-! ## Insertions one after the other -/

/-- Adds the runtime imports of some packages one after the other, and tells of each whether it was
    put on top. -/
def addRuntimeImports (module : Module) : List String → Module × List Bool
  | [] => (module, [])
  | package :: packages =>
    let (edited, inserted) := module.addRuntimeImport package
    let (last, others) := edited.addRuntimeImports packages
    (last, inserted :: others)

/-- Those of the packages whose import was put on top. -/
def insertedOf (packages : List String) (inserted : List Bool) : List String :=
  ((packages.zip inserted).filter (·.2)).map (·.1)

/-- A package whose import was put on top is one of the packages, and its flag says so. -/
theorem mem_insertedOf {packages : List String} {inserted : List Bool}
    (h : package ∈ insertedOf packages inserted) : ∃ earlier later,
      packages = earlier ++ package :: later ∧ inserted[earlier.length]? = some true := by
  induction packages generalizing inserted with
  | nil => exact absurd h List.not_mem_nil
  | cons first packages ih =>
    cases inserted with
    | nil => exact absurd h List.not_mem_nil
    | cons flag inserted =>
      -- a package behind the first one is found there
      have hbehind (h : package ∈ insertedOf packages inserted) : ∃ earlier later,
          first :: packages = earlier ++ package :: later ∧
            (flag :: inserted)[earlier.length]? = some true := by
        obtain ⟨earlier, later, rfl, hflag⟩ := ih h
        exact ⟨first :: earlier, later, rfl, hflag⟩
      cases flag with
      | false => exact hbehind h
      | true =>
        rcases List.mem_cons.mp h with rfl | h
        · exact ⟨[], packages, rfl, rfl⟩
        · exact hbehind h

/-- What insertions one after the other do to a module. -/
structure InsertsAll (packages : List String) (module : Module) (inserted : List Bool)
    (after : Module) :
    Prop where
  length : inserted.length = packages.length
  /-- An import is put on top where its package comes for the first time, if it was wanted then. -/
  inserted_iff : ∀ earlier package later, packages = earlier ++ package :: later →
    (inserted[earlier.length]? = some true ↔ package ∉ earlier ∧
      ¬ module.ProvidesRuntime package ∧ ¬ module.TakesRuntimeName package)
  once : (insertedOf packages inserted).Nodup
  /-- The imports stand on top of what was there before, the last one first. -/
  onTop : after = { module with
    statements := ((insertedOf packages inserted).map runtimeImport).reverse ++ module.statements }
  /-- What was there after the earlier insertions is there in the end. -/
  kept : ∀ earlier later, packages = earlier ++ later →
    (module.addRuntimeImports earlier).1.statements <:+ after.statements
  provides_iff : ∀ package, after.ProvidesRuntime package ↔
    module.ProvidesRuntime package ∨ package ∈ packages ∧ ¬ module.TakesRuntimeName package

theorem insertedOf_cons (package : String) (packages : List String) (flag : Bool)
    (inserted : List Bool) :
    insertedOf (package :: packages) (flag :: inserted) =
      if flag then package :: insertedOf packages inserted else insertedOf packages inserted := by
  cases flag <;> rfl

theorem addRuntimeImports_cons {edited : Module} {flag : Bool} (packages : List String)
    (hstep : module.addRuntimeImport package = (edited, flag)) :
    module.addRuntimeImports (package :: packages) =
      ((edited.addRuntimeImports packages).1, flag :: (edited.addRuntimeImports packages).2) := by
  rw [addRuntimeImports, hstep]

/-- One insertion and then the others. -/
theorem InsertsAll.cons {edited after : Module} {packages : List String} {flag : Bool}
    {inserted : List Bool} (hstep : module.addRuntimeImport package = (edited, flag))
    (h : InsertsAll packages edited inserted after) :
    InsertsAll (package :: packages) module (flag :: inserted) after := by
  have hone : Inserts package module flag edited := by
    simpa only [hstep] using addRuntimeImport_inserts package module
  have hprovides := hone.provides_iff
  have htakes := hone.takes_iff
  -- the import of the first package is at the bottom of those that were inserted
  have honTop : after = { module with
      statements := ((insertedOf (package :: packages) (flag :: inserted)).map
        runtimeImport).reverse ++
        module.statements } := by
    rw [h.onTop, insertedOf_cons]
    cases flag with
    | false => rw [hone.unchanged rfl]; rfl
    | true => rw [hone.onTop rfl]; simp
  refine ⟨congrArg (· + 1) h.length, fun earlier other later hsplit => ?_, ?_, honTop,
    fun earlier later hsplit => ?_, fun other => ?_⟩
  · cases earlier with
    | nil =>
      obtain ⟨rfl, rfl⟩ := List.cons.inj hsplit
      simpa using hone.inserted_iff
    | cons first earlier =>
      obtain ⟨rfl, rfl⟩ := List.cons.inj hsplit
      -- what an earlier import provides or takes is in the module by then
      have hlater := h.inserted_iff earlier other later rfl
      rw [hprovides, htakes] at hlater
      rw [List.length_cons, List.getElem?_cons_succ, hlater, List.mem_cons]
      tauto
  · rw [insertedOf_cons]
    cases flag with
    | false => exact h.once
    | true =>
      -- the import is there already when its package comes again
      refine List.nodup_cons.mpr ⟨fun hmem => ?_, h.once⟩
      obtain ⟨earlier, later, hsplit, hagain⟩ := mem_insertedOf hmem
      have hwanted := ((h.inserted_iff earlier package later hsplit).mp hagain).2.1
      exact hwanted ((hprovides package).mpr (.inr ⟨rfl, (hone.inserted_iff.mp rfl).2⟩))
  · cases earlier with
    | nil =>
      rw [honTop]
      exact List.suffix_append _ _
    | cons first earlier =>
      obtain ⟨rfl, hothers⟩ := List.cons.inj hsplit
      rw [addRuntimeImports_cons earlier hstep]
      exact h.kept earlier later hothers
  · rw [h.provides_iff, hprovides, htakes, List.mem_cons]
    tauto

/-- What insertions one after the other do, by induction on the packages. -/
theorem addRuntimeImports_insertsAll (packages : List String) (module : Module) :
    InsertsAll packages module (module.addRuntimeImports packages).2
      (module.addRuntimeImports packages).1 := by
  induction packages generalizing module with
  | nil =>
    refine ⟨rfl, fun earlier package later h => ?_, .nil, rfl, fun earlier later h => ?_, ?_⟩
    · exact absurd h.symm (by simp)
    · obtain ⟨rfl, rfl⟩ := List.append_eq_nil_iff.mp h.symm
      exact List.suffix_refl _
    · simp [addRuntimeImports]
  | cons package packages ih =>
    rw [addRuntimeImports_cons packages rfl]
    exact (ih _).cons rfl

/-- An insertion puts the runtime import of a package on top of a module exactly if the module
    neither imports the runtime function nor another export under its name; then nothing else
    changes, and otherwise nothing does.  Afterwards the import is there, unless another export has
    taken the name.  Of insertions one after the other, each package has at most one import put on
    top, where it comes for the first time, and none is undone. -/
theorem addRuntimeImports_once (module : Module) :
    (∀ package, Inserts package module (module.addRuntimeImport package).2
      (module.addRuntimeImport package).1) ∧
    ∀ packages, InsertsAll packages module (module.addRuntimeImports packages).2
      (module.addRuntimeImports packages).1 :=
  ⟨fun package => addRuntimeImport_inserts package module,
    fun packages => addRuntimeImports_insertsAll packages module⟩

/-- A module that imports another export under the name of the runtime function. -/
def renamedImport : String :=
  "import \x7b other as createStoryFns \x7d from '" ++ runtimePath defaultPackage ++ "';\n"

/-- The runtime import is not put on top of it, and is not there afterwards. -/
theorem addRuntimeImport_renamedImport : ∃ module, Module.parse? renamedImport false = some module ∧
    ¬ module.ProvidesRuntime defaultPackage ∧
    (module.addRuntimeImport defaultPackage).2 = false ∧
    ¬ (module.addRuntimeImport defaultPackage).1.ProvidesRuntime defaultPackage := by
  have hcheck : (Module.parse? renamedImport false).any (fun module =>
      !decide (module.ProvidesRuntime defaultPackage) &&
        !(module.addRuntimeImport defaultPackage).2) = true := by decide +kernel
  obtain ⟨module, hparse, hmodule⟩ := (Option.any_eq_true _ _).mp hcheck
  simp only [Bool.and_eq_true, Bool.not_eq_true', decide_eq_false_iff_not] at hmodule
  obtain ⟨hprovides, hinserted⟩ := hmodule
  refine ⟨module, hparse, hprovides, hinserted, ?_⟩
  rwa [(addRuntimeImport_inserts defaultPackage module).unchanged hinserted]

end Module

end SvelteStories.Script
