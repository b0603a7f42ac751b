import SvelteStories.Proofs.Location
import SvelteStories.Proofs.Outcome
import SvelteStories.Story.File

/-!
# How often a module declares its metadata

A module declares its metadata once if, among all its top-level declarators, one is initialised by a
call of `defineMeta`.  The lookup of the meta declaration sees less than that: of every statement
that is a plain declaration it looks at the first declarator.  A second meta call behind the first
declarator of a statement, or in an exported declaration, is passed over.

## Key results

- `declaresMeta_of_compiledContent`, `declaresMeta_of_read`: what is known of the declaration of a
  module that was accepted, as a compiled module or as the module script of a stories file
- `metaDeclarators_of_accepted`: a module that was accepted declares its metadata once exactly if no
  meta call is passed over
-/

namespace SvelteStories.Script

open Text Diagnostic

namespace Node

/-- The expression inside any parentheses, types and optional chains. -/
def bare : Node → Node
  | mk .parenthesized _ [inner] | mk .typed _ [inner] | mk .chain _ [inner] => inner.bare
  | node => node

/-- The declarators of the variables that a top-level statement declares, plain or exported. -/
def topDeclarators : Node → List Node
  | mk (.declaration _) _ declarators => declarators
  | mk .exportDeclaration _ [mk (.declaration _) _ declarators] => declarators
  | _ => []

/-- The arguments of the call by the given local name that a declarator is initialised by. -/
def metaArguments? (bound : String) : Node → Option (List Node)
  | mk .declarator _ [_, value] =>
    match value.bare with
    | mk (.call _) _ (callee :: arguments) =>
      if callee.bare.isReference bound then some arguments else none
    | _ => none
  | _ => none

/-- The declarators of a top-level statement that declare metadata. -/
def metaDeclarators (bound : String) (statement : Node) : List Node :=
  statement.topDeclarators.filter fun declarator => (declarator.metaArguments? bound).isSome

end Node

namespace Module

/-- All top-level declarators of a module that declare metadata. -/
def metaDeclarators (module : Module) (bound : String) : List Node :=
  module.statements.flatMap (·.metaDeclarators bound)

/-- The meta declaration of a module that was accepted: its index, the statement, its first
    declarator, the story component and the meta object. -/
structure DeclaresMeta (module : Module) (package bound : String) (index : Nat)
    (declaration declarator : Node) (component : String) (object : Properties) : Prop where
  imported : module.metaImport? package = some bound
  /-- It is the only plain declaration that starts with a call of `defineMeta`. -/
  alone : ∃ before after, module.statements = before ++ declaration :: after ∧
    before.length = index ∧ declaration.declaresMeta bound = true ∧
    ∀ statement ∈ before ++ after, statement.declaresMeta bound = false
  plain : declaration.isVariables = true
  first : declaration.topDeclarators.head? = some declarator
  /-- The call has one argument, an object literal, and that is the meta object. -/
  argument : ∃ argument, declarator.metaArguments? bound = some [argument] ∧
    argument.properties? = some object
  /-- The pattern of the first declarator binds the story component. -/
  binding : declaration.storyBinding? = some component

/-- No call of `defineMeta` is passed over by the lookup: every statement that has one starts with
    it, and the meta declaration has no other one. -/
def SeesEveryMeta (module : Module) (bound : String) (declaration declarator : Node) : Prop :=
  (∀ statement ∈ module.statements, statement.metaDeclarators bound ≠ [] →
    statement.declaresMeta bound = true) ∧
  declaration.metaDeclarators bound = [declarator]

end Module

section Lookups

variable {module : Module} {filename package bound component : String} {index : Nat}
  {declaration declarator : Node} {object : Properties}

/-- There is nothing around a reference. -/
theorem Node.bare_of_isReference {node : Node} {name : String} (h : node.isReference name = true) :
    node.bare = node := by
  obtain ⟨kind, span, parts⟩ := node
  cases kind <;> first | rfl | simp [isReference] at h

/-- A meta object that is answered with is the one that there is. -/
theorem Node.metaObject_eq_ok :
    declaration.metaObject filename bound = .ok object ↔
      declaration.metaObject? bound = some object := by
  unfold metaObject
  cases declaration.metaObject? bound <;> simp

/-- A name of the story component that is answered with is the one that there is. -/
theorem Node.storyBinding_eq_ok :
    declaration.storyBinding filename = .ok component ↔
      declaration.storyBinding? = some component := by
  unfold storyBinding
  cases declaration.storyBinding? <;> simp

/-- What the lookups of the meta declaration find. -/
theorem Module.declaresMeta_of_lookups (himport : module.metaImport? package = some bound)
    (halone : ∃ before after, module.statements = before ++ declaration :: after ∧
      before.length = index ∧ declaration.declaresMeta bound = true ∧
      ∀ statement ∈ before ++ after, statement.declaresMeta bound = false)
    (hobject : declaration.metaObject? bound = some object)
    (hcomponent : declaration.storyBinding? = some component) :
    ∃ declarator,
      module.DeclaresMeta package bound index declaration declarator component object := by
  obtain ⟨word, span, inner, pattern, optional, call, callee, at_, rest, rfl, hcallee⟩ :=
    Node.exists_of_metaObject?_eq_some hobject
  refine ⟨_, himport, halone, rfl, rfl, ⟨.mk .object at_ object, ?_, rfl⟩, hcomponent⟩
  simp only [Node.metaArguments?, Node.bare, Node.bare_of_isReference hcallee, hcallee, if_true]

/-- A module that was accepted declares its metadata once exactly if the lookup sees every call of
    `defineMeta`. -/
theorem Module.DeclaresMeta.metaDeclarators_eq_singleton_iff
    (h : module.DeclaresMeta package bound index declaration declarator component object) :
    module.metaDeclarators bound = [declarator] ↔
      module.SeesEveryMeta bound declaration declarator := by
  obtain ⟨before, after, hstatements, -, hdeclares, halone⟩ := h.alone
  obtain ⟨rest, htop⟩ := List.head?_eq_some_iff.mp h.first
  obtain ⟨argument, harguments, -⟩ := h.argument
  -- the first declarator is one of them, and the others stand behind it
  have hhead : declaration.metaDeclarators bound = declarator :: rest.filter fun other =>
      (other.metaArguments? bound).isSome := by
    rw [Node.metaDeclarators, htop, List.filter_cons_of_pos (by rw [harguments]; rfl)]
  have hsplit : module.metaDeclarators bound = before.flatMap (·.metaDeclarators bound) ++
      (declaration.metaDeclarators bound ++ after.flatMap (·.metaDeclarators bound)) := by
    rw [metaDeclarators, hstatements, List.flatMap_append, List.flatMap_cons]
  constructor
  · intro hsingle
    -- one of the three parts has the declarator already, so that the others have none
    have hlength := congrArg List.length (hsplit.symm.trans hsingle)
    simp only [hhead, List.length_append, List.length_cons, List.length_nil] at hlength
    have hbefore : before.flatMap (·.metaDeclarators bound) = [] :=
      List.length_eq_zero_iff.mp (by omega)
    have hrest : rest.filter (fun other => (other.metaArguments? bound).isSome) = [] :=
      List.length_eq_zero_iff.mp (by omega)
    have hafter : after.flatMap (·.metaDeclarators bound) = [] :=
      List.length_eq_zero_iff.mp (by omega)
    refine ⟨fun statement hmem hne => ?_, by rw [hhead, hrest]⟩
    rw [hstatements, List.mem_append, List.mem_cons] at hmem
    obtain hmem | rfl | hmem := hmem
    · exact absurd (List.flatMap_eq_nil_iff.mp hbefore statement hmem) hne
    · exact hdeclares
    · exact absurd (List.flatMap_eq_nil_iff.mp hafter statement hmem) hne
  · rintro ⟨hseen, hsingle⟩
    -- a statement that has one and is seen is the declaration
    have hnone : ∀ statement ∈ before ++ after, statement.metaDeclarators bound = [] := by
      intro statement hmem
      refine Decidable.byContradiction fun hne => ?_
      have hmem' : statement ∈ module.statements := by
        rw [hstatements]
        simp only [List.mem_append, List.mem_cons] at hmem ⊢
        exact hmem.imp_right Or.inr
      exact Bool.false_ne_true ((halone statement hmem).symm.trans (hseen statement hmem' hne))
    rw [hsplit, hsingle,
      List.flatMap_eq_nil_iff.mpr fun s hs => hnone s (List.mem_append_left after hs),
      List.flatMap_eq_nil_iff.mpr fun s hs => hnone s (List.mem_append_right before hs)]
    rfl

end Lookups

/-! ## The two extractions -/

/-- What is found in a compiled module that is accepted. -/
theorem Module.declaresMeta_of_compiledContent {module : Module} {filename package : String}
    {content : CompiledContent} (h : module.compiledContent filename package = .ok content) :
    ∃ declaration declarator object,
      module.DeclaresMeta package content.metaBinding content.metaIndex
      declaration declarator content.component object := by
  obtain ⟨before, declaration, after, object, hlocated⟩ := located_of_compiledContent h
  obtain ⟨declarator, hdeclares⟩ := declaresMeta_of_lookups hlocated.imported
    ⟨before, after, hlocated.statements, hlocated.index,
      Node.declaresMeta_of_metaObject? hlocated.metaObject, hlocated.alone⟩
    hlocated.metaObject hlocated.binding
  exact ⟨declaration, declarator, object, hdeclares⟩

/-- What is found in the module script of a stories file that is accepted. -/
theorem Module.declaresMeta_of_read {filename source package : String} {file : StoriesFile}
    (h : StoriesFile.read filename source package = .ok file) :
    ∃ nodes script module index declaration declarator object,
      Markup.parse source.toList = .ok nodes ∧ StoriesFile.moduleScript? nodes = some script ∧
      StoriesFile.scriptModule filename source.toList script = .ok module ∧
      module.DeclaresMeta package file.metaBinding index declaration declarator
        file.component object ∧
      file.summary = Meta.summary object := by
  unfold StoriesFile.read at h
  -- the markup is read, its module script is found and read as a module
  obtain ⟨nodes, hnodes, h⟩ := exists_of_bind_eq_ok h
  cases hscript : StoriesFile.moduleScript? nodes with
  | none =>
    rw [hscript] at h
    exact nomatch h
  | some script =>
    rw [hscript] at h
    obtain ⟨_, hfound, h⟩ := exists_of_bind_eq_ok h
    obtain rfl := Except.ok.inj hfound
    obtain ⟨module, hmodule, h⟩ := exists_of_bind_eq_ok h
    cases hbound : module.metaImport? package with
    | none =>
      rw [hbound] at h
      exact nomatch h
    | some bound =>
      rw [hbound] at h
      obtain ⟨_, hfound, h⟩ := exists_of_bind_eq_ok h
      obtain rfl := Except.ok.inj hfound
      -- the lookups in the script, one after the other
      obtain ⟨⟨index, declaration⟩, hdeclared, h⟩ := exists_of_bind_eq_ok h
      obtain ⟨object, hobject, h⟩ := exists_of_bind_eq_ok h
      obtain ⟨component, hcomponent, h⟩ := exists_of_bind_eq_ok h
      obtain rfl := Except.ok.inj h
      obtain ⟨declarator, hdeclares⟩ := declaresMeta_of_lookups hbound
        (metaDeclaration_eq_ok.mp hdeclared) (Node.metaObject_eq_ok.mp hobject)
        (Node.storyBinding_eq_ok.mp hcomponent)
      exact ⟨nodes, script, module, index, declaration, declarator, object,
        eq_ok_of_mapError_eq_ok hnodes, hscript, hmodule, hdeclares, rfl⟩

/-- An extraction that succeeds has found the only plain declaration of the module that starts with
    a call of `defineMeta`.  The call has one argument, an object literal, which is the meta object,
    and the story component is what its pattern binds.  The call is the only one among all top-level
    declarators exactly if none of them is passed over. -/
theorem metaDeclarators_of_accepted (filename package : String) :
    (∀ (module : Module) content, module.compiledContent filename package = .ok content →
      ∃ declaration declarator object,
        module.DeclaresMeta package content.metaBinding content.metaIndex declaration declarator
          content.component object ∧
        (module.metaDeclarators content.metaBinding = [declarator] ↔
          module.SeesEveryMeta content.metaBinding declaration declarator)) ∧
    ∀ source file, StoriesFile.read filename source package = .ok file →
      ∃ nodes script module index declaration declarator object,
        Markup.parse source.toList = .ok nodes ∧ StoriesFile.moduleScript? nodes = some script ∧
        StoriesFile.scriptModule filename source.toList script = .ok module ∧
        module.DeclaresMeta package file.metaBinding index declaration declarator file.component
          object ∧
        file.summary = Meta.summary object ∧
        (module.metaDeclarators file.metaBinding = [declarator] ↔
          module.SeesEveryMeta file.metaBinding declaration declarator) := by
  constructor
  · -- the compiled module, and the module script of the stories file
    intro module content h
    obtain ⟨declaration, declarator, object, hdeclares⟩ := Module.declaresMeta_of_compiledContent h
    exact ⟨declaration, declarator, object, hdeclares, hdeclares.metaDeclarators_eq_singleton_iff⟩
  · intro source file h
    obtain ⟨nodes, script, module, index, declaration, declarator, object, hnodes, hscript, hmodule,
      hdeclares, hsummary⟩ := Module.declaresMeta_of_read h
    exact ⟨nodes, script, module, index, declaration, declarator, object, hnodes, hscript, hmodule,
      hdeclares, hsummary, hdeclares.metaDeclarators_eq_singleton_iff⟩

/-- A module with two meta calls:
    `const { Story } = defineMeta({}), { Story: Other } = defineMeta({})`. -/
def twiceDeclared : Module where
  source := []
  hashbang := none
  directives := []
  statements :=
    [.made (.import defaultPackage false [])
      [.made .importNamed [.made (.name metaFunction) [], .made (.binding metaFunction) []]],
      .made (.declaration .const) [declarator storyComponent, declarator "Other"]]
  comments := []
where
  declarator (component : String) : Node :=
    .made .declarator
      [.made .objectPattern [.made (.boundProperty false)
        [.made (.name storyComponent) [], .made (.binding component) []]],
      .made (.call false) [.made (.reference metaFunction) [], .ofProperties []]]

/-- Its second meta call is passed over, and the module is accepted. -/
theorem compiledContent_twiceDeclared :
    (twiceDeclared.compiledContent "Button.stories.svelte" defaultPackage).map (·.metaIndex) =
      .ok 1 ∧
      twiceDeclared.metaDeclarators metaFunction =
        [twiceDeclared.declarator storyComponent, twiceDeclared.declarator "Other"] :=
  ⟨rfl, rfl⟩

/-- A stories file with a second meta call, in an exported declaration. -/
def exportedTwice : String :=
  "<script module>import \x7b defineMeta \x7d from '@storybook/addon-svelte-csf';
const \x7b Story \x7d = defineMeta(\x7b\x7d);
export const \x7b Story: Other \x7d = defineMeta(\x7b\x7d);</script>"

/-- A module and a stories file that are accepted: each has one meta declaration that is found, and
    a meta call that is passed over. -/
theorem declaresMeta_twice :
    (∃ content declaration declarator object,
      twiceDeclared.compiledContent "Button.stories.svelte" defaultPackage = .ok content ∧
      twiceDeclared.DeclaresMeta defaultPackage content.metaBinding content.metaIndex declaration
        declarator content.component object ∧
      ¬ twiceDeclared.SeesEveryMeta content.metaBinding declaration declarator) ∧
    ∃ file module index declaration declarator object,
      StoriesFile.read "Button.stories.svelte" exportedTwice defaultPackage = .ok file ∧
      Module.DeclaresMeta module defaultPackage file.metaBinding index declaration declarator
        file.component object ∧
      ¬ module.SeesEveryMeta file.metaBinding declaration declarator := by
  obtain ⟨hcompiled, hfile⟩ := metaDeclarators_of_accepted "Button.stories.svelte" defaultPackage
  constructor
  · obtain ⟨declaration, declarator, object, hdeclares, hiff⟩ := hcompiled twiceDeclared _ rfl
    refine ⟨_, declaration, declarator, object, rfl, hdeclares, fun hsees => ?_⟩
    -- there are two declarators, so they are not the one that was found
    exact absurd (congrArg List.length (hiff.mpr hsees)) (show 2 ≠ 1 by decide)
  · have hread : (StoriesFile.read "Button.stories.svelte" exportedTwice
        defaultPackage).toOption.any (·.metaBinding == metaFunction) = true := by decide +kernel
    obtain ⟨file, hread, hbinding⟩ := exists_ok_of_any hread
    obtain ⟨nodes, script, module, index, declaration, declarator, object, hnodes, hscript, hmodule,
      hdeclares, -, hiff⟩ := hfile _ file hread
    refine ⟨file, module, index, declaration, declarator, object, hread, hdeclares, fun hsees => ?_⟩
    have hcount : ((Markup.parse exportedTwice.toList).toOption.bind fun nodes =>
        (StoriesFile.moduleScript? nodes).bind fun script =>
          (StoriesFile.scriptModule "Button.stories.svelte" exportedTwice.toList
            script).toOption.map
            fun module => (module.metaDeclarators metaFunction).length) = some 2 := by
      decide +kernel
    rw [hnodes, Except.toOption, Option.bind_some, hscript, Option.bind_some, hmodule,
      Except.toOption, Option.map_some, ← beq_iff_eq.mp hbinding, hiff.mpr hsees] at hcount
    exact absurd (Option.some.inj hcount) (show 1 ≠ 2 by decide)

end SvelteStories.Script
