import SvelteStories.Meta.Declaration

/-!
# The runtime import

A transformed module imports the function that turns its calls into stories.  The import is put on
top of the module once per package.
-/

namespace SvelteStories.Script

/-- The function that turns story calls into stories. -/
def runtimeFunction : String := "createStoryFns"

/-- The module of a package that exports the runtime function. -/
def runtimePath (package : String) : String :=
  package ++ "/internal/create-story-fns"

/-- The import of the runtime function from the given package. -/
def runtimeImport (package : String) : Node :=
  .made (.import (runtimePath package) false [])
    [.made .importNamed [.made (.name runtimeFunction) [], .made (.binding runtimeFunction) []]]

/-- Whether an imported name is bound to the given local name. -/
def Node.importsAs (bound : String) : Node → Bool
  | mk .importNamed _ [_, mk (.binding name) _ _] => name == bound
  | _ => false

namespace Module

/-- Whether a module imports something under the name of the runtime function from the module that
    exports it. -/
def hasRuntimeImport (module : Module) (package : String) : Bool :=
  module.statements.any fun statement =>
    (statement.specifiersFrom (runtimePath package)).any (·.importsAs runtimeFunction)

/-- Puts the runtime import on top of a module, unless it is there, and tells whether it did. -/
def addRuntimeImport (module : Module) (package : String) : Module × Bool :=
  if module.hasRuntimeImport package then (module, false)
  else ({ module with statements := runtimeImport package :: module.statements }, true)

/-- After the runtime import was added, it is there. -/
theorem hasRuntimeImport_addRuntimeImport (module : Module) (package : String) :
    (module.addRuntimeImport package).1.hasRuntimeImport package = true := by
  unfold addRuntimeImport
  split
  · assumption
  · simp [hasRuntimeImport, runtimeImport, Node.made, Node.specifiersFrom, Node.importsAs]

end Module

end SvelteStories.Script
