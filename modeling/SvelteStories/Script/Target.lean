import SvelteStories.Script.Tree

/-!
# Targets

What stands left of an assignment, or between the parentheses of an arrow, is first read as an
expression.  These functions turn the expression into the target or the pattern that it is, or find
that it is none.
-/

namespace SvelteStories.Script

namespace Node

/-- The variable or member that an expression designates, without parentheses. -/
def simpleTarget? : Node → Option Node
  | node@(mk (.reference _) _ _) => some node
  | node@(mk (.member false) _ _) => some node
  | node@(mk (.index false) _ _) => some node
  | mk .parenthesized _ [inner] => inner.simpleTarget?
  | mk .typed span [inner] => inner.simpleTarget?.map fun inner => mk .typed span [inner]
  | _ => none

mutual

/-- The target that an expression is.  `inside` tells that it is an element of a larger target,
    where it may have a default and may be left out. -/
def targetAt? (inside : Bool) : Node → Option Node
  | node@(mk .absent _ _) | node@(mk .defaulted _ _) => if inside then some node else none
  | mk (.assignment .plain) span parts => if inside then some (mk .defaulted span parts) else none
  | node@(mk .arrayTarget _ _) | node@(mk .objectTarget _ _) => some node
  | mk .array span elements => (elementTargets? elements).map (mk .arrayTarget span)
  | mk .object span properties => (propertyTargets? properties).map (mk .objectTarget span)
  | node => node.simpleTarget?

/-- The targets that the elements of an array are. -/
def elementTargets? : List Node → Option (List Node)
  | [] => some []
  | [mk .spread span [inner]] =>
    (inner.targetAt? false).map fun inner => [mk .rest span [inner]]
  | element :: rest =>
    match element.targetAt? true, elementTargets? rest with
    | some element, some rest => some (element :: rest)
    | _, _ => none

/-- The assigned properties that the properties of an object are. -/
def propertyTargets? : List Node → Option (List Node)
  | [] => some []
  | [mk .spread span [inner]] =>
    (inner.targetAt? false).map fun inner => [mk .rest span [inner]]
  | mk (.property computed shorthand .value) span [key, value] :: rest =>
    match value.targetAt? true, propertyTargets? rest with
    | some value, some rest =>
      some (mk (.assignedProperty computed shorthand) span [key, value] :: rest)
    | _, _ => none
  | _ => none

end

/-- The target of a plain assignment that an expression is. -/
def target? (node : Node) : Option Node :=
  node.targetAt? false

mutual

/-- The pattern that an expression is, where it stands for a parameter. -/
def pattern? : Node → Option Node
  | node@(mk .absent _ _) => some node
  | mk (.reference name) span _ => some (mk (.binding name) span [])
  | mk .array span elements | mk .arrayTarget span elements =>
    (patterns? elements).map (mk .arrayPattern span)
  | mk .object span properties | mk .objectTarget span properties =>
    (patterns? properties).map (mk .objectPattern span)
  | mk (.assignment .plain) span [target, value] | mk .defaulted span [target, value] =>
    target.pattern?.map fun target => mk .defaulted span [target, value]
  | mk .spread span [inner] | mk .rest span [inner] =>
    (inner.pattern?.filter (·.kind != .defaulted)).map fun inner => mk .rest span [inner]
  | mk (.property computed _ .value) span [key, value]
  | mk (.assignedProperty computed _) span [key, value] =>
    value.pattern?.map fun value => mk (.boundProperty computed) span [key, value]
  | node@(mk .objectPattern _ _) | node@(mk .arrayPattern _ _) | node@(mk (.binding _) _ _) =>
    some node
  | _ => none

/-- The patterns that the given expressions are; only the last may be a rest. -/
def patterns? : List Node → Option (List Node)
  | [] => some []
  | node :: rest =>
    match node.pattern?, patterns? rest with
    | some node, some rest =>
      if node.kind == .rest && !rest.isEmpty then none else some (node :: rest)
    | _, _ => none

end

mutual

/-- Whether every default stands in a pattern: an object literal has no property with a default. -/
def defaultsInPatterns : Node → Bool
  | mk kind _ parts =>
    (!(kind matches .property ..) || !(parts.any fun part => part.kind == .defaulted))
      && allDefaultsInPatterns parts

/-- Whether every default in the given nodes stands in a pattern. -/
def allDefaultsInPatterns : List Node → Bool
  | [] => true
  | node :: rest => node.defaultsInPatterns && allDefaultsInPatterns rest

end

end Node

end SvelteStories.Script
