import SvelteStories.Script.Tree

/-!
# Object literals

An object literal is looked at as the list of its properties.  A property is found by its key, which
has to be written as a plain name: a computed key, a key in quotes and a spread are never found.  If
several properties have the same key, the first one is found.

A path of keys leads through object literals that are written in each other.  Following it fails if
a property on the way has a value of another kind.
-/

namespace SvelteStories.Script

/-- The properties of an object literal. -/
abbrev Properties := List Node

/-- A property that is on the way of a path has a value that is no object literal. -/
structure ShapeError where
  key : String
deriving Repr, DecidableEq

/-- The wording of a shape error. -/
def ShapeError.message (e : ShapeError) : String :=
  "property `" ++ e.key ++ "` must be an object literal"

namespace Node

/-- The properties of a node that is an object literal. -/
def properties? : Node → Option Properties
  | mk .object _ properties => some properties
  | _ => none

/-- Whether a node is a property whose key is the given plain name. -/
def hasKey (key : String) : Node → Bool
  | mk (.property false _ _) _ (mk (.name name) _ _ :: _) => name == key
  | _ => false

/-- The value of a node that is a property. -/
def propertyValue? : Node → Option Node
  | mk (.property ..) _ [_, value] => some value
  | _ => none

/-- The value of a node that is a string, or a template without interpolations. -/
def stringValue? : Node → Option String
  | mk (.string value _) _ _ => some value
  | mk (.template [chunk]) _ [] => chunk.cooked
  | _ => none

/-! ## Nodes that are added -/

/-- An object literal with the given properties. -/
def ofProperties (properties : Properties) : Node :=
  made .object properties

/-- A string. -/
def ofString (value : String) : Node :=
  made (.string value false) []

/-- A property with a plain name as its key. -/
def ofEntry (key : String) (value : Node) : Node :=
  made (.property false false .value) [made (.name key) [], value]

theorem hasKey_ofEntry (key name : String) (value : Node) :
    (ofEntry name value).hasKey key = (name == key) := rfl

end Node

namespace Properties

/-- The index of the property with the given key. -/
def index? (properties : Properties) (key : String) : Option Nat :=
  properties.findIdx? (·.hasKey key)

/-- Whether there is a property with the given key. -/
def has (properties : Properties) (key : String) : Bool :=
  properties.any (·.hasKey key)

/-- The value of the property with the given key. -/
def value? (properties : Properties) (key : String) : Option Node :=
  (properties.find? (·.hasKey key)).bind (·.propertyValue?)

/-- The text that the property with the given key has, if its value is one. -/
def string? (properties : Properties) (key : String) : Option String :=
  (value? properties key).bind (·.stringValue?)

/-- The object literal that the property with the given key has; nothing if there is no such
    property. -/
def object? (properties : Properties) (key : String) : Except ShapeError (Option Properties) :=
  match properties.find? (·.hasKey key) with
  | none => .ok none
  | some property =>
    match property.propertyValue?.bind (·.properties?) with
    | some inner => .ok (some inner)
    | none => .error ⟨key⟩

/-- The object literal at the end of a path; nothing if a property on the way is missing. -/
def at? : (path : List String) → Properties → Except ShapeError (Option Properties)
  | [], properties => .ok (some properties)
  | key :: path, properties => do
    match ← object? properties key with
    | none => return none
    | some inner => at? path inner

/-! ## Edits -/

/-- The properties with one more behind them. -/
def add (properties : Properties) (key : String) (value : Node) : Properties :=
  properties ++ [.ofEntry key value]

/-- What an edit of an object literal comes to.  Also an edit that fails leaves properties: what it
    did before it failed is not undone. -/
structure Edited (α : Type) where
  properties : Properties
  outcome : Except ShapeError α

/-- The same edit of an object literal that is a part of another one. -/
def Edited.inside {α : Type} (edited : Edited α) (put : Properties → Properties) : Edited α :=
  { edited with properties := put edited.properties }

/-- Edits the object literal that the property with the given key has.  If there is no such
    property, one with an empty object literal is added first. -/
def edit {α : Type} (key : String) (change : Properties → Edited α) : Properties → Edited α
  | [] => (change []).inside fun inner => [.ofEntry key (.ofProperties inner)]
  | property :: rest =>
    if property.hasKey key then
      match property with
      | .mk kind span [name, .mk .object inner properties] =>
        (change properties).inside fun properties =>
          .mk kind span [name, .mk .object inner properties] :: rest
      | property => ⟨property :: rest, .error ⟨key⟩⟩
    else (edit key change rest).inside (property :: ·)

/-- Edits the object literal at the end of a path, adding the properties that are missing on the
    way. -/
def editAt {α : Type} (path : List String) (change : Properties → Edited α) :
    Properties → Edited α :=
  path.foldr edit change

/-- Adds the properties that a path needs, and answers with the object literal at its end. -/
def ensure (path : List String) : Properties → Edited Properties :=
  editAt path fun found => ⟨found, .ok found⟩

/-! ## The documented properties -/

/-- Where a story or the meta object has its parameters. -/
def parametersPath : List String := ["parameters"]

/-- Where a story or the meta object has what is about its documentation. -/
def docsPath : List String := ["parameters", "docs"]

/-- Where a story or the meta object has its description. -/
def descriptionPath : List String := ["parameters", "docs", "description"]

end Properties

end SvelteStories.Script
