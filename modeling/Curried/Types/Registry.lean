import Curried.TypeExpression

/-!
# Named types

A registry holds the definitions of named types.  Definitions refer to each other by number, so a
type may be among its own children, directly or through others.  A type accepts what its children
accept; acceptance is therefore a question of reachability.
-/

namespace Curried

/-- A named type: the number of its definition in a registry. -/
abbrev TypeId := Nat

/-- The part of a type that a matcher looks at: everything but the bindings around it. -/
inductive Outline where
  /-- A named type. -/
  | named (id : TypeId)
  /-- A function type with its label, its parameter and the expression of its result. -/
  | function (label : Option String) (parameter : Outline) (body : TypeExpression)
deriving DecidableEq

/-- The definition of a named type. -/
structure TypeDefinition where
  /-- Its name. -/
  name : String
  /-- Types that are accepted wherever this one is expected. -/
  children : List TypeId
  /-- A test for further types that are accepted. -/
  matcher : Option (Outline → Bool)

/-- The definitions of named types. -/
structure Registry where
  /-- The definitions in order; a type is named by its index. -/
  definitions : List TypeDefinition

/-- Whether the matcher of a definition, if there is one, accepts a type. -/
def TypeDefinition.matches (definition : TypeDefinition) (actual : Outline) : Bool :=
  match definition.matcher with
  | some matcher => matcher actual
  | none => false

namespace Registry

/-- A registry without definitions. -/
def empty : Registry := ⟨[]⟩

/-- The number that the next definition gets. -/
def next (registry : Registry) : TypeId := registry.definitions.length

/-- Define a type without children. -/
def define (registry : Registry) (name : String) (matcher : Option (Outline → Bool)) : Registry :=
  ⟨registry.definitions ++ [⟨name, [], matcher⟩]⟩

/-- Accept a child wherever a parent is expected. -/
def addChild (registry : Registry) (parent child : TypeId) : Registry :=
  ⟨registry.definitions.modify parent fun definition =>
    { definition with children := definition.children ++ [child] }⟩

/-- A definition by its number. -/
def get? (registry : Registry) (id : TypeId) : Option TypeDefinition := registry.definitions[id]?

/-- The number of the last definition with a name. -/
def lookup (registry : Registry) (name : String) : Option TypeId :=
  (List.range registry.definitions.length).reverse.find? fun id =>
    (registry.get? id).any fun definition => definition.name == name

/-- The name of a type; a number without definition has the name `?`. -/
def name (registry : Registry) (id : TypeId) : String :=
  match registry.get? id with
  | some definition => definition.name
  | none => "?"

/-- The standard registry: `any`, which accepts everything, and the types of data. -/
def standard : Registry :=
  ["number", "string", "boolean", "null", "list"].foldl (fun registry name =>
    registry.define name none) (empty.define "any" (some fun _ => true))

/-! ### Acceptance of types by named types -/

/-- The declared children of a type. -/
def children (registry : Registry) (id : TypeId) : List TypeId :=
  match registry.get? id with
  | some definition => definition.children
  | none => []

/-- Whether a single type accepts another, apart from its children. -/
def acceptsHere (registry : Registry) (actual : Outline) (id : TypeId) : Bool :=
  actual == .named id || (registry.get? id).any fun definition => definition.matches actual

/-- What a search through the children of types leaves behind. -/
structure Search where
  /-- Whether a type was found that passes the test. -/
  found : Bool
  /-- The types that were entered so far. -/
  entered : List TypeId
deriving DecidableEq

/-- Search from several types in turn, up to the first success. -/
def searchEach (search : List TypeId → TypeId → Option Search) :
    List TypeId → List TypeId → Option Search
  | entered, [] => some ⟨false, entered⟩
  | entered, id :: others =>
      match search entered id with
      | none => none
      | some result =>
          if result.found then some result else searchEach search result.entered others

/-- Search for a type that passes a test, from a type down through its children, at most so many
levels deep.  No type is entered twice, so cycles are cut. -/
def searchFrom (registry : Registry) (test : TypeId → Bool) :
    Nat → List TypeId → TypeId → Option Search
  | 0, _, _ => none
  | depth + 1, entered, id =>
      if entered.contains id then some ⟨false, entered⟩
      else if test id then some ⟨true, id :: entered⟩
      else searchEach (registry.searchFrom test depth) (id :: entered) (registry.children id)

/-- Whether a named type accepts a type: itself, what its matcher accepts, and what any of its
children accept.  A search enters a definition for every level but the last one. -/
def accepts (registry : Registry) (expected : TypeId) (actual : Outline) : Bool :=
  (registry.searchFrom (registry.acceptsHere actual) (registry.definitions.length + 1) []
    expected).any Search.found

end Registry

end Curried
