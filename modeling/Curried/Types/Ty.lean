import Curried.Bindings
import Curried.Types.Registry

/-!
# Types

The value of a type expression is a named type or a function type.  A function type keeps the
environment it was evaluated in, because the expression of its result is only evaluated when the
type is applied.
-/

namespace Curried

/-- Names bound to types, together with the registry of named types. -/
structure TypeScope (τ : Type) where
  /-- The bound names. -/
  bindings : Bindings τ
  /-- The named types. -/
  registry : Registry

/-- A type. -/
inductive Ty where
  /-- A named type. -/
  | named (id : TypeId)
  /-- A function type. -/
  | function (label : Option String) (parameter : Ty) (body : TypeExpression)
      (scope : TypeScope Ty)

/-- The environment of type expressions. -/
abbrev TypeEnvironment := TypeScope Ty

/-- Why a type expression has no type.  Types are given by their descriptions. -/
inductive TypeError where
  /-- The type `actual` is not accepted where `expected` is. -/
  | mismatch (expected actual : String)
  /-- A type that is no function type was applied. -/
  | notAFunction (found : String)
  /-- No type has the name. -/
  | unknownType (name : String)
  /-- No type is bound to the name. -/
  | unboundIdentifier (name : String)
  /-- Evaluations nest deeper than the bound. -/
  | depthExceeded
deriving DecidableEq

namespace Ty

/-- The outline of a type. -/
def outline : Ty → Outline
  | .named id => .named id
  | .function label parameter body _ => .function label parameter.outline body

end Ty

namespace Registry

/-- A type in the words of a registry. -/
def describe (registry : Registry) : Ty → String
  | .named id => registry.name id
  | .function (some label) parameter body _ =>
      "(" ++ label ++ ": " ++ registry.describe parameter ++ ") -> " ++ body.render
  | .function none parameter body _ => registry.describe parameter ++ " -> " ++ body.render

/-- Whether one of two types can stand where the other is expected: the second where the first is
if `forward` holds, and the first where the second is otherwise.  Between function types the
question turns around for their parameters. -/
def fits (registry : Registry) : Ty → Ty → Bool → Bool
  | .named id, second, true => registry.accepts id second.outline
  | .function _ _ _ _, .named _, true => false
  | first, .named id, false => registry.accepts id first.outline
  | .named _, .function _ _ _ _, false => false
  | .function _ parameter _ _, .function _ parameter' _ _, forward =>
      registry.fits parameter parameter' !forward

/-- Check that a type can be used where another one is expected, and yield it. -/
def reduce (registry : Registry) (expected actual : Ty) : Except TypeError Ty :=
  if registry.fits expected actual true then .ok actual
  else .error (.mismatch (registry.describe expected) (registry.describe actual))

end Registry

end Curried
