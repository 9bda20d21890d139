import Curried.Evaluation
import Curried.Types.Ty

/-!
# Evaluation of type expressions

A second evaluator, one level above values.  Applying a function type checks the argument type
against the parameter type and then evaluates the expression of the result in the environment of
the function type.
-/

namespace Curried

/-- The text of an error. -/
def TypeError.message : TypeError → String
  | .mismatch expected actual =>
      "Couldn't match type " ++ actual ++ " with expected type " ++ expected
  | .notAFunction found => "Type Error: Trying to apply type " ++ found ++ " to an argument"
  | .unknownType name => "Unknown type " ++ name
  | .unboundIdentifier name => "No type bound to " ++ name
  | .depthExceeded => "Type nested deeper than " ++ toString depthLimit ++ " levels"

namespace TypeScope

/-- An environment without bindings over a registry. -/
def ofRegistry (registry : Registry) : TypeEnvironment := ⟨.empty, registry⟩

/-- The type bound to a name. -/
def lookup (environment : TypeEnvironment) (name : String) : Option Ty :=
  environment.bindings.lookup name

/-- Bind a name to a type. -/
def bind (environment : TypeEnvironment) (name : String) (type : Ty) : TypeEnvironment :=
  { environment with bindings := environment.bindings.bind name type }

/-- The named type with a name. -/
def named (environment : TypeEnvironment) (name : String) : Except TypeError Ty :=
  match environment.registry.lookup name with
  | some id => .ok (.named id)
  | none => .error (.unknownType name)

/-- A type in words. -/
def describe (environment : TypeEnvironment) (type : Ty) : String :=
  environment.registry.describe type

/-- Apply a type to an argument type: `run` evaluates the result expression. -/
def applyWith (run : TypeEnvironment → TypeExpression → Except TypeError Ty)
    (environment : TypeEnvironment) : Ty → Ty → Except TypeError Ty
  | .function label parameter body scope, argument => do
      let argument ← environment.registry.reduce parameter argument
      match label with
      | some label => run (scope.bind label argument) body
      | none => run scope body
  | other, _ => .error (.notAFunction (environment.describe other))

/-- Evaluate a type expression, nesting evaluations at most as many levels deep as the budget
says. -/
def evaluateWithin : Nat → TypeEnvironment → TypeExpression → Except TypeError Ty
  | 0, _, _ => .error .depthExceeded
  | budget + 1, environment, expression =>
      match expression with
      | .named name => environment.named name
      | .typeOf name =>
          match environment.lookup name with
          | some type => .ok type
          | none => .error (.unboundIdentifier name)
      | .function parameter body => do
          let parameter ← evaluateWithin budget environment parameter
          return .function none parameter body environment
      | .labelled label parameter body => do
          let parameter ← evaluateWithin budget environment parameter
          return .function (some label) parameter body environment
      | .letIn label bound body => do
          let type ← evaluateWithin budget environment bound
          evaluateWithin budget (environment.bind label type) body
      | .apply callee argument => do
          let function ← evaluateWithin budget environment callee
          let type ← evaluateWithin budget environment argument
          environment.applyWith (evaluateWithin budget) function type

/-- Evaluate a type expression in an environment. -/
def evaluate (environment : TypeEnvironment) (expression : TypeExpression) :
    Except TypeError Ty :=
  evaluateWithin depthLimit environment expression

/-- Apply a type from outside of any evaluation. -/
def apply (environment : TypeEnvironment) (function argument : Ty) : Except TypeError Ty :=
  environment.applyWith (evaluateWithin depthLimit) function argument

end TypeScope

end Curried
