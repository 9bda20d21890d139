import Curried.Types.Evaluation

/-!
# Types of the native library

The standard type environment, and the one that binds the types of the native functions.
-/

namespace Curried

namespace Native

/-- A function of numbers. -/
def arithmeticType : TypeExpression :=
  .function (.named "number") (.function (.named "number") (.named "number"))

/-- A function of any two values that yields a truth value. -/
def equalityType : TypeExpression :=
  .function (.named "any") (.function (.named "any") (.named "boolean"))

/-- A function whose second argument has the type of the first. -/
def sameAsFirstType (result : TypeExpression) : TypeExpression :=
  .labelled "x" (.named "any") (.function (.typeOf "x") result)

/-- A choice between two values of one type. -/
def branchType : TypeExpression :=
  .labelled "condition" (.named "boolean")
    (.labelled "then" (.named "any") (.function (.typeOf "then") (.typeOf "then")))

/-- The types of the native library. -/
def types : List (String × TypeExpression) :=
  [ ("(+)", sameAsFirstType (.typeOf "x")),
    ("(-)", arithmeticType),
    ("(*)", arithmeticType),
    ("(/)", arithmeticType),
    ("(==)", equalityType),
    ("(!=)", equalityType),
    ("(<)", sameAsFirstType (.named "boolean")),
    ("(<=)", sameAsFirstType (.named "boolean")),
    ("(>)", sameAsFirstType (.named "boolean")),
    ("(>=)", sameAsFirstType (.named "boolean")),
    ("if", branchType) ]

/-- Bind a name to the type of an expression, if it has one. -/
def bindType (environment : TypeEnvironment) (name : String) (expression : TypeExpression) :
    TypeEnvironment :=
  match environment.evaluate expression with
  | .ok type => environment.bind name type
  | .error _ => environment

/-- The type environment that binds the types of the native library. -/
def typeEnvironment : TypeEnvironment :=
  types.foldl (fun environment (name, expression) => bindType environment name expression)
    (.ofRegistry .standard)

/-- Bind names to the types of expressions, each in the environment that binds the ones before it.
The first expression without a type ends it. -/
def bindTypes (environment : TypeEnvironment) (types : List (String × TypeExpression)) :
    Except TypeError TypeEnvironment :=
  types.foldlM (fun environment (name, expression) => do
    let type ← environment.evaluate expression
    return environment.bind name type) environment

/-- All types of the native library can be computed, so none is left out. -/
theorem bindTypes_types :
    bindTypes (.ofRegistry .standard) types = .ok typeEnvironment := rfl

end Native

end Curried
