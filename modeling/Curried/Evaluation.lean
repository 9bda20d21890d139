import Curried.Value

/-!
# Evaluation

An expression is evaluated in an environment, under a bound on how deep evaluations may nest.
Names are looked up in the environment; calling a closure evaluates its body in the closure's own
environment with the parameter bound.  An unbound name is no error: its value is `undefined`.
-/

namespace Curried

/-- Why an evaluation has no value. -/
inductive EvaluationError where
  /-- Something that is no function was applied; `found` is the name of its type. -/
  | notAFunction (found : String)
  /-- A native function is not defined for its arguments. -/
  | invalidArgument (name expected found : String)
  /-- Evaluations nest deeper than the bound. -/
  | depthExceeded
deriving DecidableEq

/-- How deep evaluations may nest, of values and of types. -/
def depthLimit : Nat := 256

/-- The text of an error. -/
def EvaluationError.message : EvaluationError → String
  | .notAFunction _ => "Type Error: Trying to apply to a non-function"
  | .invalidArgument name expected found => name ++ " expected " ++ expected ++ ", got " ++ found
  | .depthExceeded => "Evaluation nested deeper than " ++ toString depthLimit ++ " levels"

/-- Calling one value with another. -/
abbrev Caller := Value → Value → Except EvaluationError Value

namespace Operation

/-- The refusal of a list of arguments: it shows the names of their types. -/
def refusal (name expected : String) (arguments : List Value) : EvaluationError :=
  .invalidArgument name expected (String.intercalate ", " (arguments.map Value.typeName))

/-- An operation on two numbers. -/
def arithmetic (name : String) (f : Float → Float → Float) :
    List Value → Except EvaluationError Value
  | [.number left, .number right] => .ok (.number (f left right))
  | arguments => .error (refusal name "two numbers" arguments)

/-- Addition of numbers, concatenation of texts. -/
def addition (name : String) : List Value → Except EvaluationError Value
  | [.number left, .number right] => .ok (.number (left + right))
  | [.string left, .string right] => .ok (.string (left ++ right))
  | arguments => .error (refusal name "two numbers or two strings" arguments)

/-- Equality or its opposite. -/
def equality (name : String) (expected : Bool) : List Value → Except EvaluationError Value
  | [left, right] => .ok (.boolean ((left == right) == expected))
  | arguments => .error (refusal name "two values" arguments)

/-- A comparison of numbers by size, or of texts character by character. -/
def comparison (name : String) (numbers : Float → Float → Bool) (texts : String → String → Bool) :
    List Value → Except EvaluationError Value
  | [.number left, .number right] => .ok (.boolean (numbers left right))
  | [.string left, .string right] => .ok (.boolean (texts left right))
  | arguments => .error (refusal name "two numbers or two strings" arguments)

/-- The choice between two values. -/
def choose (name : String) : List Value → Except EvaluationError Value
  | [.boolean condition, first, second] => .ok (if condition then first else second)
  | arguments => .error (refusal name "a boolean condition" arguments)

/-- Call a value with several arguments, one at a time. -/
def callAll (call : Caller) : Value → List Value → Except EvaluationError Value
  | result, [] => .ok result
  | callee, argument :: rest => do
      let result ← call callee argument
      callAll call result rest

/-- Perform an operation under the name of its native function. -/
def perform (call : Caller) (name : String) (arguments : List Value) :
    Operation → Except EvaluationError Value
  | .add => addition name arguments
  | .subtract => arithmetic name (· - ·) arguments
  | .multiply => arithmetic name (· * ·) arguments
  | .divide => arithmetic name (· / ·) arguments
  | .equal => equality name true arguments
  | .different => equality name false arguments
  | .less => comparison name (fun x y => x < y) (fun x y => x < y) arguments
  | .lessOrEqual => comparison name (fun x y => x ≤ y) (fun x y => x ≤ y) arguments
  | .greater => comparison name (fun x y => y < x) (fun x y => y < x) arguments
  | .greaterOrEqual => comparison name (fun x y => y ≤ x) (fun x y => y ≤ x) arguments
  | .branch => choose name arguments
  | .collect => .ok (.list arguments)
  | .count => .ok (.number arguments.length.toFloat)
  | .last => .ok (arguments.getLast?.getD .undefined)
  | .refuse => .error (refusal name "something else" arguments)
  | .spread =>
      match arguments with
      | [] => .ok .undefined
      | callee :: rest => callAll call callee rest

end Operation

namespace Value

/-- How deep native functions may call functions inside each other. -/
def nativeCallLimit : Nat := 10000

/-- Call a value: `run` evaluates the bodies of closures.  A native function collects arguments
until it has enough; only then it runs. -/
def callWith (run : Environment → Expression → Except EvaluationError Value) : Nat → Caller
  | _, .closure parameter body bindings, argument => run (bindings.bind parameter argument) body
  | calls, .builtin native arguments, argument =>
      let arguments := arguments ++ [argument]
      if arguments.length < native.arity then .ok (.builtin native arguments)
      else
        match calls with
        | 0 => .error .depthExceeded
        | calls + 1 => native.operation.perform (callWith run calls) native.name arguments
  | _, other, _ => .error (.notAFunction other.typeName)

end Value

namespace Expression

/-- The value of a name; `undefined` if the name is not bound. -/
def read (environment : Environment) (name : String) : Value :=
  (environment.lookup name).getD .undefined

/-- Evaluate a function and then, if it can be called, its argument, and call it. -/
def applyWith (evaluate : Expression → Except EvaluationError Value) (call : Caller)
    (callee argument : Expression) : Except EvaluationError Value := do
  let function ← evaluate callee
  if function.isFunction then
    let value ← evaluate argument
    call function value
  else .error (.notAFunction function.typeName)

/-- Evaluate an expression, nesting evaluations at most as many levels deep as the budget says. -/
def evaluateWithin : Nat → Environment → Expression → Except EvaluationError Value
  | 0, _, _ => .error .depthExceeded
  | budget + 1, environment, expression =>
      match expression with
      | .number value => .ok (.number value)
      | .string content => .ok (.string content)
      | .boolean value => .ok (.boolean value)
      | .null => .ok .null
      | .list items => (items.mapM (evaluateWithin budget environment)).map .list
      | .identifier name => .ok (read environment name)
      | .operator symbol => .ok (read environment (operatorName symbol))
      | .apply callee argument =>
          applyWith (evaluateWithin budget environment)
            (Value.callWith (evaluateWithin budget) Value.nativeCallLimit) callee argument
      | .applyInfix sign operand =>
          applyWith (evaluateWithin budget environment)
            (Value.callWith (evaluateWithin budget) Value.nativeCallLimit) sign operand
      | .letIn name bound body => do
          let value ← evaluateWithin budget environment bound
          evaluateWithin budget (environment.bind name value) body
      | .function parameter _ body => .ok (.closure parameter body environment)
      | .group inner => evaluateWithin budget environment inner

/-- Evaluate an expression in an environment. -/
def evaluate (expression : Expression) (environment : Environment) :
    Except EvaluationError Value :=
  evaluateWithin depthLimit environment expression

end Expression

/-- Call a value from outside of any evaluation. -/
def Value.call : Caller :=
  Value.callWith (Expression.evaluateWithin depthLimit) Value.nativeCallLimit

end Curried
