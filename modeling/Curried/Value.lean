import Curried.Bindings
import Curried.Expression

/-!
# Values

The values of the language.  A closure is a function with the environment it was evaluated in; a
builtin is a native function with the arguments it was applied to so far.
-/

namespace Curried

/-- What a native function does once its arguments are there. -/
inductive Operation where
  /-- Add numbers, join texts. -/
  | add
  /-- Subtract numbers. -/
  | subtract
  /-- Multiply numbers. -/
  | multiply
  /-- Divide numbers. -/
  | divide
  /-- Test whether two values are equal. -/
  | equal
  /-- Test whether two values differ. -/
  | different
  /-- Test whether the first of two numbers or texts is the smaller one. -/
  | less
  /-- Test whether the first of two numbers or texts is not the larger one. -/
  | lessOrEqual
  /-- Test whether the first of two numbers or texts is the larger one. -/
  | greater
  /-- Test whether the first of two numbers or texts is not the smaller one. -/
  | greaterOrEqual
  /-- Choose between two values by a condition. -/
  | branch
  /-- Collect the arguments in a list. -/
  | collect
  /-- Count the arguments. -/
  | count
  /-- Yield the last argument. -/
  | last
  /-- Refuse every argument. -/
  | refuse
  /-- Call the first argument with the others, one at a time. -/
  | spread
deriving DecidableEq

/-- A native function. -/
structure Native where
  /-- The name it shows. -/
  name : String
  /-- Number of arguments it waits for. -/
  arity : Nat
  /-- What it does with them. -/
  operation : Operation
deriving DecidableEq

/-- A value of the language. -/
inductive Value where
  /-- The value of a name that is not bound. -/
  | undefined
  /-- The constant `null`. -/
  | null
  /-- A truth value. -/
  | boolean (value : Bool)
  /-- A number. -/
  | number (value : Float)
  /-- A text. -/
  | string (content : String)
  /-- A list of values. -/
  | list (items : List Value)
  /-- A function of the language with the bindings around it. -/
  | closure (parameter : String) (body : Expression) (bindings : Bindings Value)
  /-- A native function with the arguments it has so far. -/
  | builtin (native : Native) (arguments : List Value)
deriving Inhabited

/-- The names that an expression can refer to, with their values. -/
abbrev Environment := Bindings Value

namespace Value

/-- Name of the type of a value, as error messages show it. -/
def typeName : Value → String
  | .undefined => "undefined"
  | .null => "null"
  | .boolean _ => "boolean"
  | .number _ => "number"
  | .string _ => "string"
  | .list _ => "list"
  | .closure _ _ _ | .builtin _ _ => "function"

/-- Whether a value can be called. -/
def isFunction : Value → Bool
  | .closure _ _ _ | .builtin _ _ => true
  | _ => false

/-- Whether a value is the one of an unbound name. -/
def isUndefined : Value → Bool
  | .undefined => true
  | _ => false

mutual

/-- The text of a value.  Data is written as in source texts, a closure as its function, and a
builtin as its name. -/
def display : Value → String
  | .undefined => "undefined"
  | .null => "null"
  | .boolean value => if value then "true" else "false"
  | .number value => Number.format value
  | .string content => Expression.quoted content
  | .list items => "[" ++ displayItems items ++ "]"
  | .closure parameter body _ => "\\" ++ parameter ++ " -> " ++ body.render
  | .builtin native _ => native.name

/-- The items of a list, with commas between them. -/
def displayItems : List Value → String
  | [] => ""
  | [item] => item.display
  | item :: others => item.display ++ ", " ++ displayItems others

end

mutual

/-- Structural equality.  Numbers are compared as doubles are, and a function is equal to
nothing, not even to itself. -/
def same : Value → Value → Bool
  | .undefined, .undefined => true
  | .null, .null => true
  | .boolean left, .boolean right => left == right
  | .number left, .number right => left == right
  | .string left, .string right => left == right
  | .list left, .list right => sameItems left right
  | _, _ => false

/-- Equality of lists, item by item. -/
def sameItems : List Value → List Value → Bool
  | [], [] => true
  | item :: items, item' :: items' => item.same item' && sameItems items items'
  | _, _ => false

end

instance : BEq Value := ⟨same⟩

end Value

end Curried
