/-!
# Type expressions

The expressions of the type level.  Each form of expression has a counterpart here, and they are
evaluated to types in a type environment.
-/

namespace Curried

/-- An expression that stands for a type. -/
inductive TypeExpression where
  /-- A type by its name: `number`. -/
  | named (name : String)
  /-- The type bound to an identifier: `typeof x`. -/
  | typeOf (name : String)
  /-- A function type. -/
  | function (parameter body : TypeExpression)
  /-- A function type whose label stands for the argument type in the body. -/
  | labelled (label : String) (parameter body : TypeExpression)
  /-- The type of the body with a label bound to a type. -/
  | letIn (label : String) (bound body : TypeExpression)
  /-- The result type of a function type at an argument type. -/
  | apply (function argument : TypeExpression)
deriving DecidableEq, Inhabited

namespace TypeExpression

/-- Whether the expression is a function type, labelled or not. -/
def isFunction : TypeExpression → Bool
  | .function _ _ | .labelled _ _ _ => true
  | _ => false

/-- Whether the expression is the name of a type. -/
def isNamed : TypeExpression → Bool
  | .named _ => true
  | _ => false

/-- The text of a type expression.  Arrows nest to the right without parentheses, so a parameter
that is a function stands in parentheses; so does an argument that is no plain name. -/
def render : TypeExpression → String
  | .named name => name
  | .typeOf name => "typeof " ++ name
  | .function parameter body =>
      (if parameter.isFunction then "(" ++ parameter.render ++ ")" else parameter.render) ++
        " -> " ++ body.render
  | .labelled label parameter body =>
      "(" ++ label ++ ": " ++ parameter.render ++ ") -> " ++ body.render
  | .letIn label bound body => "let " ++ label ++ " = " ++ bound.render ++ " in " ++ body.render
  | .apply callee argument =>
      callee.render ++ " " ++
        (if argument.isNamed then argument.render else "(" ++ argument.render ++ ")")

end TypeExpression

end Curried
