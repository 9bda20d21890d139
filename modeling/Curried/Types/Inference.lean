import Curried.Types.Evaluation

/-!
# Types of expressions

Each expression has a counterpart among the type expressions.  Names become lookups, so it only
makes sense in a type environment that binds the same names.
-/

namespace Curried.Expression

/-- The type expression that computes the type of an expression.  A parameter without annotation
has the type `any`. -/
def typeExpression : Expression → TypeExpression
  | .number _ => .named "number"
  | .string _ => .named "string"
  | .boolean _ => .named "boolean"
  | .null => .named "null"
  | .list _ => .named "list"
  | .identifier name => .typeOf name
  | .operator symbol => .typeOf (operatorName symbol)
  | .apply callee argument => .apply callee.typeExpression argument.typeExpression
  | .applyInfix sign operand => .apply sign.typeExpression operand.typeExpression
  | .letIn name bound body => .letIn name bound.typeExpression body.typeExpression
  | .function parameter declared body =>
      .labelled parameter (declared.getD (.named "any")) body.typeExpression
  | .group inner => inner.typeExpression

/-- Compute the type of an expression. -/
def checkType (expression : Expression) (environment : TypeEnvironment) : Except TypeError Ty :=
  environment.evaluate expression.typeExpression

end Curried.Expression
