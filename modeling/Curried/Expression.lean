import Curried.Number.Text
import Curried.TypeExpression

/-!
# Expressions

The expression language: literals, lists, names, functions of one parameter, application by
adjacency, operators between operands, local bindings and groups.  Rendering gives source text
that parses back to the same expression.
-/

namespace Curried

/-- An expression of the language. -/
inductive Expression where
  /-- A number. -/
  | number (value : Float)
  /-- A text. -/
  | string (content : String)
  /-- A truth value. -/
  | boolean (value : Bool)
  /-- The constant `null`. -/
  | null
  /-- A list of expressions. -/
  | list (items : List Expression)
  /-- A name. -/
  | identifier (name : String)
  /-- An operator between operands; it stands for its name in parentheses. -/
  | operator (symbol : String)
  /-- A function applied to an argument. -/
  | apply (function argument : Expression)
  /-- An operator applied to its left operand, written before it. -/
  | applyInfix (operator operand : Expression)
  /-- A local binding. -/
  | letIn (name : String) (bound body : Expression)
  /-- A function of one parameter, whose type may be annotated. -/
  | function (parameter : String) (declared : Option TypeExpression) (body : Expression)
  /-- An expression in parentheses. -/
  | group (inner : Expression)
deriving Inhabited

namespace Expression

/-- The expression `left OP right`: the operator applied to the left operand, and the result
applied to the right one. -/
def binary (left right sign : Expression) : Expression :=
  .apply (.applyInfix sign left) right

/-- Whether an expression is an operator with both operands. -/
def isBinary : Expression → Bool
  | .apply (.applyInfix _ _) _ => true
  | _ => false

/-- Whether an expression is an application. -/
def isApplication : Expression → Bool
  | .apply _ _ => true
  | _ => false

/-- The name that an operator stands for between operands. -/
def operatorName (symbol : String) : String := "(" ++ symbol ++ ")"

/-! ### Rendering -/

/-- A text between backticks. -/
def quoted (content : String) : String := "`" ++ content ++ "`"

mutual

/-- The source text of an expression. -/
def render : Expression → String
  | .number value => Number.format value
  | .string content => quoted content
  | .boolean value => if value then "true" else "false"
  | .null => "null"
  | .list items => "[" ++ renderItems items ++ "]"
  | .identifier name => name
  | .operator symbol => symbol
  | .apply callee argument => callee.render ++ " " ++ argument.render
  | .applyInfix sign operand => operand.render ++ " " ++ sign.render
  | .letIn name bound body => "let " ++ name ++ " = " ++ bound.render ++ " in " ++ body.render
  | .function parameter declared body =>
      match declared with
      | some type => "\\" ++ parameter ++ " (" ++ type.render ++ ") -> " ++ body.render
      | none => "\\" ++ parameter ++ " -> " ++ body.render
  | .group inner => "(" ++ inner.render ++ ")"

/-- The items of a list, with commas between them. -/
def renderItems : List Expression → String
  | [] => ""
  | [item] => item.render
  | item :: others => item.render ++ ", " ++ renderItems others

end

/-! ### Equality -/

mutual

/-- Equality of expressions, with numbers compared as doubles are. -/
def same : Expression → Expression → Bool
  | .number left, .number right => left == right
  | .string left, .string right => left == right
  | .boolean left, .boolean right => left == right
  | .null, .null => true
  | .list left, .list right => sameItems left right
  | .identifier left, .identifier right => left == right
  | .operator left, .operator right => left == right
  | .apply callee argument, .apply callee' argument' =>
      callee.same callee' && argument.same argument'
  | .applyInfix sign operand, .applyInfix sign' operand' =>
      sign.same sign' && operand.same operand'
  | .letIn name bound body, .letIn name' bound' body' =>
      name == name' && bound.same bound' && body.same body'
  | .function parameter declared body, .function parameter' declared' body' =>
      parameter == parameter' && declared == declared' && body.same body'
  | .group inner, .group inner' => inner.same inner'
  | _, _ => false

/-- Equality of lists of expressions, item by item. -/
def sameItems : List Expression → List Expression → Bool
  | [], [] => true
  | item :: items, item' :: items' => item.same item' && sameItems items items'
  | _, _ => false

end

instance : BEq Expression := ⟨same⟩

end Expression

end Curried
