import Curried.Grammar.Annotation
import Curried.Grammar.Literal
import Curried.Parser.Operator

/-!
# The expression grammar

The rules are layered so that none enters itself before it took a token: an operator chain is made
of applications, an application of atoms, and only atoms lead back to expressions, always behind
an opening token.  Each rule is a function of the rules inside it; the nesting limit enters where
the rules are tied together.
-/

namespace Curried.Grammar

open Curried.Parser

/-- Precedence of an operator; higher numbers bind looser. -/
def operatorPrecedence (symbol : String) : Nat :=
  if ["*", "/", "%"].contains symbol then 1
  else if ["+", "-"].contains symbol then 2
  else if ["==", "!=", "<", "<=", ">", ">="].contains symbol then 3
  else 4

/-- An operator of a given precedence.  A lone equals sign is none. -/
def infixIdentifier (precedence : Nat) : Parser Expression :=
  ((operatorRun.verify
      (fun symbol => symbol != "=" && operatorPrecedence symbol == precedence) "infix operator"
    ).noted fun symbol => "identifier-infix " ++ symbol).map .operator

/-- The operators of one precedence, as an entry of the operator table. -/
def operatorsOf (precedence : Nat) : Operator Expression where
  precedence := precedence
  build := Expression.binary
  parser := infixIdentifier precedence

/-- A group: `"(" expression ")"`. -/
def groupExpression (expression : Parser Expression) : Parser Expression :=
  recorded "group" <| (group expression (symbol "(") (symbol ")")).map .group

/-- A local binding: `"let" identifier "=" expression "in" expression`. -/
def letExpression (expression : Parser Expression) : Parser Expression :=
  let binding := ((keyword "let").keepRight (padded bareIdentifier)).keepLeft (symbol "=")
  let parts := ((binding.pair expression).keepLeft (keyword "in")).pair expression
  recorded "let" <| parts.map fun ((name, bound), body) => .letIn name bound body

/-- A function: `"\" identifier ("(" type ")")? "->" expression`. -/
def functionExpression (type : Parser TypeExpression) (expression : Parser Expression) :
    Parser Expression :=
  let parameter := (symbol "\\").keepRight (padded bareIdentifier)
  let declared := optional <|
    (group type (symbol "(") (symbol ")")).keepLeft whitespace
  let parts := ((parameter.pair declared).keepLeft arrow).pair expression
  recorded "function" <| parts.map fun ((name, declared), body) =>
    .function name declared body

/-- A group, a literal, a local binding, a function or a name. -/
def atom (type : Parser TypeExpression) (expression : Parser Expression) : Parser Expression :=
  padded <| choice
    [ groupExpression expression,
      literal expression,
      letExpression expression,
      functionExpression type expression,
      prefixIdentifier.map .identifier ]

/-- An atom applied to the atoms behind it, from left to right. -/
def application (type : Parser TypeExpression) (expression : Parser Expression) :
    Parser Expression :=
  recordedWhen "apply" Expression.isApplication <|
    ((atom type expression).pair (atom type expression).many).map fun (first, rest) =>
      rest.foldl .apply first

/-- Applications with operators between them. -/
def operatorChain (type : Parser TypeExpression) (expression : Parser Expression) :
    Parser Expression :=
  recordedWhen "apply-infix" Expression.isBinary <|
    binary (application type expression) ([1, 2, 3, 4].map operatorsOf)

/-- The rule for expressions, given the rules for the types and expressions inside them. -/
def expressionRule (type : Parser TypeExpression) (inner : Parser Expression) :
    Parser Expression :=
  (whitespace.keepRight (operatorChain type inner)).keepLeft whitespace

/-- An expression under a nesting limit. -/
def expressionWithin (limit : Nat) : Parser Expression :=
  recursive fun self => expressionRule (typeWithin limit) (nested limit self)

/-- An expression. -/
def expression : Parser Expression := expressionWithin nestingLimit

/-- An expression that takes all tokens. -/
def program : Parser Expression := expression.keepLeft endOfInput

end Curried.Grammar
