import Curried.Grammar.Lexeme
import Curried.Parser.Recursion
import Curried.TypeExpression

/-!
# Type annotations

`type := atom ("->" type)?` and `atom := identifier | "(" type ")"`.  Arrows nest to the right.
Each rule is a function of the rule for the types inside it, so that the nesting limit stands in
one place.
-/

namespace Curried.Grammar

open Curried.Parser

/-- How deep the rules of the language may nest inside each other. -/
def nestingLimit : Nat := 32

/-- A type name or a type in parentheses. -/
def typeAtom (type : Parser TypeExpression) : Parser TypeExpression :=
  padded <|
    ((token Kind.identifier).map fun token => .named token.text).or
      (group type (symbol "(") (symbol ")"))

/-- The rule for types, given the rule for the types inside them. -/
def typeRule (inner : Parser TypeExpression) : Parser TypeExpression :=
  ((typeAtom inner).pair (optional (arrow.keepRight inner))).map fun (parameter, result) =>
    match result with
    | some result => .function parameter result
    | none => parameter

/-- A type annotation under a nesting limit. -/
def typeWithin (limit : Nat) : Parser TypeExpression :=
  recursive fun type => typeRule (nested limit type)

/-- A type annotation. -/
def typeExpression : Parser TypeExpression := typeWithin nestingLimit

end Curried.Grammar
