import Curried.Expression
import Curried.Grammar.Lexeme
import Curried.Parser.Record

/-!
# Literals

Numbers, texts, constants and lists, and the names that stand for values.
-/

namespace Curried.Grammar

open Curried.Parser

/-- The number of a token, if it is finite. -/
def finiteNumber? (token : Token) : Option Float := token.value.number?.filter Float.isFinite

/-- A finite number. -/
def number : Parser Expression :=
  (((token Kind.number).filterMap finiteNumber? "finite number").noted fun value =>
    "number " ++ Number.format value).map .number

/-- A text between backticks. -/
def string : Parser Expression :=
  (((token Kind.string).map Token.text).noted fun content => "string " ++ content).map .string

/-- A word that stands for a constant. -/
def constant (word : String) (value : Expression) : Parser Expression :=
  ((keyword word).noted fun _ => "keyword " ++ word).map fun _ => value

/-- A list: `"[" (expression ("," expression)*)? "]"`. -/
def listLiteral (expression : Parser Expression) : Parser Expression :=
  recorded "list" <|
    (list expression (symbol ",") ((symbol "[").keepLeft whitespace) (symbol "]") true).map .list

/-- A literal, with the rule for the elements of a list. -/
def literal (expression : Parser Expression) : Parser Expression :=
  choice
    [ number,
      string,
      constant "true" (.boolean true),
      constant "false" (.boolean false),
      constant "null" .null,
      listLiteral expression ]

/-- A bare identifier, or an operator in parentheses that names the function behind it. -/
def prefixIdentifier : Parser String :=
  (bareIdentifier.or
    ((group operatorRun (symbol "(") (symbol ")")).map Expression.operatorName)).noted
      fun name => "identifier-prefix " ++ name

end Curried.Grammar
