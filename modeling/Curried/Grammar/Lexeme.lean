import Curried.Lexer.Standard
import Curried.Parser.Choice
import Curried.Parser.Repetition

/-!
# The smallest pieces of the grammar

White space, symbols, words and runs of operator symbols.  White space arrives as tokens and is
skipped here, around every rule that may be surrounded by it.
-/

namespace Curried.Grammar

open Curried.Parser

/-- Skip any number of white space tokens. -/
def whitespace : Parser Unit :=
  (choice [token Kind.space, token Kind.lineEnd, token Kind.otherBlank]).many.map fun _ => ()

/-- A parser with white space skipped on both sides. -/
def padded {α : Type} (parser : Parser α) : Parser α :=
  (whitespace.keepRight parser).keepLeft whitespace

/-- A single symbol. -/
def symbol (text : String) : Parser Token := tokenValue Kind.symbol (.text text)

/-- A given word. -/
def keyword (word : String) : Parser Token := tokenValue Kind.identifier (.text word)

/-- The arrow `->`, without white space inside. -/
def arrow : Parser Unit := ((symbol "-").pair (symbol ">")).map fun _ => ()

/-- Words that are no identifiers. -/
def keywords : List String := ["true", "false", "null", "let", "in"]

/-- A word that is no keyword. -/
def bareIdentifier : Parser String :=
  ((token Kind.identifier).map Token.text).verify (fun name => !keywords.contains name)
    Kind.identifier

/-- The characters that operators are made of. -/
def operatorSymbols : List Char := "!?&^-+*$/.=<>%|".toList

/-- One or more operator symbols, joined: `=`, `==`, `<=`, `|>`. -/
def operatorRun : Parser String :=
  (((token Kind.symbol).verify (fun token => token.text.toList.all operatorSymbols.contains)
    "operator").manyOne).map fun tokens => String.join (tokens.map Token.text)

end Curried.Grammar
