import Curried.Lexer
import Curried.Number.Reader
import Curried.Text.Blank

/-!
# The token rules of the expression language

Numbers stand before symbols, so `-1` is one number, while `- 1` is a symbol and a number.
White space is kept: a run of spaces, a run of line ends, or one other blank character.
-/

namespace Curried

/-! ### Names of the kinds of token -/

namespace Kind

/-- A run of spaces. -/
def space : String := "white-space-space"

/-- A run of line ends. -/
def lineEnd : String := "white-space-endline"

/-- One blank character of another sort. -/
def otherBlank : String := "white-space-other"

/-- A number. -/
def number : String := "number"

/-- A text in backticks. -/
def string : String := "string"

/-- A word. -/
def identifier : String := "identifier"

/-- A single symbol. -/
def symbol : String := "symbol"

end Kind

namespace Rule

/-- The non-empty run of characters that pass a test. -/
def run (test : Char → Bool) (rest : List Char) : Option Span :=
  match (rest.takeWhile test).length with
  | 0 => none
  | length => some ⟨length, none⟩

/-- One character that passes a test. -/
def single (test : Char → Bool) : List Char → Option Span
  | [] => none
  | c :: _ => if test c then some ⟨1, none⟩ else none

/-- Length of the whole part at the front of a text: a lone zero, or digits that start with
another one. -/
def wholeLength : List Char → Nat
  | [] => 0
  | c :: rest =>
      if c = '0' then 1
      else if c.isDigit then 1 + (rest.takeWhile Char.isDigit).length
      else 0

/-- Length of the point and fraction digits at the front of a text. -/
def fractionLength : List Char → Nat
  | '.' :: rest =>
      match (rest.takeWhile Char.isDigit).length with
      | 0 => 0
      | digits => 1 + digits
  | _ => 0

/-- A decimal number without exponent, with a minus sign directly before it or none. -/
def numeral (rest : List Char) : Option Span :=
  let sign := if rest.head? == some '-' then 1 else 0
  match wholeLength (rest.drop sign) with
  | 0 => none
  | whole =>
      let fraction := fractionLength ((rest.drop sign).drop whole)
      some ⟨sign + whole + fraction, none⟩

/-- A backtick, which opens and closes a text. -/
def quote : Char := '\x60'

/-- A text between two backticks, captured without them. -/
def quoted : List Char → Option Span
  | [] => none
  | c :: rest =>
      let content := rest.takeWhile (· != quote)
      if c = quote ∧ content.length < rest.length then
        some ⟨content.length + 2, some content⟩
      else none

/-- Whether a character may start a word. -/
def startsWord (c : Char) : Bool := c.isAlpha || c == '_'

/-- Whether a character may go on in a word. -/
def continuesWord (c : Char) : Bool := c.isAlphanum || c == '_'

/-- A word of letters, digits and underscores that starts with no digit. -/
def word : List Char → Option Span
  | [] => none
  | c :: rest =>
      if startsWord c then some ⟨1 + (rest.takeWhile continuesWord).length, none⟩ else none

/-- The symbols of the language. -/
def symbols : List Char :=
  ['[', ']', '(', ')', '\x7b', '\x7d', '!', '?', '&', '^', '-', '+', '*', '$', '\\', '/', ',',
   '.', '=', '<', '>', ':', ';', '%', '|']

/-- A numeral becomes its number. -/
def numberValue (text : String) : TokenValue :=
  match Number.read? text with
  | some number => .number number
  | none => .text text

/-- The rules of the expression language, in order. -/
def standard : List Rule :=
  [ ⟨Kind.space, run (· == ' '), none⟩,
    ⟨Kind.lineEnd, run (· == '\n'), none⟩,
    ⟨Kind.otherBlank, single Text.isBlank, none⟩,
    ⟨Kind.number, numeral, some numberValue⟩,
    ⟨Kind.string, quoted, none⟩,
    ⟨Kind.identifier, word, none⟩,
    ⟨Kind.symbol, single symbols.contains, none⟩ ]

end Rule

end Curried
