import Curried.Number.Text

/-!
# Tokens

A token is a piece of source text with the kind of the rule that cut it off, the value read from
it and the place where it starts.
-/

namespace Curried

/-- A place in a source text; lines and columns count from one. -/
structure Place where
  /-- Line number. -/
  line : Nat
  /-- Column number, in characters. -/
  column : Nat
deriving DecidableEq

namespace Place

/-- Where a text begins. -/
def start : Place := ⟨1, 1⟩

/-- The place behind one character. -/
def step (place : Place) (c : Char) : Place :=
  if c = '\n' then ⟨place.line + 1, 1⟩ else ⟨place.line, place.column + 1⟩

/-- The place behind a piece of text. -/
def advance (place : Place) (text : List Char) : Place :=
  text.foldl step place

@[simp]
theorem advance_nil (place : Place) : place.advance [] = place := rfl

/-- Advancing over two pieces of text is advancing over both in turn. -/
theorem advance_append (place : Place) (first second : List Char) :
    place.advance (first ++ second) = (place.advance first).advance second :=
  List.foldl_append

/-- A place as error messages show it. -/
def bracketed (place : Place) : String :=
  "[" ++ toString place.line ++ ":" ++ toString place.column ++ "]"

end Place

/-- The value that a token carries. -/
inductive TokenValue where
  /-- A text. -/
  | text (content : String)
  /-- A number. -/
  | number (value : Float)

namespace TokenValue

/-- The number of a numeric value. -/
def number? : TokenValue → Option Float
  | .number value => some value
  | .text _ => none

/-- A value as messages show it. -/
def display : TokenValue → String
  | .text content => content
  | .number value => Number.display value

/-- Equality of values: texts are compared exactly, numbers as doubles are. -/
def same : TokenValue → TokenValue → Bool
  | .text left, .text right => left == right
  | .number left, .number right => left == right
  | _, _ => false

instance : BEq TokenValue := ⟨same⟩

end TokenValue

/-- One token of a source text. -/
structure Token where
  /-- Name of the rule that produced the token. -/
  kind : String
  /-- The part of the text that the rule captures, or all of it. -/
  text : String
  /-- The whole text, exactly as it stands in the source. -/
  raw : String
  /-- The value read from the captured text. -/
  value : TokenValue
  /-- Where the token starts. -/
  place : Place

namespace Token

/-- A token as messages show it. -/
def describe (token : Token) : String :=
  token.kind ++ " " ++ token.value.display

/-- The source text of a list of tokens. -/
def source (tokens : List Token) : String :=
  String.join (tokens.map Token.raw)

end Token

end Curried
