import Curried.Token

/-!
# Splitting text into tokens

A rule recognises a piece of text at the front of what is left of a source.  The rules stand in
a list, and the first one with a non-empty piece gives the next token: order decides, not length.
Nothing is skipped, so the raw texts of the tokens make up the source again.
-/

namespace Curried

/-- A piece of text at the front of another, given by its length. -/
structure Span where
  /-- Number of characters in the piece. -/
  length : Nat
  /-- The captured part of the piece, if the rule captures one. -/
  capture : Option (List Char)
deriving DecidableEq

/-- A rule for one kind of token. -/
structure Rule where
  /-- Name of the kind. -/
  kind : String
  /-- The piece that the rule takes off the front of a text. -/
  recognise : List Char → Option Span
  /-- How the captured text becomes a value; without it the value is the text itself. -/
  coerce : Option (String → TokenValue)

/-- Why a text has no tokens. -/
inductive LexError where
  /-- No rule takes a non-empty piece at `place`. -/
  | unknownToken (snippet : String) (place : Place)
  /-- The pattern of the rule called `name` cannot be read. -/
  | invalidRule (name : String)
deriving DecidableEq

namespace Rule

/-- The non-empty piece that the rule takes off the front of `rest`. -/
def piece? (rule : Rule) (rest : List Char) : Option { span : Span // 0 < span.length } :=
  (rule.recognise rest).bind fun span =>
    if nonempty : 0 < span.length then some ⟨span, nonempty⟩ else none

/-- The token made of a piece at the front of `rest`. -/
def token (rule : Rule) (span : Span) (rest : List Char) (place : Place) : Token :=
  let raw := rest.take span.length
  let text := String.ofList (span.capture.getD raw)
  { kind := rule.kind
    text := text
    raw := String.ofList raw
    value := match rule.coerce with
      | some coerce => coerce text
      | none => .text text
    place := place }

/-- The first rule of the list with a non-empty piece, and that piece. -/
def first? (rules : List Rule) (rest : List Char) :
    Option (Rule × { span : Span // 0 < span.length }) :=
  rules.findSome? fun rule => (rule.piece? rest).map (rule, ·)

end Rule

namespace LexError

/-- Longest snippet of source text in an error. -/
def snippetLength : Nat := 50

/-- The error for a text that no rule takes a piece of: it shows the rest of the line. -/
def unknownAt (rest : List Char) (place : Place) : LexError :=
  .unknownToken (String.ofList ((rest.takeWhile (· != '\n')).take snippetLength)) place

/-- The text of an error. -/
def message : LexError → String
  | .unknownToken snippet place => place.bracketed ++ " Unknown token at " ++ snippet
  | .invalidRule name => "invalid pattern for token rule '" ++ name ++ "'"

end LexError

/-- The tokens of `rest`, which starts at `place`. -/
def tokensFrom (rules : List Rule) (place : Place) (rest : List Char) :
    Except LexError (List Token) :=
  match rest with
  | [] => .ok []
  | c :: cs =>
      match Rule.first? rules (c :: cs) with
      | none => .error (.unknownAt (c :: cs) place)
      | some (rule, ⟨span, _⟩) =>
          let raw := (c :: cs).take span.length
          match tokensFrom rules (place.advance raw) ((c :: cs).drop span.length) with
          | .ok tokens => .ok (rule.token span (c :: cs) place :: tokens)
          | .error error => .error error
termination_by rest.length
decreasing_by simp only [List.length_drop, List.length_cons]; omega

/-- Split a source text into tokens. -/
def tokenize (rules : List Rule) (source : String) : Except LexError (List Token) :=
  tokensFrom rules .start source.toList

end Curried
