import Curried.Parser

/-!
# Repetition and lists

Loops over a parser.  Each turn of a loop is counted against the bound on turns of the run.
-/

namespace Curried.Parser

variable {α β γ δ : Type}

/-! ### Repetition -/

/-- Repeat a parser until it fails.  A success that takes no token is the last one. -/
def repeated (parser : Parser α) : Nat → Parser (List α)
  | 0 => exhausted
  | turns + 1 =>
      ⟨fun bound before =>
        (parser.optional.run bound before).andThen fun value after =>
          match value with
          | none => .ok [] after
          | some value =>
              if after.position = before.position then .ok [value] after
              else ((repeated parser turns).run bound after).map (value :: ·)⟩

/-- Zero or more times. -/
def many (parser : Parser α) : Parser (List α) := withTurns (repeated parser)

/-- One or more times: the first failure is passed on. -/
def manyOne (parser : Parser α) : Parser (List α) :=
  ⟨fun bound before =>
    (parser.attempt.run bound before).andThen fun value after =>
      if after.position = before.position then .ok [value] after
      else (parser.many.run bound after).map (value :: ·)⟩

/-- Repeat a parser; `mayBeEmpty` says whether zero times will do. -/
def repetition (parser : Parser α) (mayBeEmpty : Bool) : Parser (List α) :=
  if mayBeEmpty then parser.many else parser.manyOne

/-! ### Lists -/

/-- An entry of a list that keeps its delimiters. -/
inductive Interleaved (α δ : Type) where
  /-- An element. -/
  | item (value : α)
  /-- A delimiter between two elements. -/
  | delimiter (value : δ)

namespace Interleaved

/-- The value of an element. -/
def item? : Interleaved α δ → Option α
  | .item value => some value
  | .delimiter _ => none

end Interleaved

/-- Read `(delimiter element)*`: behind a delimiter an element has to follow. -/
def followers (element : Parser α) (delimiter : Parser δ) : Nat → Parser (List (Interleaved α δ))
  | 0 => exhausted
  | turns + 1 => do
      match ← delimiter.optional with
      | none => return []
      | some mark =>
          let value ← element
          let rest ← followers element delimiter turns
          return .delimiter mark :: .item value :: rest

/-- Read `element (delimiter element)*`, or nothing if that is allowed. -/
def interleaved (element : Parser α) (delimiter : Parser δ) (mayBeEmpty : Bool) :
    Parser (List (Interleaved α δ)) := do
  match ← if mayBeEmpty then element.optional else element.map some with
  | none => return []
  | some value =>
      let rest ← withTurns (followers element delimiter)
      return .item value :: rest

/-- Read `opening (element (delimiter element)*)? closing` and keep the delimiters. -/
def listWithDelimiters (element : Parser α) (delimiter : Parser δ) (opening : Parser β)
    (closing : Parser γ) (mayBeEmpty : Bool) : Parser (List (Interleaved α δ)) :=
  group (interleaved element delimiter mayBeEmpty) opening closing

/-- Read `opening (element (delimiter element)*)? closing` and keep only the elements. -/
def list (element : Parser α) (delimiter : Parser δ) (opening : Parser β) (closing : Parser γ)
    (mayBeEmpty : Bool) : Parser (List α) :=
  (listWithDelimiters element delimiter opening closing mayBeEmpty).map
    (List.filterMap Interleaved.item?)

end Curried.Parser
