import Curried.Parser

/-!
# Ordered choice

The alternatives are attempted in order and the first success counts.  If all of them fail, the
failures that got furthest are reported together.
-/

namespace Curried.Parser

variable {α : Type}

/-- Attempt alternatives in order, after the ones that failed with `failures`.  A success
remembers the furthest of them, and a fatal failure ends the choice. -/
def alternatives : List (Parser α) → List Failure → Parser α
  | [], failures =>
      ⟨fun _ state => .error ((Failure.deepest failures).getD (state.failure "nothing")) state⟩
  | parser :: others, failures =>
      ⟨fun turns state =>
        match parser.attempt.run turns state with
        | .ok value after =>
            match Failure.deepest failures with
            | some failure => .ok value (after.remember failure)
            | none => .ok value after
        | .error failure after =>
            if failure.fatal then .error failure after
            else (alternatives others (failures ++ [failure])).run turns after
        | .exhausted => .exhausted⟩

/-- Ordered choice.  A single alternative runs as it is. -/
def choice : List (Parser α) → Parser α
  | [only] => only
  | parsers => alternatives parsers []

/-- Try a parser and, if it fails, another one. -/
def or (first second : Parser α) : Parser α := choice [first, second]

end Curried.Parser
