import Curried.Parser

/-!
# Recursive rules

A rule that refers to itself is the limit of its unfoldings: unfolded `n` times it can enter itself
`n` times, and entering it once more exhausts the run.
-/

namespace Curried.Parser

variable {α : Type}

/-- The rule unfolded as often as the first number says, run with the second as bound on turns. -/
def unfolded (build : Parser α → Parser α) : Nat → Nat → State → Outcome α
  | 0, _, _ => .exhausted
  | entries + 1, turns, state => (build ⟨unfolded build entries⟩).run turns state

/-- The rule that is built from itself. -/
def recursive (build : Parser α → Parser α) : Parser α :=
  ⟨fun turns state => unfolded build turns turns state⟩

/-- The handle of a recursive rule outside of the rule: it always fails fatally. -/
def dangling : Parser α := fatal "a live recursive parser"

/-- Build a parser when it runs. -/
def deferred (build : Unit → Parser α) : Parser α :=
  ⟨fun turns state => (build ()).run turns state⟩

/-- Run a parser one nesting level deeper; more levels than `limit` are a fatal failure. -/
def nested (limit : Nat) (parser : Parser α) : Parser α :=
  ⟨fun turns state =>
    if limit ≤ state.depth then
      .error (state.fatal ("at most " ++ toString limit ++ " levels of nesting")) state
    else
      (parser.run turns { state with depth := state.depth + 1 }).mapState fun after =>
        { after with depth := after.depth - 1 }⟩

end Curried.Parser
