import Curried.Parser

/-!
# Recording histories

Parsers that leave a trace of themselves in the history of the parse.
-/

namespace Curried.Parser

variable {α : Type}

/-- Record a parser as a history node, whether it succeeds or not. -/
def recorded (label : String) (parser : Parser α) : Parser α :=
  ⟨fun turns state => (parser.run turns (state.enter label)).mapState State.leave⟩

/-- Record a parser as a history node unless its value fails the test: then only the children of
the node stay. -/
def recordedWhen (label : String) (keep : α → Bool) (parser : Parser α) : Parser α :=
  ⟨fun turns state =>
    match parser.run turns (state.enter label) with
    | .ok value after => .ok value (if keep value then after.leave else after.leaveSpliced)
    | .error failure after => .error failure after.leave
    | .exhausted => .exhausted⟩

/-- Record the value of a parser as a leaf once it succeeds. -/
def noted (describe : α → String) (parser : Parser α) : Parser α := do
  let value ← parser
  note (describe value)
  return value

end Curried.Parser
