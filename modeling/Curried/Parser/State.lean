import Curried.History
import Curried.Token

/-!
# States and failures of a parse

A state holds the tokens still ahead, how deep the parse is nested, the trail of open history
nodes and the furthest failure that was passed over so far.  A failure holds what was expected
and a picture of where the parse stood.  The furthest failure only ever replaces a report that
got less far, so it changes what is said about a failure, never whether there is one.
-/

namespace Curried

/-- How far a parse has come in its tokens. -/
structure Input where
  /-- Number of tokens behind. -/
  position : Nat
  /-- The tokens ahead. -/
  rest : List Token
deriving Inhabited

/-- A failed parse. -/
structure Failure where
  /-- The alternatives that would have been accepted. -/
  expected : List String
  /-- Where the parse stood. -/
  input : Input
  /-- The history at that point. -/
  trail : Trail
  /-- A fatal failure ends the whole parse: no alternative is tried after it. -/
  fatal : Bool
deriving Inhabited

/-- The state of a parse. -/
structure State where
  /-- The tokens behind and ahead. -/
  input : Input
  /-- Number of nesting levels around the current rule. -/
  depth : Nat
  /-- The furthest failure that the parse carried on from. -/
  furthest : Option Failure
  /-- The history recorded so far. -/
  trail : Trail

namespace Input

/-- Number of tokens ahead. -/
def remaining (input : Input) : Nat := input.rest.length

/-- The input behind its next token. -/
def advance (input : Input) : Input := ⟨input.position + 1, input.rest.tail⟩

end Input

namespace Failure

/-- Number of tokens that were left at the point of failure. -/
def remaining (failure : Failure) : Nat := failure.input.remaining

/-- The token at the point of failure; there is none at the end of the input. -/
def found (failure : Failure) : Option Token := failure.input.rest.head?

/-- The same failure under another description.  A fatal failure keeps its own. -/
def relabel (failure : Failure) (label : String) : Failure :=
  if failure.fatal then failure else { failure with expected := [label] }

/-- Add the alternatives of another failure that are not listed yet. -/
def merge (failure other : Failure) : Failure :=
  { failure with
    expected := other.expected.foldl
      (fun known label => if known.contains label then known else known ++ [label])
      failure.expected }

/-- Alternatives in prose: `a, b or c`. -/
def joinAlternatives : List String → String
  | [] => ""
  | [only] => only
  | [first, last] => first ++ " or " ++ last
  | first :: others => first ++ ", " ++ joinAlternatives others

/-- What would have been accepted, in prose. -/
def expectation (failure : Failure) : String := joinAlternatives failure.expected

/-- The text of a failure: what was found, where, and what would have been accepted. -/
def message (failure : Failure) : String :=
  match failure.found with
  | some token =>
      token.place.bracketed ++ " Unexpected " ++ token.describe ++
        " expected " ++ failure.expectation
  | none => "Unexpected EOF expected " ++ failure.expectation

/-- The failures with the fewest tokens left, merged into the first of them. -/
def deepest (failures : List Failure) : Option Failure :=
  match (failures.map remaining).min? with
  | none => none
  | some fewest =>
      match failures.filter fun failure => failure.remaining == fewest with
      | [] => none
      | first :: others => some (others.foldl merge first)

end Failure

namespace State

/-- The state before the first token. -/
def start (tokens : List Token) : State := ⟨⟨0, tokens⟩, 0, none, .root⟩

/-- Number of tokens behind. -/
def position (state : State) : Nat := state.input.position

/-- Number of tokens ahead. -/
def remaining (state : State) : Nat := state.input.remaining

/-- The next token. -/
def peek (state : State) : Option Token := state.input.rest.head?

/-- The state behind the next token. -/
def advance (state : State) : State := { state with input := state.input.advance }

/-- A new failure at this state. -/
def failureHere (state : State) (expected : String) (fatal : Bool) : Failure :=
  ⟨[expected], state.input, state.trail, fatal⟩

/-- A failure that no alternative recovers from. -/
def fatal (state : State) (expected : String) : Failure := state.failureHere expected true

/-- The failure to report at this state: the furthest one if it got further than this state, and
otherwise a new one. -/
def failure (state : State) (expected : String) : Failure :=
  match state.furthest with
  | some furthest =>
      if furthest.remaining < state.remaining then furthest else state.failureHere expected false
  | none => state.failureHere expected false

/-- Keep a failure for later reports if it got further than any before. -/
def remember (state : State) (failure : Failure) : State :=
  match state.furthest with
  | some furthest =>
      if failure.remaining < furthest.remaining then { state with furthest := some failure }
      else state
  | none => { state with furthest := some failure }

/-- Open a history node inside the current one. -/
def enter (state : State) (label : String) : State :=
  { state with trail := state.trail.enter label }

/-- Close the current history node. -/
def leave (state : State) : State := { state with trail := state.trail.leave }

/-- Close the current history node and hand its children to the node around it. -/
def leaveSpliced (state : State) : State := { state with trail := state.trail.leaveSpliced }

/-- Record a leaf in the history. -/
def note (state : State) (label : String) : State := { state with trail := state.trail.note label }

end State

end Curried
