import Curried.Parser.State

/-!
# Parsers

A parser runs on a state and either yields a value with a later state, or fails.  Every
combinator that can fail after it took tokens runs as a transaction, which puts the state back.

Loops and recursive rules are bounded by a number of turns that a run is given.  A run that needs
more turns ends as `exhausted`, which is neither success nor failure; a number at least as large
as the input is long is enough for grammars that take a token on every turn.
-/

namespace Curried

/-- How a run of a parser ends. -/
inductive Outcome (α : Type) where
  /-- The parser yields a value. -/
  | ok (value : α) (state : State)
  /-- The parser fails and leaves a state. -/
  | error (failure : Failure) (state : State)
  /-- The run needs more turns than it was given. -/
  | exhausted

/-- A parser for values of type `α`. -/
structure Parser (α : Type) where
  /-- Run with a bound on turns, from a state. -/
  run : Nat → State → Outcome α

namespace Outcome

variable {α β : Type}

/-- Apply a function to the value. -/
def map (f : α → β) : Outcome α → Outcome β
  | .ok value state => .ok (f value) state
  | .error failure state => .error failure state
  | .exhausted => .exhausted

/-- Go on with the value and the state of a success. -/
def andThen (outcome : Outcome α) (next : α → State → Outcome β) : Outcome β :=
  match outcome with
  | .ok value state => next value state
  | .error failure state => .error failure state
  | .exhausted => .exhausted

/-- Change the state, however the run ended. -/
def mapState (f : State → State) : Outcome α → Outcome α
  | .ok value state => .ok value (f state)
  | .error failure state => .error failure (f state)
  | .exhausted => .exhausted

end Outcome

namespace Parser

variable {α β γ : Type}

/-! ### Running one after the other -/

/-- Yield a value and leave the state alone. -/
def pure (value : α) : Parser α := ⟨fun _ state => .ok value state⟩

/-- Run a parser and then the one made from its value, without a transaction around the two. -/
def bind (parser : Parser α) (next : α → Parser β) : Parser β :=
  ⟨fun turns state =>
    (parser.run turns state).andThen fun value after => (next value).run turns after⟩

instance : Monad Parser where
  pure := pure
  bind := bind

/-- A parser that may use the bound on turns. -/
def withTurns (parser : Nat → Parser α) : Parser α :=
  ⟨fun turns state => (parser turns).run turns state⟩

/-- The run that needs more turns than there are. -/
def exhausted : Parser α := ⟨fun _ _ => .exhausted⟩

/-- Fail with the failure to report at the current state. -/
def fail (expected : String) : Parser α :=
  ⟨fun _ state => .error (state.failure expected) state⟩

/-- Fail so that no alternative is tried. -/
def fatal (expected : String) : Parser α :=
  ⟨fun _ state => .error (state.fatal expected) state⟩

/-- Record a leaf in the history. -/
def note (label : String) : Parser Unit := ⟨fun _ state => .ok () (state.note label)⟩

/-! ### Transactions -/

/-- Run a parser on a copy of the state: a failure leaves the state as it was. -/
def attempt (parser : Parser α) : Parser α :=
  ⟨fun turns state =>
    match parser.run turns state with
    | .ok value after => .ok value after
    | .error failure _ => .error failure state
    | .exhausted => .exhausted⟩

/-- Attempt a parser and carry on without its value if it fails.  The failure is remembered for
later reports; a fatal one is passed on. -/
def optional (parser : Parser α) : Parser (Option α) :=
  ⟨fun turns state =>
    match parser.attempt.run turns state with
    | .ok value after => .ok (some value) after
    | .error failure after =>
        if failure.fatal then .error failure after else .ok none (after.remember failure)
    | .exhausted => .exhausted⟩

/-! ### Single tokens -/

/-- Take the next token if it passes a test. -/
def satisfy (test : Token → Bool) (expected : String) : Parser Token :=
  ⟨fun _ state =>
    match state.peek with
    | some token =>
        if test token then .ok token state.advance
        else .error (state.failure expected) state
    | none => .error (state.failure expected) state⟩

/-- Take one token of a kind. -/
def token (kind : String) : Parser Token := satisfy (fun token => token.kind == kind) kind

/-- Take one token of a kind that carries a given value. -/
def tokenValue (kind : String) (value : TokenValue) : Parser Token :=
  satisfy (fun token => token.kind == kind && token.value == value) value.display

/-- Succeed without taking a token. -/
def nothing : Parser Unit := pure ()

/-- Succeed only when no token is left. -/
def endOfInput : Parser Unit :=
  ⟨fun _ state =>
    match state.peek with
    | some _ => .error (state.failure "EOF") state
    | none => .ok () state⟩

/-! ### Values -/

/-- Apply a function to the value of a parser. -/
def map (f : α → β) (parser : Parser α) : Parser β :=
  ⟨fun turns state => (parser.run turns state).map f⟩

/-- Take one token of a kind and yield its value. -/
def valueOf (kind : String) : Parser TokenValue := (token kind).map Token.value

/-- Turn the value into another one, or refuse it: the failure is then reported where the parser
started. -/
def filterMap (f : α → Option β) (expected : String) (parser : Parser α) : Parser β :=
  ⟨fun turns start =>
    match parser.run turns start with
    | .ok value after =>
        match f value with
        | some result => .ok result after
        | none => .error (start.failure expected) start
    | .error failure _ => .error failure start
    | .exhausted => .exhausted⟩

/-- Refuse values that fail a test. -/
def verify (test : α → Bool) (expected : String) (parser : Parser α) : Parser α :=
  parser.filterMap (fun value => if test value then some value else none) expected

/-- Describe the failures of a parser by a label of its own. -/
def label (name : String) (parser : Parser α) : Parser α :=
  ⟨fun turns state =>
    match parser.run turns state with
    | .ok value after => .ok value after
    | .error failure after => .error (failure.relabel name) after
    | .exhausted => .exhausted⟩

/-! ### Sequences -/

/-- Run two parsers and yield both values. -/
def pair (first : Parser α) (second : Parser β) : Parser (α × β) :=
  attempt do
    let left ← first
    let right ← second
    return (left, right)

/-- Run two parsers and keep the first value. -/
def keepLeft (first : Parser α) (second : Parser β) : Parser α := (first.pair second).map Prod.fst

/-- Run two parsers and keep the second value. -/
def keepRight (first : Parser α) (second : Parser β) : Parser β := (first.pair second).map Prod.snd

/-- Run parsers in order, without a transaction around them. -/
def inOrder : List (Parser α) → Parser (List α)
  | [] => pure []
  | parser :: others => do
      let value ← parser
      let values ← inOrder others
      return value :: values

/-- Run all parsers in order, or take nothing. -/
def sequence (parsers : List (Parser α)) : Parser (List α) := (inOrder parsers).attempt

/-- Run `opening inner closing` and keep the value of `inner`. -/
def group (inner : Parser α) (opening : Parser β) (closing : Parser γ) : Parser α :=
  (opening.keepRight inner).keepLeft closing

end Parser

end Curried
