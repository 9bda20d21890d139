import Curried.Evaluation
import Curried.Grammar.Program

/-!
# Programs

From source text to expressions, with the history of the parse, and on to values.
-/

namespace Curried

/-- A failed parse as a user sees it. -/
structure SyntaxError where
  /-- What would have been accepted, in prose. -/
  expected : String
  /-- Where the parse failed; there is no place at the end of the input. -/
  place : Option Place
  /-- The whole text of the error. -/
  message : String
deriving DecidableEq

/-- A failure in the words for users. -/
def Failure.report (failure : Failure) : SyntaxError :=
  ⟨failure.expectation, failure.found.map Token.place, failure.message⟩

/-- Why a source text has no expression, or no value. -/
inductive ProgramError where
  /-- The text has no tokens. -/
  | lexical (error : LexError)
  /-- The tokens form no program. -/
  | grammatical (error : SyntaxError)
  /-- The parse needs more turns than it was given. -/
  | exhausted
  /-- The program has no value. -/
  | evaluation (error : EvaluationError)
deriving DecidableEq

namespace Parser

variable {α : Type}

/-- Run a parser on a list of tokens, with a bound on turns, and yield the history with the
value. -/
def parseTokens (parser : Parser α) (turns : Nat) (tokens : List Token) :
    Except ProgramError (α × History) :=
  match parser.run turns (.start tokens) with
  | .ok value state => .ok (value, state.trail.history)
  | .error failure _ => .error (.grammatical failure.report)
  | .exhausted => .error .exhausted

theorem parseTokens_eq_ok_iff {parser : Parser α} {turns : Nat} {tokens : List Token} {value : α}
    {history : History} : parser.parseTokens turns tokens = .ok (value, history) ↔
      ∃ after, parser.run turns (.start tokens) = .ok value after ∧
        after.trail.history = history := by
  unfold parseTokens
  cases parser.run turns (.start tokens) <;> simp [and_assoc]

end Parser

/-- Turns that a parse of a number of tokens can need: every turn takes a token, but for the
first and the last. -/
def turnsFor (tokens : List Token) : Nat := tokens.length + 2

/-- Parse a source text; the history tells the rules that the parse went through. -/
def parseWithHistory (source : String) : Except ProgramError (Expression × History) :=
  match tokenize Rule.standard source with
  | .ok tokens => Grammar.program.parseTokens (turnsFor tokens) tokens
  | .error error => .error (.lexical error)

theorem parseWithHistory_eq_ok_iff {source : String} {tree : Expression} {history : History} :
    parseWithHistory source = .ok (tree, history) ↔
      ∃ tokens, tokenize Rule.standard source = .ok tokens ∧
        Grammar.program.parseTokens (turnsFor tokens) tokens = .ok (tree, history) := by
  unfold parseWithHistory
  cases tokenize Rule.standard source <;> simp

/-- Parse a source text. -/
def parse (source : String) : Except ProgramError Expression :=
  (parseWithHistory source).map Prod.fst

/-- Parse a source text and evaluate the expression. -/
def evaluateSource (source : String) (environment : Environment) : Except ProgramError Value := do
  let expression ← parse source
  match expression.evaluate environment with
  | .ok value => return value
  | .error error => .error (.evaluation error)

end Curried
