import Curried.Proofs.Grammar.Decided
import Curried.Proofs.Parser.Reentry

/-!
# The grammar enters itself only behind tokens

Parentheses, brackets, `let`, `in`, the arrow of a function and the comma of a list: wherever an
expression stands inside an expression, or a type inside a type, tokens have been taken before.  So
the rules run the same whatever entries do that start no later than the entry around them, and
entries are never inside each other more often than there are tokens, and once.
-/

namespace Curried.Grammar

open Curried.Parser

/-- A type annotation under a nesting limit, where entries that start no later than the entry
around them, or that are inside more than so many others, go astray. -/
def watchedType (limit : Nat) (stray : Parser TypeExpression) (entries : Nat) :
    Parser TypeExpression :=
  ascending stray (fun type => typeRule (nested limit type)) entries

/-- An expression under a nesting limit, where such entries go astray. -/
def watchedExpression (limit : Nat) (strayType : Parser TypeExpression) (stray : Parser Expression)
    (entries : Nat) : Parser Expression :=
  ascending stray
    (fun self => expressionRule (watchedType limit strayType entries) (nested limit self)) entries

/-! ### The rules run alike with handles that run alike behind a token -/

section
variable {total position : Nat} {type type' : Parser TypeExpression}
  {expression expression' : Parser Expression} [Blind type] [Blind expression]

instance {α : Type} {parser parser' : Parser α} [Blind parser]
    [SameFrom total position parser parser'] :
    SameFrom total position (padded parser) (padded parser') := by
  unfold padded; infer_instance

section
variable [SameFrom total (position + 1) type type']

instance : SameFrom total position (typeAtom type) (typeAtom type') := by
  unfold typeAtom; infer_instance

instance : SameFrom total position (typeRule type) (typeRule type') := by
  unfold typeRule; infer_instance

end

section
variable [SameFrom total (position + 1) expression expression']

instance : SameFrom total position (listLiteral expression) (listLiteral expression') := by
  unfold listLiteral; infer_instance

instance : SameFrom total position (literal expression) (literal expression') := by
  unfold literal; infer_instance

instance : SameFrom total position (groupExpression expression) (groupExpression expression') := by
  unfold groupExpression; infer_instance

instance : SameFrom total position (letParts expression) (letParts expression') := by
  unfold letParts; infer_instance

instance : SameFrom total position (letExpression expression) (letExpression expression') := by
  rw [letExpression_eq, letExpression_eq]; infer_instance

variable [∀ position, SameFrom total position type type']

instance (place : Nat) : SameFrom total place (parameterType type) (parameterType type') := by
  unfold parameterType; infer_instance

instance : SameFrom total position (head type) (head type') := by unfold head; infer_instance

instance : SameFrom total position (functionExpression type expression)
    (functionExpression type' expression') := by
  rw [functionExpression_eq, functionExpression_eq]; infer_instance

instance : SameFrom total position (atom type expression) (atom type' expression') := by
  unfold atom; infer_instance

instance : SameFrom total position (application type expression)
    (application type' expression') := by
  unfold application; infer_instance

instance : SameFrom total position (operatorChain type expression)
    (operatorChain type' expression') := by
  have chain : SameFrom total position
    (binary (application type expression) ([1, 2, 3, 4].map operatorsOf))
    (binary (application type' expression') ([1, 2, 3, 4].map operatorsOf)) := .binary
  unfold operatorChain
  infer_instance

instance : SameFrom total position (expressionRule type expression)
    (expressionRule type' expression') := by
  unfold expressionRule; infer_instance

end

end

/-! ### Watched rules -/

variable {total position : Nat}

theorem sameFrom_watchedType (limit : Nat) (stray : Parser TypeExpression) :
    SameFrom total position (typeUpTo (some limit)) (watchedType limit stray (total + 1)) := by
  show SameFrom total position (recursive (typeStep (some limit))) _
  refine .recursive stray ?_
  intro position self self' _ alike
  exact inferInstanceAs (SameFrom total position (typeRule (nested limit self))
    (typeRule (nested limit self')))

theorem sameFrom_watchedExpression (limit : Nat) (strayType : Parser TypeExpression)
    (stray : Parser Expression) :
    SameFrom total position (expressionUpTo (some limit))
      (watchedExpression limit strayType stray (total + 1)) := by
  show SameFrom total position (recursive (expressionStep (some limit))) _
  refine .recursive stray ?_
  intro position self self' _ alike
  have types (position : Nat) : SameFrom total position (typeUpTo (some limit))
      (watchedType limit strayType (total + 1)) := sameFrom_watchedType limit strayType
  exact inferInstanceAs (SameFrom total position
    (expressionRule (typeUpTo (some limit)) (nested limit self))
    (expressionRule (watchedType limit strayType (total + 1)) (nested limit self')))

/-- A program is parsed the same, under any nesting limit, if each expression inside an expression
and each type inside a type has to start strictly behind the one around it and if no more of them
than there are tokens, and one, may be inside each other, whatever happens where one does not: also
if the whole parse were given up there.  And every parse comes to an end. -/
theorem program_ascends (limit : Nat) (tokens : List Token) {turns : Nat}
    (enough : tokens.length < turns) (strayType : Parser TypeExpression)
    (stray : Parser Expression) :
    ((watchedExpression limit strayType stray (tokens.length + 1)).keepLeft endOfInput).run turns
        (.start tokens) =
      ((expressionWithin limit).keepLeft endOfInput).run turns (.start tokens) ∧
    ((expressionWithin limit).keepLeft endOfInput).run turns (.start tokens) ≠ .exhausted := by
  constructor
  · have expressions : SameFrom tokens.length 0 (expressionUpTo (some limit))
        (watchedExpression limit strayType stray (tokens.length + 1)) :=
      sameFrom_watchedExpression limit strayType stray
    have programs : SameFrom tokens.length 0 ((expressionUpTo (some limit)).keepLeft endOfInput)
        ((watchedExpression limit strayType stray (tokens.length + 1)).keepLeft endOfInput) :=
      inferInstance
    exact programs.run_eq turns _ enough (.start tokens)
  · intro runs_out
    have decided : ((programUpTo (some limit)).read turns 0 tokens).Decided :=
      program_decided (some limit) enough
    apply decided
    show (((expressionWithin limit).keepLeft endOfInput).run turns (.start tokens)).verdict = _
    rw [runs_out]
    rfl

/-- A function with a type in parentheses for its parameter and a group for its body, `\f((t))->(f)`
without white space: giving up at every stray entry changes nothing. -/
theorem program_ascends_function :
    let lexeme (kind spelling : String) : Token := ⟨kind, spelling, spelling, .text spelling, .start⟩
    let tokens := [lexeme Kind.symbol "\\", lexeme Kind.identifier "f", lexeme Kind.symbol "(",
      lexeme Kind.symbol "(", lexeme Kind.identifier "t", lexeme Kind.symbol ")",
      lexeme Kind.symbol ")", lexeme Kind.symbol "-", lexeme Kind.symbol ">",
      lexeme Kind.symbol "(", lexeme Kind.identifier "f", lexeme Kind.symbol ")"]
    tokens.length < 13 ∧
    ((watchedExpression 1 exhausted exhausted (tokens.length + 1)).keepLeft endOfInput).run 13
        (.start tokens) =
      ((expressionWithin 1).keepLeft endOfInput).run 13 (.start tokens) ∧
    ((expressionWithin 1).keepLeft endOfInput).run 13 (.start tokens) ≠ .exhausted := by
  intro lexeme tokens
  have few : tokens.length < 13 := Nat.lt_succ_self 12
  exact ⟨few, program_ascends 1 tokens few exhausted exhausted⟩

end Curried.Grammar
