import Curried.Proofs.Grammar.Rules
import Curried.Proofs.Parser.Position

/-!
# The grammar is built from the combinators

So whatever holds of all parsers that are built from the combinators holds of every rule of the
grammar, with or without a nesting limit.
-/

namespace Curried.Grammar

open Curried.Parser

variable {type : Parser TypeExpression} {expression : Parser Expression} [Built type]
  [Built expression]

/-! ### Lexemes and literals -/

instance (spelling : String) : Built (symbol spelling) := by unfold symbol; infer_instance

instance (word : String) : Built (keyword word) := by unfold keyword; infer_instance

instance : Built whitespace := by unfold whitespace; infer_instance

instance {α : Type} {parser : Parser α} [Built parser] : Built (padded parser) := by
  unfold padded
  infer_instance

instance : Built arrow := by unfold arrow; infer_instance

instance : Built bareIdentifier := by unfold bareIdentifier; infer_instance

instance : Built operatorRun := by unfold operatorRun; infer_instance

instance : Built number := by unfold number; infer_instance

instance : Built string := by unfold string; infer_instance

instance (word : String) (value : Expression) : Built (constant word value) := by
  unfold constant
  infer_instance

instance : Built (listLiteral expression) := by unfold listLiteral; infer_instance

instance : Built (literal expression) := by unfold literal; infer_instance

instance : Built prefixIdentifier := by unfold prefixIdentifier; infer_instance

/-! ### Types and expressions -/

instance : Built (typeAtom type) := by unfold typeAtom; infer_instance

instance : Built (typeRule type) := by unfold typeRule; infer_instance

instance : Built (groupExpression expression) := by unfold groupExpression; infer_instance

instance : Built (letExpression expression) := by unfold letExpression; infer_instance

instance : Built (functionExpression type expression) := by
  unfold functionExpression
  infer_instance

instance : Built (atom type expression) := by unfold atom; infer_instance

instance : Built (application type expression) := by unfold application; infer_instance

instance (precedence : Nat) : Built (infixIdentifier precedence) := by
  unfold infixIdentifier
  infer_instance

instance : Built (operatorChain type expression) := by
  have operators : ∀ operator ∈ [1, 2, 3, 4].map operatorsOf, Built operator.parser := by
    intro operator member
    obtain ⟨precedence, _, rfl⟩ := List.mem_map.1 member
    exact (inferInstance : Built (infixIdentifier precedence))
  exact .recordedWhen _ _ (.binary inferInstance operators)

instance : Built (expressionRule type expression) := by unfold expressionRule; infer_instance

instance {α : Type} {parser : Parser α} [Built parser] (limit : Option Nat) :
    Built (bounded limit parser) := by
  cases limit with
  | none => exact (inferInstance : Built parser)
  | some limit => exact (inferInstance : Built (nested limit parser))

instance (limit : Option Nat) : Built (typeUpTo limit) :=
  Built.recursive_of_keeps fun _ _ => inferInstance

instance (limit : Option Nat) : Built (expressionUpTo limit) :=
  Built.recursive_of_keeps fun _ _ => inferInstance

theorem built_program (limit : Option Nat) : Built (programUpTo limit) :=
  .map _ (.pair inferInstance inferInstance)

/-- A parse that fails, but not fatally, is left where it started. -/
theorem position_of_failed_program {limit : Option Nat} {turns : Nat} {state after : State}
    {failure : Failure} (fails : (programUpTo limit).run turns state = .error failure after)
    (mild : failure.fatal = false) : after.position = state.position :=
  (built_program limit).position_of_mild fails mild

end Curried.Grammar
