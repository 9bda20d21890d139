import Curried.Proofs.Grammar.Rules
import Curried.Proofs.Parser.Enough

/-!
# Every program is decided

A rule of the grammar is entered again only behind a token.  So the turns that a parse is given are
enough, with a nesting limit and without one, and no parse is exhausted.
-/

namespace Curried.Grammar

open Curried.Parser

/-! ### Progress -/

instance (spelling : String) : Progresses (symbol spelling) := by unfold symbol; infer_instance

instance (word : String) : Progresses (keyword word) := by unfold keyword; infer_instance

instance : Progresses operatorRun := by unfold operatorRun; infer_instance

instance (precedence : Nat) : Progresses (infixIdentifier precedence) := by
  unfold infixIdentifier; infer_instance

instance : Progresses infixOperator := by
  rw [infixOperator_eq]; unfold alternative; infer_instance

instance : Progresses arrow := by unfold arrow; infer_instance

instance : Progresses binding := by unfold binding; infer_instance

instance (type : Parser TypeExpression) [Blind type] : Progresses (head type) := by
  unfold head; infer_instance

/-! ### Enough turns -/

section
variable {turns bound : Nat} {type : Parser TypeExpression} {expression : Parser Expression}
  [Blind type] [Blind expression] [Enough turns bound expression]

instance (spelling : String) : Enough turns bound (symbol spelling) := by
  unfold symbol; infer_instance

instance (word : String) : Enough turns bound (keyword word) := by unfold keyword; infer_instance

instance : Enough turns bound whitespace := by unfold whitespace; infer_instance

instance {α : Type} {parser : Parser α} [Blind parser] [Enough turns bound parser] :
    Enough turns bound (padded parser) := by
  unfold padded; infer_instance

instance {α : Type} {parser : Parser α} [Blind parser] [Enough turns bound parser]
    (limit : Option Nat) : Enough turns bound (bounded limit parser) := by
  cases limit with
  | none => exact (inferInstance : Enough turns bound parser)
  | some limit => exact (inferInstance : Enough turns bound (nested limit parser))

instance : Enough turns bound arrow := by unfold arrow; infer_instance

instance : Enough turns bound bareIdentifier := by unfold bareIdentifier; infer_instance

instance : Enough turns bound operatorRun := by unfold operatorRun; infer_instance

instance (precedence : Nat) : Enough turns bound (infixIdentifier precedence) := by
  unfold infixIdentifier; infer_instance

instance : Enough turns bound infixOperator := by
  rw [infixOperator_eq]; unfold alternative; infer_instance

instance : Enough turns bound prefixIdentifier := by unfold prefixIdentifier; infer_instance

instance : Enough turns (bound + 1) (listLiteral expression) := by
  unfold listLiteral; infer_instance

instance : Enough turns (bound + 1) (literal expression) := by
  unfold literal number string constant; infer_instance

instance : Enough turns (bound + 1) (groupExpression expression) := by
  unfold groupExpression; infer_instance

instance : Enough turns bound binding := by unfold binding; infer_instance

instance : Enough turns (bound + 1) (letParts expression) := by unfold letParts; infer_instance

instance : Enough turns (bound + 1) (letExpression expression) := by
  rw [letExpression_eq]; infer_instance

instance [Enough turns bound type] : Enough turns bound (parameterType type) := by
  unfold parameterType; infer_instance

instance [Enough turns bound type] : Enough turns bound (head type) := by
  unfold head; infer_instance

variable [Enough turns (bound + 1) type]

instance : Enough turns (bound + 1) (functionExpression type expression) := by
  rw [functionExpression_eq]; infer_instance

instance : Enough turns (bound + 1) (core type expression) := by unfold core; infer_instance

instance : Enough turns (bound + 1) (atom type expression) := by rw [atom_eq]; infer_instance

instance : Enough turns (bound + 1) (application type expression) := by
  unfold application; infer_instance

instance : Enough turns (bound + 1) (operatorChain type expression) := by
  have operators : Enough turns (bound + 1) (operatorOf ([1, 2, 3, 4].map operatorsOf)) :=
    (inferInstance : Enough turns (bound + 1) infixOperator)
  have progress : Progresses (operatorOf ([1, 2, 3, 4].map operatorsOf)) :=
    (inferInstance : Progresses infixOperator)
  have chain : Enough turns (bound + 1)
    (binary (application type expression) ([1, 2, 3, 4].map operatorsOf)) := .binary
  unfold operatorChain
  infer_instance

instance : Enough turns (bound + 1) (expressionRule type expression) := by
  unfold expressionRule; infer_instance

end

instance {turns bound : Nat} {type : Parser TypeExpression} [Blind type]
    [Enough turns bound type] : Enough turns (bound + 1) (typeAtom type) := by
  unfold typeAtom; infer_instance

instance {turns bound : Nat} {type : Parser TypeExpression} [Blind type]
    [Enough turns bound type] : Enough turns (bound + 1) (typeRule type) := by
  unfold typeRule; infer_instance

theorem enough_typeUpTo (limit : Option Nat) (turns : Nat) :
    Enough turns turns (typeUpTo limit) := by
  have rules : Enough turns turns (entering (typeStep limit) turns) := by
    refine .entering (fun self bound _ _ => ?_) turns
    exact inferInstanceAs (Enough turns (bound + 1) (typeRule (bounded limit self)))
  exact ⟨rules.decided⟩

theorem enough_expressionUpTo (limit : Option Nat) (turns : Nat) :
    Enough turns turns (expressionUpTo limit) := by
  have rules : Enough turns turns (entering (expressionStep limit) turns) := by
    refine .entering (fun self bound _ _ => ⟨fun few => ?_⟩) turns
    have types : Enough turns (bound + 1) (typeUpTo limit) :=
      (enough_typeUpTo limit turns).mono (Nat.le_refl _) few
    have rule : Enough turns (bound + 1)
      (expressionRule (typeUpTo limit) (bounded limit self)) := inferInstance
    exact rule.decided few
  exact ⟨rules.decided⟩

/-- A parse that is given more turns than there are tokens is not exhausted. -/
theorem program_decided (limit : Option Nat) {turns depth : Nat} {tokens : List Token}
    (few : tokens.length < turns) : ((programUpTo limit).read turns depth tokens).Decided := by
  have rule := enough_expressionUpTo limit turns
  have whole : Enough turns turns ((expressionUpTo limit).keepLeft endOfInput) := inferInstance
  exact whole.decided (Nat.le_refl _) depth tokens few

end Curried.Grammar
