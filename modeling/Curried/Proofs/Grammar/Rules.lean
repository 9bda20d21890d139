import Curried.Proofs.Grammar.Lexeme
import Curried.Proofs.Parser.Until

/-!
# The grammar with and without a nesting limit

The rules of the grammar under a limit that may be missing.  A rule that can be entered more often,
from a smaller depth or under no limit at all agrees with the original one until that is stopped.
-/

namespace Curried.Grammar

open Curried.Parser

/-- A parser one nesting level deeper, if levels are counted at all. -/
def bounded {α : Type} (limit : Option Nat) (parser : Parser α) : Parser α :=
  match limit with
  | some limit => nested limit parser
  | none => parser

/-- A type annotation under a nesting limit, or without one. -/
def typeUpTo (limit : Option Nat) : Parser TypeExpression :=
  recursive fun type => typeRule (bounded limit type)

/-- An expression under a nesting limit, or without one. -/
def expressionUpTo (limit : Option Nat) : Parser Expression :=
  recursive fun self => expressionRule (typeUpTo limit) (bounded limit self)

/-- An expression that takes all tokens, under a nesting limit or without one. -/
def programUpTo (limit : Option Nat) : Parser Expression :=
  (expressionUpTo limit).keepLeft endOfInput

theorem programUpTo_nestingLimit : programUpTo (some nestingLimit) = program := rfl

/-- The failure of a parse that nests too deep. -/
def tooDeep (limit : Nat) : Stop := .cut ["at most " ++ toString limit ++ " levels of nesting"]

/-! ### The rules only depend on the tokens ahead -/

section
variable {type : Parser TypeExpression} {expression : Parser Expression} [Blind type]
  [Blind expression]

instance {α : Type} {parser : Parser α} [Blind parser] (limit : Option Nat) :
    Blind (bounded limit parser) := by
  cases limit with
  | none => exact (inferInstance : Blind parser)
  | some limit => exact (inferInstance : Blind (nested limit parser))

instance : Blind (typeAtom type) := by unfold typeAtom; infer_instance

instance : Blind (typeRule type) := by unfold typeRule; infer_instance

instance : Blind (listLiteral expression) := by unfold listLiteral; infer_instance

instance : Blind (literal expression) := by unfold literal; infer_instance

instance : Blind prefixIdentifier := by unfold prefixIdentifier; infer_instance

instance : Blind (groupExpression expression) := by unfold groupExpression; infer_instance

/-- The front of a local binding: `"let" identifier "="`. -/
def binding : Parser String :=
  ((keyword "let").keepRight (padded bareIdentifier)).keepLeft (symbol "=")

/-- The parts of a local binding. -/
def letParts (expression : Parser Expression) : Parser ((String × Expression) × Expression) :=
  ((binding.pair expression).keepLeft (keyword "in")).pair expression

omit [Blind expression] in
theorem letExpression_eq :
    letExpression expression = recorded "let" ((letParts expression).map
      fun ((name, bound), body) => .letIn name bound body) := rfl

/-- The annotation of a parameter, if there is one. -/
def parameterType (type : Parser TypeExpression) : Parser (Option TypeExpression) :=
  optional <| (group type (symbol "(") (symbol ")")).keepLeft whitespace

/-- The front of a function: `"\" identifier ("(" type ")")? "->"`. -/
def head (type : Parser TypeExpression) : Parser (String × Option TypeExpression) :=
  (((symbol "\\").keepRight (padded bareIdentifier)).pair (parameterType type)).keepLeft arrow

omit [Blind type] [Blind expression] in
theorem functionExpression_eq :
    functionExpression type expression = recorded "function" (((head type).pair expression).map
      fun ((name, declared), body) => .function name declared body) := rfl

instance : Blind binding := by unfold binding; infer_instance

instance : Blind (letParts expression) := by unfold letParts; infer_instance

instance : Blind (letExpression expression) := by rw [letExpression_eq]; infer_instance

instance : Blind (parameterType type) := by unfold parameterType; infer_instance

instance : Blind (head type) := by unfold head; infer_instance

instance : Blind (functionExpression type expression) := by
  rw [functionExpression_eq]; infer_instance

/-- An atom without the white space around it. -/
def core (type : Parser TypeExpression) (expression : Parser Expression) : Parser Expression :=
  choice
    [ groupExpression expression,
      literal expression,
      letExpression expression,
      functionExpression type expression,
      prefixIdentifier.map .identifier ]

omit [Blind type] [Blind expression] in
theorem atom_eq : atom type expression = padded (core type expression) := rfl

instance : Blind (core type expression) := by unfold core; infer_instance

instance : Blind (atom type expression) := by rw [atom_eq]; infer_instance

instance : Blind (application type expression) := by unfold application; infer_instance

instance : Blind (operatorOf ([1, 2, 3, 4].map operatorsOf)) :=
  inferInstanceAs (Blind infixOperator)

instance : Blind (operatorChain type expression) := by unfold operatorChain; infer_instance

instance : Blind (expressionRule type expression) := by unfold expressionRule; infer_instance

end

/-- The rule for types, as a function of its handle. -/
def typeStep (limit : Option Nat) (type : Parser TypeExpression) : Parser TypeExpression :=
  typeRule (bounded limit type)

/-- The rule for expressions, as a function of its handle. -/
def expressionStep (limit : Option Nat) (self : Parser Expression) : Parser Expression :=
  expressionRule (typeUpTo limit) (bounded limit self)

instance (limit : Option Nat) : KeepsBlind (typeStep limit) :=
  ⟨fun self _ => inferInstanceAs (Blind (typeRule (bounded limit self)))⟩

instance (limit : Option Nat) : Blind (typeUpTo limit) :=
  inferInstanceAs (Blind (recursive (typeStep limit)))

instance (limit : Option Nat) : KeepsBlind (expressionStep limit) :=
  ⟨fun self _ => inferInstanceAs (Blind (expressionRule (typeUpTo limit) (bounded limit self)))⟩

instance (limit : Option Nat) : Blind (expressionUpTo limit) :=
  inferInstanceAs (Blind (recursive (expressionStep limit)))

/-! ### The rules keep agreements -/

section
variable {reason : Stop} {turns depth depth' : Nat} {type type' : Parser TypeExpression}
  {expression expression' : Parser Expression} [Blind type] [Blind type'] [Blind expression]
  [Blind expression'] [Until reason turns depth depth' type type']
  [Until reason turns depth depth' expression expression']

instance (spelling : String) :
    Until reason turns depth depth' (symbol spelling) (symbol spelling) := by
  unfold symbol; infer_instance

instance (word : String) : Until reason turns depth depth' (keyword word) (keyword word) := by
  unfold keyword; infer_instance

instance : Until reason turns depth depth' whitespace whitespace := by
  unfold whitespace; infer_instance

instance {α : Type} {parser parser' : Parser α} [Blind parser] [Blind parser']
    [Until reason turns depth depth' parser parser'] :
    Until reason turns depth depth' (padded parser) (padded parser') := by
  unfold padded; infer_instance

instance : Until reason turns depth depth' arrow arrow := by unfold arrow; infer_instance

instance : Until reason turns depth depth' bareIdentifier bareIdentifier := by
  unfold bareIdentifier; infer_instance

instance : Until reason turns depth depth' operatorRun operatorRun := by
  unfold operatorRun; infer_instance

instance (precedence : Nat) :
    Until reason turns depth depth' (infixIdentifier precedence) (infixIdentifier precedence) := by
  unfold infixIdentifier; infer_instance

instance : Until reason turns depth depth' infixOperator infixOperator := by
  rw [infixOperator_eq]; unfold alternative; infer_instance

instance : Until reason turns depth depth' (typeAtom type) (typeAtom type') := by
  unfold typeAtom; infer_instance

instance : Until reason turns depth depth' (typeRule type) (typeRule type') := by
  unfold typeRule; infer_instance

instance : Until reason turns depth depth' (listLiteral expression) (listLiteral expression') := by
  unfold listLiteral; infer_instance

instance : Until reason turns depth depth' (literal expression) (literal expression') := by
  unfold literal number string constant; infer_instance

instance : Until reason turns depth depth' prefixIdentifier prefixIdentifier := by
  unfold prefixIdentifier; infer_instance

instance : Until reason turns depth depth' (groupExpression expression)
    (groupExpression expression') := by
  unfold groupExpression; infer_instance

instance : Until reason turns depth depth' binding binding := by unfold binding; infer_instance

instance : Until reason turns depth depth' (letParts expression) (letParts expression') := by
  unfold letParts; infer_instance

instance : Until reason turns depth depth' (parameterType type) (parameterType type') := by
  unfold parameterType; infer_instance

instance : Until reason turns depth depth' (head type) (head type') := by
  unfold head; infer_instance

instance : Until reason turns depth depth' (letExpression expression)
    (letExpression expression') := by
  rw [letExpression_eq, letExpression_eq]; infer_instance

instance : Until reason turns depth depth' (functionExpression type expression)
    (functionExpression type' expression') := by
  rw [functionExpression_eq, functionExpression_eq]; infer_instance

instance : Until reason turns depth depth' (atom type expression) (atom type' expression') := by
  unfold atom; infer_instance

instance : Until reason turns depth depth' (application type expression)
    (application type' expression') := by
  unfold application; infer_instance

instance : Until reason turns depth depth' (operatorChain type expression)
    (operatorChain type' expression') := by
  have operators : Until reason turns depth depth' (operatorOf ([1, 2, 3, 4].map operatorsOf))
    (operatorOf ([1, 2, 3, 4].map operatorsOf)) :=
    (inferInstance : Until reason turns depth depth' infixOperator infixOperator)
  have chain : Until reason turns depth depth'
    (binary (application type expression) ([1, 2, 3, 4].map operatorsOf))
    (binary (application type' expression') ([1, 2, 3, 4].map operatorsOf)) := .binary
  unfold operatorChain
  infer_instance

instance : Until reason turns depth depth' (expressionRule type expression)
    (expressionRule type' expression') := by
  unfold expressionRule; infer_instance

end

/-! ### Wider bounds -/

/-- Under the second limit, at the second depth, at least as many levels are left. -/
def Looser (limit depth : Nat) (limit' : Option Nat) (depth' : Nat) : Prop :=
  match limit' with
  | some other => other = limit ∧ depth' ≤ depth
  | none => True

theorem until_bounded {α : Type} {parser parser' : Parser α} [Blind parser] [Blind parser']
    {limit turns : Nat} {limit' : Option Nat}
    (agree : ∀ depth depth', Looser limit depth limit' depth' →
      Until (tooDeep limit) turns depth depth' parser parser')
    {depth depth' : Nat} (looser : Looser limit depth limit' depth') :
    Until (tooDeep limit) turns depth depth' (bounded (some limit) parser)
      (bounded limit' parser') := by
  refine ⟨fun tokens => ?_⟩
  have nests : (bounded (some limit) parser).read turns depth tokens =
    if limit ≤ depth then .stopped (tooDeep limit)
    else parser.read turns (depth + 1) tokens := read_nested limit turns depth tokens
  rw [nests]
  split
  · exact .inr rfl
  · rename_i room
    cases limit' with
    | none => exact (agree (depth + 1) depth' looser).agrees tokens
    | some other =>
        obtain ⟨rfl, below⟩ := looser
        have nests' : (bounded (some other) parser').read turns depth' tokens =
          if other ≤ depth' then .stopped (tooDeep other)
          else parser'.read turns (depth' + 1) tokens := read_nested other turns depth' tokens
        rw [nests', if_neg (by omega)]
        exact (agree (depth + 1) (depth' + 1) ⟨rfl, Nat.succ_le_succ below⟩).agrees tokens

/-- A rule agrees with itself under a wider bound until it nests too deep. -/
theorem until_entering {α : Type} {step step' : Parser α → Parser α} [KeepsBlind step]
    [KeepsBlind step'] {limit turns : Nat} {limit' : Option Nat}
    (keeps : ∀ depth depth', Looser limit depth limit' depth' → ∀ (self self' : Parser α),
      Blind self → Blind self' →
      Until (tooDeep limit) turns depth depth' (bounded (some limit) self) (bounded limit' self') →
        Until (tooDeep limit) turns depth depth' (step self) (step' self'))
    (entries : Nat) {depth depth' : Nat} (looser : Looser limit depth limit' depth') :
    Until (tooDeep limit) turns depth depth' (entering step entries) (entering step' entries) := by
  induction entries generalizing depth depth' with
  | zero => exact ⟨fun _ => .inl rfl⟩
  | succ entries ih =>
      have inner := until_bounded (fun _ _ looser => ih looser) looser
      exact ⟨(keeps depth depth' looser _ _ inferInstance inferInstance inner).agrees⟩

theorem until_typeUpTo {limit turns : Nat} {limit' : Option Nat} {depth depth' : Nat}
    (looser : Looser limit depth limit' depth') :
    Until (tooDeep limit) turns depth depth' (typeUpTo (some limit)) (typeUpTo limit') := by
  have rules : Until (tooDeep limit) turns depth depth' (entering (typeStep (some limit)) turns)
      (entering (typeStep limit') turns) := by
    refine until_entering ?_ turns looser
    intro depth depth' _ self self' _ _ inner
    exact inferInstanceAs (Until _ _ _ _ (typeRule (bounded (some limit) self))
      (typeRule (bounded limit' self')))
  exact ⟨rules.agrees⟩

theorem until_expression {limit turns : Nat} {limit' : Option Nat} (entries : Nat)
    {depth depth' : Nat} (looser : Looser limit depth limit' depth') :
    Until (tooDeep limit) turns depth depth' (entering (expressionStep (some limit)) entries)
      (entering (expressionStep limit') entries) := by
  refine until_entering ?_ entries looser
  intro depth depth' looser self self' _ _ inner
  have types : Until (tooDeep limit) turns depth depth' (typeUpTo (some limit)) (typeUpTo limit') :=
    until_typeUpTo looser
  exact inferInstanceAs (Until _ _ _ _
    (expressionRule (typeUpTo (some limit)) (bounded (some limit) self))
    (expressionRule (typeUpTo limit') (bounded limit' self')))

/-- Agreement at all depths is kept one level deeper. -/
theorem until_bounded_same {α : Type} {parser parser' : Parser α} [Blind parser] [Blind parser']
    {reason : Stop} {turns : Nat} (limit : Option Nat)
    (agree : ∀ depth, Until reason turns depth depth parser parser') (depth : Nat) :
    Until reason turns depth depth (bounded limit parser) (bounded limit parser') := by
  cases limit with
  | none => exact agree depth
  | some limit =>
      refine ⟨fun tokens => ?_⟩
      simp only [bounded, read_nested]
      split
      · exact .inl rfl
      · exact (agree (depth + 1)).agrees tokens

/-- The rule for expressions that can be entered once more agrees with the one that cannot until
that is exhausted. -/
theorem until_expression_succ (limit : Option Nat) (turns entries depth : Nat) :
    Until .exhausted turns depth depth (entering (expressionStep limit) entries)
      (entering (expressionStep limit) (entries + 1)) := by
  induction entries generalizing depth with
  | zero => exact ⟨fun _ => .inr rfl⟩
  | succ entries ih =>
      have inner := until_bounded_same limit ih depth
      have step : Until .exhausted turns depth depth
          (expressionRule (typeUpTo limit)
            (bounded limit (entering (expressionStep limit) entries)))
          (expressionRule (typeUpTo limit)
            (bounded limit (entering (expressionStep limit) (entries + 1)))) := inferInstance
      exact ⟨step.agrees⟩

end Curried.Grammar
