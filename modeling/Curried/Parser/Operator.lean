import Curried.Parser.Choice

/-!
# Binary operators

A chain `operand (operator operand)*` is read flat and then folded into a tree.  The operator
with the highest precedence number binds loosest and becomes the root; of several, the rightmost
one does, so equal operators group to the left.
-/

namespace Curried

/-- How an operator joins two operands. -/
structure Joint (α : Type) where
  /-- Higher numbers bind looser. -/
  precedence : Nat
  /-- Build the tree from the left operand, the right operand and the operator. -/
  build : α → α → α → α

/-- An operator with the operand behind it. -/
structure Link (α : Type) where
  /-- How the operator joins its operands. -/
  joint : Joint α
  /-- The operator as it was read. -/
  operator : α
  /-- The operand behind the operator. -/
  operand : α

namespace Link

variable {α : Type}

/-- Split a chain at the rightmost of its loosest links. -/
def splitLoosest : List (Link α) → Option (List (Link α) × Link α × List (Link α))
  | [] => none
  | link :: rest =>
      match splitLoosest rest with
      | none => some ([], link, rest)
      | some (before, loosest, after) =>
          if loosest.joint.precedence < link.joint.precedence then some ([], link, rest)
          else some (link :: before, loosest, after)

/-- The parts of a split chain make up the chain. -/
theorem eq_of_splitLoosest {links before after : List (Link α)} {loosest : Link α}
    (split : splitLoosest links = some (before, loosest, after)) :
    links = before ++ loosest :: after := by
  induction links generalizing before after loosest with
  | nil => simp [splitLoosest] at split
  | cons link rest ih =>
      rw [splitLoosest] at split
      split at split
      · simp only [Option.some.injEq, Prod.mk.injEq] at split
        obtain ⟨rfl, rfl, rfl⟩ := split
        rfl
      · rename_i inner
        split at split
        · simp only [Option.some.injEq, Prod.mk.injEq] at split
          obtain ⟨rfl, rfl, rfl⟩ := split
          rfl
        · simp only [Option.some.injEq, Prod.mk.injEq] at split
          obtain ⟨rfl, rfl, rfl⟩ := split
          rw [ih inner, List.cons_append]

/-- Only the empty chain has no loosest link. -/
theorem splitLoosest_eq_none_iff {links : List (Link α)} :
    splitLoosest links = none ↔ links = [] := by
  cases links with
  | nil => simp [splitLoosest]
  | cons link rest =>
      rw [splitLoosest]
      constructor
      · intro none_eq
        split at none_eq
        · simp at none_eq
        · split at none_eq <;> simp at none_eq
      · intro empty
        simp at empty

/-- Fold an operand and the chain behind it into a tree. -/
def fold (first : α) (links : List (Link α)) : α :=
  match _split : splitLoosest links with
  | none => first
  | some (before, loosest, after) =>
      loosest.joint.build (fold first before) (fold loosest.operand after) loosest.operator
termination_by links.length
decreasing_by
  all_goals
    rw [eq_of_splitLoosest _split]
    simp only [List.length_append, List.length_cons]
    omega

end Link

/-- An entry of an operator table. -/
structure Operator (α : Type) extends Joint α where
  /-- Reads the operator. -/
  parser : Parser α

namespace Parser

variable {α : Type}

/-- Read an operator of the table, with the way it joins. -/
def operatorOf (operators : List (Operator α)) : Parser (Joint α × α) :=
  choice (operators.map fun operator => operator.parser.map fun value => (operator.toJoint, value))

/-- Read `(operator operand)*`: behind an operator an operand has to follow. -/
def links (operand : Parser α) (operator : Parser (Joint α × α)) : Nat → Parser (List (Link α))
  | 0 => exhausted
  | turns + 1 => do
      match ← operator.optional with
      | none => return []
      | some (joint, symbol) =>
          let value ← operand
          let rest ← links operand operator turns
          return ⟨joint, symbol, value⟩ :: rest

/-- Read `operand (operator operand)*` and fold it into a tree. -/
def binary (operand : Parser α) (operators : List (Operator α)) : Parser α :=
  attempt do
    let first ← operand
    let rest ← withTurns (links operand (operatorOf operators))
    return Link.fold first rest

end Parser

end Curried
