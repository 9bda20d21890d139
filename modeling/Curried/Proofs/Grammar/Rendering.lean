import Curried.Proofs.Grammar.Spelling
import Curried.Proofs.Grammar.Trees

/-!
# Rendered trees

A tree is rendered from left to right, without regard to how its chains were folded: an operand
behind its operator, an argument behind what it is an argument of.  Chains of equal operands are
folded to equal trees.
-/

namespace Curried

open Grammar

namespace Expression

mutual

/-- The numbers in a tree. -/
def numbers : Expression → List Float
  | .number value => [value]
  | .string _ | .boolean _ | .null | .identifier _ | .operator _ => []
  | .list items => numbersOfItems items
  | .apply callee argument => callee.numbers ++ argument.numbers
  | .applyInfix sign operand => sign.numbers ++ operand.numbers
  | .letIn _ bound body => bound.numbers ++ body.numbers
  | .function _ _ body => body.numbers
  | .group inner => inner.numbers

/-- The numbers in a list of trees. -/
def numbersOfItems : List Expression → List Float
  | [] => []
  | item :: others => item.numbers ++ numbersOfItems others

end

/-- All finite numbers in a tree read back from their texts. -/
def NumbersReadBack (tree : Expression) : Prop :=
  ∀ value ∈ tree.numbers, value.isFinite = true → ∃ again, Number.ReadsBack value again

variable {left right callee argument first again sign operand bound body : Expression}
  {items agains : List Expression} {symbol name : String}

theorem mem_numbersOfItems {value : Float} :
    value ∈ numbersOfItems items ↔ ∃ item ∈ items, value ∈ item.numbers := by
  induction items with
  | nil => simp [numbersOfItems]
  | cons item others ih => simp [numbersOfItems, ih]

theorem numbersReadBack_binary_iff (left right : Expression) (symbol : String) :
    (binary left right (.operator symbol)).NumbersReadBack ↔
      left.NumbersReadBack ∧ right.NumbersReadBack := by
  simp [NumbersReadBack, binary, numbers, or_imp, forall_and]

theorem numbersReadBack_apply_iff (callee argument : Expression) :
    (apply callee argument).NumbersReadBack ↔
      callee.NumbersReadBack ∧ argument.NumbersReadBack := by
  simp [NumbersReadBack, numbers, or_imp, forall_and]

theorem numbersReadBack_letIn_iff :
    (letIn name bound body).NumbersReadBack ↔ bound.NumbersReadBack ∧ body.NumbersReadBack := by
  simp [NumbersReadBack, numbers, or_imp, forall_and]

theorem numbersReadBack_list_iff :
    (list items).NumbersReadBack ↔ ∀ item ∈ items, item.NumbersReadBack := by
  simp only [NumbersReadBack, numbers, mem_numbersOfItems]
  constructor
  · intro reads item member value among
    exact reads value ⟨item, member, among⟩
  · rintro reads value ⟨item, member, among⟩
    exact reads item member value among

/-! ### Flat rendering -/

/-- The text of the arguments behind an atom. -/
def renderArguments (trees : List Expression) : List Char :=
  trees.flatMap fun tree => ' ' :: tree.render.toList

/-- The text of the operators and operands behind the first operand of a chain. -/
def renderLinks (links : List (String × Expression)) : List Char :=
  links.flatMap fun part => ' ' :: (part.1.toList ++ ' ' :: part.2.render.toList)

/-- The text of the items behind the first item of a list. -/
def renderOthers (trees : List Expression) : List Char :=
  trees.flatMap fun tree => ',' :: ' ' :: tree.render.toList

/-- A chain is rendered from left to right, however it is folded. -/
theorem render_chain (links : List (String × Expression)) :
    (first.chain links).render.toList = first.render.toList ++ renderLinks links := by
  have flat : (first.chain links).render.toList = first.render.toList ++
      (links.map link).flatMap fun link =>
        ' ' :: (link.operator.render.toList ++ [' ']) ++ link.operand.render.toList := by
    refine Link.flatten_fold (fun tree : Expression => tree.render.toList)
      (fun link => ' ' :: (link.operator.render.toList ++ [' '])) fun link member left right => ?_
    obtain ⟨part, _, rfl⟩ := List.mem_map.1 member
    simp [Expression.link, joint, binary, render]
  rw [flat, renderLinks, List.flatMap_map]
  simp [link, render]

theorem render_foldl_apply (others : List Expression) :
    (others.foldl .apply first).render.toList = first.render.toList ++ renderArguments others := by
  induction others generalizing first with
  | nil => simp [renderArguments]
  | cons other others ih =>
      rw [List.foldl_cons, ih]
      simp [renderArguments, render]

theorem renderItems_cons (others : List Expression) :
    (renderItems (first :: others)).toList = first.render.toList ++ renderOthers others := by
  induction others generalizing first with
  | nil => simp [renderItems, renderOthers]
  | cons other others ih =>
      rw [renderItems, String.toList_append, String.toList_append, ih]
      · simp [renderOthers]
      · simp

/-! ### Equal parts -/

theorem same_foldl_apply (firsts : again.same first = true)
    (others : sameItems agains items = true) :
    (agains.foldl .apply again).same (items.foldl .apply first) = true := by
  induction items generalizing agains again first with
  | nil =>
      cases agains with
      | nil => exact firsts
      | cons _ _ => cases others
  | cons item items ih =>
      cases agains with
      | nil => cases others
      | cons other agains =>
          obtain ⟨head, tail⟩ : other.same item = true ∧ sameItems agains items = true := by
            simpa [sameItems] using others
          have joined : (apply again other).same (apply first item) = true := by
            simp [same, firsts, head]
          rw [List.foldl_cons, List.foldl_cons]
          exact ih joined tail

/-- The operators, the operands and what these are read back as. -/
abbrev Parts := List (String × Expression × Expression)

/-- Chains of equal operands with the same operators. -/
theorem same_chain (parts : Parts) (firsts : again.same first = true)
    (others : ∀ part ∈ parts, part.2.2.same part.2.1 = true) :
    (again.chain (parts.map fun part => (part.1, part.2.2))).same
      (first.chain (parts.map fun part => (part.1, part.2.1))) = true := by
  unfold chain
  rw [List.map_map, List.map_map]
  refine Link.fold_related (fun part : String × Expression × Expression => link (part.1, part.2.2))
    (fun part => link (part.1, part.2.1)) (fun again tree => again.same tree = true)
    (fun _ => rfl) ?_ parts firsts others
  intro part left left' right right' lefts rights
  simp [Expression.link, joint, binary, Expression.same, lefts, rights]

end Expression

end Curried
