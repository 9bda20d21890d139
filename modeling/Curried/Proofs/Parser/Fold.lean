import Curried.Parser.Operator

/-!
# Folded chains

A chain is folded by splitting it at one of its links, so whatever holds of single operands and is
handed on when a link joins two parts holds of the folded chain.
-/

namespace Curried.Link

variable {α β : Type} {first : α} {links before after : List (Link α)} {loosest : Link α}

@[simp]
theorem fold_nil (first : α) : fold first [] = first := by
  rw [fold]
  split
  · rfl
  · rename_i split
    cases split

theorem fold_of_split (split : splitLoosest links = some (before, loosest, after)) :
    fold first links =
      loosest.joint.build (fold first before) (fold loosest.operand after) loosest.operator := by
  rw [fold]
  split
  · rename_i none_left
    rw [none_left] at split
    cases split
  · rename_i parts
    rw [split] at parts
    cases parts
    rfl

/-- A property of an operand, the links behind it and the tree they are folded into. -/
theorem fold_induction {motive : α → List (Link α) → α → Prop}
    (nil : ∀ first, motive first [] first)
    (join : ∀ first before (link : Link α) after left right, motive first before left →
      motive link.operand after right →
        motive first (before ++ link :: after) (link.joint.build left right link.operator))
    (first : α) (links : List (Link α)) : motive first links (fold first links) := by
  induction first, links using fold.induct with
  | case1 first links none_left =>
      rw [splitLoosest_eq_none_iff] at none_left
      subst none_left
      rw [fold_nil]
      exact nil first
  | case2 first links before loosest after split left_ih right_ih =>
      rw [fold_of_split split, eq_of_splitLoosest split]
      exact join first before loosest after _ _ left_ih right_ih

/-- A property that a joint hands on in both directions holds of a folded chain if it holds of all
operands. -/
theorem forall_fold {holds : α → Prop} (joins : ∀ link ∈ links, ∀ left right,
      holds (link.joint.build left right link.operator) ↔ holds left ∧ holds right) :
    holds (fold first links) ↔ holds first ∧ ∀ link ∈ links, holds link.operand := by
  refine fold_induction (motive := fun first links tree => (∀ link ∈ links, ∀ left right,
    holds (link.joint.build left right link.operator) ↔ holds left ∧ holds right) →
      (holds tree ↔ holds first ∧ ∀ link ∈ links, holds link.operand)) ?_ ?_ first links joins
  · intro first _
    simp
  · intro first before link after left right left_ih right_ih joins
    have left_iff := left_ih fun link member => joins link (List.mem_append_left _ member)
    have right_iff := right_ih fun link member =>
      joins link (List.mem_append_right _ (.tail _ member))
    rw [joins link (by simp), left_iff, right_iff]
    simp only [List.mem_append, List.mem_cons]
    grind

/-- A list that a joint puts together from the lists of its parts, with that of the operator in
between, is for a folded chain put together from left to right. -/
theorem flatten_fold (list : α → List β) (between : Link α → List β)
    (joins : ∀ link ∈ links, ∀ left right,
      list (link.joint.build left right link.operator) = list left ++ between link ++ list right) :
    list (fold first links) =
      list first ++ links.flatMap fun link => between link ++ list link.operand := by
  refine fold_induction (motive := fun first links tree => (∀ link ∈ links, ∀ left right,
    list (link.joint.build left right link.operator) = list left ++ between link ++ list right) →
      list tree = list first ++ links.flatMap fun link => between link ++ list link.operand)
    ?_ ?_ first links joins
  · intro first _
    simp
  · intro first before link after left right left_ih right_ih joins
    have left_eq := left_ih fun link member => joins link (List.mem_append_left _ member)
    have right_eq := right_ih fun link member =>
      joins link (List.mem_append_right _ (.tail _ member))
    rw [joins link (by simp), left_eq, right_eq]
    simp [List.append_assoc]

section
variable {γ : Type} {left : γ → Link α} {right : γ → Link β}

/-- Two chains with the same precedences are split at the same place. -/
theorem splitLoosest_map
    (same : ∀ part, (left part).joint.precedence = (right part).joint.precedence)
    (parts : List γ) :
    parts = [] ∨ ∃ before part after, parts = before ++ part :: after ∧
      splitLoosest (parts.map left) = some (before.map left, left part, after.map left) ∧
        splitLoosest (parts.map right) = some (before.map right, right part, after.map right) := by
  induction parts with
  | nil => exact .inl rfl
  | cons first others ih =>
      right
      rcases ih with rfl | ⟨before, part, after, rfl, left_split, right_split⟩
      · exact ⟨[], first, [], rfl, rfl, rfl⟩
      · simp only [List.map_cons, splitLoosest, left_split, right_split, same]
        split
        · exact ⟨[], first, before ++ part :: after, rfl, rfl, rfl⟩
        · exact ⟨first :: before, part, after, rfl, rfl, rfl⟩

/-- Chains with related operands and the same operators are folded into related trees. -/
theorem fold_related (left : γ → Link α) (right : γ → Link β) (related : α → β → Prop)
    (same : ∀ part, (left part).joint.precedence = (right part).joint.precedence)
    (joins : ∀ part first first' second second', related first first' → related second second' →
      related ((left part).joint.build first second (left part).operator)
        ((right part).joint.build first' second' (right part).operator))
    {first : α} {first' : β} (parts : List γ) (firsts : related first first')
    (others : ∀ part ∈ parts, related (left part).operand (right part).operand) :
    related (fold first (parts.map left)) (fold first' (parts.map right)) := by
  induction size : parts.length using Nat.strongRecOn generalizing parts first first' with
  | ind size ih =>
      rcases splitLoosest_map same parts with rfl | ⟨before, part, after, rfl, left_split,
        right_split⟩
      · simpa using firsts
      · rw [List.length_append, List.length_cons] at size
        rw [fold_of_split left_split, fold_of_split right_split]
        refine joins part _ _ _ _ ?_ ?_
        · exact ih before.length (by omega) before firsts
            (fun other member => others other (by simp [member])) rfl
        · exact ih after.length (by omega) after (others part (by simp))
            (fun other member => others other (by simp [member])) rfl

end

end Curried.Link
