import Curried.Proofs.Parser.Fold

/-!
# Precedence trees

The tree that a chain is folded into.  Read from left to right it is the chain, and at every node it
is split at an operator that binds at least as loosely as all operators to the left of it and more
loosely than all to the right.  There is only one such tree: of two different places to split at,
the left one would have to bind more loosely than the right one, and the right one at least as
loosely as the left one.
-/

namespace Curried.Link

/-- What a chain is made of. -/
inductive Piece (α : Type) where
  /-- An operand. -/
  | operand (value : α)
  /-- An operator, with the way it joins its operands. -/
  | operator (joint : Joint α) (symbol : α)

/-- A tree with operands at its leaves and operators at its nodes. -/
inductive Tree (α : Type) where
  /-- A single operand. -/
  | operand (value : α)
  /-- An operator between two trees. -/
  | join (left : Tree α) (joint : Joint α) (symbol : α) (right : Tree α)

/-- An operand and the chain behind it, piece by piece. -/
def pieces {α : Type} (first : α) (links : List (Link α)) : List (Piece α) :=
  .operand first :: links.flatMap fun link =>
    [.operator link.joint link.operator, .operand link.operand]

namespace Tree

variable {α : Type}

/-- The tree from left to right. -/
def inOrder : Tree α → List (Piece α)
  | .operand value => [.operand value]
  | .join left joint symbol right => left.inOrder ++ .operator joint symbol :: right.inOrder

/-- What the tree is built into: every node by its own joint, from what its subtrees are built into
and its operator. -/
def value : Tree α → α
  | .operand value => value
  | .join left joint symbol right => joint.build left.value right.value symbol

/-- No operator of the left subtree of a node binds looser than the operator of the node, and all
operators of the right subtree bind tighter. -/
def Ordered : Tree α → Prop
  | .operand _ => True
  | .join left joint _ right => left.Ordered ∧ right.Ordered ∧
      (∀ inner symbol, .operator inner symbol ∈ left.inOrder →
        inner.precedence ≤ joint.precedence) ∧
      ∀ inner symbol, .operator inner symbol ∈ right.inOrder → inner.precedence < joint.precedence

/-- The tree is the chain from left to right, and looser operators are above tighter ones. -/
structure Arranges (tree : Tree α) (first : α) (links : List (Link α)) : Prop where
  inOrder_eq : tree.inOrder = pieces first links
  ordered : tree.Ordered

/-- Of two places to split a list at, one is in front of the other unless they are the same. -/
theorem cases_of_split {β : Type} {front behind front' behind' : List β} {middle middle' : β}
    (same : front ++ middle :: behind = front' ++ middle' :: behind') :
    (front = front' ∧ middle = middle' ∧ behind = behind') ∨
      (middle ∈ front' ∧ middle' ∈ behind) ∨ (middle' ∈ front ∧ middle ∈ behind') := by
  rcases List.append_eq_append_iff.1 same with
    ⟨between, fronts, behinds⟩ | ⟨between, fronts, behinds⟩
  · cases between with
    | nil =>
        obtain ⟨middles, behinds⟩ := List.cons.inj behinds
        exact .inl ⟨by simp [fronts], middles, behinds⟩
    | cons next between =>
        obtain ⟨rfl, rfl⟩ := List.cons.inj behinds
        exact .inr (.inl ⟨by simp [fronts], by simp⟩)
  · cases between with
    | nil =>
        obtain ⟨middles, behinds⟩ := List.cons.inj behinds
        exact .inl ⟨by simp [fronts], middles.symm, behinds.symm⟩
    | cons next between =>
        obtain ⟨rfl, rfl⟩ := List.cons.inj behinds
        exact .inr (.inr ⟨by simp [fronts], by simp⟩)

/-- A tree is determined by its pieces and the precedences of its operators. -/
theorem eq_of_inOrder {tree other : Tree α} (ordered : tree.Ordered) (other_ordered : other.Ordered)
    (same : tree.inOrder = other.inOrder) : tree = other := by
  induction tree generalizing other with
  | operand value =>
      cases other with
      | operand other => simpa [inOrder] using same
      | join left joint symbol right =>
          have member : .operator joint symbol ∈ (operand value).inOrder := by
            rw [same, inOrder]
            simp
          simp [inOrder] at member
  | join left joint symbol right left_ih right_ih =>
      cases other with
      | operand other =>
          have member : .operator joint symbol ∈ (operand other).inOrder := by
            rw [← same, inOrder]
            simp
          simp [inOrder] at member
      | join left' joint' symbol' right' =>
          obtain ⟨left_ordered, right_ordered, above_left, above_right⟩ := ordered
          obtain ⟨left_ordered', right_ordered', above_left', above_right'⟩ := other_ordered
          rw [inOrder, inOrder] at same
          rcases cases_of_split same with ⟨lefts, roots, rights⟩ | ⟨inner, inner'⟩ | ⟨inner', inner⟩
          · obtain ⟨rfl, rfl⟩ := Piece.operator.inj roots
            rw [left_ih left_ordered left_ordered' lefts,
              right_ih right_ordered right_ordered' rights]
          · have looser := above_left' joint symbol inner
            have tighter := above_right joint' symbol' inner'
            omega
          · have looser := above_left joint' symbol' inner'
            have tighter := above_right' joint symbol inner
            omega

end Tree

/-! ### The tree of a folded chain -/

variable {α : Type} {first : α} {links before after : List (Link α)} {loosest : Link α}

theorem pieces_append (first : α) (before after : List (Link α)) (link : Link α) :
    pieces first (before ++ link :: after) =
      pieces first before ++ .operator link.joint link.operator :: pieces link.operand after := by
  simp [pieces]

theorem mem_pieces {joint : Joint α} {symbol : α}
    (member : .operator joint symbol ∈ pieces first links) :
    ∃ link ∈ links, link.joint = joint := by
  simp only [pieces, List.mem_cons, List.mem_flatMap, reduceCtorEq, false_or] at member
  obtain ⟨link, among, same⟩ := member
  simp only [List.not_mem_nil, or_false, Piece.operator.injEq] at same
  exact ⟨link, among, same.1.symm⟩

/-- A chain is split at the rightmost of its loosest links. -/
theorem precedence_of_splitLoosest (split : splitLoosest links = some (before, loosest, after)) :
    (∀ link ∈ before, link.joint.precedence ≤ loosest.joint.precedence) ∧
      ∀ link ∈ after, link.joint.precedence < loosest.joint.precedence := by
  induction links generalizing before after loosest with
  | nil => cases split
  | cons link rest ih =>
      rw [splitLoosest] at split
      cases inner : splitLoosest rest with
      | none =>
          rw [splitLoosest_eq_none_iff] at inner
          subst inner
          cases split
          simp
      | some parts =>
          obtain ⟨inner_before, inner_loosest, inner_after⟩ := parts
          obtain ⟨not_looser, tighter⟩ := ih inner
          have whole := eq_of_splitLoosest inner
          rw [inner] at split
          simp only at split
          split at split
          · rename_i tighter_inner
            cases split
            refine ⟨by simp, fun later member => ?_⟩
            rw [whole, List.mem_append, List.mem_cons] at member
            rcases member with earlier | rfl | later
            · exact Nat.lt_of_le_of_lt (not_looser _ earlier) tighter_inner
            · exact tighter_inner
            · exact Nat.lt_trans (tighter _ later) tighter_inner
          · rename_i not_tighter
            cases split
            refine ⟨fun earlier member => ?_, tighter⟩
            rcases List.mem_cons.1 member with rfl | earlier
            · exact Nat.le_of_not_lt not_tighter
            · exact not_looser _ earlier

/-- Every chain has a tree, and is folded into what this tree is built into. -/
theorem exists_arranges (first : α) (links : List (Link α)) :
    ∃ tree : Tree α, tree.Arranges first links ∧ tree.value = fold first links := by
  induction first, links using fold.induct with
  | case1 first links none_left =>
      rw [splitLoosest_eq_none_iff] at none_left
      subst none_left
      exact ⟨.operand first, ⟨rfl, trivial⟩, by simp [Tree.value]⟩
  | case2 first links before loosest after split left_ih right_ih =>
      obtain ⟨left, left_arranges, left_value⟩ := left_ih
      obtain ⟨right, right_arranges, right_value⟩ := right_ih
      obtain ⟨not_looser, tighter⟩ := precedence_of_splitLoosest split
      refine ⟨.join left loosest.joint loosest.operator right, ⟨?_, left_arranges.ordered,
        right_arranges.ordered, fun inner symbol member => ?_, fun inner symbol member => ?_⟩, ?_⟩
      · rw [Tree.inOrder, left_arranges.inOrder_eq, right_arranges.inOrder_eq,
          eq_of_splitLoosest split, pieces_append]
      · rw [left_arranges.inOrder_eq] at member
        obtain ⟨link, among, rfl⟩ := mem_pieces member
        exact not_looser link among
      · rw [right_arranges.inOrder_eq] at member
        obtain ⟨link, among, rfl⟩ := mem_pieces member
        exact tighter link among
      · rw [Tree.value, left_value, right_value, fold_of_split split]

/-- The precedence number of the link that a chain is split at is the highest one in the chain. -/
theorem max_of_splitLoosest (split : splitLoosest links = some (before, loosest, after)) :
    (links.map fun link => link.joint.precedence).max? = some loosest.joint.precedence := by
  obtain ⟨not_looser, tighter⟩ := precedence_of_splitLoosest split
  rw [List.max?_eq_some_iff, eq_of_splitLoosest split]
  refine ⟨by simp, fun precedence member => ?_⟩
  obtain ⟨link, among, rfl⟩ := List.mem_map.1 member
  rw [List.mem_append, List.mem_cons] at among
  rcases among with earlier | rfl | later
  · exact not_looser link earlier
  · exact Nat.le_refl _
  · exact Nat.le_of_lt (tighter link later)

/-- A chain is folded into what is built from its only precedence tree.  If it has an operator at
all, it is split, and the root is the last operator of the highest precedence number. -/
theorem fold_eq_value_of_arranges (first : α) (links : List (Link α)) :
    (∃ tree : Tree α, tree.Arranges first links ∧ tree.value = fold first links ∧
      ∀ other : Tree α, other.Arranges first links → other = tree) ∧
    (links ≠ [] → ∃ before root after, splitLoosest links = some (before, root, after) ∧
      links = before ++ root :: after ∧
      (links.map fun link => link.joint.precedence).max? = some root.joint.precedence ∧
      (∀ later ∈ after, later.joint.precedence ≠ root.joint.precedence) ∧
      fold first links =
        root.joint.build (fold first before) (fold root.operand after) root.operator) := by
  constructor
  · obtain ⟨tree, arranges, built⟩ := exists_arranges first links
    refine ⟨tree, arranges, built, fun other other_arranges => ?_⟩
    exact Tree.eq_of_inOrder other_arranges.ordered arranges.ordered
      (other_arranges.inOrder_eq.trans arranges.inOrder_eq.symm)
  · intro nonempty
    cases split : splitLoosest links with
    | none => exact (nonempty (splitLoosest_eq_none_iff.1 split)).elim
    | some parts =>
        obtain ⟨before, root, after⟩ := parts
        refine ⟨before, root, after, rfl, eq_of_splitLoosest split, max_of_splitLoosest split,
          fun later member => ?_, fold_of_split split⟩
        exact Nat.ne_of_lt ((precedence_of_splitLoosest split).2 later member)

/-- Two sums with a product in between: the last sum is the root, and the product is below the first
one. -/
theorem fold_eq_value_of_arranges_sums :
    let joint (precedence : Nat) : Joint String :=
      ⟨precedence, fun left right symbol => "(" ++ left ++ symbol ++ right ++ ")"⟩
    let links : List (Link String) :=
      [⟨joint 2, "+", "b"⟩, ⟨joint 1, "*", "c"⟩, ⟨joint 2, "+", "d"⟩]
    links ≠ [] ∧ fold "a" links = "((a+(b*c))+d)" ∧
      (∃ tree : Tree String, tree.Arranges "a" links ∧ tree.value = fold "a" links ∧
        ∀ other : Tree String, other.Arranges "a" links → other = tree) ∧
      ∃ before root after, splitLoosest links = some (before, root, after) ∧
        links = before ++ root :: after ∧
        (links.map fun link => link.joint.precedence).max? = some root.joint.precedence ∧
        (∀ later ∈ after, later.joint.precedence ≠ root.joint.precedence) ∧
        fold "a" links =
          root.joint.build (fold "a" before) (fold root.operand after) root.operator := by
  intro joint links
  have nonempty : links ≠ [] := List.cons_ne_nil _ _
  exact ⟨nonempty, by decide +kernel, (fold_eq_value_of_arranges "a" links).1,
    (fold_eq_value_of_arranges "a" links).2 nonempty⟩

end Curried.Link
