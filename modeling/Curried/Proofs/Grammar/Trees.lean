import Curried.Proofs.Grammar.Derivation
import Curried.Proofs.Parser.Fold

/-!
# Properties of the trees of a phrase

A property that an application hands on from and to its two parts is handed on from and to all
operands of a chain and all arguments behind an atom.  Relations that every form of tree hands on
from its parts hold between equal trees.
-/

namespace Curried

namespace Expression

/-- What holds of a chain holds of its operands. -/
theorem chain_iff (holds : Expression → Prop) (joins : ∀ left right symbol,
      holds (binary left right (.operator symbol)) ↔ holds left ∧ holds right)
    {first : Expression} {links : List (String × Expression)} :
    holds (first.chain links) ↔ holds first ∧ ∀ part ∈ links, holds part.2 := by
  have folds : holds (first.chain links) ↔
      holds first ∧ ∀ link ∈ links.map Expression.link, holds link.operand := by
    refine Link.forall_fold fun link member left right => ?_
    obtain ⟨part, _, rfl⟩ := List.mem_map.1 member
    exact joins left right part.1
  rw [folds, List.forall_mem_map]
  rfl

/-- What holds of an application holds of its parts. -/
theorem foldl_apply_iff (holds : Expression → Prop) (joins : ∀ callee argument,
      holds (.apply callee argument) ↔ holds callee ∧ holds argument)
    {first : Expression} {others : List Expression} :
    holds (others.foldl .apply first) ↔ holds first ∧ ∀ other ∈ others, holds other := by
  induction others generalizing first with
  | nil => simp
  | cons other others ih => simp [ih, joins, and_assoc]

/-! ### Equal trees -/

/-- A relation of trees and one of lists of trees that are handed on by every form of tree from its
parts, and that hold of equal leaves. -/
structure Congruence (related : Expression → Expression → Prop)
    (relatedItems : List Expression → List Expression → Prop) : Prop where
  number : ∀ {left right : Float}, (left == right) = true → related (.number left) (.number right)
  string : ∀ content, related (.string content) (.string content)
  boolean : ∀ value, related (.boolean value) (.boolean value)
  null : related .null .null
  identifier : ∀ name, related (.identifier name) (.identifier name)
  operator : ∀ symbol, related (.operator symbol) (.operator symbol)
  list : ∀ {items items'}, relatedItems items items' → related (.list items) (.list items')
  apply : ∀ {callee callee' argument argument'}, related callee callee' →
    related argument argument' → related (.apply callee argument) (.apply callee' argument')
  applyInfix : ∀ {sign sign' operand operand'}, related sign sign' → related operand operand' →
    related (.applyInfix sign operand) (.applyInfix sign' operand')
  letIn : ∀ name {bound bound' body body'}, related bound bound' → related body body' →
    related (.letIn name bound body) (.letIn name bound' body')
  function : ∀ parameter declared {body body'}, related body body' →
    related (.function parameter declared body) (.function parameter declared body')
  group : ∀ {inner inner'}, related inner inner' → related (.group inner) (.group inner')
  noItems : relatedItems [] []
  items : ∀ {item item' others others'}, related item item' → relatedItems others others' →
    relatedItems (item :: others) (item' :: others')

section
variable {related : Expression → Expression → Prop}
  {relatedItems : List Expression → List Expression → Prop}

mutual

/-- Equal trees are related by every congruence. -/
theorem Congruence.of_same (congruence : Congruence related relatedItems) :
    ∀ {tree other : Expression}, tree.same other = true → related tree other
  | .number _, other, same => by
      cases other with
      | number _ => exact congruence.number same
      | _ => cases same
  | .string content, other, same => by
      cases other with
      | string _ =>
          obtain rfl := beq_iff_eq.1 same
          exact congruence.string content
      | _ => cases same
  | .boolean value, other, same => by
      cases other with
      | boolean _ =>
          obtain rfl := beq_iff_eq.1 same
          exact congruence.boolean value
      | _ => cases same
  | .null, other, same => by
      cases other with
      | null => exact congruence.null
      | _ => cases same
  | .identifier name, other, same => by
      cases other with
      | identifier _ =>
          obtain rfl := beq_iff_eq.1 same
          exact congruence.identifier name
      | _ => cases same
  | .operator symbol, other, same => by
      cases other with
      | operator _ =>
          obtain rfl := beq_iff_eq.1 same
          exact congruence.operator symbol
      | _ => cases same
  | .list items, other, same => by
      cases other with
      | list _ =>
          have insides := congruence.of_sameItems same
          exact congruence.list insides
      | _ => cases same
  | .apply callee argument, other, same => by
      cases other with
      | apply _ _ =>
          obtain ⟨callees, arguments⟩ := Bool.and_eq_true_iff.1 same
          exact congruence.apply (congruence.of_same callees) (congruence.of_same arguments)
      | _ => cases same
  | .applyInfix sign operand, other, same => by
      cases other with
      | applyInfix _ _ =>
          obtain ⟨signs, operands⟩ := Bool.and_eq_true_iff.1 same
          exact congruence.applyInfix (congruence.of_same signs) (congruence.of_same operands)
      | _ => cases same
  | .letIn name bound body, other, same => by
      cases other with
      | letIn _ _ _ =>
          obtain ⟨front, bodies⟩ := Bool.and_eq_true_iff.1 same
          obtain ⟨names, bounds⟩ := Bool.and_eq_true_iff.1 front
          obtain rfl := beq_iff_eq.1 names
          exact congruence.letIn name (congruence.of_same bounds) (congruence.of_same bodies)
      | _ => cases same
  | .function parameter declared body, other, same => by
      cases other with
      | function _ _ _ =>
          obtain ⟨front, bodies⟩ := Bool.and_eq_true_iff.1 same
          obtain ⟨parameters, types⟩ := Bool.and_eq_true_iff.1 front
          obtain rfl := beq_iff_eq.1 parameters
          obtain rfl := eq_of_beq types
          exact congruence.function parameter declared (congruence.of_same bodies)
      | _ => cases same
  | .group inner, other, same => by
      cases other with
      | group other_inner =>
          have inners : inner.same other_inner = true := same
          exact congruence.group (congruence.of_same inners)
      | _ => cases same

theorem Congruence.of_sameItems (congruence : Congruence related relatedItems) :
    ∀ {items others : List Expression}, sameItems items others = true → relatedItems items others
  | [], [], _ => congruence.noItems
  | _ :: _, _ :: _, same => by
      obtain ⟨firsts, others⟩ := Bool.and_eq_true_iff.1 same
      exact congruence.items (congruence.of_same firsts) (congruence.of_sameItems others)

end

end

end Expression

/-- A property of all trees of a phrase that are no types. -/
def Phrase.Forall (holds : Expression → Prop) : Phrase → Prop
  | .expression tree | .application tree | .atom tree | .core tree => holds tree
  | .links found => ∀ part ∈ found, holds part.2
  | .atoms trees | .items trees | .others trees => ∀ tree ∈ trees, holds tree
  | .parameterType _ | .type _ | .typeAtom _ => True

end Curried
