import Curried.Proofs.Evaluation.Arity
import Curried.Proofs.Number.Equality

/-!
# Equality of values

Values are compared item by item down to their numbers and texts.  A function and a double that is
no number are equal to nothing; so equality is symmetric and transitive, but a value is equal to
itself only if neither of them is anywhere in it.
-/

namespace Curried.Value

/-- Whether a value is the double that is no number. -/
def isNaN : Value → Bool
  | .number value => value.isNaN
  | _ => false

variable {value part : Value} {items : List Value}

mutual

theorem same_symm : ∀ {left right : Value}, left.same right = true → right.same left = true
  | .undefined, .undefined, _ | .null, .null, _ => rfl
  | .boolean left, .boolean right, equal => BEq.symm (a := left) (b := right) equal
  | .number left, .number right, equal => BEq.symm (a := left) (b := right) equal
  | .string left, .string right, equal => BEq.symm (a := left) (b := right) equal
  | .list _, .list _, equal => sameItems_symm equal

theorem sameItems_symm : ∀ {items others : List Value}, sameItems items others = true →
    sameItems others items = true
  | [], [], _ => rfl
  | item :: items, other :: others, equal => by
      rw [sameItems, Bool.and_eq_true] at equal ⊢
      exact ⟨same_symm equal.1, sameItems_symm equal.2⟩

end

mutual

theorem same_trans : ∀ {left middle right : Value}, left.same middle = true →
    middle.same right = true → left.same right = true
  | .undefined, .undefined, .undefined, _, _ | .null, .null, .null, _, _ => rfl
  | .boolean left, .boolean middle, .boolean right, first, second =>
      BEq.trans (a := left) (b := middle) (c := right) first second
  | .number left, .number middle, .number right, first, second =>
      BEq.trans (a := left) (b := middle) (c := right) first second
  | .string left, .string middle, .string right, first, second =>
      BEq.trans (a := left) (b := middle) (c := right) first second
  | .list _, .list _, .list _, first, second => sameItems_trans first second

theorem sameItems_trans : ∀ {items others last : List Value}, sameItems items others = true →
    sameItems others last = true → sameItems items last = true
  | [], [], [], _, _ => rfl
  | _ :: _, _ :: _, _ :: _, first, second => by
      rw [sameItems, Bool.and_eq_true] at first second ⊢
      exact ⟨same_trans first.1 second.1, sameItems_trans first.2 second.2⟩

end

instance : PartialEquivBEq Value where
  symm := same_symm
  trans := same_trans

/-! ### Values that are equal to themselves -/

theorem sameItems_self_iff :
    sameItems items items = true ↔ ∀ item ∈ items, item.same item = true := by
  induction items with
  | nil => simp [sameItems]
  | cons item items ih => rw [sameItems, Bool.and_eq_true, ih, List.forall_mem_cons]

/-- A value is equal to itself only if each part of it is. -/
theorem same_part (equal : value.same value = true) (isPart : part.IsPart value) :
    part.same part = true := by
  induction isPart with
  | self => exact equal
  | item member _ ih => exact ih (sameItems_self_iff.1 equal _ member)
  | argument | bound => cases equal

theorem isNaN_eq_false_of_same (equal : value.same value = true) :
    value.isFunction = false ∧ value.isNaN = false := by
  cases value with
  | number => exact ⟨rfl, Number.beq_self_iff.1 equal⟩
  | closure | builtin => cases equal
  | undefined | null | boolean | string | list => exact ⟨rfl, rfl⟩

theorem same_self : ∀ {value : Value},
    (∀ part : Value, part.IsPart value → part.isFunction = false ∧ part.isNaN = false) →
      value.same value = true
  | .undefined, _ | .null, _ => rfl
  | .boolean truth, _ => BEq.rfl (a := truth)
  | .string content, _ => BEq.rfl (a := content)
  | .number _, numeric => Number.beq_self_iff.2 (numeric _ (.self _)).2
  | .list _, plain => sameItems_self_iff.2 fun _ member =>
      same_self fun part isPart => plain part (.item member isPart)
  | .closure _ _ _, plain | .builtin _ _, plain => nomatch (plain _ (.self _)).1

/-! ### The native functions -/

/-- Equality of values is symmetric and transitive, and a value is equal to itself exactly if there
is no function and no NaN anywhere in it.  The two native functions that test it take any two
values, one at a time, and yield opposite answers. -/
theorem equality_coherent :
    (∀ left right : Value, (left == right) = (right == left)) ∧
    (∀ left middle right : Value, (left == middle) = true → (middle == right) = true →
      (left == right) = true) ∧
    (∀ value : Value, (value == value) = true ↔
      ∀ part : Value, part.IsPart value → part.isFunction = false ∧ part.isNaN = false) ∧
    ∀ (run : Environment → Expression → Except EvaluationError Value) (calls : Nat)
      (left right : Value),
      Operation.callAll (callWith run (calls + 1)) (Expression.read Native.environment "(==)")
          [left, right] = .ok (.boolean (left == right)) ∧
      Operation.callAll (callWith run (calls + 1)) (Expression.read Native.environment "(!=)")
          [left, right] = .ok (.boolean !(left == right)) := by
  refine ⟨fun _ _ => BEq.comm, fun _ _ _ => BEq.trans, fun value => ⟨?_, same_self⟩, ?_⟩
  · exact fun equal part isPart => isNaN_eq_false_of_same (same_part equal isPart)
  · intro run calls left right
    have equal : Expression.read Native.environment "(==)" = Native.value ⟨"(==)", 2, .equal⟩ := rfl
    have different :
        Expression.read Native.environment "(!=)" = Native.value ⟨"(!=)", 2, .different⟩ := rfl
    rw [equal, different, callAll_pair rfl, callAll_pair rfl]
    simp [Operation.perform, Operation.equality]

/-- Lists that differ in the sign of a zero are equal, each to itself as well; a list with a NaN
inside of it differs from itself. -/
theorem equality_coherent_nested :
    let above : Value := .list [.number 0.0, .list [.string "a"]]
    let below : Value := .list [.number (-0.0), .list [.string "a"]]
    let hidden : Value := .list [.null, .list [.number (0.0 / 0.0)]]
    let differ := Expression.read Native.environment "(!=)"
    (above == below) = true ∧ (below == above) = true ∧ (above == above) = true ∧
      (hidden == hidden) = false ∧
      Operation.callAll call differ [hidden, hidden] = .ok (.boolean true) := by
  intro above below hidden differ
  obtain ⟨symm, trans, reflexive, natives⟩ := equality_coherent
  have equal : (above == below) = true := by decide +kernel
  have back : (below == above) = true := (symm below above).trans equal
  have unequal : (hidden == hidden) = false := by
    refine Bool.eq_false_iff.2 fun same => ?_
    have isPart : IsPart (.number (0.0 / 0.0)) hidden :=
      .item (.tail _ (.head _)) (.item (.head _) (.self _))
    have numeric := ((reflexive hidden).1 same _ isPart).2
    exact absurd numeric (by decide +kernel)
  have differs := (natives (Expression.evaluateWithin depthLimit) 9999 hidden hidden).2
  rw [unequal] at differs
  exact ⟨equal, back, trans above below above equal back, unequal, differs⟩

end Curried.Value
