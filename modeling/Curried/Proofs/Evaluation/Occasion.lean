import Curried.Evaluation
import Mathlib.Logic.Relation

/-!
# Evaluations taken apart

An evaluation starts others: of the parts of its expression, and of the bodies of the closures that
it calls.  What happens in a run is what happens in one of the evaluations that it comes to, whether
it yields a value in the end or not.
-/

namespace Curried

/-- A computation in two parts that succeeds is two computations that succeed. -/
theorem ok_parts_of_bind {ε α β : Type} {first : Except ε α} {second : α → Except ε β} {result : β}
    (succeeds : first >>= second = .ok result) :
    ∃ value, first = .ok value ∧ second value = .ok result := by
  cases first with
  | error error => exact (nomatch succeeds)
  | ok value => exact ⟨value, rfl, succeeds⟩

namespace Expression

/-- The function and the argument of an application, with or without an operator. -/
def applied? : Expression → Option (Expression × Expression)
  | .apply callee argument | .applyInfix callee argument => some (callee, argument)
  | _ => none

variable {budget : Nat} {bindings : Environment} {expression callee argument : Expression}
  {value : Value}

theorem evaluateWithin_of_applied (applied : expression.applied? = some (callee, argument)) :
    evaluateWithin (budget + 1) bindings expression =
      applyWith (evaluateWithin budget bindings)
        (Value.callWith (evaluateWithin budget) Value.nativeCallLimit) callee argument := by
  cases expression with
  | apply => cases applied; rw [evaluateWithin]
  | applyInfix => cases applied; rw [evaluateWithin]
  | _ => simp [applied?] at applied

/-- An application that has a value calls a function with the value of its argument. -/
theorem parts_of_applyWith {evaluate : Expression → Except EvaluationError Value} {call : Caller}
    (applies : applyWith evaluate call callee argument = .ok value) :
    ∃ function operand, evaluate callee = .ok function ∧ function.isFunction = true ∧
      evaluate argument = .ok operand ∧ call function operand = .ok value := by
  obtain ⟨function, first, rest⟩ := ok_parts_of_bind applies
  split at rest
  · rename_i callable
    obtain ⟨operand, second, calls⟩ := ok_parts_of_bind rest
    exact ⟨function, operand, first, callable, second, calls⟩
  · simp at rest

end Expression

/-- An evaluation: how deep evaluations may nest, the bindings around it and the expression. -/
structure Occasion where
  /-- How many levels deep evaluations may nest. -/
  budget : Nat
  /-- The bindings around the expression. -/
  bindings : Environment
  /-- What is evaluated. -/
  expression : Expression

namespace Occasion

/-- What the evaluation yields. -/
def result (occasion : Occasion) : Except EvaluationError Value :=
  Expression.evaluateWithin occasion.budget occasion.bindings occasion.expression

/-- The evaluation calls a function with an argument. -/
inductive Calls : Occasion → Value → Value → Prop where
  | intro {budget : Nat} {bindings : Environment} {expression callee argument : Expression}
      {function operand : Value} :
      expression.applied? = some (callee, argument) →
      result ⟨budget, bindings, callee⟩ = .ok function → function.isFunction = true →
      result ⟨budget, bindings, argument⟩ = .ok operand →
        Calls ⟨budget + 1, bindings, expression⟩ function operand

/-- The first evaluation comes to the second one as a part of it: what is evaluated before it has
a value. -/
inductive Starts : Occasion → Occasion → Prop where
  | callee {budget : Nat} {bindings : Environment} {expression callee argument : Expression} :
      expression.applied? = some (callee, argument) →
        Starts ⟨budget + 1, bindings, expression⟩ ⟨budget, bindings, callee⟩
  | argument {budget : Nat} {bindings : Environment} {expression callee argument : Expression}
      {function : Value} :
      expression.applied? = some (callee, argument) →
      result ⟨budget, bindings, callee⟩ = .ok function → function.isFunction = true →
        Starts ⟨budget + 1, bindings, expression⟩ ⟨budget, bindings, argument⟩
  | called {budget : Nat} {bindings held : Environment} {expression body : Expression}
      {parameter : String} {operand : Value} :
      Calls ⟨budget + 1, bindings, expression⟩ (.closure parameter body held) operand →
        Starts ⟨budget + 1, bindings, expression⟩ ⟨budget, held.bind parameter operand, body⟩
  | bound {budget : Nat} {bindings : Environment} {name : String} {bound body : Expression} :
      Starts ⟨budget + 1, bindings, .letIn name bound body⟩ ⟨budget, bindings, bound⟩
  | body {budget : Nat} {bindings : Environment} {name : String} {bound body : Expression}
      {value : Value} :
      result ⟨budget, bindings, bound⟩ = .ok value →
        Starts ⟨budget + 1, bindings, .letIn name bound body⟩
          ⟨budget, bindings.bind name value, body⟩
  | inner {budget : Nat} {bindings : Environment} {inner : Expression} :
      Starts ⟨budget + 1, bindings, .group inner⟩ ⟨budget, bindings, inner⟩
  | item {budget : Nat} {bindings : Environment} {before after : List Expression}
      {item : Expression} {values : List Value} :
      before.mapM (Expression.evaluateWithin budget bindings) = .ok values →
        Starts ⟨budget + 1, bindings, .list (before ++ item :: after)⟩ ⟨budget, bindings, item⟩

/-- The first evaluation comes to the second one, at any depth. -/
def Reaches : Occasion → Occasion → Prop := Relation.ReflTransGen Starts

theorem Starts.exists_reaches {first second : Occasion} {holds : Occasion → Prop}
    (starts : first.Starts second)
    (reached : ∃ occasion, second.Reaches occasion ∧ holds occasion) :
    ∃ occasion, first.Reaches occasion ∧ holds occasion := by
  obtain ⟨occasion, reaches, here⟩ := reached
  exact ⟨occasion, .head starts reaches, here⟩

end Occasion

end Curried
