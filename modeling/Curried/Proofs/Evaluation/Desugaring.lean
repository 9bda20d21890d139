import Curried.Native
import Curried.Proofs.Evaluation.Correspondence

/-!
# Desugaring

Groups, operators between operands and local bindings add no meaning of their own: a group is what
it encloses, an operator is the name in parentheses that it stands for, and a local binding is the
call of a function.  Desugaring writes them so.

A closure keeps the body it was written with, so the two values are not equal; they correspond,
with the bodies of closures desugared.  Desugaring never needs more depth: it drops the level of a
group, and the function that takes the place of a local binding is evaluated at the level of what is
bound.
-/

namespace Curried

namespace Expression

mutual

/-- The expression without groups, operators and local bindings. -/
def desugared : Expression → Expression
  | .number value => .number value
  | .string content => .string content
  | .boolean value => .boolean value
  | .null => .null
  | .list items => .list (desugaredItems items)
  | .identifier name => .identifier name
  | .operator symbol => .identifier (operatorName symbol)
  | .apply callee argument => .apply callee.desugared argument.desugared
  | .applyInfix sign operand => .apply sign.desugared operand.desugared
  | .letIn name bound body => .apply (.function name none body.desugared) bound.desugared
  | .function parameter declared body => .function parameter declared body.desugared
  | .group inner => inner.desugared

/-- The items of a list, each one desugared. -/
def desugaredItems : List Expression → List Expression
  | [] => []
  | item :: others => item.desugared :: desugaredItems others

end

/-- Closures with the same parameter, one body the desugared form of the other, and bindings that
correspond name by name. -/
def desugaring : Pairing where
  bodies body other := other = body.desugared
  reads _ _ _ := True

/-- The two environments bind the same names, to corresponding values. -/
def Desugars (environment other : Environment) : Prop :=
  ∀ name, Option.Rel (Value.Corresponds desugaring) (environment.lookup name) (other.lookup name)

section

variable {environment other : Environment} {name : String} {value value' : Value}

theorem Desugars.empty : Desugars .empty .empty := fun _ => .none

theorem Desugars.bind (both : Desugars environment other)
    (values : value.Corresponds desugaring value') :
    Desugars (environment.bind name value) (other.bind name value') :=
  fun looked => lookup_bind_corresponds values fun _ => both looked

theorem desugars_native : Desugars Native.environment Native.environment := by
  have folds (natives : List Native) : ∀ environment other, Desugars environment other →
      Desugars (natives.foldl (fun bindings native => bindings.bind native.name native.value)
          environment)
        (natives.foldl (fun bindings native => bindings.bind native.name native.value) other) := by
    induction natives with
    | nil => exact fun _ _ both => both
    | cons native _ ih => exact fun _ _ both => ih _ _ (both.bind (.builtin native .nil))
  exact folds Native.library _ _ .empty

/-- A function that is called where it is written binds its parameter in its body. -/
theorem applyWith_function (budget calls : Nat) (environment : Environment) (parameter : String)
    (declared : Option TypeExpression) (body argument : Expression) :
    applyWith (evaluateWithin (budget + 1) environment)
        (Value.callWith (evaluateWithin (budget + 1)) calls) (.function parameter declared body)
        argument =
      evaluateWithin (budget + 1) environment argument >>= fun value =>
        evaluateWithin (budget + 1) (environment.bind parameter value) body := by
  have call (value : Value) : Value.callWith (evaluateWithin (budget + 1)) calls
      (.closure parameter body environment) value =
        evaluateWithin (budget + 1) (environment.bind parameter value) body := by
    rw [Value.callWith.eq_def]
  rw [applyWith, evaluateWithin]
  simp only [bind, Except.bind, Value.isFunction, if_true, call]

/-- The desugared expression is evaluated as the expression is, with no more depth. -/
theorem evaluateWithin_desugared {budget budget' : Nat} (expression : Expression)
    (enough : budget ≤ budget') (both : Desugars environment other) :
    Mirrors (Value.Corresponds desugaring) (evaluateWithin budget environment expression)
      (evaluateWithin budget' other expression.desugared) := by
  induction budget generalizing budget' environment other expression with
  | zero => exact .cut _
  | succ budget ih =>
      obtain ⟨budget', rfl⟩ : ∃ fewer, budget' = fewer + 1 := ⟨budget' - 1, by omega⟩
      have fewer : budget ≤ budget' := Nat.le_of_succ_le_succ enough
      have calls : Operation.CallsMirror desugaring
          (Value.callWith (evaluateWithin budget) Value.nativeCallLimit)
          (Value.callWith (evaluateWithin budget') Value.nativeCallLimit) := by
        refine Value.callWith_mirrors (fun _ body _ _ _ _ _ closures operands => ?_) _
        cases closures with
        | closure paired held =>
            subst paired
            exact ih body fewer (Desugars.bind (fun name => held name trivial) operands)
      cases expression with
      | number value => exact .ok (.number value)
      | string content => exact .ok (.string content)
      | boolean value => exact .ok (.boolean value)
      | null => exact .ok .null
      | list items =>
          rw [desugared, evaluateWithin, evaluateWithin]
          refine Mirrors.map (Mirrors.mapM (?_ : List.Forall₂ _ items (desugaredItems items)))
            fun _ _ all => .list all
          induction items with
          | nil => exact .nil
          | cons item _ items_ih => exact .cons (ih item fewer both) items_ih
      | identifier name => exact .ok (read_corresponds (both name))
      | operator symbol => exact .ok (read_corresponds (both (operatorName symbol)))
      | apply callee argument =>
          exact applyWith_mirrors (ih callee fewer both) (ih argument fewer both) calls
      | applyInfix sign operand =>
          exact applyWith_mirrors (ih sign fewer both) (ih operand fewer both) calls
      | letIn name bound body =>
          rw [evaluateWithin, desugared, evaluateWithin]
          cases budget with
          | zero => exact .cut _
          | succ budget =>
              obtain ⟨budget', rfl⟩ : ∃ fewer, budget' = fewer + 1 := ⟨budget' - 1, by omega⟩
              rw [applyWith_function]
              exact (ih bound fewer both).bind fun _ _ values => ih body fewer (both.bind values)
      | function parameter declared body => exact .ok (.closure rfl fun name _ => both name)
      | group inner =>
          rw [evaluateWithin, desugared]
          exact ih inner (Nat.le_succ_of_le fewer) both

end

/-- The desugared expression has the corresponding value, and it fails with the same error where the
expression does, unless the expression nests too deep. -/
theorem evaluate_desugared (expression : Expression) :
    (∀ value, expression.evaluate Native.environment = .ok value →
      ∃ other, expression.desugared.evaluate Native.environment = .ok other ∧
        value.Corresponds desugaring other) ∧
    ∀ error, expression.evaluate Native.environment = .error error → error ≠ .depthExceeded →
      expression.desugared.evaluate Native.environment = .error error := by
  have mirrors := evaluateWithin_desugared expression (Nat.le_refl depthLimit) desugars_native
  constructor
  · intro value succeeds
    rw [evaluate] at succeeds ⊢
    rw [succeeds] at mirrors
    exact mirrors.of_ok
  · intro error fails within
    rw [evaluate] at fails ⊢
    rw [fails] at mirrors
    exact mirrors.of_error within

/-- A local binding and a group in it: the identity function keeps the group in its body, and `null`
is no function with or without sugar. -/
theorem evaluate_desugared_letIn :
    (∃ other, (letIn "f" (.function "x" none (.group (.identifier "x")))
        (.identifier "f")).desugared.evaluate Native.environment = .ok other ∧
      (Value.closure "x" (.group (.identifier "x")) Native.environment).Corresponds desugaring
        other) ∧
    (letIn "x" .null (.apply (.group (.identifier "x")) .null)).desugared.evaluate
      Native.environment = .error (.notAFunction "null") :=
  ⟨(evaluate_desugared _).1 _ rfl, (evaluate_desugared _).2 _ rfl (by decide)⟩

end Expression

end Curried
