import Curried.Proofs.Types.Following

/-!
# Types are preserved

The value of an expression has the type that was computed for the expression, as long as the types
that were followed lead to types of the same kind wherever they differ from the computed ones.  Only
the uses count that the value is the result of; types that went astray in a part of the evaluation
do no harm unless they are used there.
-/

namespace Curried

namespace Ty

/-- What is accepted where a type of some value is expected is of the kind of that type. -/
theorem sameKind_of_reduce {first : Value} {own accepted type : Ty}
    (inhabits : first.Inhabits own)
    (reduces : Registry.standard.reduce own accepted = .ok type) : accepted.SameKind own := by
  cases own with
  | named id =>
      have data := Registry.isData_of_lookup_typeName inhabits.lookup_of_named
      rw [Registry.eq_of_reduce_standard data reduces]
  | function =>
      cases accepted with
      | named => exact absurd reduces Registry.isFunction_of_reduce
      | function => trivial

end Ty

namespace Value.Inhabits

variable {called operand value : Value} {functionType accepted type : Ty}
  {scope : TypeEnvironment} {depth calls : Nat}
  {run : Environment → Expression → Except EvaluationError Value}

/-- Types are followed into the body of a closure, or a choice hands on the type of its second
branch, or what the types before the call lead to is handed on. -/
theorem followCall_cases (follow : Environment → TypeEnvironment → Expression → Expression.Followed)
    (function_inhabits : called.Inhabits functionType) (operand_inhabits : operand.Inhabits accepted)
    (registry : scope.registry = .standard)
    (applies : scope.applyWith (TypeScope.evaluateWithin depth) functionType accepted = .ok type)
    (succeeds : callWith run calls called operand = .ok value) :
    (∃ parameter body held origin, called = .closure parameter body held ∧
      TypeScope.Describes origin (held.bind parameter operand) ∧
      body.type? depth origin = some type ∧ run (held.bind parameter operand) body = .ok value ∧
      Expression.followCall follow depth scope called operand functionType accepted =
        follow (held.bind parameter operand) origin body) ∨
    (called.takesSecond = true ∧ accepted.SameKind type ∧
      Expression.followCall follow depth scope called operand functionType accepted =
        ⟨some accepted, []⟩) ∨
    Expression.followCall follow depth scope called operand functionType accepted =
      ⟨some type, []⟩ := by
  cases called with
  | closure parameter body held =>
      obtain ⟨_, origin, describes, rfl⟩ := function_inhabits.closure_cases
      rw [callWith.eq_def] at succeeds
      have of_body : body.type? depth (origin.bind parameter accepted) = some type :=
        toOption_eq_some_iff.2 (TypeScope.applyWith_function applies).2
      have inside := describes.bind operand_inhabits parameter
      exact .inl ⟨parameter, body, held, _, rfl, inside, of_body, succeeds, rfl⟩
  | builtin native arguments =>
      rw [Expression.followCall_builtin]
      split
      · rename_i second_branch
        obtain ⟨⟨first, same⟩, _⟩ := function_inhabits.eq_of_takesSecond second_branch succeeds
        rw [same] at function_inhabits
        obtain ⟨first_inhabits, reduces⟩ := function_inhabits.choice_type registry applies
        exact .inr (.inl ⟨second_branch, Ty.sameKind_of_reduce first_inhabits reduces, rfl⟩)
      · rw [TypeScope.leadsTo_eq_some_iff.2 ⟨_, _, rfl, rfl, applies⟩]
        exact .inr (.inr rfl)
  | _ => simp [callWith] at succeeds

end Value.Inhabits

namespace Occasion

/-- Every choice in the evaluation that takes its second branch finds data there. -/
def TakesData (occasion : Occasion) : Prop :=
  ∀ ⦃later⦄, occasion.Reaches later → ∀ ⦃called operand⦄, later.Calls called operand →
    called.takesSecond = true → operand.isFunction = false

theorem TakesData.of_starts {occasion next : Occasion} (data : occasion.TakesData)
    (starts : occasion.Starts next) : next.TakesData :=
  fun _ reaches => data (.head starts reaches)

end Occasion

namespace Expression

variable {depth budget : Nat} {bindings : Environment} {scope : TypeEnvironment}
  {expression : Expression} {value : Value} {type : Ty}

/-- Where choices take no functions from their second branches, the types that are followed are the
computed ones, and all uses agree. -/
theorem follow_of_takesData (describes : scope.Describes bindings)
    (computed : expression.type? depth scope = some type)
    (evaluates : evaluateWithin budget bindings expression = .ok value)
    (data : Occasion.TakesData ⟨budget, bindings, expression⟩) :
    (follow depth budget bindings scope expression).type = some type ∧
      ∀ use ∈ (follow depth budget bindings scope expression).uses, use.Agrees := by
  induction budget generalizing bindings scope expression value type with
  | zero => simp [evaluateWithin] at evaluates
  | succ budget ih =>
      have application {callee argument : Expression}
          (applied : expression.applied? = some (callee, argument)) :
          (follow depth (budget + 1) bindings scope expression).type = some type ∧
            ∀ use ∈ (follow depth (budget + 1) bindings scope expression).uses, use.Agrees := by
        obtain ⟨functionType, accepted, of_function, of_accepted, applies⟩ :=
          types_of_applied applied computed
        rw [evaluateWithin_of_applied applied] at evaluates
        obtain ⟨called, operand, of_callee, callable, of_argument, succeeds⟩ :=
          parts_of_applyWith evaluates
        have front := (ih describes of_function of_callee (data.of_starts (.callee applied))).1
        have behind := (ih describes of_accepted of_argument
          (data.of_starts (.argument applied of_callee callable))).1
        have leads := TypeScope.leadsTo_eq_some_iff.2 ⟨_, _, rfl, rfl, applies⟩
        have here : Occasion.Calls ⟨budget + 1, bindings, expression⟩ called operand :=
          .intro applied of_callee callable of_argument
        have function_inhabits : called.Inhabits functionType := .of_follow describes of_callee front
        have operand_inhabits : operand.Inhabits accepted := .of_follow describes of_argument behind
        rw [follow_of_applied applied of_callee of_argument front behind, computed, leads]
        have agrees : Use.Agrees ⟨some type, some type⟩ := .of_eq rfl
        rcases function_inhabits.followCall_cases (follow depth budget) operand_inhabits
            describes.registry applies succeeds with
          ⟨parameter, body, held, origin, rfl, inside, of_body, rest, call⟩ |
            ⟨second_branch, kind, call⟩ | call
        · rw [call]
          obtain ⟨followed, agree⟩ := ih inside of_body rest (data.of_starts (.called here))
          exact ⟨followed, List.forall_mem_cons.2 ⟨agrees, agree⟩⟩
        · obtain ⟨id, rfl, _⟩ := operand_inhabits.eq_named (data .refl here second_branch)
          rw [call, kind.symm.eq_named]
          exact ⟨rfl, List.forall_mem_singleton.2 (.of_eq rfl)⟩
        · rw [call]
          exact ⟨rfl, List.forall_mem_singleton.2 agrees⟩
      cases expression with
      | apply => exact application rfl
      | applyInfix => exact application rfl
      | letIn name bound body =>
          obtain ⟨accepted, of_accepted, of_body⟩ := types_of_letIn computed
          rw [evaluateWithin] at evaluates
          obtain ⟨operand, of_bound, rest⟩ := ok_parts_of_bind evaluates
          have front := (ih describes of_accepted of_bound (data.of_starts .bound)).1
          have leads := bodyType?_eq_some_iff.2 ⟨accepted, rfl, of_body⟩
          have inside := describes.bind (.of_follow describes of_bound front) name
          obtain ⟨followed, agree⟩ := ih inside of_body rest (data.of_starts (.body of_bound))
          rw [follow_of_letIn of_bound front, computed, leads]
          exact ⟨followed, List.forall_mem_cons.2 ⟨.of_eq rfl, agree⟩⟩
      | group inner => exact ih describes computed evaluates (data.of_starts .inner)
      | _ => exact ⟨computed, List.forall_mem_nil _⟩

/-- A choice between two functions, applied to an argument: `(if false first second) argument`. -/
def chosen (first second argument : Expression) : Expression :=
  .apply (.group (.apply (.apply (.apply (.identifier "if") (.boolean false)) first) second)) argument

end Expression

end Curried
