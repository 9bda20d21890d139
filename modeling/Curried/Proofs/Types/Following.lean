import Curried.Proofs.Evaluation.Guards
import Curried.Proofs.Types.Native

/-!
# Types along an evaluation

The choice asks of its second branch only that a function there accepts what the one in the first
branch accepts, and hands it on as a function with the results of the first one.  So the type that
is computed for an expression may not be the one of its value.  Here types are followed along the
evaluation instead: they are computed as before, but a choice that takes its second branch hands on
the type of that branch.  A value always has the type that was followed for it.
-/

namespace Curried

/-- What a computation yields that succeeds. -/
theorem toOption_eq_some_iff {ε α : Type} {outcome : Except ε α} {value : α} :
    outcome.toOption = some value ↔ outcome = .ok value := by
  cases outcome <;> simp [Except.toOption]

/-! ### Computed types -/

namespace TypeScope

variable {depth less : Nat} {scope : TypeEnvironment} {functionType accepted type : Ty}

/-- What the types of a function and of its argument lead to, if both have one. -/
def leadsTo (depth : Nat) (scope : TypeEnvironment) (function accepted : Option Ty) : Option Ty := do
  (scope.applyWith (evaluateWithin depth) (← function) (← accepted)).toOption

theorem leadsTo_eq_some_iff {function argument : Option Ty} :
    leadsTo depth scope function argument = some type ↔
      ∃ functionType accepted, function = some functionType ∧ argument = some accepted ∧
        scope.applyWith (evaluateWithin depth) functionType accepted = .ok type := by
  cases function <;> cases argument <;> simp [leadsTo, toOption_eq_some_iff]

/-- More depth leaves the type of an application as it is. -/
theorem applyWith_of_less (enough : less ≤ depth)
    (applies : scope.applyWith (evaluateWithin less) functionType accepted = .ok type) :
    scope.applyWith (evaluateWithin depth) functionType accepted = .ok type := by
  have outlasts := applyWith_outlasts (evaluateWithin_outlasts enough) scope functionType accepted
    (by rw [applies]; exact nofun)
  exact outlasts.trans applies

end TypeScope

namespace Expression

/-- The type of an expression, if one can be computed with so much depth. -/
def type? (depth : Nat) (scope : TypeEnvironment) (expression : Expression) : Option Ty :=
  (TypeScope.evaluateWithin depth scope expression.typeExpression).toOption

/-- The type of the body of a binding, if what is bound has one. -/
def bodyType? (depth : Nat) (scope : TypeEnvironment) (name : String) (accepted : Option Ty)
    (body : Expression) : Option Ty := do
  body.type? depth (scope.bind name (← accepted))

variable {depth less : Nat} {scope : TypeEnvironment} {name : String} {type : Ty}
  {expression callee argument bound body : Expression}

theorem bodyType?_eq_some_iff {boundType : Option Ty} :
    bodyType? depth scope name boundType body = some type ↔
      ∃ accepted, boundType = some accepted ∧
        body.type? depth (scope.bind name accepted) = some type := by
  cases boundType <;> simp [bodyType?]

/-- More depth leaves a type as it is. -/
theorem type?_of_evaluateWithin (enough : less ≤ depth)
    (evaluates : TypeScope.evaluateWithin less scope expression.typeExpression = .ok type) :
    expression.type? depth scope = some type := by
  have outlasts := TypeScope.evaluateWithin_outlasts enough scope expression.typeExpression
    (by rw [evaluates]; exact nofun)
  exact toOption_eq_some_iff.2 (outlasts.trans evaluates)

theorem type?_of_applied (applied : expression.applied? = some (callee, argument)) :
    expression.type? depth scope = (Expression.apply callee argument).type? depth scope := by
  cases expression with
  | apply => cases applied; rfl
  | applyInfix => cases applied; rfl
  | _ => simp [applied?] at applied

/-- The types of the parts of an application that has one. -/
theorem types_of_applied (applied : expression.applied? = some (callee, argument))
    (computed : expression.type? depth scope = some type) :
    ∃ functionType accepted, callee.type? depth scope = some functionType ∧
      argument.type? depth scope = some accepted ∧
        scope.applyWith (TypeScope.evaluateWithin depth) functionType accepted = .ok type := by
  rw [type?_of_applied applied] at computed
  obtain ⟨_, functionType, accepted, enough, of_callee, of_argument, applies⟩ :=
    TypeScope.parts_of_evaluateWithin_apply (toOption_eq_some_iff.1 computed)
  exact ⟨functionType, accepted, type?_of_evaluateWithin enough of_callee,
    type?_of_evaluateWithin enough of_argument, TypeScope.applyWith_of_less enough applies⟩

/-- The types of the parts of a binding that has one. -/
theorem types_of_letIn
    (computed : (Expression.letIn name bound body).type? depth scope = some type) :
    ∃ accepted, bound.type? depth scope = some accepted ∧
      body.type? depth (scope.bind name accepted) = some type := by
  obtain ⟨_, accepted, enough, of_bound, of_body⟩ :=
    TypeScope.parts_of_evaluateWithin_letIn (toOption_eq_some_iff.1 computed)
  exact ⟨accepted, type?_of_evaluateWithin enough of_bound, type?_of_evaluateWithin enough of_body⟩

end Expression

/-! ### Following types -/

/-- Whether a value is the choice that waits for its second branch and is going to take it. -/
def Value.takesSecond : Value → Bool
  | .builtin native [.boolean false, _] => native.operation == .branch
  | _ => false

/-- A use of a function or of what is bound: a call or a binding. -/
structure Use where
  /-- The type that is computed for what it yields. -/
  computed : Option Ty
  /-- The type that the types lead to that were followed for its parts. -/
  followed : Option Ty

/-- The followed types lead to the computed type, or to another one of its kind. -/
def Use.Agrees (use : Use) : Prop :=
  use.followed ≠ use.computed → ∀ type, use.computed = some type →
    ∃ other, use.followed = some other ∧ other.SameKind type

theorem Use.Agrees.of_eq {use : Use} (same : use.followed = use.computed) : use.Agrees :=
  fun differ => absurd same differ

namespace Expression

/-- What is found where types are followed along an evaluation. -/
structure Followed where
  /-- The type that was followed for the value. -/
  type : Option Ty
  /-- The uses that the value is the result of: that of the expression itself, that of the body that
  is evaluated there, and so on. -/
  uses : List Use

/-- Follow types into a call.  A choice that takes its second branch hands on the type of that. -/
def followCall (follow : Environment → TypeEnvironment → Expression → Followed) (depth : Nat)
    (scope : TypeEnvironment) : Value → Value → Ty → Ty → Followed
  | .closure parameter body held, operand, .function _ _ _ origin, accepted =>
      follow (held.bind parameter operand) (origin.bind parameter accepted) body
  | called, _, functionType, accepted =>
      ⟨if called.takesSecond then some accepted else scope.leadsTo depth functionType accepted, []⟩

/-- Follow types along the evaluation of an expression, from types of the names around it. -/
def follow (depth : Nat) : Nat → Environment → TypeEnvironment → Expression → Followed
  | 0, _, _, _ => ⟨none, []⟩
  | budget + 1, bindings, scope, expression =>
      match expression with
      | .apply callee argument | .applyInfix callee argument =>
          let functionType := (follow depth budget bindings scope callee).type
          let accepted := (follow depth budget bindings scope argument).type
          let call : Followed :=
            match evaluateWithin budget bindings callee, evaluateWithin budget bindings argument,
              functionType, accepted with
            | .ok called, .ok operand, some functionType, some accepted =>
                followCall (follow depth budget) depth scope called operand functionType accepted
            | _, _, _, _ => ⟨none, []⟩
          -- the uses in the two parts are left out: the value is not their result
          ⟨call.type, ⟨expression.type? depth scope, scope.leadsTo depth functionType accepted⟩ ::
            call.uses⟩
      | .letIn name bound body =>
          let accepted := (follow depth budget bindings scope bound).type
          let rest : Followed :=
            match evaluateWithin budget bindings bound, accepted with
            | .ok value, some accepted =>
                follow depth budget (bindings.bind name value) (scope.bind name accepted) body
            | _, _ => ⟨none, []⟩
          ⟨rest.type, ⟨expression.type? depth scope, bodyType? depth scope name accepted body⟩ ::
            rest.uses⟩
      | .group inner => follow depth budget bindings scope inner
      | _ => ⟨expression.type? depth scope, []⟩

variable {depth budget : Nat} {bindings : Environment} {scope : TypeEnvironment}
  {expression callee argument bound body : Expression} {name : String} {value called operand : Value}
  {type functionType accepted : Ty}

theorem followCall_builtin {follow : Environment → TypeEnvironment → Expression → Followed}
    {native : Native} {arguments : List Value} :
    followCall follow depth scope (.builtin native arguments) operand functionType accepted =
      ⟨if (Value.builtin native arguments).takesSecond then some accepted
        else scope.leadsTo depth (some functionType) (some accepted), []⟩ := rfl

/-- Types are followed through an operator with its left operand as through any application. -/
theorem follow_eq_apply (applied : expression.applied? = some (callee, argument)) :
    follow depth (budget + 1) bindings scope expression =
      follow depth (budget + 1) bindings scope (.apply callee argument) := by
  cases expression with
  | apply => cases applied; rfl
  | applyInfix => cases applied; rfl
  | _ => simp [applied?] at applied

/-- Following types through an application. -/
theorem follow_of_applied (applied : expression.applied? = some (callee, argument))
    (of_callee : evaluateWithin budget bindings callee = .ok called)
    (of_argument : evaluateWithin budget bindings argument = .ok operand)
    (front : (follow depth budget bindings scope callee).type = some functionType)
    (behind : (follow depth budget bindings scope argument).type = some accepted) :
    follow depth (budget + 1) bindings scope expression =
      ⟨(followCall (follow depth budget) depth scope called operand functionType accepted).type,
        ⟨expression.type? depth scope, scope.leadsTo depth (some functionType) (some accepted)⟩ ::
          (followCall (follow depth budget) depth scope called operand functionType accepted).uses⟩ := by
  rw [follow_eq_apply applied, type?_of_applied applied]
  simp only [follow, of_callee, of_argument, front, behind]

/-- A type is only followed through an application whose parts have one. -/
theorem followed_of_applied (applied : expression.applied? = some (callee, argument))
    (found : (follow depth (budget + 1) bindings scope expression).type = some type) :
    ∃ functionType accepted, (follow depth budget bindings scope callee).type = some functionType ∧
      (follow depth budget bindings scope argument).type = some accepted := by
  rw [follow_eq_apply applied] at found
  simp only [follow] at found
  split at found
  · rename_i front behind
    exact ⟨_, _, front, behind⟩
  · cases found

/-- Following types through a binding. -/
theorem follow_of_letIn (of_bound : evaluateWithin budget bindings bound = .ok value)
    (front : (follow depth budget bindings scope bound).type = some accepted) :
    follow depth (budget + 1) bindings scope (.letIn name bound body) =
      ⟨(follow depth budget (bindings.bind name value) (scope.bind name accepted) body).type,
        ⟨(Expression.letIn name bound body).type? depth scope,
          bodyType? depth scope name (some accepted) body⟩ ::
          (follow depth budget (bindings.bind name value) (scope.bind name accepted) body).uses⟩ := by
  simp only [follow, of_bound, front]

/-- A type is only followed through a binding of something that has one. -/
theorem followed_of_letIn
    (found : (follow depth (budget + 1) bindings scope (.letIn name bound body)).type = some type) :
    ∃ accepted, (follow depth budget bindings scope bound).type = some accepted := by
  simp only [follow] at found
  split at found
  · rename_i front
    exact ⟨_, front⟩
  · cases found

end Expression

/-! ### Values have the types that were followed -/

namespace Value.Inhabits

variable {called operand value : Value} {functionType accepted type : Ty}
  {scope : TypeEnvironment} {depth calls : Nat}
  {run : Environment → Expression → Except EvaluationError Value}

/-- Calling a native function yields a value of the type that its type yields, but for a choice that
takes its second branch. -/
theorem of_native_call {native : Native} {arguments : List Value}
    (function_inhabits : (Value.builtin native arguments).Inhabits functionType)
    (operand_inhabits : operand.Inhabits accepted) (registry : scope.registry = .standard)
    (applies : scope.applyWith (TypeScope.evaluateWithin depth) functionType accepted = .ok type)
    (other_branch : (Value.builtin native arguments).takesSecond = false)
    (succeeds : callWith run calls (.builtin native arguments) operand = .ok value) :
    value.Inhabits type := by
  obtain ⟨⟨expression, declared⟩, _, _, body, _, _, waits⟩ := function_inhabits.function_of_builtin
  have length : (arguments ++ [operand]).length = arguments.length + 1 := by simp
  rw [callWith.eq_def] at succeeds
  simp only [length] at succeeds
  split at succeeds
  · rename_i more
    rw [← Except.ok.inj succeeds]
    exact .collected function_inhabits operand_inhabits more registry applies
  · rename_i full
    cases calls with
    | zero => simp at succeeds
    | succ calls =>
        simp only at succeeds
        rcases Native.arity_of_declared declared with two | rfl
        · obtain ⟨first, rfl⟩ := List.length_eq_one_iff.1 (by omega : arguments.length = 1)
          exact function_inhabits.result_of_two two applies succeeds
        · have two : arguments.length = 1 + 1 := by
            simp only at full waits
            omega
          obtain ⟨condition, rest, rfl⟩ := List.exists_cons_of_length_eq_add_one two
          obtain ⟨first, rfl⟩ := List.length_eq_one_iff.1 (Nat.succ.inj two)
          rcases Operation.eq_of_choose succeeds with ⟨_, rfl⟩ | ⟨rfl, _⟩
          · exact (function_inhabits.choice_type registry applies).1
          · cases other_branch

/-- A choice that takes its second branch yields that. -/
theorem eq_of_takesSecond {native : Native} {arguments : List Value}
    (function_inhabits : (Value.builtin native arguments).Inhabits functionType)
    (second_branch : (Value.builtin native arguments).takesSecond = true)
    (succeeds : callWith run calls (.builtin native arguments) operand = .ok value) :
    (∃ first, Value.builtin native arguments =
      .builtin ⟨"if", 3, .branch⟩ [.boolean false, first]) ∧ value = operand := by
  obtain ⟨⟨expression, declared⟩, _⟩ := function_inhabits.function_of_builtin
  unfold takesSecond at second_branch
  split at second_branch
  · rename_i choice first same
    cases same
    obtain rfl := Native.eq_choice declared (beq_iff_eq.1 second_branch)
    refine ⟨⟨first, rfl⟩, ?_⟩
    rw [callWith.eq_def] at succeeds
    cases calls with
    | zero => simp at succeeds
    | succ calls => simpa [Operation.perform, Operation.choose] using succeeds.symm
  · cases second_branch

/-- What a call yields has the type that is followed into the call. -/
theorem of_followCall {follow : Environment → TypeEnvironment → Expression → Expression.Followed}
    (function_inhabits : called.Inhabits functionType) (operand_inhabits : operand.Inhabits accepted)
    (registry : scope.registry = .standard)
    (bodies : ∀ ⦃bindings origin body value type⦄, TypeScope.Describes origin bindings →
      run bindings body = .ok value → (follow bindings origin body).type = some type →
        value.Inhabits type)
    (succeeds : callWith run calls called operand = .ok value)
    (found : (Expression.followCall follow depth scope called operand functionType accepted).type =
      some type) :
    value.Inhabits type := by
  cases called with
  | closure parameter body held =>
      obtain ⟨_, origin, describes, rfl⟩ := function_inhabits.closure_cases
      rw [callWith.eq_def] at succeeds
      exact bodies (describes.bind operand_inhabits parameter) succeeds found
  | builtin native arguments =>
      rw [Expression.followCall_builtin] at found
      split at found
      · rename_i second_branch
        obtain rfl := Option.some.inj found
        rw [(function_inhabits.eq_of_takesSecond second_branch succeeds).2]
        exact operand_inhabits
      · rename_i other_branch
        exact function_inhabits.of_native_call operand_inhabits registry
          (toOption_eq_some_iff.1 found) (by simpa using other_branch) succeeds
  | _ => simp [callWith] at succeeds

/-- A value has the type that was followed for it, by induction on the depth of the evaluation. -/
theorem of_follow {budget : Nat} {bindings : Environment} {expression : Expression}
    (describes : scope.Describes bindings)
    (evaluates : Expression.evaluateWithin budget bindings expression = .ok value)
    (found : (Expression.follow depth budget bindings scope expression).type = some type) :
    value.Inhabits type := by
  induction budget generalizing bindings scope expression value type with
  | zero => simp [Expression.evaluateWithin] at evaluates
  | succ budget ih =>
      have application {callee argument : Expression}
          (applied : expression.applied? = some (callee, argument)) : value.Inhabits type := by
        rw [Expression.evaluateWithin_of_applied applied] at evaluates
        obtain ⟨called, operand, of_callee, _, of_argument, succeeds⟩ :=
          Expression.parts_of_applyWith evaluates
        obtain ⟨functionType, accepted, front, behind⟩ :=
          Expression.followed_of_applied applied found
        rw [Expression.follow_of_applied applied of_callee of_argument front behind] at found
        exact (ih describes of_callee front).of_followCall (ih describes of_argument behind)
          describes.registry (fun _ _ _ _ _ => ih) succeeds found
      have data {name : String} (constant : expression.typeExpression = .named name)
          (same : value.typeName = name) (leaf : expression.type? depth scope = some type) :
          value.Inhabits type := by
        have evaluates_type := toOption_eq_some_iff.1 leaf
        exact of_named describes.registry same (constant ▸ evaluates_type)
      cases expression with
      | number => exact data rfl (by cases evaluates; rfl) found
      | string => exact data rfl (by cases evaluates; rfl) found
      | boolean => exact data rfl (by cases evaluates; rfl) found
      | null => exact data rfl (by cases evaluates; rfl) found
      | list items =>
          rw [Expression.evaluateWithin] at evaluates
          refine data rfl ?_ found
          cases computed : items.mapM (Expression.evaluateWithin budget bindings) with
          | error => simp [computed, Except.map] at evaluates
          | ok values =>
              rw [computed] at evaluates
              cases evaluates
              rfl
      | identifier name =>
          cases evaluates
          exact describes.read
            (TypeScope.lookup_of_evaluateWithin_typeOf (toOption_eq_some_iff.1 found))
      | operator symbol =>
          cases evaluates
          exact describes.read
            (TypeScope.lookup_of_evaluateWithin_typeOf (toOption_eq_some_iff.1 found))
      | apply => exact application rfl
      | applyInfix => exact application rfl
      | letIn name bound body =>
          rw [Expression.evaluateWithin] at evaluates
          obtain ⟨operand, of_bound, of_body⟩ := ok_parts_of_bind evaluates
          obtain ⟨accepted, front⟩ := Expression.followed_of_letIn found
          rw [Expression.follow_of_letIn of_bound front] at found
          exact ih (describes.bind (ih describes of_bound front) name) of_body found
      | function parameter declared body =>
          cases evaluates
          obtain ⟨_, accepted, _, rfl⟩ :=
            TypeScope.eq_of_evaluateWithin_labelled (toOption_eq_some_iff.1 found)
          exact of_closure describes accepted
      | group inner => exact ih describes evaluates found

end Value.Inhabits

end Curried
