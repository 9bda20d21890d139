import Curried.Proofs.Types.Preservation

/-!
# Programs that go wrong

An evaluation goes wrong if it fails other than by nesting too deep.  Where the type of an
expression could be computed, three things are left that can go wrong, because the types do not look
at them:

* the items of a list, since every list has the type `list`;
* the operands of addition and of the comparisons, which only have to be of one type;
* the use of a function that a choice took from its second branch, of which only the parameter was
  compared with the first branch.

To say so, an evaluation is taken apart into the evaluations that it comes to.
-/

namespace Curried

namespace Occasion

/-- The expression has a type where the types of names describe its bindings. -/
def Typed (occasion : Occasion) : Prop :=
  ∃ (depth : Nat) (scope : TypeEnvironment) (type : Ty), scope.Describes occasion.bindings ∧
    occasion.expression.type? depth scope = some type

open Expression in
/-- The expression has a type, but however the names in it are typed, the types that are followed for
its parts lead to none. -/
inductive Astray : Occasion → Prop where
  /-- The function of a call has a value, and so has the argument if the function can be called. -/
  | call {budget : Nat} {bindings : Environment} {expression callee argument : Expression}
      {function : Value} :
      expression.applied? = some (callee, argument) → Typed ⟨budget + 1, bindings, expression⟩ →
      (∀ (depth : Nat) (scope : TypeEnvironment), scope.Describes bindings →
        scope.leadsTo depth (follow depth budget bindings scope callee).type
          (follow depth budget bindings scope argument).type = none) →
      result ⟨budget, bindings, callee⟩ = .ok function →
      (function.isFunction = true → ∃ operand, result ⟨budget, bindings, argument⟩ = .ok operand) →
        Astray ⟨budget + 1, bindings, expression⟩
  /-- What is bound has a value. -/
  | binding {budget : Nat} {bindings : Environment} {name : String} {bound body : Expression}
      {value : Value} :
      Typed ⟨budget + 1, bindings, .letIn name bound body⟩ →
      (∀ (depth : Nat) (scope : TypeEnvironment), scope.Describes bindings →
        bodyType? depth scope name (follow depth budget bindings scope bound).type body = none) →
      result ⟨budget, bindings, bound⟩ = .ok value →
        Astray ⟨budget + 1, bindings, .letIn name bound body⟩

/-- Types only go astray where a choice takes a function from its second branch. -/
theorem Astray.not_takesData {occasion : Occasion} (astray : occasion.Astray) :
    ¬ occasion.TakesData := by
  intro data
  cases astray with
  | @call budget bindings expression callee argument function applied typed nowhere of_callee
      of_argument =>
      obtain ⟨depth, scope, type, describes, computed⟩ := typed
      obtain ⟨functionType, accepted, of_function, of_accepted, applies⟩ :=
        Expression.types_of_applied applied computed
      have front := (Expression.follow_of_takesData describes of_function of_callee
        (data.of_starts (.callee applied))).1
      have inhabits : function.Inhabits functionType := .of_follow describes of_callee front
      have callable : function.isFunction = true := by
        rw [inhabits.isFunction_eq]
        cases functionType with
        | named => cases applies
        | function => rfl
      obtain ⟨operand, of_operand⟩ := of_argument callable
      have behind := (Expression.follow_of_takesData describes of_accepted of_operand
        (data.of_starts (.argument applied of_callee callable))).1
      have leads := TypeScope.leadsTo_eq_some_iff.2 ⟨_, _, front, behind, applies⟩
      exact nomatch (nowhere depth scope describes).symm.trans leads
  | @binding budget bindings name bound body value typed nowhere of_bound =>
      obtain ⟨depth, scope, type, describes, computed⟩ := typed
      obtain ⟨accepted, of_accepted, of_body⟩ := Expression.types_of_letIn computed
      have front := (Expression.follow_of_takesData describes of_accepted of_bound
        (data.of_starts .bound)).1
      have leads := Expression.bodyType?_eq_some_iff.2 ⟨accepted, front, of_body⟩
      exact nomatch (nowhere depth scope describes).symm.trans leads

section
variable {budget : Nat} {bindings : Environment} {expression callee argument bound body : Expression}
  {name : String} {function value : Value}

/-- The types of a call whose parts have values have gone astray, or what is followed for its parts
leads to a type. -/
theorem astray_or_leads (applied : expression.applied? = some (callee, argument))
    (typed : Typed ⟨budget + 1, bindings, expression⟩)
    (of_callee : result ⟨budget, bindings, callee⟩ = .ok function)
    (of_argument : function.isFunction = true →
      ∃ operand, result ⟨budget, bindings, argument⟩ = .ok operand) :
    Astray ⟨budget + 1, bindings, expression⟩ ∨
      ∃ (depth : Nat) (scope : TypeEnvironment) (functionType accepted type : Ty),
        scope.Describes bindings ∧
        (callee.follow depth budget bindings scope).type = some functionType ∧
        (argument.follow depth budget bindings scope).type = some accepted ∧
        scope.applyWith (TypeScope.evaluateWithin depth) functionType accepted = .ok type := by
  refine Classical.or_iff_not_imp_right.2 fun nowhere => ?_
  refine .call applied typed (fun depth scope describes => ?_) of_callee of_argument
  refine Option.eq_none_iff_forall_ne_some.2 fun type leads => nowhere ?_
  obtain ⟨functionType, accepted, front, behind, applies⟩ := TypeScope.leadsTo_eq_some_iff.1 leads
  exact ⟨depth, scope, functionType, accepted, type, describes, front, behind, applies⟩

theorem astray_or_leads_letIn (typed : Typed ⟨budget + 1, bindings, .letIn name bound body⟩)
    (of_bound : result ⟨budget, bindings, bound⟩ = .ok value) :
    Astray ⟨budget + 1, bindings, .letIn name bound body⟩ ∨
      ∃ (depth : Nat) (scope : TypeEnvironment) (accepted type : Ty), scope.Describes bindings ∧
        (bound.follow depth budget bindings scope).type = some accepted ∧
        body.type? depth (scope.bind name accepted) = some type := by
  refine Classical.or_iff_not_imp_right.2 fun nowhere => ?_
  refine .binding typed (fun depth scope describes => ?_) of_bound
  refine Option.eq_none_iff_forall_ne_some.2 fun type leads => nowhere ?_
  obtain ⟨accepted, front, of_body⟩ := Expression.bodyType?_eq_some_iff.1 leads
  exact ⟨depth, scope, accepted, type, describes, front, of_body⟩

end

/-- What types do not look at, and the error that an evaluation fails with because of it. -/
inductive Unchecked : Occasion → EvaluationError → Prop where
  /-- An item of a list has no type, and fails. -/
  | item {budget : Nat} {bindings : Environment} {items : List Expression} {item : Expression}
      {error : EvaluationError} :
      Starts ⟨budget + 1, bindings, .list items⟩ ⟨budget, bindings, item⟩ →
      ¬ Typed ⟨budget, bindings, item⟩ → result ⟨budget, bindings, item⟩ = .error error →
        Unchecked ⟨budget + 1, bindings, .list items⟩ error
  /-- Two values of one type are neither two numbers nor two texts. -/
  | operands {occasion : Occasion} {native : Native} {first second : Value} :
      occasion.Calls (.builtin native [first]) second → native ∈ Native.library →
      native.operation ∈ [.add, .less, .lessOrEqual, .greater, .greaterOrEqual] →
      first.typeName = second.typeName → first.typeName ≠ "number" → first.typeName ≠ "string" →
        Unchecked occasion
          (Operation.refusal native.name "two numbers or two strings" [first, second])
  /-- A call or a binding fails where the types of its parts have gone astray, and a choice there
  took a function from its second branch. -/
  | astray {occasion : Occasion} {error : EvaluationError} :
      occasion.Astray → ¬ occasion.TakesData → occasion.result = .error error →
        Unchecked occasion error

theorem Astray.unchecked {occasion : Occasion} {error : EvaluationError}
    (astray : occasion.Astray) (fails : occasion.result = .error error) :
    occasion.Unchecked error :=
  .astray astray astray.not_takesData fails

end Occasion

namespace Expression

open Occasion

variable {budget : Nat} {bindings : Environment} {expression callee argument : Expression}
  {value function operand : Value} {error : EvaluationError}

/-- An application fails because one of its parts does, or the function is none, or the call
fails. -/
theorem cases_of_applyWith_error {evaluate : Expression → Except EvaluationError Value}
    {call : Caller} (fails : applyWith evaluate call callee argument = .error error) :
    evaluate callee = .error error ∨
      ∃ function, evaluate callee = .ok function ∧
        (function.isFunction = false ∨
          function.isFunction = true ∧
            (evaluate argument = .error error ∨
              ∃ operand, evaluate argument = .ok operand ∧
                call function operand = .error error)) := by
  unfold applyWith at fails
  cases of_callee : evaluate callee with
  | error other =>
      rw [of_callee] at fails
      exact .inl fails
  | ok function =>
      refine .inr ⟨function, rfl, ?_⟩
      simp only [of_callee, bind, Except.bind] at fails
      split at fails
      · rename_i callable
        refine .inr ⟨callable, ?_⟩
        cases of_argument : evaluate argument with
        | error other =>
            rw [of_argument] at fails
            exact .inl fails
        | ok operand =>
            rw [of_argument] at fails
            exact .inr ⟨operand, rfl, fails⟩
      · rename_i no_function
        exact .inl (Bool.eq_false_iff.2 no_function)

/-- A traversal fails at the first item that fails. -/
theorem split_of_mapM_error {α β ε : Type} {f : α → Except ε β} {items : List α} {error : ε}
    (fails : items.mapM f = .error error) :
    ∃ before item after values, items = before ++ item :: after ∧ before.mapM f = .ok values ∧
      f item = .error error := by
  induction items with
  | nil => simp [pure, Except.pure] at fails
  | cons first others ih =>
      rw [List.mapM_cons] at fails
      cases of_first : f first with
      | error other =>
          rw [of_first] at fails
          cases fails
          exact ⟨[], first, others, [], rfl, rfl, of_first⟩
      | ok value =>
          cases of_others : others.mapM f with
          | ok values => simp [of_first, of_others, bind, Except.bind, pure, Except.pure] at fails
          | error other =>
              obtain rfl : other = error := by
                simpa [of_first, of_others, bind, Except.bind] using fails
              obtain ⟨before, item, after, values, rfl, of_before, of_item⟩ := ih of_others
              refine ⟨first :: before, item, after, value :: values, rfl, ?_, of_item⟩
              simp [of_first, of_before, bind, Except.bind, pure, Except.pure]

end Expression

/-! ### What native functions refuse -/

namespace Operation

variable {operation : Operation} {call : Caller} {name : String} {first second condition : Value}
  {error : EvaluationError}

/-- Addition refuses two values of one type only if they are neither numbers nor texts. -/
theorem refusal_of_addition (same : first.typeName = second.typeName)
    (fails : addition name [first, second] = .error error) :
    first.typeName ≠ "number" ∧ first.typeName ≠ "string" ∧
      error = refusal name "two numbers or two strings" [first, second] := by
  cases first <;> cases second <;> simp_all [addition, Value.typeName]

/-- A comparison refuses two values of one type only if they are neither numbers nor texts. -/
theorem refusal_of_comparison (same : first.typeName = second.typeName)
    (member : operation ∈ [.less, .lessOrEqual, .greater, .greaterOrEqual])
    (fails : operation.perform call name [first, second] = .error error) :
    first.typeName ≠ "number" ∧ first.typeName ≠ "string" ∧
      error = refusal name "two numbers or two strings" [first, second] := by
  have compares {numbers : Float → Float → Bool} {texts : String → String → Bool}
      (fails : comparison name numbers texts [first, second] = .error error) :
      first.typeName ≠ "number" ∧ first.typeName ≠ "string" ∧
        error = refusal name "two numbers or two strings" [first, second] := by
    cases first <;> cases second <;> simp_all [comparison, Value.typeName]
  simp only [List.mem_cons, List.not_mem_nil, or_false] at member
  rcases member with rfl | rfl | rfl | rfl <;> exact compares fails

theorem arithmetic_of_numbers (member : operation ∈ [.subtract, .multiply, .divide])
    (left : first.typeName = (Value.number 0).typeName)
    (right : second.typeName = (Value.number 0).typeName) :
    operation.perform call name [first, second] ≠ .error error := by
  have computes (f : Float → Float → Float) :
      arithmetic name f [first, second] ≠ .error error := by
    cases first <;> cases second <;> simp_all [arithmetic, Value.typeName]
  simp only [List.mem_cons, List.not_mem_nil, or_false] at member
  rcases member with rfl | rfl | rfl <;> exact computes _

theorem equality_of_two (member : operation ∈ [.equal, .different]) :
    operation.perform call name [first, second] ≠ .error error := by
  simp only [List.mem_cons, List.not_mem_nil, or_false] at member
  rcases member with rfl | rfl <;> simp [perform, equality]

theorem choose_of_boolean (decides : condition.typeName = (Value.boolean true).typeName) :
    choose name [condition, first, second] ≠ .error error := by
  cases condition <;> simp_all [choose, Value.typeName]

end Operation

namespace Value.Inhabits

variable {value shape first second condition : Value} {accepted type function : Ty}
  {native : Native} {environment scope : TypeEnvironment} {budget less : Nat} {call : Caller}
  {error : EvaluationError}

theorem typeName_of_isFunction (callable : value.isFunction = true) :
    value.typeName = "function" := by
  cases value <;> first | rfl | simp [isFunction] at callable

/-- What is passed for a parameter with the type of some data is data of that type. -/
theorem typeName_of_parameter {label : Option String} {parameter : Ty} {body : TypeExpression}
    {origin : TypeEnvironment} (inhabits : value.Inhabits accepted)
    (registry : scope.registry = .standard)
    (names : TypeScope.evaluateWithin less scope (.named shape.typeName) = .ok parameter)
    (standard : environment.registry = .standard)
    (applies : environment.applyWith (TypeScope.evaluateWithin budget)
      (.function label parameter body origin) accepted = .ok type) :
    value.typeName = shape.typeName := by
  obtain ⟨id, found, rfl⟩ := TypeScope.eq_of_evaluateWithin_named registry names
  have reduces := (TypeScope.applyWith_function applies).1
  rw [standard] at reduces
  obtain rfl := Registry.eq_of_reduce_standard (Registry.isData_of_lookup_typeName found) reduces
  have named := (Registry.name_of_lookup inhabits.lookup_of_named).1
  exact named.symm.trans (Registry.name_of_lookup found).1

/-- A value that is accepted in place of another one goes by the same name of a type. -/
theorem typeName_eq_of_reduce {own : Ty} (first_inhabits : first.Inhabits own)
    (second_inhabits : second.Inhabits accepted)
    (reduces : Registry.standard.reduce own accepted = .ok type) :
    first.typeName = second.typeName := by
  have kind := Ty.sameKind_of_reduce first_inhabits reduces
  cases own with
  | named =>
      obtain rfl := kind.eq_named
      have named := (Registry.name_of_lookup first_inhabits.lookup_of_named).1
      exact named.symm.trans (Registry.name_of_lookup second_inhabits.lookup_of_named).1
  | function =>
      rw [typeName_of_isFunction first_inhabits.isFunction_eq,
        typeName_of_isFunction (second_inhabits.isFunction_eq.trans kind.isFunction_eq)]

/-- The condition of a choice is a truth value. -/
theorem typeName_of_condition
    (waits : (Value.builtin ⟨"if", 3, .branch⟩ [condition, first]).Inhabits function) :
    condition.typeName = (Value.boolean true).typeName := by
  obtain ⟨_, _, _, _, earlier, _⟩ := extended_cases [condition] first waits
  obtain ⟨_, origin, scope, _, _, _, _, declared, registry, registry', evaluates, inhabits,
    applies⟩ := earlier.step_of_one
  obtain rfl := Native.eq_branchType declared
  obtain ⟨_, _, names, rfl⟩ := TypeScope.eq_of_evaluateWithin_labelled evaluates
  exact inhabits.typeName_of_parameter registry names registry' applies

/-- A native function of two arguments whose types are right refuses them only if it is addition or
a comparison. -/
theorem refusal_of_two (waits : (Value.builtin native [first]).Inhabits function)
    (two : native.arity = 2) (standard : environment.registry = .standard)
    (applies : environment.applyWith (TypeScope.evaluateWithin budget) function accepted =
      .ok type)
    (second_inhabits : second.Inhabits accepted)
    (fails : native.operation.perform call native.name [first, second] = .error error) :
    native.operation ∈ [.add, .less, .lessOrEqual, .greater, .greaterOrEqual] ∧
      first.typeName = second.typeName ∧ first.typeName ≠ "number" ∧ first.typeName ≠ "string" ∧
        error = Operation.refusal native.name "two numbers or two strings" [first, second] := by
  obtain ⟨_, origin, scope, _, _, _, of_first, declared, registry, registry', evaluates,
    first_inhabits, applies_first⟩ := waits.step_of_one
  -- a parameter that repeats the first one accepts only what goes by the same name
  have repeats {result : TypeExpression} {inner : Nat}
      (inside : TypeScope.evaluateWithin inner (origin.bind "x" of_first)
        (.function (.typeOf "x") result) = .ok function) :
      first.typeName = second.typeName := by
    have reduces := TypeScope.reduce_of_typeOf (TypeScope.lookup_bind_self _ _) inside applies
    rw [standard] at reduces
    exact first_inhabits.typeName_eq_of_reduce second_inhabits reduces
  rcases Native.declared_cases declared with ⟨rfl, rfl⟩ | ⟨_, member, rfl⟩ | ⟨_, member, rfl⟩ |
    ⟨_, member, rfl⟩ | ⟨rfl, _⟩
  · have same := repeats (TypeScope.body_of_labelled evaluates applies_first)
    exact ⟨.head _, same, Operation.refusal_of_addition same fails⟩
  · obtain ⟨_, _, names, rfl⟩ := TypeScope.eq_of_evaluateWithin_function evaluates
    have first_number : first.typeName = (Value.number 0).typeName :=
      first_inhabits.typeName_of_parameter registry names registry' applies_first
    have inside := (TypeScope.applyWith_function applies_first).2
    obtain ⟨_, _, names, rfl⟩ := TypeScope.eq_of_evaluateWithin_function inside
    have second_number : second.typeName = (Value.number 0).typeName :=
      second_inhabits.typeName_of_parameter registry names standard applies
    exact absurd fails (Operation.arithmetic_of_numbers member first_number second_number)
  · exact absurd fails (Operation.equality_of_two member)
  · have same := repeats (TypeScope.body_of_labelled evaluates applies_first)
    refine ⟨?_, same, Operation.refusal_of_comparison same member fails⟩
    exact .tail _ member
  · simp at two

/-- A native function refuses its last argument, where the types are right, only as the second one
of addition or of a comparison. -/
theorem refusal_of_native_call {arguments : List Value} {calls : Nat}
    {run : Environment → Expression → Except EvaluationError Value}
    (function_inhabits : (Value.builtin native arguments).Inhabits function)
    (second_inhabits : second.Inhabits accepted) (standard : environment.registry = .standard)
    (applies : environment.applyWith (TypeScope.evaluateWithin budget) function accepted =
      .ok type)
    (fails : callWith run calls (.builtin native arguments) second = .error error)
    (within : error ≠ .depthExceeded) :
    ∃ first, arguments = [first] ∧ native ∈ Native.library ∧
      native.operation ∈ [.add, .less, .lessOrEqual, .greater, .greaterOrEqual] ∧
      first.typeName = second.typeName ∧ first.typeName ≠ "number" ∧ first.typeName ≠ "string" ∧
        error = Operation.refusal native.name "two numbers or two strings" [first, second] := by
  obtain ⟨⟨expression, declared⟩, _, _, body, _, _, waits⟩ := function_inhabits.function_of_builtin
  have length : (arguments ++ [second]).length = arguments.length + 1 := by simp
  rw [callWith.eq_def] at fails
  simp only [length] at fails
  split at fails
  · cases fails
  · rename_i full
    cases calls with
    | zero => exact absurd (Except.error.inj fails).symm within
    | succ calls =>
        simp only at fails
        rcases Native.arity_of_declared declared with two | rfl
        · obtain ⟨first, rfl⟩ := List.length_eq_one_iff.1 (by omega : arguments.length = 1)
          exact ⟨first, rfl, (List.of_mem_zip declared).1,
            function_inhabits.refusal_of_two two standard applies second_inhabits fails⟩
        · have two : arguments.length = 1 + 1 := by
            simp only at full waits
            omega
          obtain ⟨condition, rest, rfl⟩ := List.exists_cons_of_length_eq_add_one two
          obtain ⟨first, rfl⟩ := List.length_eq_one_iff.1 (Nat.succ.inj two)
          exact absurd fails
            (Operation.choose_of_boolean function_inhabits.typeName_of_condition)

end Value.Inhabits

/-! ### Evaluations that fail -/

namespace Expression

open Occasion

variable {budget depth : Nat} {bindings : Environment} {scope : TypeEnvironment}
  {expression callee argument : Expression} {type : Ty} {error : EvaluationError}

/-- With so much depth, an evaluation of an expression with a type fails with the error only at
something that types do not look at. -/
def FailsUnchecked (budget : Nat) (error : EvaluationError) : Prop :=
  ∀ ⦃bindings : Environment⦄ ⦃expression : Expression⦄, Typed ⟨budget, bindings, expression⟩ →
    evaluateWithin budget bindings expression = .error error →
      ∃ occasion, Reaches ⟨budget, bindings, expression⟩ occasion ∧ occasion.Unchecked error

namespace FailsUnchecked

/-- A call that fails where the followed types lead to a type fails in the body of a closure, or
because of operands. -/
theorem call (fewer : FailsUnchecked budget error) (within : error ≠ .depthExceeded)
    {function operand : Value} {functionType accepted : Ty}
    (here : Calls ⟨budget + 1, bindings, expression⟩ function operand)
    (function_inhabits : function.Inhabits functionType)
    (operand_inhabits : operand.Inhabits accepted) (registry : scope.registry = .standard)
    (applies : scope.applyWith (TypeScope.evaluateWithin depth) functionType accepted = .ok type)
    (fails : Value.callWith (evaluateWithin budget) Value.nativeCallLimit function operand =
      .error error) :
    ∃ occasion, Reaches ⟨budget + 1, bindings, expression⟩ occasion ∧
      occasion.Unchecked error := by
  cases function with
  | closure parameter body held =>
      obtain ⟨_, origin, describes, rfl⟩ := function_inhabits.closure_cases
      have of_body := toOption_eq_some_iff.2 (TypeScope.applyWith_function applies).2
      have inside := describes.bind operand_inhabits parameter
      rw [Value.callWith.eq_def] at fails
      exact Starts.exists_reaches (.called here) (fewer ⟨depth, _, type, inside, of_body⟩ fails)
  | builtin native arguments =>
      obtain ⟨first, rfl, library, member, same, no_number, no_string, rfl⟩ :=
        function_inhabits.refusal_of_native_call operand_inhabits registry applies fails within
      exact ⟨_, .refl, .operands here library member same no_number no_string⟩
  | _ => cases here with | intro _ _ callable _ => cases callable

theorem applied (fewer : FailsUnchecked budget error) (within : error ≠ .depthExceeded)
    (applied : expression.applied? = some (callee, argument))
    (typed : Typed ⟨budget + 1, bindings, expression⟩)
    (fails : evaluateWithin (budget + 1) bindings expression = .error error) :
    ∃ occasion, Reaches ⟨budget + 1, bindings, expression⟩ occasion ∧
      occasion.Unchecked error := by
  have ⟨depth, scope, _, describes, computed⟩ := typed
  obtain ⟨_, _, callee_type, argument_type, _⟩ := types_of_applied applied computed
  have parts := fails
  rw [evaluateWithin_of_applied applied] at parts
  rcases cases_of_applyWith_error parts with callee_fails | ⟨function, of_callee, no_function |
    ⟨callable, argument_fails | ⟨operand, of_argument, call⟩⟩⟩
  · exact Starts.exists_reaches (.callee applied)
      (fewer ⟨depth, scope, _, describes, callee_type⟩ callee_fails)
  · rcases astray_or_leads applied typed of_callee fun callable => by simp [no_function] at callable
      with astray | ⟨_, _, functionType, _, _, describes, front, _, applies⟩
    · exact ⟨_, .refl, astray.unchecked fails⟩
    -- what has been applied to a type is no type of data
    · have inhabits : function.Inhabits functionType := .of_follow describes of_callee front
      obtain ⟨_, rfl, _⟩ := inhabits.eq_named no_function
      cases applies
  · exact Starts.exists_reaches (.argument applied of_callee callable)
      (fewer ⟨depth, scope, _, describes, argument_type⟩ argument_fails)
  · rcases astray_or_leads applied typed of_callee fun _ => ⟨operand, of_argument⟩ with
      astray | ⟨_, _, _, _, _, describes, front, behind, applies⟩
    · exact ⟨_, .refl, astray.unchecked fails⟩
    · exact fewer.call within (.intro applied of_callee callable of_argument)
        (.of_follow describes of_callee front) (.of_follow describes of_argument behind)
        describes.registry applies call

/-- The type of a list says nothing about its items, so the item that fails need not have one. -/
theorem list {items : List Expression} (fewer : FailsUnchecked budget error)
    (fails : evaluateWithin (budget + 1) bindings (.list items) = .error error) :
    ∃ occasion, Reaches ⟨budget + 1, bindings, .list items⟩ occasion ∧
      occasion.Unchecked error := by
  rw [evaluateWithin] at fails
  cases computed : items.mapM (evaluateWithin budget bindings) with
  | ok values =>
      rw [computed] at fails
      cases fails
  | error other =>
      rw [computed] at fails
      obtain rfl : other = error := Except.error.inj fails
      obtain ⟨before, item, after, values, rfl, of_before, of_item⟩ := split_of_mapM_error computed
      have starts : Starts ⟨budget + 1, bindings, .list (before ++ item :: after)⟩
        ⟨budget, bindings, item⟩ := .item of_before
      by_cases typed : Typed ⟨budget, bindings, item⟩
      · exact starts.exists_reaches (fewer typed of_item)
      · exact ⟨_, .refl, .item starts typed of_item⟩

theorem letIn {name : String} {bound body : Expression} (fewer : FailsUnchecked budget error)
    (typed : Typed ⟨budget + 1, bindings, .letIn name bound body⟩)
    (fails : evaluateWithin (budget + 1) bindings (.letIn name bound body) = .error error) :
    ∃ occasion, Reaches ⟨budget + 1, bindings, .letIn name bound body⟩ occasion ∧
      occasion.Unchecked error := by
  have ⟨depth, scope, _, describes, computed⟩ := typed
  obtain ⟨_, bound_type, _⟩ := types_of_letIn computed
  have parts := fails
  rw [evaluateWithin] at parts
  cases of_bound : evaluateWithin budget bindings bound with
  | error other =>
      rw [of_bound] at parts
      cases parts
      exact Starts.exists_reaches .bound (fewer ⟨depth, scope, _, describes, bound_type⟩ of_bound)
  | ok value =>
      rw [of_bound] at parts
      rcases astray_or_leads_letIn typed of_bound with
        astray | ⟨depth, scope, accepted, type, describes, front, of_body⟩
      · exact ⟨_, .refl, astray.unchecked fails⟩
      · have inside := describes.bind (.of_follow describes of_bound front) name
        exact Starts.exists_reaches (.body of_bound) (fewer ⟨depth, _, type, inside, of_body⟩ parts)

theorem group {inner : Expression} (fewer : FailsUnchecked budget error)
    (typed : Typed ⟨budget + 1, bindings, .group inner⟩)
    (fails : evaluateWithin (budget + 1) bindings (.group inner) = .error error) :
    ∃ occasion, Reaches ⟨budget + 1, bindings, .group inner⟩ occasion ∧
      occasion.Unchecked error := by
  obtain ⟨depth, scope, type, describes, computed⟩ := typed
  exact Starts.exists_reaches .inner (fewer ⟨depth, scope, type, describes, computed⟩ fails)

end FailsUnchecked

/-- The expression does not go wrong if its type can be computed. -/
def Progresses (expression : Expression) : Prop :=
  ∀ type, expression.checkType Native.typeEnvironment = .ok type →
    ∀ error, expression.evaluate Native.environment = .error error → error = .depthExceeded

end Expression

end Curried
