import Curried.Evaluation
import Curried.Proofs.Types.Inhabits

/-!
# Native functions and their declared types

With all its arguments, a native function yields a value of the type that its declared type gives
for the types of the arguments.  The one exception is the choice between two functions: its declared
type only looks at what the second function accepts, and gives the type of the first one whichever
of them is taken.
-/

namespace Curried

namespace Operation

variable {operation : Operation} {call : Caller} {name : String}
  {condition first second value : Value}

/-- A sum is data of the kind of the first summand. -/
theorem typeName_of_addition (performs : addition name [first, second] = .ok value) :
    first.isFunction = false ∧ value.typeName = first.typeName := by
  unfold addition at performs
  split at performs
  · rename_i left right same
    obtain ⟨rfl, _⟩ := List.cons.inj same
    obtain rfl := Except.ok.inj performs
    exact ⟨rfl, rfl⟩
  · rename_i left right same
    obtain ⟨rfl, _⟩ := List.cons.inj same
    obtain rfl := Except.ok.inj performs
    exact ⟨rfl, rfl⟩
  · simp at performs

theorem typeName_of_arithmetic (member : operation ∈ [.subtract, .multiply, .divide])
    (performs : operation.perform call name [first, second] = .ok value) :
    value.typeName = "number" := by
  have computes {f : Float → Float → Float}
      (performs : arithmetic name f [first, second] = .ok value) : value.typeName = "number" := by
    unfold arithmetic at performs
    split at performs
    · rw [← Except.ok.inj performs]
      rfl
    · simp at performs
  simp only [List.mem_cons, List.not_mem_nil, or_false] at member
  rcases member with rfl | rfl | rfl <;> exact computes performs

theorem typeName_of_equality (member : operation ∈ [.equal, .different])
    (performs : operation.perform call name [first, second] = .ok value) :
    value.typeName = "boolean" := by
  have decides {expected : Bool}
      (performs : equality name expected [first, second] = .ok value) :
      value.typeName = "boolean" := by
    rw [← Except.ok.inj performs]
    rfl
  simp only [List.mem_cons, List.not_mem_nil, or_false] at member
  rcases member with rfl | rfl <;> exact decides performs

theorem typeName_of_comparison
    (member : operation ∈ [.less, .lessOrEqual, .greater, .greaterOrEqual])
    (performs : operation.perform call name [first, second] = .ok value) :
    value.typeName = "boolean" := by
  have decides {numbers : Float → Float → Bool} {texts : String → String → Bool}
      (performs : comparison name numbers texts [first, second] = .ok value) :
      value.typeName = "boolean" := by
    unfold comparison at performs
    split at performs
    · rw [← Except.ok.inj performs]
      rfl
    · rw [← Except.ok.inj performs]
      rfl
    · simp at performs
  simp only [List.mem_cons, List.not_mem_nil, or_false] at member
  rcases member with rfl | rfl | rfl | rfl <;> exact decides performs

theorem eq_of_choose (performs : choose name [condition, first, second] = .ok value) :
    (condition = .boolean true ∧ value = first) ∨
      (condition = .boolean false ∧ value = second) := by
  unfold choose at performs
  split at performs
  · rename_i decision left right same
    simp only [List.cons.injEq, and_true] at same
    obtain ⟨rfl, rfl, rfl⟩ := same
    obtain rfl := Except.ok.inj performs
    cases decision <;> simp
  · simp at performs

end Operation

/-- The declared type of the choice. -/
theorem Native.eq_branchType {expression : TypeExpression}
    (declared : ((⟨"if", 3, .branch⟩ : Native), expression) ∈ Native.declared) :
    expression = Native.branchType := by
  rcases Native.declared_cases declared with ⟨other, _⟩ | ⟨arity, _⟩ | ⟨arity, _⟩ | ⟨arity, _⟩ |
    ⟨_, rfl⟩
  · simp at other
  · simp at arity
  · simp at arity
  · simp at arity
  · rfl

/-- The choice is the only native function that chooses. -/
theorem Native.eq_choice {native : Native} {expression : TypeExpression}
    (declared : (native, expression) ∈ Native.declared) (chooses : native.operation = .branch) :
    native = ⟨"if", 3, .branch⟩ := by
  rcases Native.declared_cases declared with ⟨rfl, _⟩ | ⟨_, member, _⟩ | ⟨_, member, _⟩ |
    ⟨_, member, _⟩ | ⟨rfl, _⟩
  · cases chooses
  · simp [chooses] at member
  · simp [chooses] at member
  · simp [chooses] at member
  · rfl

namespace Value.Inhabits

variable {value first argument condition : Value} {type function accepted : Ty} {native : Native}
  {environment : TypeEnvironment} {budget : Nat} {call : Caller}

/-- A native function without arguments has its declared type. -/
theorem fresh_cases (inhabits : (Value.builtin native []).Inhabits type) :
    ∃ (expression : TypeExpression) (scope : TypeEnvironment) (budget : Nat),
      (native, expression) ∈ Native.declared ∧ scope.registry = .standard ∧
        TypeScope.evaluateWithin budget scope expression = .ok type := by
  obtain ⟨_, origin⟩ | ⟨front, last, _, _, _, _, longer, _⟩ := inhabits.builtin_cases
  · exact origin
  · simp at longer

/-- The last argument of a native function that waits for others, and the type before it. -/
theorem extended_cases (front : List Value) (last : Value)
    (inhabits : (Value.builtin native (front ++ [last])).Inhabits type) :
    ∃ (function accepted : Ty) (scope : TypeEnvironment) (budget : Nat),
      (Value.builtin native front).Inhabits function ∧ last.Inhabits accepted ∧
        scope.registry = .standard ∧
          scope.applyWith (TypeScope.evaluateWithin budget) function accepted = .ok type := by
  obtain ⟨empty, _⟩ | ⟨front', last', function, accepted, scope, budget, split, _, earlier,
    last_inhabits, registry, applies⟩ := inhabits.builtin_cases
  · simp at empty
  · obtain ⟨rfl, same⟩ := List.append_inj' split rfl
    obtain rfl : last = last' := by simpa using same
    exact ⟨function, accepted, scope, budget, earlier, last_inhabits, registry, applies⟩

/-- With one argument, a native function has the type that its declared type gives for a type of the
argument. -/
theorem step_of_one (waits : (Value.builtin native [first]).Inhabits function) :
    ∃ (expression : TypeExpression) (origin scope : TypeEnvironment) (types more : Nat)
      (declared_type of_first : Ty), (native, expression) ∈ Native.declared ∧
        origin.registry = .standard ∧ scope.registry = .standard ∧
        TypeScope.evaluateWithin types origin expression = .ok declared_type ∧
        first.Inhabits of_first ∧
        scope.applyWith (TypeScope.evaluateWithin more) declared_type of_first = .ok function := by
  obtain ⟨declared_type, of_first, scope, _, earlier, first_inhabits, registry', applies⟩ :=
    extended_cases [] first waits
  obtain ⟨expression, origin, _, declared, registry, evaluates⟩ := earlier.fresh_cases
  exact ⟨expression, origin, scope, _, _, declared_type, of_first, declared, registry, registry',
    evaluates, first_inhabits, applies⟩

/-- A native function of two arguments yields a value of the declared result type. -/
theorem result_of_two (waits : (Value.builtin native [first]).Inhabits function)
    (two : native.arity = 2)
    (applies : environment.applyWith (TypeScope.evaluateWithin budget) function accepted =
      .ok type)
    (performs : native.operation.perform call native.name [first, argument] = .ok value) :
    value.Inhabits type := by
  obtain ⟨_, origin, _, _, _, _, of_first, declared, registry, _, evaluates, first_inhabits,
    applies_first⟩ := waits.step_of_one
  rcases Native.declared_cases declared with ⟨rfl, rfl⟩ | ⟨_, member, rfl⟩ | ⟨_, member, rfl⟩ |
    ⟨_, member, rfl⟩ | ⟨rfl, _⟩
  · have inside := TypeScope.body_of_labelled evaluates applies_first
    have result := TypeScope.lookup_of_evaluateWithin_typeOf
      (TypeScope.body_of_function inside applies)
    obtain rfl := Option.some.inj ((TypeScope.lookup_bind_self _ _).symm.trans result)
    obtain ⟨data, same⟩ := Operation.typeName_of_addition performs
    exact first_inhabits.of_typeName data same
  · have inside := TypeScope.body_of_function evaluates applies_first
    exact of_named registry (Operation.typeName_of_arithmetic member performs)
      (TypeScope.body_of_function inside applies)
  · have inside := TypeScope.body_of_function evaluates applies_first
    exact of_named registry (Operation.typeName_of_equality member performs)
      (TypeScope.body_of_function inside applies)
  · have inside := TypeScope.body_of_labelled evaluates applies_first
    have registry : (origin.bind "x" of_first).registry = .standard := registry
    exact of_named registry (Operation.typeName_of_comparison member performs)
      (TypeScope.body_of_function inside applies)
  · simp at two

/-- With a condition and a first value, the choice yields a type of the first value, for arguments
that this type accepts. -/
theorem choice_type
    (waits : (Value.builtin ⟨"if", 3, .branch⟩ [condition, first]).Inhabits function)
    (standard : environment.registry = .standard)
    (applies : environment.applyWith (TypeScope.evaluateWithin budget) function accepted =
      .ok type) :
    first.Inhabits type ∧ Registry.standard.reduce type accepted = .ok accepted := by
  obtain ⟨_, of_first, _, _, earlier, first_inhabits, _, applies_first⟩ :=
    extended_cases [condition] first waits
  obtain ⟨_, _, _, _, _, _, _, declared, _, _, evaluates, _, applies_condition⟩ :=
    earlier.step_of_one
  obtain rfl := Native.eq_branchType declared
  have inside := TypeScope.body_of_labelled
    (TypeScope.body_of_labelled evaluates applies_condition) applies_first
  have result := TypeScope.lookup_of_evaluateWithin_typeOf
    (TypeScope.body_of_function inside applies)
  obtain rfl := Option.some.inj ((TypeScope.lookup_bind_self _ _).symm.trans result)
  have fits := TypeScope.reduce_of_typeOf result inside applies
  rw [standard] at fits
  exact ⟨first_inhabits, fits⟩

end Value.Inhabits

namespace Native

variable {native : Native} {expression : TypeExpression} {scope : TypeEnvironment}

end Native

end Curried
