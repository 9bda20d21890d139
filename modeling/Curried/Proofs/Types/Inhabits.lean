import Curried.Native
import Curried.Proofs.Types.Application

/-!
# The values of a type

A value inhabits a type if the type could have been computed for it: data inhabits its named type,
a closure the function types that stand for its function in an environment of matching types, and
a native function its declared type, and with some arguments what that type gives for their types.
-/

namespace Curried

/-- The native functions with their declared types. -/
def Native.declared : List (Native × TypeExpression) :=
  Native.library.zip (Native.types.map Prod.snd)

/-- The value has the type. -/
inductive Value.Inhabits : Value → Ty → Prop where
  /-- Data has the named type that goes by the name of the value's type. -/
  | data {value : Value} {id : TypeId} :
      Registry.standard.lookup value.typeName = some id → Inhabits value (.named id)
  /-- A closure has the type of its function wherever each type stands for a binding around it. -/
  | closure {parameter : String} {body : Expression} {bindings : Environment} {accepted : Ty}
      {scope : TypeEnvironment} (held : String → Value) :
      scope.registry = .standard →
      (∀ name type, scope.lookup name = some type → bindings.lookup name = some (held name)) →
      (∀ name type, scope.lookup name = some type → Inhabits (held name) type) →
        Inhabits (.closure parameter body bindings)
          (.function (some parameter) accepted body.typeExpression scope)
  /-- A native function has its declared type. -/
  | native {native : Native} {expression : TypeExpression} {scope : TypeEnvironment} {type : Ty}
      {budget : Nat} :
      (native, expression) ∈ Native.declared → scope.registry = .standard →
      TypeScope.evaluateWithin budget scope expression = .ok type → Inhabits native.value type
  /-- With one more argument, a native function that still waits for others has the type that its
  type gives for the argument's type. -/
  | collected {native : Native} {arguments : List Value} {argument : Value}
      {function accepted type : Ty} {scope : TypeEnvironment} {budget : Nat} :
      Inhabits (.builtin native arguments) function → Inhabits argument accepted →
      arguments.length + 1 < native.arity → scope.registry = .standard →
      scope.applyWith (TypeScope.evaluateWithin budget) function accepted = .ok type →
        Inhabits (.builtin native (arguments ++ [argument])) type

/-- Every type that an environment binds is inhabited by the value bound to the same name. -/
structure TypeScope.Describes (scope : TypeEnvironment) (bindings : Environment) : Prop where
  registry : scope.registry = .standard
  bound : ∀ name type, scope.lookup name = some type →
    ∃ value, bindings.lookup name = some value ∧ value.Inhabits type

namespace Native

/-- The families of native functions: all members of one have the same declared type. -/
theorem declared_cases {native : Native} {expression : TypeExpression}
    (declared : (native, expression) ∈ Native.declared) :
    (native = ⟨"(+)", 2, .add⟩ ∧ expression = sameAsFirstType (.typeOf "x")) ∨
      (native.arity = 2 ∧ native.operation ∈ [.subtract, .multiply, .divide] ∧
        expression = arithmeticType) ∨
      (native.arity = 2 ∧ native.operation ∈ [.equal, .different] ∧ expression = equalityType) ∨
      (native.arity = 2 ∧
        native.operation ∈ [.less, .lessOrEqual, .greater, .greaterOrEqual] ∧
          expression = sameAsFirstType (.named "boolean")) ∨
      (native = ⟨"if", 3, .branch⟩ ∧ expression = branchType) := by
  simp only [Native.declared, library, types, List.map_cons, List.map_nil, List.zip_cons_cons,
    List.zip_nil_right, List.mem_cons, Prod.mk.injEq, List.not_mem_nil, or_false] at declared
  rcases declared with ⟨rfl, rfl⟩ | ⟨rfl, rfl⟩ | ⟨rfl, rfl⟩ | ⟨rfl, rfl⟩ | ⟨rfl, rfl⟩ | ⟨rfl, rfl⟩ |
    ⟨rfl, rfl⟩ | ⟨rfl, rfl⟩ | ⟨rfl, rfl⟩ | ⟨rfl, rfl⟩ | ⟨rfl, rfl⟩ <;> simp

/-- All native functions but the choice take two arguments. -/
theorem arity_of_declared {native : Native} {expression : TypeExpression}
    (declared : (native, expression) ∈ Native.declared) :
    native.arity = 2 ∨ native = ⟨"if", 3, .branch⟩ := by
  rcases declared_cases declared with ⟨rfl, _⟩ | ⟨two, _⟩ | ⟨two, _⟩ | ⟨two, _⟩ | ⟨rfl, _⟩
  · exact .inl rfl
  · exact .inl two
  · exact .inl two
  · exact .inl two
  · exact .inr rfl

end Native

/-- The declared type of a native function has one arrow for each argument. -/
theorem Native.arrows_of_declared {native : Native} {expression : TypeExpression}
    (declared : (native, expression) ∈ Native.declared) :
    expression.arrows = native.arity ∧ 0 < native.arity := by
  rcases declared_cases declared with ⟨rfl, rfl⟩ | ⟨arity, _, rfl⟩ | ⟨arity, _, rfl⟩ |
    ⟨arity, _, rfl⟩ | ⟨rfl, rfl⟩
  · exact ⟨rfl, by simp⟩
  · exact ⟨arity.symm, by omega⟩
  · exact ⟨arity.symm, by omega⟩
  · exact ⟨arity.symm, by omega⟩
  · exact ⟨rfl, by simp⟩

namespace Value.Inhabits

variable {value first second argument condition : Value} {type function accepted : Ty}
  {native : Native} {arguments : List Value}

/-- Data has only its named type. -/
theorem eq_named (inhabits : value.Inhabits type) (data : value.isFunction = false) :
    ∃ id, type = .named id ∧ Registry.standard.lookup value.typeName = some id := by
  cases inhabits with
  | @data _ id found => exact ⟨id, rfl, found⟩
  | closure => simp [isFunction] at data
  | native => simp [isFunction, Native.value] at data
  | collected => simp [isFunction] at data

/-- Data that goes by the name of a type has that type. -/
theorem of_named {name : String} {scope : TypeEnvironment} {budget : Nat}
    (registry : scope.registry = .standard) (same : value.typeName = name)
    (evaluates : TypeScope.evaluateWithin budget scope (.named name) = .ok type) :
    value.Inhabits type := by
  obtain ⟨id, found, rfl⟩ := TypeScope.eq_of_evaluateWithin_named registry evaluates
  exact .data (same ▸ found)

/-- Data of one kind has the same types. -/
theorem of_typeName (inhabits : first.Inhabits type) (data : first.isFunction = false)
    (same : second.typeName = first.typeName) : second.Inhabits type := by
  obtain ⟨id, rfl, found⟩ := inhabits.eq_named data
  exact .data (same ▸ found)

/-- A closure has the type of its function in an environment that describes its bindings. -/
theorem of_closure {parameter : String} {body : Expression} {bindings : Environment}
    {scope : TypeEnvironment} (describes : scope.Describes bindings) (accepted : Ty) :
    (Value.closure parameter body bindings).Inhabits
      (.function (some parameter) accepted body.typeExpression scope) := by
  refine .closure (fun name => (bindings.lookup name).getD .undefined) describes.registry ?_ ?_
  · intro name type bind
    obtain ⟨value, found, _⟩ := describes.bound name type bind
    rw [found]
    rfl
  · intro name type bind
    obtain ⟨value, found, inhabits⟩ := describes.bound name type bind
    rw [found]
    exact inhabits

/-- The types of a closure are those of its function where the types describe its bindings. -/
theorem closure_cases {parameter : String} {body : Expression} {bindings : Environment}
    (inhabits : (Value.closure parameter body bindings).Inhabits type) :
    ∃ accepted scope, scope.Describes bindings ∧
      type = .function (some parameter) accepted body.typeExpression scope := by
  cases inhabits with
  | data found => exact absurd (found.symm.trans Registry.lookup_function) (by simp)
  | @closure _ _ _ accepted scope held registry bound inhabited =>
      exact ⟨accepted, scope, ⟨registry, fun name type bind =>
        ⟨held name, bound name type bind, inhabited name type bind⟩⟩, rfl⟩

/-- Where the type of a native function with some of its arguments comes from. -/
theorem builtin_cases (inhabits : (Value.builtin native arguments).Inhabits type) :
    (arguments = [] ∧ ∃ (expression : TypeExpression) (scope : TypeEnvironment) (budget : Nat),
      (native, expression) ∈ Native.declared ∧ scope.registry = .standard ∧
        TypeScope.evaluateWithin budget scope expression = .ok type) ∨
    ∃ (front : List Value) (last : Value) (function accepted : Ty) (scope : TypeEnvironment)
      (budget : Nat), arguments = front ++ [last] ∧ arguments.length < native.arity ∧
        (Value.builtin native front).Inhabits function ∧ last.Inhabits accepted ∧
          scope.registry = .standard ∧
            scope.applyWith (TypeScope.evaluateWithin budget) function accepted = .ok type := by
  generalize builtin : Value.builtin native arguments = value at inhabits
  cases inhabits with
  | data found =>
      subst builtin
      exact absurd (found.symm.trans Registry.lookup_function) (by simp)
  | closure => cases builtin
  | native declared registry evaluates =>
      cases builtin
      exact .inl ⟨rfl, _, _, _, declared, registry, evaluates⟩
  | collected front last more registry applies =>
      cases builtin
      exact .inr ⟨_, _, _, _, _, _, rfl, by simpa using more, front, last, registry, applies⟩

/-- A native function with some of its arguments has a function type that waits for the others. -/
theorem function_of_builtin (inhabits : (Value.builtin native arguments).Inhabits type) :
    (∃ expression, (native, expression) ∈ Native.declared) ∧
      ∃ label accepted body scope, type = .function label accepted body scope ∧
        arguments.length + body.arrows + 1 = native.arity := by
  induction count : arguments.length generalizing arguments type with
  | zero =>
      obtain rfl := List.eq_nil_of_length_eq_zero count
      obtain ⟨_, expression, scope, _, declared, _, evaluates⟩ |
        ⟨front, last, _, _, _, _, longer, _⟩ := inhabits.builtin_cases
      · obtain ⟨arrows, positive⟩ := Native.arrows_of_declared declared
        obtain ⟨label, accepted, body, rfl, waits⟩ :=
          TypeScope.function_of_arrows (arrows ▸ positive) evaluates
        exact ⟨⟨_, declared⟩, label, accepted, body, scope, rfl, by omega⟩
      · simp at longer
  | succ less ih =>
      obtain ⟨empty, _⟩ | ⟨front, last, function, accepted, scope, _, split, more, earlier, _,
        _, applies⟩ := inhabits.builtin_cases
      · simp [empty] at *
      · have shorter : front.length = less := by
          simp only [split, List.length_append, List.length_singleton] at count
          omega
        obtain ⟨declared, label, parameter, body, origin, rfl, waits⟩ := ih earlier shorter
        obtain ⟨_, evaluates⟩ := TypeScope.applyWith_function applies
        obtain ⟨label, accepted, body, rfl, fewer⟩ :=
          TypeScope.function_of_arrows (by omega) evaluates
        exact ⟨declared, label, accepted, body, _, rfl, by omega⟩

/-- A value has a function type exactly if it is a function. -/
theorem isFunction_eq (inhabits : value.Inhabits type) : value.isFunction = type.isFunction := by
  cases value with
  | closure =>
      obtain ⟨_, _, _, rfl⟩ := inhabits.closure_cases
      rfl
  | builtin =>
      obtain ⟨_, _, _, _, _, rfl, _⟩ := inhabits.function_of_builtin
      rfl
  | _ =>
      obtain ⟨_, rfl, _⟩ := inhabits.eq_named rfl
      rfl

/-- The only named type of a value is the one that goes by the name of the value's type. -/
theorem lookup_of_named {id : TypeId} (inhabits : value.Inhabits (.named id)) :
    Registry.standard.lookup value.typeName = some id := by
  obtain ⟨other, same, found⟩ := inhabits.eq_named inhabits.isFunction_eq
  cases same
  exact found

end Value.Inhabits

namespace TypeScope.Describes

variable {scope : TypeEnvironment} {bindings : Environment} {value : Value} {type : Ty}

/-- Binding a name to a value and to a type of that value. -/
theorem bind (describes : scope.Describes bindings) (inhabits : value.Inhabits type)
    (name : String) : (scope.bind name type).Describes (bindings.bind name value) := by
  refine ⟨describes.registry, ?_⟩
  intro other otherType bind
  by_cases same : other = name
  · subst same
    rw [lookup_bind_self] at bind
    exact ⟨value, Bindings.lookup_bind_self _ _ _, Option.some.inj bind ▸ inhabits⟩
  · rw [show (scope.bind name type).lookup other = scope.lookup other from
      Bindings.lookup_bind_of_ne _ _ same] at bind
    rw [Bindings.lookup_bind_of_ne _ _ same]
    exact describes.bound other otherType bind

/-- A name has the type bound to it. -/
theorem read (describes : scope.Describes bindings) {name : String}
    (bind : scope.lookup name = some type) : (Expression.read bindings name).Inhabits type := by
  obtain ⟨value, found, inhabits⟩ := describes.bound name type bind
  rw [Expression.read, found]
  exact inhabits

end TypeScope.Describes

end Curried
