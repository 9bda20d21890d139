import Curried.Proofs.Evaluation.Occasion
import Curried.Proofs.Types.Acceptance
import Curried.Types.Inference
import Curried.Types.Native

/-!
# Application of types

What evaluating a type expression and applying a type can yield.
-/

namespace Curried

/-! ### The standard registry -/

namespace Registry

/-- The named types of data; only `any` is not among them. -/
def IsData (id : TypeId) : Prop := 0 < id ∧ id < 6

/-- The named types of data accept nothing but themselves. -/
theorem accepts_standard_iff {id : TypeId} (data : IsData id) (actual : Outline) :
    standard.accepts id actual = true ↔ actual = .named id := by
  obtain ⟨positive, bounded⟩ := data
  have alone : ∃ name, standard.get? id = some ⟨name, [], none⟩ := by
    match id, positive, bounded with
    | 1, _, _ => exact ⟨_, rfl⟩
    | 2, _, _ => exact ⟨_, rfl⟩
    | 3, _, _ => exact ⟨_, rfl⟩
    | 4, _, _ => exact ⟨_, rfl⟩
    | 5, _, _ => exact ⟨_, rfl⟩
  obtain ⟨name, defined⟩ := alone
  rw [accepts_of_no_children (by simp [children, defined])]
  simp [acceptsHere, defined, TypeDefinition.matches]

/-- Reducing to a named type of data leaves only that type. -/
theorem eq_of_reduce_standard {id : TypeId} (data : IsData id) {actual type : Ty}
    (reduces : standard.reduce (.named id) actual = .ok type) : actual = .named id := by
  unfold reduce at reduces
  split at reduces
  · rename_i accepted
    rw [fits] at accepted
    have same := (accepts_standard_iff data actual.outline).1 accepted
    cases actual with
    | named other => simpa [Ty.outline] using same
    | function => simp [Ty.outline] at same
  · simp at reduces

/-- Reducing yields the actual type. -/
theorem eq_actual_of_reduce {registry : Registry} {expected actual type : Ty}
    (reduces : registry.reduce expected actual = .ok type) : type = actual := by
  unfold reduce at reduces
  split at reduces
  · exact (Except.ok.inj reduces).symm
  · simp at reduces

/-- The parameter type of a function without annotation accepts every type. -/
theorem reduce_any (argument : Ty) : standard.reduce (.named 0) argument = .ok argument := by
  have accepted : standard.accepts 0 argument.outline = true := by
    rw [accepts_of_no_children rfl, acceptsHere_iff]
    exact .inr ⟨_, rfl, rfl⟩
  rw [reduce, fits, accepted, if_pos rfl]

/-- No function type accepts a named type. -/
theorem isFunction_of_reduce {registry : Registry} {label : Option String} {parameter : Ty}
    {body : TypeExpression} {scope : TypeEnvironment} {id : TypeId} {type : Ty} :
    registry.reduce (.function label parameter body scope) (.named id) ≠ .ok type := by
  simp [reduce, fits]

/-- A type found by its name goes by that name. -/
theorem name_of_lookup {registry : Registry} {name : String} {id : TypeId}
    (found : registry.lookup name = some id) :
    registry.name id = name ∧ id < registry.definitions.length := by
  have named := List.find?_some found
  have member := List.mem_of_find?_eq_some found
  rw [List.mem_reverse, List.mem_range] at member
  unfold Registry.name
  cases defined : registry.get? id with
  | none => simp [defined] at named
  | some definition => exact ⟨by simpa [defined] using named, member⟩

/-- Functions have no named type. -/
theorem lookup_function : standard.lookup "function" = none := by decide

/-- The type that the standard registry has for the name of a value's type is one of data. -/
theorem isData_of_lookup_typeName {value : Value} {id : TypeId}
    (found : standard.lookup value.typeName = some id) : IsData id := by
  obtain ⟨named, bounded⟩ := name_of_lookup found
  refine ⟨Nat.pos_of_ne_zero fun zero => ?_, bounded⟩
  subst zero
  change "any" = value.typeName at named
  cases value <;> simp [Value.typeName] at named

end Registry

/-! ### What evaluating a type expression and applying a type can yield -/

namespace TypeScope

variable {budget : Nat} {scope : TypeEnvironment} {type : Ty}

theorem eq_of_evaluateWithin_named {name : String} (registry : scope.registry = .standard)
    (evaluates : evaluateWithin budget scope (.named name) = .ok type) :
    ∃ id, Registry.standard.lookup name = some id ∧ type = .named id := by
  cases budget with
  | zero => simp [evaluateWithin] at evaluates
  | succ budget =>
      simp only [evaluateWithin, named, registry] at evaluates
      split at evaluates
      · rename_i id found
        exact ⟨id, found, (Except.ok.inj evaluates).symm⟩
      · simp at evaluates

theorem lookup_of_evaluateWithin_typeOf {name : String}
    (evaluates : evaluateWithin budget scope (.typeOf name) = .ok type) :
    scope.lookup name = some type := by
  cases budget with
  | zero => simp [evaluateWithin] at evaluates
  | succ budget =>
      simp only [evaluateWithin] at evaluates
      split at evaluates
      · rename_i found
        rw [found, Except.ok.inj evaluates]
      · simp at evaluates

theorem eq_of_evaluateWithin_function {parameter body : TypeExpression}
    (evaluates : evaluateWithin budget scope (.function parameter body) = .ok type) :
    ∃ less accepted, evaluateWithin less scope parameter = .ok accepted ∧
      type = .function none accepted body scope := by
  cases budget with
  | zero => simp [evaluateWithin] at evaluates
  | succ budget =>
      rw [evaluateWithin] at evaluates
      obtain ⟨accepted, inner, same⟩ := ok_parts_of_bind evaluates
      exact ⟨budget, accepted, inner, (Except.ok.inj same).symm⟩

theorem eq_of_evaluateWithin_labelled {label : String} {parameter body : TypeExpression}
    (evaluates : evaluateWithin budget scope (.labelled label parameter body) = .ok type) :
    ∃ less accepted, evaluateWithin less scope parameter = .ok accepted ∧
      type = .function (some label) accepted body scope := by
  cases budget with
  | zero => simp [evaluateWithin] at evaluates
  | succ budget =>
      rw [evaluateWithin] at evaluates
      obtain ⟨accepted, inner, same⟩ := ok_parts_of_bind evaluates
      exact ⟨budget, accepted, inner, (Except.ok.inj same).symm⟩

theorem parts_of_evaluateWithin_letIn {label : String} {bound body : TypeExpression}
    (evaluates : evaluateWithin budget scope (.letIn label bound body) = .ok type) :
    ∃ less boundType, less ≤ budget ∧ evaluateWithin less scope bound = .ok boundType ∧
      evaluateWithin less (scope.bind label boundType) body = .ok type := by
  cases budget with
  | zero => simp [evaluateWithin] at evaluates
  | succ budget =>
      rw [evaluateWithin] at evaluates
      obtain ⟨boundType, first, second⟩ := ok_parts_of_bind evaluates
      exact ⟨budget, boundType, Nat.le_succ budget, first, second⟩

theorem parts_of_evaluateWithin_apply {callee argument : TypeExpression}
    (evaluates : evaluateWithin budget scope (.apply callee argument) = .ok type) :
    ∃ less function accepted, less ≤ budget ∧ evaluateWithin less scope callee = .ok function ∧
      evaluateWithin less scope argument = .ok accepted ∧
        scope.applyWith (evaluateWithin less) function accepted = .ok type := by
  cases budget with
  | zero => simp [evaluateWithin] at evaluates
  | succ budget =>
      rw [evaluateWithin] at evaluates
      obtain ⟨function, first, rest⟩ := ok_parts_of_bind evaluates
      obtain ⟨accepted, second, applies⟩ := ok_parts_of_bind rest
      exact ⟨budget, function, accepted, Nat.le_succ budget, first, second, applies⟩

/-- Where the result of a function type is evaluated: its label, if there is one, stands for the
type of the argument. -/
def within (scope : TypeEnvironment) (label : Option String) (argument : Ty) : TypeEnvironment :=
  match label with
  | some label => scope.bind label argument
  | none => scope

theorem applyWith_function {run : TypeEnvironment → TypeExpression → Except TypeError Ty}
    {environment : TypeEnvironment} {label : Option String} {parameter argument : Ty}
    {body : TypeExpression}
    (applies : environment.applyWith run (.function label parameter body scope) argument =
      .ok type) :
    environment.registry.reduce parameter argument = .ok argument ∧
      run (scope.within label argument) body = .ok type := by
  rw [applyWith] at applies
  obtain ⟨reduced, reduces, evaluates⟩ := ok_parts_of_bind applies
  obtain rfl := Registry.eq_actual_of_reduce reduces
  refine ⟨reduces, ?_⟩
  cases label <;> exact evaluates

theorem lookup_bind_self (label : String) (argument : Ty) :
    (scope.bind label argument).lookup label = some argument :=
  Bindings.lookup_bind_self _ _ _

variable {environment : TypeEnvironment} {label : String} {parameter body : TypeExpression}
  {function argument : Ty}

/-- Applying a declared type leads to its body. -/
theorem body_of_function {less : Nat}
    (evaluates : evaluateWithin less scope (.function parameter body) = .ok function)
    (applies : environment.applyWith (evaluateWithin budget) function argument = .ok type) :
    evaluateWithin budget scope body = .ok type := by
  obtain ⟨_, accepted, _, rfl⟩ := eq_of_evaluateWithin_function evaluates
  exact (applyWith_function applies).2

/-- Applying a declared type with a label leads to its body, where the label stands for the type
of the argument. -/
theorem body_of_labelled {less : Nat}
    (evaluates : evaluateWithin less scope (.labelled label parameter body) = .ok function)
    (applies : environment.applyWith (evaluateWithin budget) function argument = .ok type) :
    evaluateWithin budget (scope.bind label argument) body = .ok type := by
  obtain ⟨_, accepted, _, rfl⟩ := eq_of_evaluateWithin_labelled evaluates
  exact (applyWith_function applies).2

/-- A parameter that repeats a label accepts what the label's type accepts. -/
theorem reduce_of_typeOf {less : Nat} {bound : Ty} (bind : scope.lookup label = some bound)
    (evaluates : evaluateWithin less scope (.function (.typeOf label) body) = .ok function)
    (applies : environment.applyWith (evaluateWithin budget) function argument = .ok type) :
    environment.registry.reduce bound argument = .ok argument := by
  obtain ⟨_, accepted, repeats, rfl⟩ := eq_of_evaluateWithin_function evaluates
  obtain rfl : bound = accepted :=
    Option.some.inj (bind.symm.trans (lookup_of_evaluateWithin_typeOf repeats))
  exact (applyWith_function applies).1

end TypeScope

/-- Number of arguments that a function type waits for before its result is something else. -/
def TypeExpression.arrows : TypeExpression → Nat
  | .function _ body | .labelled _ _ body => body.arrows + 1
  | _ => 0

/-- An expression that starts with an arrow evaluates to a function type. -/
theorem TypeScope.function_of_arrows {budget : Nat} {scope : TypeEnvironment} {type : Ty}
    {expression : TypeExpression} (arrows : 0 < expression.arrows)
    (evaluates : evaluateWithin budget scope expression = .ok type) :
    ∃ label accepted body, type = .function label accepted body scope ∧
      body.arrows + 1 = expression.arrows := by
  cases expression with
  | function parameter body =>
      obtain ⟨_, accepted, _, rfl⟩ := eq_of_evaluateWithin_function evaluates
      exact ⟨none, accepted, body, rfl, rfl⟩
  | labelled label parameter body =>
      obtain ⟨_, accepted, _, rfl⟩ := eq_of_evaluateWithin_labelled evaluates
      exact ⟨some label, accepted, body, rfl, rfl⟩
  | named => simp [TypeExpression.arrows] at arrows
  | typeOf => simp [TypeExpression.arrows] at arrows
  | letIn => simp [TypeExpression.arrows] at arrows
  | apply => simp [TypeExpression.arrows] at arrows

/-! ### Kinds of types -/

namespace Ty

/-- Whether a type is a function type. -/
def isFunction : Ty → Bool
  | .named _ => false
  | .function _ _ _ _ => true

/-- Types of one kind: the same named type, or two function types. -/
def SameKind : Ty → Ty → Prop
  | .named id, .named other => id = other
  | .function _ _ _ _, .function _ _ _ _ => True
  | _, _ => False

variable {first second third : Ty}

@[refl]
theorem SameKind.refl (type : Ty) : type.SameKind type := by
  cases type with
  | named => rfl
  | function => trivial

@[symm]
theorem SameKind.symm (same : first.SameKind second) : second.SameKind first := by
  cases first <;> cases second <;> simp_all [SameKind]

theorem SameKind.trans (left : first.SameKind second) (right : second.SameKind third) :
    first.SameKind third := by
  cases first <;> cases second <;> cases third <;> simp_all [SameKind]

theorem SameKind.isFunction_eq (same : first.SameKind second) :
    first.isFunction = second.isFunction := by
  cases first <;> cases second <;> simp_all [SameKind, isFunction]

theorem SameKind.eq_named {id : TypeId} (same : first.SameKind (.named id)) :
    first = .named id := by
  cases first with
  | named => exact congrArg Ty.named same
  | function => cases same

end Ty

end Curried
