import Curried.Proofs.Types.Application
import Curried.Proofs.Types.Preorder

/-!
# Local bindings and their types

The type of a local binding is the type of its body where the name stands for the type of what is
bound.  A function that is called where it is written is typed by other rules: the parameter type
`any` is looked up, it accepts the type of the argument, and only then the body is evaluated, in
the environment that the function type kept.  Both ways lead to the same type.

A function type keeps the expression of its result, so the types are the same only up to such
expressions; and the rules for functions need one more level of depth for the parameter type.
-/

namespace Curried

/-! ### Bindings as calls -/

namespace Expression

mutual

/-- The expression with every local binding written as the call of a function. -/
def letFree : Expression → Expression
  | .number value => .number value
  | .string content => .string content
  | .boolean value => .boolean value
  | .null => .null
  | .list items => .list (letFreeItems items)
  | .identifier name => .identifier name
  | .operator symbol => .operator symbol
  | .apply callee argument => .apply callee.letFree argument.letFree
  | .applyInfix sign operand => .applyInfix sign.letFree operand.letFree
  | .letIn name bound body => .apply (.function name none body.letFree) bound.letFree
  | .function parameter declared body => .function parameter declared body.letFree
  | .group inner => .group inner.letFree

/-- The items of a list, each one without local bindings. -/
def letFreeItems : List Expression → List Expression
  | [] => []
  | item :: others => item.letFree :: letFreeItems others

end

end Expression

/-- The second type expression is the first one with some bindings written as the application of a
function type with the parameter `any`. -/
inductive TypeExpression.Rewrites : TypeExpression → TypeExpression → Prop where
  | named (name : String) : Rewrites (.named name) (.named name)
  | typeOf (name : String) : Rewrites (.typeOf name) (.typeOf name)
  | function {parameter parameter' body body' : TypeExpression} :
      Rewrites parameter parameter' → Rewrites body body' →
        Rewrites (.function parameter body) (.function parameter' body')
  | labelled {label : String} {parameter parameter' body body' : TypeExpression} :
      Rewrites parameter parameter' → Rewrites body body' →
        Rewrites (.labelled label parameter body) (.labelled label parameter' body')
  | letIn {label : String} {bound bound' body body' : TypeExpression} :
      Rewrites bound bound' → Rewrites body body' →
        Rewrites (.letIn label bound body) (.letIn label bound' body')
  | apply {callee callee' argument argument' : TypeExpression} :
      Rewrites callee callee' → Rewrites argument argument' →
        Rewrites (.apply callee argument) (.apply callee' argument')
  /-- A binding becomes an application. -/
  | call {label : String} {bound bound' body body' : TypeExpression} :
      Rewrites bound bound' → Rewrites body body' →
        Rewrites (.letIn label bound body) (.apply (.labelled label (.named "any") body') bound')

theorem TypeExpression.Rewrites.refl (type : TypeExpression) : type.Rewrites type := by
  induction type with
  | named name => exact .named name
  | typeOf name => exact .typeOf name
  | function _ _ parameter body => exact .function parameter body
  | labelled _ _ _ parameter body => exact .labelled parameter body
  | letIn _ _ _ bound body => exact .letIn bound body
  | apply _ _ callee argument => exact .apply callee argument

/-- Writing bindings as calls does the same to the type expression. -/
theorem Expression.rewrites_letFree :
    ∀ expression : Expression, expression.typeExpression.Rewrites expression.letFree.typeExpression
  | .number _ => .named _
  | .string _ => .named _
  | .boolean _ => .named _
  | .null => .named _
  | .list _ => .named _
  | .identifier _ => .typeOf _
  | .operator _ => .typeOf _
  | .apply callee argument => .apply callee.rewrites_letFree argument.rewrites_letFree
  | .applyInfix sign operand => .apply sign.rewrites_letFree operand.rewrites_letFree
  | .letIn _ bound body => .call bound.rewrites_letFree body.rewrites_letFree
  | .function _ _ body => .labelled (.refl _) body.rewrites_letFree
  | .group inner => inner.rewrites_letFree

/-! ### Corresponding types -/

/-- The types are equal up to rewriting the results of function types, in environments that bind the
same names to corresponding types. -/
inductive Ty.Corresponds : Ty → Ty → Prop where
  | named (id : TypeId) : Corresponds (.named id) (.named id)
  | function {label : Option String} {parameter parameter' : Ty} {body body' : TypeExpression}
      {scope scope' : TypeEnvironment} :
      Corresponds parameter parameter' → body.Rewrites body' →
      scope.registry = .standard → scope'.registry = .standard →
      (∀ name, Option.Rel Corresponds (scope.lookup name) (scope'.lookup name)) →
        Corresponds (.function label parameter body scope) (.function label parameter' body' scope')

/-- Corresponding types are the same named type, or both function types. -/
theorem Ty.Corresponds.shape {type other : Ty} (same : type.Corresponds other) :
    (∃ id, type = .named id ∧ other = .named id) ∨
      (type.isFunction = true ∧ other.isFunction = true) := by
  cases same with
  | named id => exact .inl ⟨id, rfl, rfl⟩
  | function => exact .inr ⟨rfl, rfl⟩

/-- Environments over the standard registry that bind the same names to corresponding types. -/
structure TypeScope.Corresponds (scope scope' : TypeEnvironment) : Prop where
  registry : scope.registry = .standard
  registry' : scope'.registry = .standard
  bound : ∀ name, Option.Rel Ty.Corresponds (scope.lookup name) (scope'.lookup name)

section Correspondence

variable {environment environment' : TypeEnvironment} {expected expected' actual actual' : Ty}
  {type type' : Ty} {label : String}

theorem TypeScope.Corresponds.bind (both : environment.Corresponds environment')
    (types : type.Corresponds type') (label : String) :
    (environment.bind label type).Corresponds (environment'.bind label type') := by
  refine ⟨both.registry, both.registry', fun name => ?_⟩
  simp only [TypeScope.lookup, TypeScope.bind]
  by_cases same : name = label
  · rw [same, Bindings.lookup_bind_self, Bindings.lookup_bind_self]
    exact .some types
  · rw [Bindings.lookup_bind_of_ne _ _ same, Bindings.lookup_bind_of_ne _ _ same]
    exact both.bound name

namespace Registry

/-- No named type tells corresponding types apart. -/
theorem accepts_outline_eq (same : actual.Corresponds actual') (id : TypeId) :
    standard.accepts id actual.outline = standard.accepts id actual'.outline := by
  have universal := FromStandard.standard.allMatch
  cases same with
  | named => rfl
  | function =>
      rw [Bool.eq_iff_iff]
      exact ⟨fun accepted => universal.accepts_everything accepted _,
        fun accepted => universal.accepts_everything accepted _⟩

/-- Neither does a function type, which looks at parameters only. -/
theorem fits_eq (expecteds : expected.Corresponds expected')
    (actuals : actual.Corresponds actual') :
    standard.fits expected actual true = standard.fits expected' actual' true := by
  rw [fits_eq_fitsBy, fits_eq_fitsBy, if_pos rfl, if_pos rfl]
  induction expected, actual using Ty.fitsBy.induct generalizing expected' actual' with
  | case1 id actual =>
      cases expecteds with
      | named =>
          rw [Ty.fitsBy, Ty.fitsBy]
          exact accepts_outline_eq actuals id
  | case2 label parameter body scope id =>
      cases expecteds with
      | function =>
          cases actuals with
          | named => rw [Ty.fitsBy, Ty.fitsBy]
  | case3 label parameter body scope label' parameter' body' scope' ih =>
      cases expecteds with
      | function parameters =>
          cases actuals with
          | function parameters' =>
              rw [Ty.fitsBy, Ty.fitsBy, ih parameters' parameters]

end Registry

end Correspondence

/-! ### Evaluations that end alike -/

/-- Errors of the same kind: they may differ in the descriptions of types, which show how results
are written. -/
inductive TypeError.SameKind : TypeError → TypeError → Prop where
  | mismatch (expected actual expected' actual' : String) :
      SameKind (.mismatch expected actual) (.mismatch expected' actual')
  | notAFunction (found found' : String) : SameKind (.notAFunction found) (.notAFunction found')
  | unknownType (name : String) : SameKind (.unknownType name) (.unknownType name)
  | unboundIdentifier (name : String) :
      SameKind (.unboundIdentifier name) (.unboundIdentifier name)

/-- Two computations of types yield corresponding types, or fail with errors of the same kind, or
one of them runs out of depth. -/
inductive Tallies : Except TypeError Ty → Except TypeError Ty → Prop where
  | ok {type other : Ty} : type.Corresponds other → Tallies (.ok type) (.ok other)
  | error {error other : TypeError} : error.SameKind other → Tallies (.error error) (.error other)
  | firstCut (result : Except TypeError Ty) : Tallies (.error .depthExceeded) result
  | secondCut (result : Except TypeError Ty) : Tallies result (.error .depthExceeded)

namespace Tallies

variable {first second : Except TypeError Ty} {next further : Ty → Except TypeError Ty}

theorem bind (tallies : Tallies first second)
    (goesOn : ∀ type other, type.Corresponds other → Tallies (next type) (further other)) :
    Tallies (first >>= next) (second >>= further) := by
  cases tallies with
  | ok same => exact goesOn _ _ same
  | error kind => exact .error kind
  | firstCut => exact .firstCut _
  | secondCut => exact .secondCut _

end Tallies

namespace TypeScope

variable {environment environment' : TypeEnvironment} {function function' argument argument' : Ty}
  {expression expression' : TypeExpression} {budget : Nat}
  {run run' : TypeEnvironment → TypeExpression → Except TypeError Ty}

theorem reduce_tallies {expected expected' actual actual' : Ty}
    (expecteds : expected.Corresponds expected') (actuals : actual.Corresponds actual') :
    Tallies (Registry.standard.reduce expected actual)
      (Registry.standard.reduce expected' actual') := by
  rw [Registry.reduce, Registry.reduce, Registry.fits_eq expecteds actuals]
  split
  · exact .ok actuals
  · exact .error (.mismatch ..)

theorem applyWith_tallies
    (bodies : ∀ {scope scope' : TypeEnvironment} {body body' : TypeExpression},
      scope.Corresponds scope' → body.Rewrites body' → Tallies (run scope body) (run' scope' body'))
    (both : environment.Corresponds environment') (functions : function.Corresponds function')
    (arguments : argument.Corresponds argument') :
    Tallies (environment.applyWith run function argument)
      (environment'.applyWith run' function' argument') := by
  cases functions with
  | named id => exact .error (.notAFunction ..)
  | @function label _ _ _ _ scope scope' parameters rewrites registry registry' bound =>
      have scopes : scope.Corresponds scope' := ⟨registry, registry', bound⟩
      rw [applyWith, applyWith, both.registry, both.registry']
      refine (reduce_tallies parameters arguments).bind fun accepted accepted' accepteds => ?_
      cases label with
      | some label => exact bodies (scopes.bind accepteds label) rewrites
      | none => exact bodies scopes rewrites

/-- A function type without annotation that is applied where it is written evaluates its body with
its label standing for the type of the argument. -/
theorem evaluateWithin_call (registry : environment.registry = .standard) (label : String)
    (bound body : TypeExpression) :
    evaluateWithin (budget + 3) environment (.apply (.labelled label (.named "any") body) bound) =
      evaluateWithin (budget + 2) environment bound >>= fun type =>
        evaluateWithin (budget + 2) (environment.bind label type) body := by
  have any : evaluateWithin (budget + 1) environment (.named "any") = .ok (.named 0) := by
    rw [evaluateWithin, named, registry]
    rfl
  have applies (type : Ty) : environment.applyWith (evaluateWithin (budget + 2))
      (.function (some label) (.named 0) body environment) type =
        evaluateWithin (budget + 2) (environment.bind label type) body := by
    rw [applyWith, registry, Registry.reduce_any]
    rfl
  rw [evaluateWithin, evaluateWithin, any]
  exact congrArg (evaluateWithin (budget + 2) environment bound >>= ·) (funext applies)

/-- Rewriting does not change what a type expression evaluates to. -/
theorem evaluateWithin_tallies (budget : Nat) (rewrites : expression.Rewrites expression')
    (both : environment.Corresponds environment') :
    Tallies (evaluateWithin budget environment expression)
      (evaluateWithin budget environment' expression') := by
  induction budget generalizing environment environment' expression expression' with
  | zero => exact .firstCut _
  | succ budget ih =>
      cases rewrites with
      | named name =>
          rw [evaluateWithin, evaluateWithin, named, named, both.registry, both.registry']
          split
          · exact .ok (.named _)
          · exact .error (.unknownType name)
      | typeOf name =>
          rw [evaluateWithin, evaluateWithin]
          have bound := both.bound name
          generalize environment.lookup name = found, environment'.lookup name = found' at bound
          cases bound with
          | some same => exact .ok same
          | none => exact .error (.unboundIdentifier name)
      | function parameters bodies =>
          exact (ih parameters both).bind fun _ _ accepted =>
            .ok (.function accepted bodies both.registry both.registry' both.bound)
      | labelled parameters bodies =>
          exact (ih parameters both).bind fun _ _ accepted =>
            .ok (.function accepted bodies both.registry both.registry' both.bound)
      | @letIn label _ _ _ _ bounds bodies =>
          exact (ih bounds both).bind fun _ _ types => ih bodies (both.bind types label)
      | apply callees arguments =>
          refine (ih callees both).bind fun _ _ functions => ?_
          refine (ih arguments both).bind fun _ _ types => ?_
          exact applyWith_tallies (fun scopes bodies => ih bodies scopes) both functions types
      | @call label bound bound' body body' bounds bodies =>
          -- the parameter type `any` stands one level deeper than anything the binding needs
          rcases budget with _ | _ | budget
          · exact .firstCut _
          · exact .secondCut _
          · rw [evaluateWithin_call both.registry']
            exact (ih bounds both).bind fun _ _ types => ih bodies (both.bind types label)

end TypeScope

/-! ### The native types -/

namespace Native

/-- Binding a name to the type of an expression keeps an environment in correspondence with
itself. -/
theorem corresponds_bindType {environment : TypeEnvironment}
    (same : environment.Corresponds environment) (name : String) (expression : TypeExpression) :
    (bindType environment name expression).Corresponds (bindType environment name expression) := by
  have tallies := TypeScope.evaluateWithin_tallies depthLimit (.refl expression) same
  rw [bindType, TypeScope.evaluate]
  cases evaluates : TypeScope.evaluateWithin depthLimit environment expression with
  | error => exact same
  | ok type =>
      rw [evaluates] at tallies
      cases tallies with
      | ok types => exact same.bind types name

theorem corresponds_foldl (types : List (String × TypeExpression)) {environment : TypeEnvironment}
    (same : environment.Corresponds environment) :
    (types.foldl (fun environment entry => bindType environment entry.1 entry.2)
        environment).Corresponds
      (types.foldl (fun environment entry => bindType environment entry.1 entry.2)
        environment) := by
  induction types generalizing environment with
  | nil => exact same
  | cons entry types ih => exact ih (corresponds_bindType same entry.1 entry.2)

theorem corresponds_typeEnvironment : typeEnvironment.Corresponds typeEnvironment :=
  corresponds_foldl types ⟨rfl, rfl, fun _ => .none⟩

end Native

namespace Expression

/-- Unless one of the two types nests too deep, an expression and the one with its local bindings
written as calls both have a type, and it is the same named type or both are corresponding function
types, or both have none, with errors of the same kind. -/
theorem checkType_letFree (expression : Expression)
    (within : expression.checkType Native.typeEnvironment ≠ .error .depthExceeded)
    (within' : expression.letFree.checkType Native.typeEnvironment ≠ .error .depthExceeded) :
    (∃ type other, expression.checkType Native.typeEnvironment = .ok type ∧
      expression.letFree.checkType Native.typeEnvironment = .ok other ∧ type.Corresponds other ∧
      ((∃ id, type = .named id ∧ other = .named id) ∨
        (type.isFunction = true ∧ other.isFunction = true))) ∨
    ∃ error other, expression.checkType Native.typeEnvironment = .error error ∧
      expression.letFree.checkType Native.typeEnvironment = .error other ∧
      error.SameKind other := by
  have tallies : Tallies (expression.checkType Native.typeEnvironment)
      (expression.letFree.checkType Native.typeEnvironment) :=
    TypeScope.evaluateWithin_tallies depthLimit expression.rewrites_letFree
      Native.corresponds_typeEnvironment
  generalize expression.checkType Native.typeEnvironment = first,
    expression.letFree.checkType Native.typeEnvironment = second at within within' tallies
  cases tallies with
  | ok same => exact .inl ⟨_, _, rfl, rfl, same, same.shape⟩
  | error kind => exact .inr ⟨_, _, rfl, rfl, kind⟩
  | firstCut => exact (within rfl).elim
  | secondCut => exact (within' rfl).elim

/-- The types of a function correspond and still show whether its body has a local binding. -/
theorem checkType_letFree_function :
    ∃ type other,
      (function "x" none (letIn "y" (identifier "x") (identifier "y"))).checkType
        Native.typeEnvironment = .ok type ∧
      (function "x" none (letIn "y" (identifier "x") (identifier "y"))).letFree.checkType
        Native.typeEnvironment = .ok other ∧ type.Corresponds other ∧
      Native.typeEnvironment.describe type = "(x: any) -> let y = typeof x in typeof y" ∧
      Native.typeEnvironment.describe other = "(x: any) -> (y: any) -> typeof y (typeof x)" := by
  obtain ⟨type, evaluates, described⟩ : ∃ type,
      (function "x" none (letIn "y" (identifier "x") (identifier "y"))).checkType
        Native.typeEnvironment = .ok type ∧
      Native.typeEnvironment.describe type = "(x: any) -> let y = typeof x in typeof y" :=
    ⟨_, rfl, rfl⟩
  obtain ⟨other, evaluates', described'⟩ : ∃ other,
      (function "x" none (letIn "y" (identifier "x") (identifier "y"))).letFree.checkType
        Native.typeEnvironment = .ok other ∧
      Native.typeEnvironment.describe other = "(x: any) -> (y: any) -> typeof y (typeof x)" :=
    ⟨_, rfl, rfl⟩
  have agrees := checkType_letFree _ (by rw [evaluates]; exact nofun)
    (by rw [evaluates']; exact nofun)
  rw [evaluates, evaluates'] at agrees
  rcases agrees with ⟨_, _, found, found', same, _⟩ | ⟨_, _, fails, _⟩
  · cases found
    cases found'
    exact ⟨type, other, evaluates, evaluates', same, described, described'⟩
  · cases fails

end Expression

end Curried
