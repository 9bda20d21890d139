import Curried.Types.Evaluation

/-!
# Guards

The bound on nested evaluations is kept by counting guards.  Every evaluation, of an expression or
of a type expression, takes a guard when it starts and gives it back when it ends, whether it
succeeds or fails; with as many guards live as the bound allows, no further one is given out.

The evaluators are run here with that count as a state that every evaluation inside another one
changes.  Every run gives the count back as it found it, so that counting guards and passing a
budget down are the same, and a larger budget never changes an answer that a smaller one gives.
-/

namespace Curried

/-- A computation that can fail and that changes the number of live guards. -/
abbrev Guarded (ε α : Type) : Type := ExceptT ε (StateM Nat) α

namespace Guarded

variable {ε α β : Type}

/-- How a computation ends that is started with so many guards live, and how many are live then. -/
def runFrom (computation : Guarded ε α) (live : Nat) : Except ε α × Nat := computation.run.run live

/-- Run a computation under a guard of its own.  It is refused one if the bound is reached; else
the guard is given back however the computation ends. -/
def holding (refusal : ε) (computation : Guarded ε α) : Guarded ε α := fun live =>
  if depthLimit ≤ live then (.error refusal, live)
  else
    let (outcome, after) := computation.runFrom (live + 1)
    (outcome, after - 1)

/-- A computation that takes no guards. -/
def ofExcept (outcome : Except ε α) : Guarded ε α := fun live => (outcome, live)

/-- The computation ends so, with as many guards live as at its start. -/
def Keeps (live : Nat) (computation : Guarded ε α) (outcome : Except ε α) : Prop :=
  computation.runFrom live = (outcome, live)

namespace Keeps

variable {live : Nat} {computation : Guarded ε α} {outcome : Except ε α}

theorem ofExcept (outcome : Except ε α) : Keeps live (.ofExcept outcome) outcome := rfl

theorem pure (value : α) : Keeps live (pure value : Guarded ε α) (.ok value) := rfl

theorem throw (error : ε) : Keeps live (throw error : Guarded ε α) (.error error) := rfl

theorem bind {next : α → Guarded ε β} {further : α → Except ε β}
    (keeps : Keeps live computation outcome)
    (goesOn : ∀ value, Keeps live (next value) (further value)) :
    Keeps live (computation >>= next) (outcome >>= further) := by
  rw [Keeps, runFrom] at keeps
  rw [Keeps, runFrom, ExceptT.run_bind, StateT.run_bind, keeps]
  cases outcome with
  | ok value => exact goesOn value
  | error error => rfl

theorem map {f : α → β} (keeps : Keeps live computation outcome) :
    Keeps live (f <$> computation) (outcome.map f) :=
  keeps.bind fun value => .pure (f value)

theorem mapM {ι : Type} {f : ι → Guarded ε α} {g : ι → Except ε α} {items : List ι}
    (keeps : ∀ item ∈ items, Keeps live (f item) (g item)) :
    Keeps live (items.mapM f) (items.mapM g) := by
  induction items with
  | nil => exact .pure []
  | cons item items ih =>
      rw [List.mapM_cons, List.mapM_cons]
      refine (keeps item (.head _)).bind fun value => ?_
      exact (ih fun other member => keeps other (.tail _ member)).bind fun values =>
        .pure (value :: values)

/-- A guard is given back to a count that the computation under it has kept. -/
theorem holding {refusal : ε} (free : live < depthLimit)
    (keeps : Keeps (live + 1) computation outcome) :
    Keeps live (computation.holding refusal) outcome := by
  have granted : (computation.holding refusal).runFrom live =
      ((computation.runFrom (live + 1)).1, (computation.runFrom (live + 1)).2 - 1) :=
    if_neg (Nat.not_le.2 free)
  rw [Keeps, granted, keeps]
  rfl

theorem refused {refusal : ε} (spent : depthLimit ≤ live) :
    Keeps live (computation.holding refusal) (.error refusal) :=
  if_pos spent

end Keeps

/-- The computation keeps the count of guards, and with fewer of them live it ends as it does with
more, unless with more it ends in `cut`. -/
structure OnlyBounded (cut : ε) (computation : Guarded ε α) (live more : Nat) : Prop where
  restores : (computation.runFrom live).2 = live
  restores_more : (computation.runFrom more).2 = more
  unchanged : (computation.runFrom more).1 ≠ .error cut →
    (computation.runFrom live).1 = (computation.runFrom more).1

end Guarded

/-! ### Evaluation under guards -/

/-- Calling one value with another under guards. -/
abbrev GuardedCaller := Value → Value → Guarded EvaluationError Value

namespace Operation

/-- Call a value with several arguments, one at a time. -/
def callAllGuarded (call : GuardedCaller) : Value → List Value → Guarded EvaluationError Value
  | result, [] => pure result
  | callee, argument :: rest => do
      let result ← call callee argument
      callAllGuarded call result rest

/-- Perform an operation.  Only the one that spreads arguments calls a value. -/
def performGuarded (call : GuardedCaller) (name : String) (arguments : List Value) :
    Operation → Guarded EvaluationError Value
  | .spread =>
      match arguments with
      | [] => pure .undefined
      | callee :: rest => callAllGuarded call callee rest
  | operation =>
      .ofExcept (operation.perform (fun callee _ => .error (.notAFunction callee.typeName)) name
        arguments)

end Operation

/-- Call a value under guards: `run` evaluates the bodies of closures. -/
def Value.callGuarded (run : Environment → Expression → Guarded EvaluationError Value) :
    Nat → GuardedCaller
  | _, .closure parameter body bindings, argument => run (bindings.bind parameter argument) body
  | calls, .builtin native arguments, argument =>
      let arguments := arguments ++ [argument]
      if arguments.length < native.arity then pure (.builtin native arguments)
      else
        match calls with
        | 0 => throw .depthExceeded
        | calls + 1 =>
            native.operation.performGuarded (callGuarded run calls) native.name arguments
  | _, other, _ => throw (.notAFunction other.typeName)

namespace Expression

/-- Evaluate a function and then, if it can be called, its argument, and call it. -/
def applyGuarded (evaluate : Expression → Guarded EvaluationError Value) (call : GuardedCaller)
    (callee argument : Expression) : Guarded EvaluationError Value := do
  let function ← evaluate callee
  if function.isFunction then
    let value ← evaluate argument
    call function value
  else throw (.notAFunction function.typeName)

/-- Evaluate an expression under guards.  Evaluations nest at most as many frames deep. -/
def guardedIn : Nat → Environment → Expression → Guarded EvaluationError Value
  | 0, _, _ => throw .depthExceeded
  | frames + 1, environment, expression =>
      .holding .depthExceeded <|
        match expression with
        | .number value => pure (.number value)
        | .string content => pure (.string content)
        | .boolean value => pure (.boolean value)
        | .null => pure .null
        | .list items => .list <$> items.mapM (guardedIn frames environment)
        | .identifier name => pure (read environment name)
        | .operator symbol => pure (read environment (operatorName symbol))
        | .apply callee argument =>
            applyGuarded (guardedIn frames environment)
              (Value.callGuarded (guardedIn frames) Value.nativeCallLimit) callee argument
        | .applyInfix sign operand =>
            applyGuarded (guardedIn frames environment)
              (Value.callGuarded (guardedIn frames) Value.nativeCallLimit) sign operand
        | .letIn name bound body => do
            let value ← guardedIn frames environment bound
            guardedIn frames (environment.bind name value) body
        | .function parameter _ body => pure (.closure parameter body environment)
        | .group inner => guardedIn frames environment inner

/-- Evaluate an expression under guards.  There is one frame more than there are guards, so the
guards run out first. -/
def guarded (expression : Expression) (environment : Environment) :
    Guarded EvaluationError Value :=
  guardedIn (depthLimit + 1) environment expression

end Expression

namespace TypeScope

/-- Apply a type to an argument type under guards: `run` evaluates the result expression. -/
def applyGuarded (run : TypeEnvironment → TypeExpression → Guarded TypeError Ty)
    (environment : TypeEnvironment) : Ty → Ty → Guarded TypeError Ty
  | .function label parameter body scope, argument => do
      let argument ← .ofExcept (environment.registry.reduce parameter argument)
      match label with
      | some label => run (scope.bind label argument) body
      | none => run scope body
  | other, _ => throw (.notAFunction (environment.describe other))

/-- Evaluate a type expression under guards.  Evaluations nest at most as many frames deep. -/
def guardedIn : Nat → TypeEnvironment → TypeExpression → Guarded TypeError Ty
  | 0, _, _ => throw .depthExceeded
  | frames + 1, environment, expression =>
      .holding .depthExceeded <|
        match expression with
        | .named name => .ofExcept (environment.named name)
        | .typeOf name =>
            match environment.lookup name with
            | some type => pure type
            | none => throw (.unboundIdentifier name)
        | .function parameter body => do
            let parameter ← guardedIn frames environment parameter
            return .function none parameter body environment
        | .labelled label parameter body => do
            let parameter ← guardedIn frames environment parameter
            return .function (some label) parameter body environment
        | .letIn label bound body => do
            let type ← guardedIn frames environment bound
            guardedIn frames (environment.bind label type) body
        | .apply callee argument => do
            let function ← guardedIn frames environment callee
            let type ← guardedIn frames environment argument
            environment.applyGuarded (guardedIn frames) function type

/-- Evaluate a type expression under guards. -/
def guarded (environment : TypeEnvironment) (expression : TypeExpression) :
    Guarded TypeError Ty :=
  guardedIn (depthLimit + 1) environment expression

end TypeScope

/-! ### Guards count down the budget -/

section Keeping

open Guarded (Keeps)

variable {live frames : Nat}

namespace Operation

variable {call : GuardedCaller} {call' : Caller}

theorem callAllGuarded_keeps
    (calls : ∀ callee argument, Keeps live (call callee argument) (call' callee argument))
    (callee : Value) (arguments : List Value) :
    Keeps live (callAllGuarded call callee arguments) (callAll call' callee arguments) := by
  induction arguments generalizing callee with
  | nil => exact .pure callee
  | cons argument _ ih => exact (calls callee argument).bind ih

theorem performGuarded_keeps
    (calls : ∀ callee argument, Keeps live (call callee argument) (call' callee argument))
    (name : String) (arguments : List Value) (operation : Operation) :
    Keeps live (operation.performGuarded call name arguments)
      (operation.perform call' name arguments) := by
  cases operation with
  | spread =>
      cases arguments with
      | nil => exact .pure Value.undefined
      | cons callee rest => exact callAllGuarded_keeps calls callee rest
  | _ => exact .ofExcept _

end Operation

theorem Value.callGuarded_keeps {run : Environment → Expression → Guarded EvaluationError Value}
    {run' : Environment → Expression → Except EvaluationError Value}
    (bodies : ∀ bindings body, Keeps live (run bindings body) (run' bindings body)) (calls : Nat)
    (callee argument : Value) :
    Keeps live (callGuarded run calls callee argument) (callWith run' calls callee argument) := by
  induction calls using Nat.strongRecOn generalizing callee argument with
  | ind calls ih =>
      rw [callGuarded.eq_def, callWith.eq_def]
      cases callee with
      | closure parameter body bindings => exact bodies _ _
      | builtin native arguments =>
          dsimp only
          split
          · exact .pure _
          · cases calls with
            | zero => exact .throw _
            | succ calls =>
                exact Operation.performGuarded_keeps (ih calls (Nat.lt_succ_self calls)) _ _ _
      | _ => exact .throw _

namespace Expression

theorem applyGuarded_keeps {evaluate : Expression → Guarded EvaluationError Value}
    {evaluate' : Expression → Except EvaluationError Value} {call : GuardedCaller} {call' : Caller}
    (evaluates : ∀ expression, Keeps live (evaluate expression) (evaluate' expression))
    (calls : ∀ callee argument, Keeps live (call callee argument) (call' callee argument))
    (callee argument : Expression) :
    Keeps live (applyGuarded evaluate call callee argument)
      (applyWith evaluate' call' callee argument) := by
  refine (evaluates callee).bind fun function => ?_
  split
  · exact (evaluates argument).bind fun value => calls function value
  · exact .throw _

/-- Evaluating under guards is evaluating with the guards that are left as the budget. -/
theorem guardedIn_keeps (enough : depthLimit < frames + live) (within : live ≤ depthLimit)
    (environment : Environment) (expression : Expression) :
    Keeps live (guardedIn frames environment expression)
      (evaluateWithin (depthLimit - live) environment expression) := by
  induction frames generalizing live environment expression with
  | zero => omega
  | succ frames ih =>
      rcases Nat.eq_or_lt_of_le within with spent | free
      · rw [spent, Nat.sub_self]
        exact .refused (Nat.le_refl depthLimit)
      have taken : live + 1 ≤ depthLimit := free
      have inside := ih (by omega) taken
      have budget_eq : depthLimit - live = depthLimit - (live + 1) + 1 := by omega
      have calls := Value.callGuarded_keeps inside Value.nativeCallLimit
      rw [budget_eq, guardedIn.eq_def, evaluateWithin.eq_def]
      refine .holding free ?_
      cases expression with
      | list items => exact .map (.mapM fun item _ => inside environment item)
      | apply callee argument => exact applyGuarded_keeps (inside environment) calls _ _
      | applyInfix sign operand => exact applyGuarded_keeps (inside environment) calls _ _
      | letIn name bound body =>
          exact (inside environment bound).bind fun value => inside _ body
      | group inner => exact inside environment inner
      | _ => exact .pure _

theorem guarded_keeps (expression : Expression) (environment : Environment)
    (within : live ≤ depthLimit) :
    Keeps live (expression.guarded environment)
      (evaluateWithin (depthLimit - live) environment expression) :=
  guardedIn_keeps (by omega) within environment expression

end Expression

namespace TypeScope

theorem applyGuarded_keeps {run : TypeEnvironment → TypeExpression → Guarded TypeError Ty}
    {run' : TypeEnvironment → TypeExpression → Except TypeError Ty}
    (bodies : ∀ scope body, Keeps live (run scope body) (run' scope body))
    (environment : TypeEnvironment) (function argument : Ty) :
    Keeps live (environment.applyGuarded run function argument)
      (environment.applyWith run' function argument) := by
  cases function with
  | named => exact .throw _
  | function label parameter body scope =>
      refine (Keeps.ofExcept _).bind fun argument => ?_
      cases label with
      | some label => exact bodies _ _
      | none => exact bodies _ _

/-- Evaluating a type expression under guards is evaluating it with the guards that are left as the
budget. -/
theorem guardedIn_keeps (enough : depthLimit < frames + live) (within : live ≤ depthLimit)
    (environment : TypeEnvironment) (expression : TypeExpression) :
    Keeps live (guardedIn frames environment expression)
      (evaluateWithin (depthLimit - live) environment expression) := by
  induction frames generalizing live environment expression with
  | zero => omega
  | succ frames ih =>
      rcases Nat.eq_or_lt_of_le within with spent | free
      · rw [spent, Nat.sub_self]
        exact .refused (Nat.le_refl depthLimit)
      have taken : live + 1 ≤ depthLimit := free
      have inside := ih (by omega) taken
      have budget_eq : depthLimit - live = depthLimit - (live + 1) + 1 := by omega
      rw [budget_eq, guardedIn.eq_def, evaluateWithin.eq_def]
      refine .holding free ?_
      cases expression with
      | named name => exact .ofExcept _
      | typeOf name =>
          dsimp only
          cases environment.lookup name with
          | some type => exact .pure type
          | none => exact .throw _
      | function parameter body =>
          exact (inside environment parameter).bind fun _ => .pure _
      | labelled label parameter body =>
          exact (inside environment parameter).bind fun _ => .pure _
      | letIn label bound body =>
          exact (inside environment bound).bind fun type => inside _ body
      | apply callee argument =>
          refine (inside environment callee).bind fun function => ?_
          refine (inside environment argument).bind fun type => ?_
          exact applyGuarded_keeps inside environment function type

theorem guarded_keeps (environment : TypeEnvironment) (expression : TypeExpression)
    (within : live ≤ depthLimit) :
    Keeps live (environment.guarded expression)
      (evaluateWithin (depthLimit - live) environment expression) :=
  guardedIn_keeps (by omega) within environment expression

end TypeScope

end Keeping

/-! ### More budget never changes an answer -/

/-- The second computation ends as the first one does, unless the first one ends in `cut`. -/
def Outlasts {ε α : Type} (cut : ε) (first second : Except ε α) : Prop :=
  first ≠ .error cut → second = first

namespace Outlasts

variable {ε α β : Type} {cut : ε} {first second : Except ε α}

theorem refl (outcome : Except ε α) : Outlasts cut outcome outcome := fun _ => rfl

theorem of_cut (outcome : Except ε α) : Outlasts cut (.error cut) outcome :=
  fun within => (within rfl).elim

theorem bind {next further : α → Except ε β} (outlasts : Outlasts cut first second)
    (goesOn : ∀ value, Outlasts cut (next value) (further value)) :
    Outlasts cut (first >>= next) (second >>= further) := by
  intro within
  cases first with
  | ok value =>
      rw [outlasts nofun]
      exact goesOn value within
  | error error =>
      have different : (.error error : Except ε α) ≠ .error cut := by
        rintro ⟨⟩
        exact within rfl
      rw [outlasts different]
      rfl

theorem map {f : α → β} (outlasts : Outlasts cut first second) :
    Outlasts cut (first.map f) (second.map f) := by
  have mapped (outcome : Except ε α) : outcome.map f = outcome >>= fun value => .ok (f value) := by
    cases outcome <;> rfl
  rw [mapped, mapped]
  exact outlasts.bind fun value => .refl _

theorem mapM {ι : Type} {f g : ι → Except ε α} (outlasts : ∀ item, Outlasts cut (f item) (g item))
    (items : List ι) : Outlasts cut (items.mapM f) (items.mapM g) := by
  induction items with
  | nil => exact .refl _
  | cons item items ih =>
      rw [List.mapM_cons, List.mapM_cons]
      exact (outlasts item).bind fun value => ih.bind fun values => .refl _

end Outlasts

section Budgets

variable {budget more : Nat}

/-- Every call with the second caller outlasts the one with the first. -/
def CallsOutlast (call call' : Caller) : Prop :=
  ∀ callee argument, Outlasts .depthExceeded (call callee argument) (call' callee argument)

namespace Operation

variable {call call' : Caller}

theorem callAll_outlasts (calls : CallsOutlast call call') (callee : Value)
    (arguments : List Value) :
    Outlasts .depthExceeded (callAll call callee arguments) (callAll call' callee arguments) := by
  induction arguments generalizing callee with
  | nil => exact .refl _
  | cons argument _ ih => exact (calls callee argument).bind ih

theorem perform_outlasts (calls : CallsOutlast call call') (name : String)
    (arguments : List Value) (operation : Operation) :
    Outlasts .depthExceeded (operation.perform call name arguments)
      (operation.perform call' name arguments) := by
  cases operation with
  | spread =>
      cases arguments with
      | nil => exact .refl _
      | cons callee rest => exact callAll_outlasts calls callee rest
  | _ => exact .refl _

end Operation

theorem Value.callWith_outlasts {run run' : Environment → Expression → Except EvaluationError Value}
    (bodies : ∀ bindings body, Outlasts .depthExceeded (run bindings body) (run' bindings body))
    (calls : Nat) : CallsOutlast (callWith run calls) (callWith run' calls) := by
  induction calls using Nat.strongRecOn with
  | ind calls ih =>
      intro callee argument
      rw [callWith.eq_def, callWith.eq_def]
      cases callee with
      | closure parameter body bindings => exact bodies _ _
      | builtin native arguments =>
          dsimp only
          split
          · exact .refl _
          · cases calls with
            | zero => exact .refl _
            | succ calls =>
                exact Operation.perform_outlasts (ih calls (Nat.lt_succ_self calls)) _ _ _
      | _ => exact .refl _

namespace Expression

theorem applyWith_outlasts {evaluate evaluate' : Expression → Except EvaluationError Value}
    {call call' : Caller}
    (evaluates : ∀ expression,
      Outlasts .depthExceeded (evaluate expression) (evaluate' expression))
    (calls : CallsOutlast call call') (callee argument : Expression) :
    Outlasts .depthExceeded (applyWith evaluate call callee argument)
      (applyWith evaluate' call' callee argument) := by
  refine (evaluates callee).bind fun function => ?_
  split
  · exact (evaluates argument).bind fun value => calls function value
  · exact .refl _

theorem evaluateWithin_outlasts (enough : budget ≤ more) (environment : Environment)
    (expression : Expression) :
    Outlasts .depthExceeded (evaluateWithin budget environment expression)
      (evaluateWithin more environment expression) := by
  induction budget generalizing more environment expression with
  | zero => exact .of_cut _
  | succ budget ih =>
      obtain ⟨more, rfl⟩ : ∃ fewer, more = fewer + 1 := ⟨more - 1, by omega⟩
      have inside := ih (Nat.le_of_succ_le_succ enough)
      have calls := Value.callWith_outlasts inside Value.nativeCallLimit
      cases expression with
      | list items => exact (Outlasts.mapM (inside environment) items).map
      | apply callee argument => exact applyWith_outlasts (inside environment) calls _ _
      | applyInfix sign operand => exact applyWith_outlasts (inside environment) calls _ _
      | letIn name bound body =>
          exact (inside environment bound).bind fun value => inside _ body
      | group inner => exact inside environment inner
      | _ => exact .refl _

end Expression

namespace TypeScope

theorem applyWith_outlasts {run run' : TypeEnvironment → TypeExpression → Except TypeError Ty}
    (bodies : ∀ scope body, Outlasts .depthExceeded (run scope body) (run' scope body))
    (environment : TypeEnvironment) (function argument : Ty) :
    Outlasts .depthExceeded (environment.applyWith run function argument)
      (environment.applyWith run' function argument) := by
  cases function with
  | named => exact .refl _
  | function label parameter body scope =>
      refine (Outlasts.refl _).bind fun argument => ?_
      cases label with
      | some label => exact bodies _ _
      | none => exact bodies _ _

theorem evaluateWithin_outlasts (enough : budget ≤ more) (environment : TypeEnvironment)
    (expression : TypeExpression) :
    Outlasts .depthExceeded (evaluateWithin budget environment expression)
      (evaluateWithin more environment expression) := by
  induction budget generalizing more environment expression with
  | zero => exact .of_cut _
  | succ budget ih =>
      obtain ⟨more, rfl⟩ : ∃ fewer, more = fewer + 1 := ⟨more - 1, by omega⟩
      have inside := ih (Nat.le_of_succ_le_succ enough)
      cases expression with
      | named => exact .refl _
      | typeOf => exact .refl _
      | function parameter body =>
          exact (inside environment parameter).bind fun _ => .refl _
      | labelled label parameter body =>
          exact (inside environment parameter).bind fun _ => .refl _
      | letIn label bound body =>
          exact (inside environment bound).bind fun type => inside _ body
      | apply callee argument =>
          refine (inside environment callee).bind fun function => ?_
          refine (inside environment argument).bind fun type => ?_
          exact applyWith_outlasts inside environment function type

end TypeScope

end Budgets

/-! ### The bound only bounds -/

namespace Guarded

/-- A computation that counts guards and ends as one with a budget is only bounded by them. -/
theorem onlyBounded {ε α : Type} {cut : ε} {computation : Guarded ε α} {live more : Nat}
    (within : Nat → Except ε α)
    (keeps : ∀ count, count ≤ depthLimit → Keeps count computation (within (depthLimit - count)))
    (outlasts : ∀ budget budget', budget ≤ budget' → Outlasts cut (within budget) (within budget'))
    (fewer : live ≤ more) (bounded : more ≤ depthLimit) :
    OnlyBounded cut computation live more := by
  have run := keeps live (Nat.le_trans fewer bounded)
  have run_more := keeps more bounded
  refine ⟨by rw [run], by rw [run_more], ?_⟩
  rw [run, run_more]
  exact outlasts _ _ (Nat.sub_le_sub_left fewer depthLimit)

end Guarded

/-- Evaluation with guards counted is evaluation with a budget: the guards that are left.  Each run
leaves as many guards live as it finds, and however many of them are live, an expression or a type
expression that does not nest too deep has the value, or fails with the error, that it has when
fewer are. -/
theorem guards_only_bound {live more : Nat} (fewer : live ≤ more) (bounded : more ≤ depthLimit) :
    (∀ (environment : Environment) (expression : Expression),
      (expression.guarded environment).OnlyBounded .depthExceeded live more ∧
      ((expression.guarded environment).runFrom live).1 =
        Expression.evaluateWithin (depthLimit - live) environment expression) ∧
    ∀ (environment : TypeEnvironment) (expression : TypeExpression),
      (environment.guarded expression).OnlyBounded .depthExceeded live more ∧
      ((environment.guarded expression).runFrom live).1 =
        TypeScope.evaluateWithin (depthLimit - live) environment expression := by
  have within : live ≤ depthLimit := Nat.le_trans fewer bounded
  constructor
  · intro environment expression
    have keeps (count : Nat) (few : count ≤ depthLimit) := expression.guarded_keeps environment few
    refine ⟨Guarded.onlyBounded (Expression.evaluateWithin · environment expression) keeps
      (fun _ _ less => ?_) fewer bounded, ?_⟩
    · exact Expression.evaluateWithin_outlasts less environment expression
    · exact congrArg Prod.fst (keeps live within)
  · intro environment expression
    have keeps (count : Nat) (few : count ≤ depthLimit) := environment.guarded_keeps expression few
    refine ⟨Guarded.onlyBounded (TypeScope.evaluateWithin · environment expression) keeps
      (fun _ _ less => ?_) fewer bounded, ?_⟩
    · exact TypeScope.evaluateWithin_outlasts less environment expression
    · exact congrArg Prod.fst (keeps live within)

/-- Applying the identity takes two guards inside each other, and applying a function type three.
With as many left they yield what they yield with all of them left; with one fewer they are refused
one, and all others are given back. -/
theorem guards_only_bound_identity :
    ((Expression.apply (.function "x" none (.identifier "x")) .null).guarded .empty).OnlyBounded
      .depthExceeded 0 254 ∧
    ((Expression.apply (.function "x" none (.identifier "x")) .null).guarded .empty).runFrom 254 =
      (.ok .null, 254) ∧
    ((Expression.apply (.function "x" none (.identifier "x")) .null).guarded .empty).runFrom 255 =
      (.error .depthExceeded, 255) ∧
    ((TypeScope.ofRegistry .standard).guarded
      (.apply (.function (.named "number") (.named "any")) (.named "number"))).OnlyBounded
        .depthExceeded 0 253 ∧
    ((TypeScope.ofRegistry .standard).guarded
      (.apply (.function (.named "number") (.named "any")) (.named "number"))).runFrom 253 =
        (.ok (.named 0), 253) ∧
    ((TypeScope.ofRegistry .standard).guarded
      (.apply (.function (.named "number") (.named "any")) (.named "number"))).runFrom 254 =
        (.error .depthExceeded, 254) :=
  ⟨((guards_only_bound (Nat.zero_le _) (by decide)).1 _ _).1, rfl, rfl,
    ((guards_only_bound (Nat.zero_le _) (by decide)).2 _ _).1, rfl, rfl⟩

end Curried
