import Curried.Native
import Curried.Proofs.Evaluation.Occasion
import Mathlib.Data.List.Basic

/-!
# Native functions wait for all their arguments

A native function collects arguments one at a time and runs with the last one.  In a run that starts
with the native library, every native function that is anywhere in a value still waits for an
argument; so when one runs, it has exactly as many as it waits for.
-/

namespace Curried

/-! ### Values in values -/

/-- All values that are bound have a property. -/
def Bindings.All {α : Type} (bindings : Bindings α) (holds : α → Prop) : Prop :=
  ∀ entry ∈ bindings.entries, holds entry.2

namespace Bindings.All

variable {α : Type} {bindings : Bindings α} {holds : α → Prop} {name : String} {value : α}

theorem bind (all : bindings.All holds) (here : holds value) :
    (bindings.bind name value).All holds := by
  intro entry member
  rcases List.mem_cons.1 member with rfl | earlier
  · exact here
  · exact all entry (List.mem_filter.1 earlier).1

theorem of_lookup (all : bindings.All holds) (found : bindings.lookup name = some value) :
    holds value := by
  obtain ⟨before, after, entries, _⟩ := List.lookup_eq_some_iff.1 found
  exact all (name, value) (by simp [entries])

end Bindings.All

namespace Value

/-- A value is another one, or in it: an item of a list, an argument that a native function has, or
a value that is bound around a closure. -/
inductive IsPart : Value → Value → Prop where
  | self (value : Value) : IsPart value value
  | item {part item : Value} {items : List Value} :
      item ∈ items → IsPart part item → IsPart part (.list items)
  | argument {part argument : Value} {arguments : List Value} (native : Native) :
      argument ∈ arguments → IsPart part argument → IsPart part (.builtin native arguments)
  | bound {part : Value} {entry : String × Value} {bindings : Environment} (parameter : String)
      (body : Expression) : entry ∈ bindings.entries → IsPart part entry.2 →
        IsPart part (.closure parameter body bindings)

/-- Every native function in a value is one of the library and waits for an argument. -/
def Waiting (value : Value) : Prop :=
  ∀ native arguments, IsPart (.builtin native arguments) value →
    native ∈ Native.library ∧ arguments.length < native.arity

variable {part middle whole value argument : Value} {native : Native} {arguments items : List Value}

theorem IsPart.trans (inner : part.IsPart middle) (outer : middle.IsPart whole) :
    part.IsPart whole := by
  induction outer with
  | self => exact inner
  | item member _ ih => exact .item member ih
  | argument native member _ ih => exact .argument native member ih
  | bound parameter body member _ ih => exact .bound parameter body member ih

namespace Waiting

theorem of_isPart (waiting : whole.Waiting) (isPart : part.IsPart whole) : part.Waiting :=
  fun native arguments inner => waiting native arguments (inner.trans isPart)

theorem boolean (truth : Bool) : (Value.boolean truth).Waiting := nofun

theorem number (value : Float) : (Value.number value).Waiting := nofun

theorem string (content : String) : (Value.string content).Waiting := nofun

theorem null : Value.null.Waiting := nofun

theorem undefined : Value.undefined.Waiting := nofun

theorem list (all : ∀ item ∈ items, item.Waiting) : (Value.list items).Waiting := by
  intro native arguments isPart
  cases isPart with
  | item member inner => exact all _ member native arguments inner

theorem closure {bindings : Environment} (parameter : String) (body : Expression)
    (all : bindings.All Waiting) : (Value.closure parameter body bindings).Waiting := by
  intro native arguments isPart
  cases isPart with
  | bound _ _ member inner => exact all _ member native arguments inner

theorem builtin (member : native ∈ Native.library) (fewer : arguments.length < native.arity)
    (all : ∀ argument ∈ arguments, argument.Waiting) :
    (Value.builtin native arguments).Waiting := by
  intro other others isPart
  cases isPart with
  | self => exact ⟨member, fewer⟩
  | argument _ among inner => exact all _ among other others inner

theorem of_builtin (waiting : (Value.builtin native arguments).Waiting) :
    native ∈ Native.library ∧ arguments.length < native.arity ∧
      ∀ argument ∈ arguments, argument.Waiting := by
  obtain ⟨member, fewer⟩ := waiting native arguments (.self _)
  exact ⟨member, fewer, fun _ among => waiting.of_isPart (.argument native among (.self _))⟩

theorem of_closure {parameter : String} {body : Expression} {bindings : Environment}
    (waiting : (Value.closure parameter body bindings).Waiting) : bindings.All Waiting :=
  fun _ member => waiting.of_isPart (.bound parameter body member (.self _))

end Waiting

end Value

/-! ### What native functions yield -/

namespace Operation

variable {name : String} {arguments : List Value} {value : Value}

theorem waiting_of_addition (performs : addition name arguments = .ok value) : value.Waiting := by
  unfold addition at performs
  split at performs
  · cases performs
    exact .number _
  · cases performs
    exact .string _
  · cases performs

theorem waiting_of_arithmetic {f : Float → Float → Float}
    (performs : arithmetic name f arguments = .ok value) : value.Waiting := by
  unfold arithmetic at performs
  split at performs
  · cases performs
    exact .number _
  · cases performs

theorem waiting_of_equality {expected : Bool}
    (performs : equality name expected arguments = .ok value) : value.Waiting := by
  unfold equality at performs
  split at performs
  · cases performs
    exact .boolean _
  · cases performs

theorem waiting_of_comparison {numbers : Float → Float → Bool} {texts : String → String → Bool}
    (performs : comparison name numbers texts arguments = .ok value) : value.Waiting := by
  unfold comparison at performs
  split at performs
  · cases performs
    exact .boolean _
  · cases performs
    exact .boolean _
  · cases performs

theorem waiting_of_choose (all : ∀ argument ∈ arguments, argument.Waiting)
    (performs : choose name arguments = .ok value) : value.Waiting := by
  unfold choose at performs
  split at performs
  · rename_i condition first second
    cases performs
    cases condition
    · exact all second (by simp)
    · exact all first (by simp)
  · cases performs

/-- Only one operation calls anything. -/
theorem perform_eq {operation : Operation} (calls_nothing : operation ≠ .spread)
    (call call' : Caller) :
    operation.perform call name arguments = operation.perform call' name arguments := by
  cases operation with
  | spread => exact (calls_nothing rfl).elim
  | _ => rfl

/-- What an operation yields that calls nothing is new data, or has the arguments in it. -/
theorem waiting_of_perform {operation : Operation} {call : Caller}
    (calls_nothing : operation ≠ .spread) (all : ∀ argument ∈ arguments, argument.Waiting)
    (performs : operation.perform call name arguments = .ok value) : value.Waiting := by
  cases operation with
  | add => exact waiting_of_addition performs
  | subtract | multiply | divide => exact waiting_of_arithmetic performs
  | equal | different => exact waiting_of_equality performs
  | less | lessOrEqual | greater | greaterOrEqual => exact waiting_of_comparison performs
  | branch => exact waiting_of_choose all performs
  | collect =>
      cases performs
      exact .list all
  | count =>
      cases performs
      exact .number _
  | last =>
      cases performs
      cases last : arguments.getLast? with
      | none => exact .undefined
      | some argument => exact all argument (List.mem_of_getLast? last)
  | refuse => cases performs
  | spread => exact (calls_nothing rfl).elim

end Operation

namespace Native

variable {native : Native}

theorem operation_ne_spread (member : native ∈ library) : native.operation ≠ .spread := by
  revert native
  decide

theorem arity_pos (member : native ∈ library) : 0 < native.arity := by
  revert native
  decide

theorem arity_of_equality (member : native ∈ library) :
    native.operation = .equal ∨ native.operation = .different → native.arity = 2 := by
  revert native
  decide

theorem all_environment : environment.All Value.Waiting := by
  have start : (Bindings.empty : Environment).All Value.Waiting := nofun
  refine List.foldlRecOn (motive := fun bindings : Environment => bindings.All Value.Waiting)
    library _ start fun bindings all native member => all.bind ?_
  exact .builtin member (arity_pos member) nofun

end Native

/-! ### Calls -/

section
variable {run : Environment → Expression → Except EvaluationError Value} {calls : Nat}
  {native : Native} {arguments held : List Value} {function operand value : Value}

theorem callWith_of_fewer (fewer : held.length + 1 < native.arity) :
    Value.callWith run calls (.builtin native held) operand =
      .ok (.builtin native (held ++ [operand])) := by
  rw [Value.callWith.eq_def]
  simp [fewer]

theorem callWith_of_enough (enough : native.arity ≤ held.length + 1) :
    Value.callWith run (calls + 1) (.builtin native held) operand =
      native.operation.perform (Value.callWith run calls) native.name (held ++ [operand]) := by
  rw [Value.callWith.eq_def]
  simp [Nat.not_lt.2 enough]

/-- A native function that is applied to fewer arguments than it waits for holds them in the order
in which it was applied to them. -/
theorem callAll_of_fewer (fewer : held.length + arguments.length < native.arity) :
    Operation.callAll (Value.callWith run calls) (.builtin native held) arguments =
      .ok (.builtin native (held ++ arguments)) := by
  induction arguments generalizing held with
  | nil => simp [Operation.callAll]
  | cons argument arguments ih =>
      rw [List.length_cons] at fewer
      rw [Operation.callAll, callWith_of_fewer (by omega)]
      have rest := @ih (held ++ [argument]) (by simp; omega)
      simpa [bind, Except.bind] using rest

theorem callAll_append {call : Caller} (callee : Value) (arguments others : List Value) :
    Operation.callAll call callee (arguments ++ others) =
      Operation.callAll call callee arguments >>= (Operation.callAll call · others) := by
  induction arguments generalizing callee with
  | nil => rfl
  | cons argument arguments ih =>
      rw [List.cons_append, Operation.callAll, Operation.callAll]
      cases call callee argument with
      | error => rfl
      | ok result => exact ih result

/-- With its last argument, a native function runs. -/
theorem callAll_of_enough (last : held.length + 1 = native.arity) :
    Operation.callAll (Value.callWith run (calls + 1)) native.value (held ++ [operand]) =
      native.operation.perform (Value.callWith run calls) native.name (held ++ [operand]) := by
  have collected : Operation.callAll (Value.callWith run (calls + 1)) native.value held =
      .ok (.builtin native held) := callAll_of_fewer (by simp; omega)
  rw [callAll_append, collected, ← callWith_of_enough (Nat.le_of_eq last.symm)]
  simp only [bind, Except.bind, Operation.callAll]
  cases Value.callWith run (calls + 1) (.builtin native held) operand <;> rfl

theorem callAll_pair {left right : Value} (two : native.arity = 2) :
    Operation.callAll (Value.callWith run (calls + 1)) native.value [left, right] =
      native.operation.perform (Value.callWith run calls) native.name [left, right] :=
  have last : [left].length + 1 = native.arity := two.symm
  callAll_of_enough last

theorem waiting_of_call
    (runs : ∀ bindings body value, bindings.All Value.Waiting → run bindings body = .ok value →
      value.Waiting)
    (function_waiting : function.Waiting) (operand_waiting : operand.Waiting)
    (succeeds : Value.callWith run calls function operand = .ok value) : value.Waiting := by
  cases function with
  | closure parameter body bindings =>
      rw [Value.callWith.eq_def] at succeeds
      exact runs _ _ _ (function_waiting.of_closure.bind operand_waiting) succeeds
  | builtin native held =>
      obtain ⟨member, fewer, all⟩ := function_waiting.of_builtin
      have all_now : ∀ argument ∈ held ++ [operand], argument.Waiting := by
        simpa [or_imp, forall_and] using ⟨all, operand_waiting⟩
      rcases Nat.lt_or_ge (held.length + 1) native.arity with more | enough
      · rw [callWith_of_fewer more] at succeeds
        cases succeeds
        exact .builtin member (by simpa using more) all_now
      · cases calls with
        | zero =>
            rw [Value.callWith.eq_def] at succeeds
            simp [Nat.not_lt.2 enough] at succeeds
        | succ calls =>
            rw [callWith_of_enough enough] at succeeds
            exact Operation.waiting_of_perform (Native.operation_ne_spread member) all_now succeeds
  | _ =>
      rw [Value.callWith.eq_def] at succeeds
      cases succeeds

end

/-! ### Runs -/

/-- A traversal yields only what it computes for the items. -/
theorem forall_of_mapM {α β ε : Type} {f : α → Except ε β} {holds : β → Prop} {items : List α}
    {values : List β} (each : ∀ item value, f item = .ok value → holds value)
    (traverses : items.mapM f = .ok values) : ∀ value ∈ values, holds value := by
  induction items generalizing values with
  | nil =>
      cases traverses
      nofun
  | cons item others ih =>
      rw [List.mapM_cons] at traverses
      obtain ⟨first, of_item, rest⟩ := ok_parts_of_bind traverses
      obtain ⟨later, of_others, same⟩ := ok_parts_of_bind rest
      cases same
      exact List.forall_mem_cons.2 ⟨each item first of_item, ih of_others⟩

namespace Expression

variable {budget : Nat} {bindings : Environment} {expression : Expression} {value : Value}

theorem waiting_read (all : bindings.All Value.Waiting) (name : String) :
    (read bindings name).Waiting := by
  unfold read
  cases found : bindings.lookup name with
  | none => exact .undefined
  | some value => exact all.of_lookup found

/-- Where all native functions in the bindings wait for arguments, those in the result do. -/
theorem waiting_of_evaluateWithin (all : bindings.All Value.Waiting)
    (evaluates : evaluateWithin budget bindings expression = .ok value) : value.Waiting := by
  induction budget generalizing bindings expression value with
  | zero => cases evaluates
  | succ budget ih =>
      have application {callee argument : Expression}
          (applied : expression.applied? = some (callee, argument)) : value.Waiting := by
        rw [evaluateWithin_of_applied applied] at evaluates
        obtain ⟨function, operand, of_callee, _, of_argument, call⟩ := parts_of_applyWith evaluates
        exact waiting_of_call (fun _ _ _ all => ih all) (ih all of_callee) (ih all of_argument) call
      cases expression with
      | number => cases evaluates; exact .number _
      | string => cases evaluates; exact .string _
      | boolean => cases evaluates; exact .boolean _
      | null => cases evaluates; exact .null
      | list items =>
          rw [evaluateWithin] at evaluates
          cases computed : items.mapM (evaluateWithin budget bindings) with
          | error => simp [computed, Except.map] at evaluates
          | ok values =>
              rw [computed] at evaluates
              cases evaluates
              exact .list (forall_of_mapM (fun _ _ => ih all) computed)
      | identifier name => cases evaluates; exact waiting_read all name
      | operator symbol => cases evaluates; exact waiting_read all _
      | apply => exact application rfl
      | applyInfix => exact application rfl
      | letIn name bound body =>
          rw [evaluateWithin] at evaluates
          obtain ⟨held, of_bound, of_body⟩ := ok_parts_of_bind evaluates
          exact ih (all.bind (ih all of_bound)) of_body
      | function parameter declared body => cases evaluates; exact .closure _ _ all
      | group inner => exact ih all evaluates

end Expression

namespace Occasion

variable {start occasion next : Occasion} {native : Native} {arguments : List Value}

/-- An evaluation that is started has bindings in which native functions wait for arguments. -/
theorem Starts.all_waiting (starts : occasion.Starts next)
    (all : occasion.bindings.All Value.Waiting) : next.bindings.All Value.Waiting := by
  cases starts with
  | called calls =>
      obtain ⟨_, of_callee, _, of_argument⟩ := calls
      have function_waiting := Expression.waiting_of_evaluateWithin all of_callee
      exact function_waiting.of_closure.bind (Expression.waiting_of_evaluateWithin all of_argument)
  | body of_bound => exact all.bind (Expression.waiting_of_evaluateWithin all of_bound)
  | _ => exact all

theorem Reaches.all_waiting (reaches : start.Reaches occasion)
    (all : start.bindings.All Value.Waiting) : occasion.bindings.All Value.Waiting := by
  induction reaches with
  | refl => exact all
  | tail _ starts ih => exact starts.all_waiting ih

/-- A value occurs in the run of an evaluation: in what one of the evaluations that it comes to
yields, or in what is bound there. -/
def Occurs (start : Occasion) (value : Value) : Prop :=
  ∃ occasion whole, start.Reaches occasion ∧ value.IsPart whole ∧
    (occasion.result = .ok whole ∨ ∃ name, (name, whole) ∈ occasion.bindings.entries)

/-- An evaluation runs a native function: it calls one that has enough arguments with this one. -/
inductive Performs : Occasion → Native → List Value → Prop where
  | intro {occasion : Occasion} {native : Native} {held : List Value} {operand : Value} :
      occasion.Calls (.builtin native held) operand → native.arity ≤ held.length + 1 →
        Performs occasion native (held ++ [operand])

theorem Performs.arity (performs : occasion.Performs native arguments)
    (all : occasion.bindings.All Value.Waiting) :
    native ∈ Native.library ∧ arguments.length = native.arity := by
  obtain ⟨⟨_, of_callee, _, _⟩, enough⟩ := performs
  have waiting := Expression.waiting_of_evaluateWithin all of_callee
  obtain ⟨member, fewer, _⟩ := waiting.of_builtin
  refine ⟨member, ?_⟩
  rw [List.length_append, List.length_singleton]
  omega

/-- An evaluation that runs a native function yields what the function does with its arguments. -/
theorem Performs.result_eq (performs : occasion.Performs native arguments)
    (member : native ∈ Native.library) (call : Caller) :
    occasion.result = native.operation.perform call native.name arguments := by
  obtain ⟨⟨applied, of_callee, callable, of_argument⟩, enough⟩ := performs
  unfold result at of_callee of_argument ⊢
  rw [Expression.evaluateWithin_of_applied applied]
  simp only [Expression.applyWith, of_callee, of_argument, callable, bind, Except.bind, if_true]
  exact (callWith_of_enough enough).trans
    (Operation.perform_eq (Native.operation_ne_spread member) _ _)

theorem Performs.eq_append (performs : occasion.Performs native arguments) :
    ∃ held operand, arguments = held ++ [operand] := by
  obtain ⟨_, _⟩ := performs
  exact ⟨_, _, rfl⟩

theorem fewer_of_occurs {start : Occasion} (all : start.bindings.All Value.Waiting)
    (occurs : start.Occurs (.builtin native arguments)) : arguments.length < native.arity := by
  obtain ⟨occasion, whole, reaches, isPart, yielded | ⟨name, bound⟩⟩ := occurs
  · have waiting := Expression.waiting_of_evaluateWithin (reaches.all_waiting all) yielded
    exact (waiting native arguments isPart).2
  · have waiting := reaches.all_waiting all _ bound
    exact (waiting native arguments isPart).2

/-- Running a native function is applying it to its arguments one by one. -/
theorem Performs.result_eq_callAll (performs : occasion.Performs native arguments)
    (all : occasion.bindings.All Value.Waiting) :
    occasion.result = Operation.callAll Value.call native.value arguments := by
  obtain ⟨member, exact_arity⟩ := performs.arity all
  obtain ⟨held, operand, rfl⟩ := performs.eq_append
  have last : held.length + 1 = native.arity := by
    simpa using exact_arity
  rw [performs.result_eq member (Value.callWith (Expression.evaluateWithin depthLimit) 9999)]
  exact (callAll_of_enough last).symm

/-- Equality that runs is never refused. -/
theorem Performs.exists_truth (performs : occasion.Performs native arguments)
    (all : occasion.bindings.All Value.Waiting)
    (equality : native.operation = .equal ∨ native.operation = .different) :
    ∃ truth, occasion.result = .ok (.boolean truth) := by
  obtain ⟨member, exact_arity⟩ := performs.arity all
  have two : arguments.length = 2 := exact_arity.trans (Native.arity_of_equality member equality)
  obtain ⟨left, right, rfl⟩ := List.length_eq_two.1 two
  rw [performs.result_eq member Value.call]
  rcases equality with same | same
  all_goals rw [same]; exact ⟨_, rfl⟩

/-- In a run in the native environment, every native function that occurs has fewer arguments than
it waits for, and has them in the order in which it was applied to them.  One that runs has exactly
as many as it waits for, in that order, and what it yields is the result of the last application.
So equality never refuses its arguments, neither in a run nor for any two values. -/
theorem arity_of_run (expression : Expression) :
    (∀ native arguments,
      Occurs ⟨depthLimit, Native.environment, expression⟩ (.builtin native arguments) →
        arguments.length < native.arity ∧
          Operation.callAll Value.call native.value arguments = .ok (.builtin native arguments)) ∧
    (∀ occasion native arguments,
      Reaches ⟨depthLimit, Native.environment, expression⟩ occasion →
      occasion.Performs native arguments →
        arguments.length = native.arity ∧
        (∀ call, occasion.result = native.operation.perform call native.name arguments) ∧
        occasion.result = Operation.callAll Value.call native.value arguments ∧
        (native.operation = .equal ∨ native.operation = .different →
          ∃ truth, occasion.result = .ok (.boolean truth))) ∧
    ∀ left right : Value,
      Operation.callAll Value.call (Expression.read Native.environment "(==)") [left, right] =
        .ok (.boolean (left == right)) ∧
      Operation.callAll Value.call (Expression.read Native.environment "(!=)") [left, right] =
        .ok (.boolean (left != right)) := by
  refine ⟨fun native arguments occurs => ?_, fun occasion native arguments reaches performs => ?_,
    fun left right => ?_⟩
  · have fewer := fewer_of_occurs Native.all_environment occurs
    exact ⟨fewer, callAll_of_fewer (by simpa using fewer)⟩
  · have all := reaches.all_waiting Native.all_environment
    obtain ⟨member, exact_arity⟩ := performs.arity all
    exact ⟨exact_arity, performs.result_eq member, performs.result_eq_callAll all,
      performs.exists_truth all⟩
  · have equal : Expression.read Native.environment "(==)" =
        Native.value ⟨"(==)", 2, .equal⟩ := by rfl
    have different : Expression.read Native.environment "(!=)" =
        Native.value ⟨"(!=)", 2, .different⟩ := by rfl
    rw [equal, different]
    rw [Value.call, Value.nativeCallLimit, callAll_pair rfl, callAll_pair rfl]
    exact ⟨by simp [Operation.perform, Operation.equality],
      by simp [Operation.perform, Operation.equality, bne]⟩

/-- A native function with its first argument is bound to a name that is used twice, as in
`let f = (==) null in [f null, f true]`: both uses run it with two arguments. -/
theorem arity_of_run_shared :
    let equal : Native := ⟨"(==)", 2, .equal⟩
    let shared : Expression := .letIn "f" (.apply (.identifier "(==)") .null)
      (.list [.apply (.identifier "f") .null, .apply (.identifier "f") (.boolean true)])
    let first : Occasion := ⟨254, Native.environment.bind "f" (.builtin equal [.null]),
      .apply (.identifier "f") .null⟩
    let second : Occasion := ⟨254, Native.environment.bind "f" (.builtin equal [.null]),
      .apply (.identifier "f") (.boolean true)⟩
    Occurs ⟨depthLimit, Native.environment, shared⟩ (.builtin equal [.null]) ∧
    Operation.callAll Value.call equal.value [.null] = .ok (.builtin equal [.null]) ∧
    Reaches ⟨depthLimit, Native.environment, shared⟩ first ∧
    first.Performs equal [.null, .null] ∧
    first.result = Operation.callAll Value.call equal.value [.null, .null] ∧
    Reaches ⟨depthLimit, Native.environment, shared⟩ second ∧
    second.Performs equal [.null, .boolean true] ∧
    second.result = Operation.callAll Value.call equal.value [.null, .boolean true] := by
  intro equal shared first second
  have bound : result ⟨255, Native.environment, .apply (.identifier "(==)") .null⟩ =
      .ok (.builtin equal [.null]) := rfl
  have inside : Reaches ⟨depthLimit, Native.environment, shared⟩ ⟨255,
      Native.environment.bind "f" (.builtin equal [.null]),
      .list [.apply (.identifier "f") .null, .apply (.identifier "f") (.boolean true)]⟩ :=
    .single (.body bound)
  have reaches_first : Reaches ⟨depthLimit, Native.environment, shared⟩ first :=
    inside.tail (@Starts.item 254 _ [] _ _ [] rfl)
  have reaches_second : Reaches ⟨depthLimit, Native.environment, shared⟩ second :=
    inside.tail (@Starts.item 254 _ [.apply (.identifier "f") .null] [] _ [.boolean true] rfl)
  have occurs : Occurs ⟨depthLimit, Native.environment, shared⟩ (.builtin equal [.null]) :=
    ⟨_, _, inside, .self _, .inr ⟨"f", .head _⟩⟩
  have performs_first : first.Performs equal [.null, .null] :=
    have calls : first.Calls (.builtin equal [.null]) .null := .intro rfl rfl rfl rfl
    .intro calls (by decide)
  have performs_second : second.Performs equal [.null, .boolean true] :=
    have calls : second.Calls (.builtin equal [.null]) (.boolean true) := .intro rfl rfl rfl rfl
    .intro calls (by decide)
  have fewer := (arity_of_run shared).1 equal [.null] occurs
  have runs := (arity_of_run shared).2.1
  exact ⟨occurs, fewer.2, reaches_first, performs_first,
    (runs _ _ _ reaches_first performs_first).2.2.1, reaches_second, performs_second,
    (runs _ _ _ reaches_second performs_second).2.2.1⟩

end Occasion

end Curried
