import Curried.Evaluation
import Mathlib.Data.List.Forall2

/-!
# Corresponding values

Two values correspond if they are the same data, lists of corresponding items, native functions
with corresponding arguments, or closures whose bodies are paired and whose bindings correspond.
Which bodies are paired and which names of the bindings count is left open.

Native functions cannot tell corresponding values apart: they yield corresponding values or fail
with the same error.  So whether two evaluations correspond is decided by the bodies of closures
alone.
-/

namespace Curried

/-- Which closures are to correspond. -/
structure Pairing where
  /-- Which two bodies may belong to corresponding closures. -/
  bodies : Expression → Expression → Prop
  /-- Which names a closure may look up, given its parameter and its body. -/
  reads : String → Expression → String → Prop

/-- The values correspond. -/
inductive Value.Corresponds (pairing : Pairing) : Value → Value → Prop where
  | undefined : Corresponds pairing .undefined .undefined
  | null : Corresponds pairing .null .null
  | boolean (value : Bool) : Corresponds pairing (.boolean value) (.boolean value)
  | number (value : Float) : Corresponds pairing (.number value) (.number value)
  | string (content : String) : Corresponds pairing (.string content) (.string content)
  | list {items others : List Value} :
      List.Forall₂ (Corresponds pairing) items others →
        Corresponds pairing (.list items) (.list others)
  | closure {parameter : String} {body other : Expression} {bindings held : Environment} :
      pairing.bodies body other →
      (∀ name, pairing.reads parameter body name →
        Option.Rel (Corresponds pairing) (bindings.lookup name) (held.lookup name)) →
        Corresponds pairing (.closure parameter body bindings) (.closure parameter other held)
  | builtin {arguments others : List Value} (native : Native) :
      List.Forall₂ (Corresponds pairing) arguments others →
        Corresponds pairing (.builtin native arguments) (.builtin native others)

/-- The second computation ends as the first one does, with a related result or with the same error,
unless the first one runs out of depth. -/
inductive Mirrors {α β : Type} (related : α → β → Prop) :
    Except EvaluationError α → Except EvaluationError β → Prop where
  | ok {value : α} {other : β} : related value other → Mirrors related (.ok value) (.ok other)
  | error (error : EvaluationError) : Mirrors related (.error error) (.error error)
  | cut (result : Except EvaluationError β) : Mirrors related (.error .depthExceeded) result

namespace Mirrors

variable {α β γ δ : Type} {related : α → β → Prop} {related' : γ → δ → Prop}
  {first : Except EvaluationError α} {second : Except EvaluationError β}

theorem of_ok {value : α} (mirrors : Mirrors related (.ok value) second) :
    ∃ other, second = .ok other ∧ related value other := by
  cases mirrors with
  | ok both => exact ⟨_, rfl, both⟩

theorem of_error {error : EvaluationError} (mirrors : Mirrors related (.error error) second)
    (within : error ≠ .depthExceeded) : second = .error error := by
  cases mirrors with
  | error => rfl
  | cut => exact (within rfl).elim

/-- Computations that mirror each other fail with the same error. -/
theorem error_iff {related' : β → α → Prop} (mirrors : Mirrors related first second)
    (back : Mirrors related' second first) (error : EvaluationError) :
    first = .error error ↔ second = .error error := by
  cases mirrors with
  | ok => simp
  | error => simp
  | cut => cases back <;> simp

theorem bind {next : α → Except EvaluationError γ} {further : β → Except EvaluationError δ}
    (mirrors : Mirrors related first second)
    (goesOn : ∀ value other, related value other → Mirrors related' (next value) (further other)) :
    Mirrors related' (first >>= next) (second >>= further) := by
  cases mirrors with
  | ok both => exact goesOn _ _ both
  | error error => exact .error error
  | cut => exact .cut _

theorem map {f : α → γ} {g : β → δ} (mirrors : Mirrors related first second)
    (keeps : ∀ value other, related value other → related' (f value) (g other)) :
    Mirrors related' (first.map f) (second.map g) := by
  cases mirrors with
  | ok both => exact .ok (keeps _ _ both)
  | error error => exact .error error
  | cut => exact .cut _

/-- Two traversals correspond if they do so step by step. -/
theorem mapM {ι κ : Type} {f : ι → Except EvaluationError α} {g : κ → Except EvaluationError β}
    {items : List ι} {others : List κ}
    (mirrors : List.Forall₂ (fun item other => Mirrors related (f item) (g other)) items others) :
    Mirrors (List.Forall₂ related) (items.mapM f) (others.mapM g) := by
  induction mirrors with
  | nil => exact .ok .nil
  | cons head tail ih =>
      rw [List.mapM_cons, List.mapM_cons]
      refine head.bind fun value other both => ?_
      exact ih.bind fun values rest all => .ok (.cons both all)

end Mirrors

namespace Value.Corresponds

variable {pairing : Pairing} {value other first second : Value}

/-! ### What corresponding values have in common -/

theorem typeName_eq (same : value.Corresponds pairing other) : value.typeName = other.typeName := by
  cases same <;> rfl

theorem isFunction_eq (same : value.Corresponds pairing other) :
    value.isFunction = other.isFunction := by
  cases same <;> rfl

theorem number_iff (same : value.Corresponds pairing other) (number : Float) :
    value = .number number ↔ other = .number number := by
  cases same <;> simp

theorem string_iff (same : value.Corresponds pairing other) (content : String) :
    value = .string content ↔ other = .string content := by
  cases same <;> simp

mutual

/-- Equality does not tell corresponding values apart. -/
theorem same_eq {value other : Value} (left right : Value) (lefts : left.Corresponds pairing value)
    (rights : right.Corresponds pairing other) : left.same right = value.same other := by
  match left, lefts with
  | .list items, .list both =>
      cases rights with
      | list all => simpa only [Value.same] using sameItems_eq items _ both all
      | _ => rfl
  | .undefined, .undefined => cases rights <;> rfl
  | .null, .null => cases rights <;> rfl
  | .boolean _, .boolean _ => cases rights <;> rfl
  | .number _, .number _ => cases rights <;> rfl
  | .string _, .string _ => cases rights <;> rfl
  | .closure _ _ _, .closure _ _ => cases rights <;> rfl
  | .builtin _ _, .builtin _ _ => cases rights <;> rfl

theorem sameItems_eq {values others : List Value} (lefts rights : List Value)
    (left : List.Forall₂ (Value.Corresponds pairing) lefts values)
    (right : List.Forall₂ (Value.Corresponds pairing) rights others) :
    sameItems lefts rights = sameItems values others := by
  match lefts, rights, left, right with
  | [], _, .nil, right => cases right <;> rfl
  | _ :: _, [], .cons _ _, .nil => rfl
  | first :: lefts, second :: rights, .cons head tail, .cons head' tail' =>
      rw [sameItems, sameItems, same_eq first second head head',
        sameItems_eq lefts rights tail tail']

end

/-- Of corresponding lists, one is a pair of data exactly if the other is the same pair. -/
theorem pair_iff {left right : Value} {values others : List Value}
    (both : List.Forall₂ (Value.Corresponds pairing) values others)
    (lefts : ∀ {value other : Value}, value.Corresponds pairing other →
      (value = left ↔ other = left))
    (rights : ∀ {value other : Value}, value.Corresponds pairing other →
      (value = right ↔ other = right)) :
    values = [left, right] ↔ others = [left, right] := by
  match both with
  | .nil => simp
  | .cons head .nil => simp
  | .cons head (.cons next .nil) => simp [lefts head, rights next]
  | .cons head (.cons next (.cons third rest)) => simp

theorem numbers_iff {values others : List Value}
    (both : List.Forall₂ (Value.Corresponds pairing) values others) (left right : Float) :
    values = [.number left, .number right] ↔ others = [.number left, .number right] :=
  pair_iff both (fun same => same.number_iff left) fun same => same.number_iff right

theorem strings_iff {values others : List Value}
    (both : List.Forall₂ (Value.Corresponds pairing) values others) (left right : String) :
    values = [.string left, .string right] ↔ others = [.string left, .string right] :=
  pair_iff both (fun same => same.string_iff left) fun same => same.string_iff right

end Value.Corresponds

/-! ### Native functions -/

namespace Operation

variable {pairing : Pairing} {values others : List Value} {call call' : Caller}

theorem refusal_eq (name expected : String)
    (both : List.Forall₂ (Value.Corresponds pairing) values others) :
    refusal name expected values = refusal name expected others := by
  have names : values.map Value.typeName = others.map Value.typeName := by
    induction both with
    | nil => rfl
    | cons head _ ih => rw [List.map_cons, List.map_cons, head.typeName_eq, ih]
  rw [refusal, refusal, names]

/-- An operation that refuses all but pairs of numbers and pairs of texts. -/
theorem mirrors_of_pairs {f : List Value → Except EvaluationError Value} (name expected : String)
    (both : List.Forall₂ (Value.Corresponds pairing) values others)
    (numbers : ∀ left right : Float, Mirrors (Value.Corresponds pairing)
      (f [.number left, .number right]) (f [.number left, .number right]))
    (strings : ∀ left right : String, Mirrors (Value.Corresponds pairing)
      (f [.string left, .string right]) (f [.string left, .string right]))
    (refuses : ∀ arguments : List Value,
      (∀ left right, arguments ≠ [.number left, .number right]) →
      (∀ left right, arguments ≠ [.string left, .string right]) →
        f arguments = .error (refusal name expected arguments)) :
    Mirrors (Value.Corresponds pairing) (f values) (f others) := by
  have numbers_iff := Value.Corresponds.numbers_iff both
  have strings_iff := Value.Corresponds.strings_iff both
  by_cases are_numbers : ∃ left right, values = [.number left, .number right]
  · obtain ⟨left, right, same⟩ := are_numbers
    rw [(numbers_iff left right).1 same, same]
    exact numbers left right
  by_cases are_strings : ∃ left right, values = [.string left, .string right]
  · obtain ⟨left, right, same⟩ := are_strings
    rw [(strings_iff left right).1 same, same]
    exact strings left right
  rw [refuses values (fun left right same => are_numbers ⟨left, right, same⟩)
      (fun left right same => are_strings ⟨left, right, same⟩),
    refuses others (fun left right same => are_numbers ⟨left, right, (numbers_iff _ _).2 same⟩)
      (fun left right same => are_strings ⟨left, right, (strings_iff _ _).2 same⟩),
    refusal_eq name expected both]
  exact .error _

theorem arithmetic_mirrors (name : String) (f : Float → Float → Float)
    (both : List.Forall₂ (Value.Corresponds pairing) values others) :
    Mirrors (Value.Corresponds pairing) (arithmetic name f values) (arithmetic name f others) := by
  refine mirrors_of_pairs name "two numbers" both (fun _ _ => .ok (.number _))
    (fun _ _ => .error _) ?_
  intro arguments no_numbers _
  unfold arithmetic
  split
  · exact (no_numbers _ _ rfl).elim
  · rfl

theorem addition_mirrors (name : String)
    (both : List.Forall₂ (Value.Corresponds pairing) values others) :
    Mirrors (Value.Corresponds pairing) (addition name values) (addition name others) := by
  refine mirrors_of_pairs name "two numbers or two strings" both (fun _ _ => .ok (.number _))
    (fun _ _ => .ok (.string _)) ?_
  intro arguments no_numbers no_strings
  unfold addition
  split
  · exact (no_numbers _ _ rfl).elim
  · exact (no_strings _ _ rfl).elim
  · rfl

theorem comparison_mirrors (name : String) (f : Float → Float → Bool) (g : String → String → Bool)
    (both : List.Forall₂ (Value.Corresponds pairing) values others) :
    Mirrors (Value.Corresponds pairing) (comparison name f g values)
      (comparison name f g others) := by
  refine mirrors_of_pairs name "two numbers or two strings" both (fun _ _ => .ok (.boolean _))
    (fun _ _ => .ok (.boolean _)) ?_
  intro arguments no_numbers no_strings
  unfold comparison
  split
  · exact (no_numbers _ _ rfl).elim
  · exact (no_strings _ _ rfl).elim
  · rfl

theorem equality_mirrors (name : String) (expected : Bool)
    (both : List.Forall₂ (Value.Corresponds pairing) values others) :
    Mirrors (Value.Corresponds pairing) (equality name expected values)
      (equality name expected others) := by
  have refuses := refusal_eq name "two values" both
  unfold equality
  split
  · match both with
    | .cons head (.cons next .nil) =>
        have same := Value.Corresponds.same_eq _ _ head next
        simp only [BEq.beq, same]
        exact .ok (.boolean _)
  · rename_i different
    split
    · match both with
      | .cons _ (.cons _ .nil) => exact (different _ _ rfl).elim
    · rw [refuses]
      exact .error _

theorem choose_mirrors (name : String)
    (both : List.Forall₂ (Value.Corresponds pairing) values others) :
    Mirrors (Value.Corresponds pairing) (choose name values) (choose name others) := by
  have refuses := refusal_eq name "a boolean condition" both
  unfold choose
  split
  · match both with
    | .cons (.boolean condition) (.cons first (.cons second .nil)) =>
        refine .ok ?_
        cases condition
        · exact second
        · exact first
  · rename_i different
    split
    · match both with
      | .cons (.boolean _) (.cons _ (.cons _ .nil)) => exact (different _ _ _ rfl).elim
    · rw [refuses]
      exact .error _

/-- Calls with corresponding values correspond. -/
def CallsMirror (pairing : Pairing) (call call' : Caller) : Prop :=
  ∀ callee callee' argument argument', callee.Corresponds pairing callee' →
    argument.Corresponds pairing argument' →
      Mirrors (Value.Corresponds pairing) (call callee argument) (call' callee' argument')

theorem callAll_mirrors (calls : CallsMirror pairing call call') {callee callee' : Value}
    (callees : callee.Corresponds pairing callee')
    (both : List.Forall₂ (Value.Corresponds pairing) values others) :
    Mirrors (Value.Corresponds pairing) (callAll call callee values)
      (callAll call' callee' others) := by
  induction both generalizing callee callee' with
  | nil => exact .ok callees
  | cons head _ ih => exact (calls _ _ _ _ callees head).bind fun _ _ results => ih results

theorem last_corresponds {values others : List Value}
    (both : List.Forall₂ (Value.Corresponds pairing) values others) :
    (values.getLast?.getD .undefined).Corresponds pairing
      (others.getLast?.getD .undefined) := by
  match both with
  | .nil => exact .undefined
  | .cons head .nil => exact head
  | .cons _ (.cons next rest) =>
      rw [List.getLast?_cons_cons, List.getLast?_cons_cons]
      exact last_corresponds (.cons next rest)

/-- No operation tells corresponding arguments apart. -/
theorem perform_mirrors (calls : CallsMirror pairing call call') (name : String)
    (both : List.Forall₂ (Value.Corresponds pairing) values others) (operation : Operation) :
    Mirrors (Value.Corresponds pairing) (operation.perform call name values)
      (operation.perform call' name others) := by
  cases operation with
  | add => exact addition_mirrors name both
  | subtract => exact arithmetic_mirrors name _ both
  | multiply => exact arithmetic_mirrors name _ both
  | divide => exact arithmetic_mirrors name _ both
  | equal => exact equality_mirrors name true both
  | different => exact equality_mirrors name false both
  | less => exact comparison_mirrors name _ _ both
  | lessOrEqual => exact comparison_mirrors name _ _ both
  | greater => exact comparison_mirrors name _ _ both
  | greaterOrEqual => exact comparison_mirrors name _ _ both
  | branch => exact choose_mirrors name both
  | collect => exact .ok (.list both)
  | count =>
      rw [perform, perform, both.length_eq]
      exact .ok (.number _)
  | last =>
      exact .ok (last_corresponds both)
  | refuse =>
      rw [perform, perform, refusal_eq name _ both]
      exact .error _
  | spread =>
      cases both with
      | nil => exact .ok .undefined
      | cons head rest => exact callAll_mirrors calls head rest

end Operation

/-! ### Calls -/

namespace Value

variable {pairing : Pairing}
  {run run' : Environment → Expression → Except EvaluationError Value}

/-- Calls correspond if the bodies of corresponding closures do with corresponding arguments. -/
theorem callWith_mirrors
    (bodies : ∀ parameter body body' bindings bindings' argument argument',
      (Value.closure parameter body bindings).Corresponds pairing
        (.closure parameter body' bindings') →
      argument.Corresponds pairing argument' →
        Mirrors (Value.Corresponds pairing) (run (bindings.bind parameter argument) body)
          (run' (bindings'.bind parameter argument') body')) (calls : Nat) :
    Operation.CallsMirror pairing (callWith run calls) (callWith run' calls) := by
  -- the limit matters only once a native function has all of its arguments
  have call (calls : Nat) (inner : ∀ fewer, calls = fewer + 1 →
      Operation.CallsMirror pairing (callWith run fewer) (callWith run' fewer)) :
      Operation.CallsMirror pairing (callWith run calls) (callWith run' calls) := by
    intro callee callee' argument argument' callees operands
    rw [callWith.eq_def, callWith.eq_def]
    cases callees with
    | closure paired held => exact bodies _ _ _ _ _ _ _ (.closure paired held) operands
    | builtin native both =>
        have more := List.rel_append both (.cons operands .nil)
        simp only [← more.length_eq]
        split
        · exact .ok (.builtin native more)
        · cases calls with
          | zero => exact .error _
          | succ calls => exact Operation.perform_mirrors (inner calls rfl) native.name more _
    | _ => exact .error _
  induction calls with
  | zero => exact call 0 fun _ same => nomatch same
  | succ calls ih => exact call _ fun fewer same => Nat.succ.inj same ▸ ih

end Value

/-! ### Names and applications -/

namespace Expression

variable {pairing : Pairing} {environment other : Environment} {name parameter : String}
  {value value' : Value}

theorem read_corresponds (both : Option.Rel (Value.Corresponds pairing) (environment.lookup name)
    (other.lookup name)) :
    (read environment name).Corresponds pairing (read other name) := by
  unfold read
  generalize environment.lookup name = found, other.lookup name = found' at both
  cases both with
  | some same => exact same
  | none => exact .undefined

/-- Binding a name to corresponding values leaves only the other names to be compared. -/
theorem lookup_bind_corresponds (values : value.Corresponds pairing value')
    (others : name ≠ parameter →
      Option.Rel (Value.Corresponds pairing) (environment.lookup name) (other.lookup name)) :
    Option.Rel (Value.Corresponds pairing) ((environment.bind parameter value).lookup name)
      ((other.bind parameter value').lookup name) := by
  by_cases bound : name = parameter
  · rw [bound, Bindings.lookup_bind_self, Bindings.lookup_bind_self]
    exact .some values
  · rw [Bindings.lookup_bind_of_ne _ _ bound, Bindings.lookup_bind_of_ne _ _ bound]
    exact others bound

theorem applyWith_mirrors {evaluate evaluate' : Expression → Except EvaluationError Value}
    {call call' : Caller} {callee callee' argument argument' : Expression}
    (callees : Mirrors (Value.Corresponds pairing) (evaluate callee) (evaluate' callee'))
    (operands : Mirrors (Value.Corresponds pairing) (evaluate argument) (evaluate' argument'))
    (calls : Operation.CallsMirror pairing call call') :
    Mirrors (Value.Corresponds pairing) (applyWith evaluate call callee argument)
      (applyWith evaluate' call' callee' argument') := by
  unfold applyWith
  refine callees.bind fun function function' functions => ?_
  rw [functions.isFunction_eq, functions.typeName_eq]
  split
  · exact operands.bind fun _ _ both => calls _ _ _ _ functions both
  · exact .error _

end Expression

end Curried
