import Curried.Native
import Curried.Proofs.Evaluation.Correspondence
import Curried.Proofs.Number.Equality

/-!
# Lexical scoping

What an expression evaluates to depends on the environment only through the free names of the
expression.  A closure keeps the whole environment around it, so two results are in general not
equal: their closures agree on what the free names of their bodies stand for, and nothing that the
language does with a value can tell the difference.
-/

namespace Curried

namespace Expression

mutual

/-- The names that an expression takes from its environment.  An operator takes the name it stands
for; a function and a local binding bind their name in the body only. -/
def freeNames : Expression → List String
  | .number _ | .string _ | .boolean _ | .null => []
  | .list items => freeNamesOfItems items
  | .identifier name => [name]
  | .operator symbol => [operatorName symbol]
  | .apply callee argument => callee.freeNames ++ argument.freeNames
  | .applyInfix sign operand => sign.freeNames ++ operand.freeNames
  | .letIn name bound body => bound.freeNames ++ body.freeNames.filter (· != name)
  | .function parameter _ body => body.freeNames.filter (· != parameter)
  | .group inner => inner.freeNames

/-- The free names of the items of a list. -/
def freeNamesOfItems : List Expression → List String
  | [] => []
  | item :: others => item.freeNames ++ freeNamesOfItems others

end

end Expression

namespace Value

mutual

/-- Whether a value contains no function and no number that is none. -/
def isPlain : Value → Bool
  | .undefined | .null | .boolean _ | .string _ => true
  | .number value => !value.isNaN
  | .list items => arePlain items
  | .closure _ _ _ | .builtin _ _ => false

/-- Whether the items of a list contain no function and no number that is none. -/
def arePlain : List Value → Bool
  | [] => true
  | item :: others => item.isPlain && arePlain others

end

end Value

/-- Closures of one function whose bindings correspond on the free names of its body. -/
def scoping : Pairing where
  bodies body other := other = body
  reads parameter body name := name ∈ body.freeNames ∧ name ≠ parameter

/-! ### What corresponding values look like -/

namespace Value

mutual

theorem corresponds_self : ∀ value : Value, value.Corresponds scoping value
  | .undefined => .undefined
  | .null => .null
  | .boolean value => .boolean value
  | .number value => .number value
  | .string content => .string content
  | .list items => .list (items_correspond_self items)
  | .closure _ _ ⟨entries⟩ => .closure rfl fun name _ => entries_correspond_self entries name
  | .builtin native arguments => .builtin native (items_correspond_self arguments)

theorem items_correspond_self : ∀ items : List Value,
    List.Forall₂ (Value.Corresponds scoping) items items
  | [] => .nil
  | item :: others => .cons (corresponds_self item) (items_correspond_self others)

theorem entries_correspond_self : ∀ (entries : List (String × Value)) (name : String),
    Option.Rel (Value.Corresponds scoping) (entries.lookup name) (entries.lookup name)
  | [], _ => .none
  | (key, held) :: others, name => by
      rw [List.lookup_cons]
      split
      · exact .some (corresponds_self held)
      · exact entries_correspond_self others name

end

mutual

theorem display_eq {other : Value} : ∀ {value : Value}, value.Corresponds scoping other →
    value.display = other.display
  | _, .undefined | _, .null | _, .boolean _ | _, .number _ | _, .string _ => rfl
  | .list items, .list both => by rw [display, display, displayItems_eq both]
  | _, .closure paired _ => by rw [display, display, paired]
  | _, .builtin _ _ => rfl

theorem displayItems_eq {others : List Value} : ∀ {items : List Value},
    List.Forall₂ (Value.Corresponds scoping) items others →
      displayItems items = displayItems others
  | _, .nil => rfl
  | [_], .cons head .nil => by rw [displayItems, displayItems, display_eq head]
  | value :: _ :: _, .cons head (.cons next rest) => by
      show value.display ++ ", " ++ displayItems (_ :: _) = _ ++ ", " ++ displayItems (_ :: _)
      rw [display_eq head, displayItems_eq (.cons next rest)]

end

mutual

theorem same_of_isPlain {other : Value} : ∀ {value : Value}, value.Corresponds scoping other →
    value.isPlain = true → value.same other = true
  | .undefined, .undefined, _ | .null, .null, _ => rfl
  | .boolean _, .boolean _, _ | .string _, .string _, _ => by simp [same]
  | .number _, .number _, plain => by
      rw [same]
      exact Number.beq_self_iff.2 (by simpa [isPlain] using plain)
  | .list items, .list both, plain => by
      rw [same]
      exact sameItems_of_arePlain both (by simpa [isPlain] using plain)

theorem sameItems_of_arePlain {others : List Value} : ∀ {items : List Value},
    List.Forall₂ (Value.Corresponds scoping) items others → arePlain items = true →
      sameItems items others = true
  | [], .nil, _ => rfl
  | item :: items, .cons head rest, plain => by
      rw [arePlain, Bool.and_eq_true] at plain
      rw [sameItems, same_of_isPlain head plain.1, sameItems_of_arePlain rest plain.2,
        Bool.and_true]

end

end Value

/-! ### Evaluation -/

namespace Expression

variable {environment other : Environment} {names others : List String} {name : String}
  {value value' : Value}

/-- The environments bind the names to corresponding values. -/
def Agree (names : List String) (environment other : Environment) : Prop :=
  ∀ name ∈ names, Option.Rel (Value.Corresponds scoping) (environment.lookup name)
    (other.lookup name)

theorem agree_append : Agree (names ++ others) environment other ↔
    Agree names environment other ∧ Agree others environment other :=
  List.forall_mem_append

theorem agree_of_eq (same : ∀ name ∈ names, environment.lookup name = other.lookup name) :
    Agree names environment other := by
  intro name member
  rw [← same name member]
  exact Value.entries_correspond_self environment.entries name

theorem Agree.bind (agree : Agree (names.filter (· != name)) environment other)
    (values : value.Corresponds scoping value') :
    Agree names (environment.bind name value) (other.bind name value') :=
  fun free member => lookup_bind_corresponds values fun different =>
    agree free (List.mem_filter.2 ⟨member, bne_iff_ne.2 different⟩)

/-- Two environments that agree on the free names of an expression evaluate it alike. -/
theorem evaluateWithin_of_agree (budget : Nat) (expression : Expression)
    (agree : Agree expression.freeNames environment other) :
    Mirrors (Value.Corresponds scoping) (evaluateWithin budget environment expression)
      (evaluateWithin budget other expression) := by
  induction budget generalizing environment other expression with
  | zero => exact .cut _
  | succ budget ih =>
      have calls : Operation.CallsMirror scoping
          (Value.callWith (evaluateWithin budget) Value.nativeCallLimit)
          (Value.callWith (evaluateWithin budget) Value.nativeCallLimit) := by
        refine Value.callWith_mirrors (fun parameter body _ _ _ _ _ closures operands => ?_) _
        cases closures with
        | closure paired held =>
            subst paired
            exact ih _ fun name occurs =>
              lookup_bind_corresponds operands fun different => held name ⟨occurs, different⟩
      cases expression with
      | number value => exact .ok (.number value)
      | string content => exact .ok (.string content)
      | boolean value => exact .ok (.boolean value)
      | null => exact .ok .null
      | list items =>
          rw [evaluateWithin, evaluateWithin]
          refine Mirrors.map (Mirrors.mapM (?_ : List.Forall₂ _ items items))
            fun _ _ all => .list all
          rw [freeNames] at agree
          induction items with
          | nil => exact .nil
          | cons item others items_ih =>
              rw [freeNamesOfItems, agree_append] at agree
              exact .cons (ih item agree.1) (items_ih agree.2)
      | identifier name => exact .ok (read_corresponds (agree name (.head _)))
      | operator symbol => exact .ok (read_corresponds (agree (operatorName symbol) (.head _)))
      | apply callee argument =>
          rw [freeNames, agree_append] at agree
          exact applyWith_mirrors (ih callee agree.1) (ih argument agree.2) calls
      | applyInfix sign operand =>
          rw [freeNames, agree_append] at agree
          exact applyWith_mirrors (ih sign agree.1) (ih operand agree.2) calls
      | letIn name bound body =>
          rw [freeNames, agree_append] at agree
          exact (ih bound agree.1).bind fun _ _ values => ih body (agree.2.bind values)
      | function parameter declared body =>
          refine .ok (.closure rfl fun name reads => ?_)
          exact agree name (List.mem_filter.2 ⟨reads.1, bne_iff_ne.2 reads.2⟩)
      | group inner => exact ih inner agree

/-- An expression has the same result in both environments, as far as a program can tell: the same
error, or values that show the same text and are equal if they are data. -/
def SameResult (expression : Expression) (environment other : Environment) : Prop :=
  (∀ error, expression.evaluate environment = .error error ↔
    expression.evaluate other = .error error) ∧
  ∀ value, expression.evaluate environment = .ok value →
    ∃ value', expression.evaluate other = .ok value' ∧ value.typeName = value'.typeName ∧
      value.display = value'.display ∧ (value.isPlain = true → (value == value') = true)

/-- The result of an expression depends on what its free names stand for and on nothing else in the
environment; in particular, binding any other name does not change it. -/
theorem sameResult_of_freeNames (expression : Expression) :
    (∀ environment other : Environment,
      (∀ name ∈ expression.freeNames, environment.lookup name = other.lookup name) →
        expression.SameResult environment other) ∧
    ∀ (environment : Environment) (name : String) (value : Value), name ∉ expression.freeNames →
      expression.SameResult environment (environment.bind name value) := by
  have agreeing (environment other : Environment)
      (same : ∀ name ∈ expression.freeNames, environment.lookup name = other.lookup name) :
      expression.SameResult environment other := by
    have mirrors := evaluateWithin_of_agree depthLimit expression (agree_of_eq same)
    have back := evaluateWithin_of_agree depthLimit expression
      (agree_of_eq fun name occurs => (same name occurs).symm)
    refine ⟨mirrors.error_iff back, fun value succeeds => ?_⟩
    rw [evaluate] at succeeds
    rw [succeeds] at mirrors
    obtain ⟨value', succeeds', values⟩ := mirrors.of_ok
    exact ⟨value', succeeds', values.typeName_eq, Value.display_eq values,
      Value.same_of_isPlain values⟩
  refine ⟨agreeing, fun environment name value absent => agreeing _ _ fun free occurs => ?_⟩
  have different : free ≠ name := fun same => absent (same ▸ occurs)
  exact (Bindings.lookup_bind_of_ne environment value different).symm

/-- A function that leaves the scope it was written in: it is called where `y` is bound again, and
takes from the environment only the outer `y`. -/
theorem sameResult_of_freeNames_closure :
    (letIn "f" (.function "x" none (.identifier "y"))
        (.letIn "y" (.boolean true) (.apply (.identifier "f") .null))).SameResult
      (Native.environment.bind "y" .null)
      ((Native.environment.bind "z" (.boolean true)).bind "y" .null) ∧
    (letIn "f" (.function "x" none (.identifier "y"))
        (.letIn "y" (.boolean true) (.apply (.identifier "f") .null))).SameResult
      Native.environment (Native.environment.bind "f" .null) := by
  refine ⟨(sameResult_of_freeNames _).1 _ _ fun name occurs => ?_,
    (sameResult_of_freeNames _).2 _ _ _ (by decide)⟩
  have only : name = "y" := by simpa [freeNames] using occurs
  rw [only, Bindings.lookup_bind_self, Bindings.lookup_bind_self]

end Expression

end Curried
