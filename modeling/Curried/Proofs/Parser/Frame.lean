import Curried.Proofs.Parser.Built

/-!
# What every run keeps

A relation that each step of a parse keeps holds between the states where a run starts and where it
ends, in success or failure; this is shown once, combinator by combinator.

So a run takes tokens off the front of the input and never puts one back before the place where it
started; when it ends, it is as deep in the nesting as before, and the failure it remembers is still
one that alternatives may recover from.
-/

namespace Curried

namespace State

/-- A relation that each step of a parse keeps: one that takes a token, passes over an ordinary
failure or records a leaf, and one that goes a level deeper, or opens a node, for as long as another
run takes. -/
class Kept (related : State → State → Prop) : Prop where
  refl (state : State) : related state state
  trans {before middle after : State} :
    related before middle → related middle after → related before after
  advance {state : State} {token : Token} : state.peek = some token → related state state.advance
  remember {state : State} {failure : Failure} :
    failure.fatal = false → related state (state.remember failure)
  note (state : State) (label : String) : related state (state.note label)
  nest {state after : State} : related { state with depth := state.depth + 1 } after →
    related state { after with depth := after.depth - 1 }
  leave {state after : State} {label : String} :
    related (state.enter label) after → related state after.leave
  leaveSpliced {state after : State} {label : String} :
    related (state.enter label) after → related state after.leaveSpliced

/-- The failure that a state remembers, if any, is not fatal. -/
def Mild (state : State) : Prop := ∀ failure ∈ state.furthest, failure.fatal = false

/-- One state is ahead of another in the same parse. -/
structure Leads (before after : State) : Prop where
  /-- The tokens between the two states have been taken. -/
  taken : ∃ tokens, before.input.rest = tokens ++ after.input.rest ∧
    after.position = before.position + tokens.length
  /-- The nesting is the same. -/
  depth : after.depth = before.depth
  /-- A fatal failure is never remembered. -/
  mild : before.Mild → after.Mild

namespace Leads

variable {before middle after : State}

theorem refl (state : State) : state.Leads state := ⟨⟨[], by simp⟩, rfl, id⟩

theorem trans (first : before.Leads middle) (second : middle.Leads after) :
    before.Leads after := by
  obtain ⟨left, left_rest, left_position⟩ := first.taken
  obtain ⟨right, right_rest, right_position⟩ := second.taken
  refine ⟨⟨left ++ right, ?_, ?_⟩, second.depth.trans first.depth, second.mild ∘ first.mild⟩
  · rw [left_rest, right_rest, List.append_assoc]
  · rw [right_position, left_position, List.length_append, Nat.add_assoc]

theorem position_le (leads : before.Leads after) : before.position ≤ after.position := by
  obtain ⟨tokens, _, position⟩ := leads.taken
  omega

theorem suffix (leads : before.Leads after) : after.input.rest <:+ before.input.rest := by
  obtain ⟨tokens, rest, _⟩ := leads.taken
  exact ⟨tokens, rest.symm⟩

end Leads

/-! ### The steps of a parse -/

theorem leads_advance {state : State} {token : Token} (next : state.peek = some token) :
    state.Leads state.advance := by
  obtain ⟨⟨position, rest⟩, depth, furthest, trail⟩ := state
  cases rest with
  | nil => simp [peek] at next
  | cons token rest => exact ⟨⟨[token], by simp [advance, Input.advance, State.position]⟩, rfl, id⟩

theorem leads_enter (state : State) (label : String) : state.Leads (state.enter label) :=
  ⟨⟨[], by simp [enter, position]⟩, rfl, id⟩

theorem leads_leave (state : State) : state.Leads state.leave :=
  ⟨⟨[], by simp [leave, position]⟩, rfl, id⟩

theorem leads_leaveSpliced (state : State) : state.Leads state.leaveSpliced :=
  ⟨⟨[], by simp [leaveSpliced, position]⟩, rfl, id⟩

theorem leads_note (state : State) (label : String) : state.Leads (state.note label) :=
  ⟨⟨[], by simp [note, position]⟩, rfl, id⟩

theorem remember_cases (state : State) (failure : Failure) :
    state.remember failure = state ∨
      state.remember failure = { state with furthest := some failure } := by
  unfold remember
  split
  · split
    · exact .inr rfl
    · exact .inl rfl
  · exact .inr rfl

theorem leads_remember {state : State} {failure : Failure} (mild : failure.fatal = false) :
    state.Leads (state.remember failure) := by
  rcases state.remember_cases failure with same | replaced
  · rw [same]
    exact .refl state
  · rw [replaced]
    refine ⟨⟨[], by simp [position]⟩, rfl, fun _ other member => ?_⟩
    obtain rfl : failure = other := by simpa using member
    exact mild

instance : Kept Leads where
  refl := .refl
  trans := .trans
  advance := leads_advance
  remember := leads_remember
  note := leads_note
  nest {state after} leads := by
    refine ⟨leads.taken, ?_, leads.mild⟩
    have deeper : after.depth = state.depth + 1 := leads.depth
    show after.depth - 1 = state.depth
    omega
  leave {state after label} leads := ((state.leads_enter label).trans leads).trans after.leads_leave
  leaveSpliced {state after label} leads :=
    ((state.leads_enter label).trans leads).trans after.leads_leaveSpliced

/-- A mild state reports failures that alternatives may recover from. -/
theorem fatal_failure {state : State} (mild : state.Mild) (expected : String) :
    (state.failure expected).fatal = false := by
  unfold failure
  split
  · rename_i furthest remembered
    split
    · exact mild furthest remembered
    · rfl
  · rfl

end State

namespace Failure

theorem fatal_merge (failure other : Failure) : (failure.merge other).fatal = failure.fatal := rfl

theorem fatal_foldl_merge (failure : Failure) (others : List Failure) :
    (others.foldl merge failure).fatal = failure.fatal := by
  induction others generalizing failure with
  | nil => rfl
  | cons other others ih => rw [List.foldl_cons, ih, fatal_merge]

/-- The deepest of several failures is fatal only if one of them is. -/
theorem fatal_of_deepest {failures : List Failure} {failure : Failure}
    (mild : ∀ other ∈ failures, other.fatal = false) (found : deepest failures = some failure) :
    failure.fatal = false := by
  unfold deepest at found
  split at found
  · simp at found
  · rename_i fewest _
    split at found
    · simp at found
    · rename_i first others kept
      obtain rfl := Option.some.inj found
      rw [fatal_foldl_merge]
      apply mild
      have member : first ∈ failures.filter fun failure => failure.remaining == fewest := by
        rw [kept]
        exact List.mem_cons_self
      exact (List.mem_filter.1 member).1

end Failure

namespace Outcome

variable {α β : Type}

/-- The state in which a run ends, if it ends, has a property. -/
def Ends (property : State → Prop) : Outcome α → Prop
  | .ok _ state => property state
  | .error _ state => property state
  | .exhausted => True

theorem Ends.imp {property other : State → Prop} {outcome : Outcome α}
    (ends : outcome.Ends property) (implies : ∀ state, property state → other state) :
    outcome.Ends other := by
  cases outcome with
  | ok value state => exact implies state ends
  | error failure state => exact implies state ends
  | exhausted => trivial

theorem Ends.map {property : State → Prop} {outcome : Outcome α} (f : α → β)
    (ends : outcome.Ends property) : (outcome.map f).Ends property := by
  cases outcome <;> exact ends

theorem Ends.mapState {property other : State → Prop} {outcome : Outcome α} {f : State → State}
    (ends : outcome.Ends property) (implies : ∀ state, property state → other (f state)) :
    (outcome.mapState f).Ends other := by
  cases outcome with
  | ok value state => exact implies state ends
  | error failure state => exact implies state ends
  | exhausted => trivial

/-- Going on from a related state stays related. -/
theorem Ends.andThen {related : State → State → Prop} [kept : State.Kept related] {start : State}
    {outcome : Outcome α} {next : α → State → Outcome β} (ends : outcome.Ends (related start))
    (goesOn : ∀ value state, (next value state).Ends (related state)) :
    (outcome.andThen next).Ends (related start) := by
  cases outcome with
  | ok value state => exact (goesOn value state).imp fun _ => kept.trans ends
  | error failure state => exact ends
  | exhausted => trivial

end Outcome

namespace Parser

variable {α β γ δ : Type}

/-- Every run of the parser ends in a state that is related to the one where it started. -/
def Keeps (related : State → State → Prop) (parser : Parser α) : Prop :=
  ∀ turns state, (parser.run turns state).Ends (related state)

namespace Keeps

variable {related : State → State → Prop} {parser : Parser α} {parsers : List (Parser α)}

theorem map (keeps : Keeps related parser) (f : α → β) : Keeps related (parser.map f) :=
  fun turns state => (keeps turns state).map f

theorem withTurns {parser : Nat → Parser α} (keeps : ∀ turns, Keeps related (parser turns)) :
    Keeps related (Parser.withTurns parser) :=
  fun turns state => keeps turns turns state

theorem label (keeps : Keeps related parser) (name : String) :
    Keeps related (parser.label name) := by
  intro turns state
  have inner := keeps turns state
  unfold Parser.label
  simp only
  split <;> rename_i run <;> rw [run] at inner <;> exact inner

variable [kept : State.Kept related]

theorem pure (value : α) : Keeps related (Parser.pure value) := fun _ state => kept.refl state

theorem bind {next : α → Parser β} (first : Keeps related parser)
    (second : ∀ value, Keeps related (next value)) : Keeps related (parser >>= next) :=
  fun turns state => (first turns state).andThen fun value after => second value turns after

theorem note (label : String) : Keeps related (Parser.note label) :=
  fun _ state => kept.note state label

theorem attempt (keeps : Keeps related parser) : Keeps related parser.attempt := by
  intro turns state
  have inner := keeps turns state
  unfold Parser.attempt
  simp only
  split
  · rename_i value after run
    rw [run] at inner
    exact inner
  · exact kept.refl state
  · trivial

theorem optional (keeps : Keeps related parser) : Keeps related parser.optional := by
  intro turns state
  have inner := keeps.attempt turns state
  unfold Parser.optional
  simp only
  split
  · rename_i value after run
    rw [run] at inner
    exact inner
  · rename_i failure after run
    rw [run] at inner
    split
    · exact inner
    · rename_i ordinary
      exact kept.trans inner (kept.remember (Bool.eq_false_iff.2 ordinary))
  · trivial

theorem satisfy (test : Token → Bool) (expected : String) :
    Keeps related (Parser.satisfy test expected) := by
  intro turns state
  unfold Parser.satisfy
  simp only
  split
  · rename_i token next
    split
    · exact kept.advance next
    · exact kept.refl state
  · exact kept.refl state

theorem endOfInput : Keeps related Parser.endOfInput := by
  intro turns state
  unfold Parser.endOfInput
  simp only
  split <;> exact kept.refl state

theorem filterMap (keeps : Keeps related parser) (f : α → Option β)
    (expected : String) : Keeps related (parser.filterMap f expected) := by
  intro turns state
  have inner := keeps turns state
  unfold Parser.filterMap
  simp only
  split
  · rename_i value after run
    rw [run] at inner
    split
    · exact inner
    · exact kept.refl state
  · exact kept.refl state
  · trivial

theorem pair {first : Parser α} {second : Parser β} (left : Keeps related first)
    (right : Keeps related second) : Keeps related (first.pair second) :=
  attempt (left.bind fun _ => right.bind fun _ => pure _)

theorem group {opening : Parser β} {closing : Parser γ} (inside : Keeps related parser)
    (before : Keeps related opening) (behind : Keeps related closing) :
    Keeps related (Parser.group parser opening closing) :=
  (((before.pair inside).map _).pair behind).map _

theorem inOrder (keeps : ∀ parser ∈ parsers, Keeps related parser) :
    Keeps related (Parser.inOrder parsers) := by
  induction parsers with
  | nil => exact pure _
  | cons parser others ih =>
      have rest := ih fun other member => keeps other (List.mem_cons_of_mem _ member)
      exact (keeps parser List.mem_cons_self).bind fun _ => rest.bind fun _ => pure _

theorem alternatives (keeps : ∀ parser ∈ parsers, Keeps related parser)
    {failures : List Failure} (mild : ∀ failure ∈ failures, failure.fatal = false) :
    Keeps related (Parser.alternatives parsers failures) := by
  induction parsers generalizing failures with
  | nil => exact fun _ state => kept.refl state
  | cons parser others ih =>
      intro turns state
      have inner := (keeps parser List.mem_cons_self).attempt turns state
      unfold Parser.alternatives
      simp only
      split
      · rename_i value after run
        rw [run] at inner
        split
        · rename_i failure found
          exact kept.trans inner (kept.remember (Failure.fatal_of_deepest mild found))
        · exact inner
      · rename_i failure after run
        rw [run] at inner
        split
        · exact inner
        · rename_i ordinary
          have still_mild : ∀ other ∈ failures ++ [failure], other.fatal = false := by
            intro other member
            rcases List.mem_append.1 member with member | member
            · exact mild other member
            · obtain rfl := List.mem_singleton.1 member
              exact Bool.eq_false_iff.2 ordinary
          have rest := ih (fun other member => keeps other (List.mem_cons_of_mem _ member))
            still_mild
          exact (rest turns after).imp fun _ => kept.trans inner
      · trivial

theorem choice (keeps : ∀ parser ∈ parsers, Keeps related parser) :
    Keeps related (Parser.choice parsers) := by
  unfold Parser.choice
  split
  · exact keeps _ List.mem_cons_self
  · exact alternatives keeps (by simp)

theorem repeated (keeps : Keeps related parser) (turns : Nat) :
    Keeps related (Parser.repeated parser turns) := by
  induction turns with
  | zero => exact fun _ _ => trivial
  | succ turns ih =>
      intro bound state
      unfold Parser.repeated
      refine (keeps.optional bound state).andThen fun value after => ?_
      cases value with
      | none => exact kept.refl after
      | some value =>
          simp only
          split
          · exact kept.refl after
          · exact (ih bound after).map _

theorem many (keeps : Keeps related parser) : Keeps related parser.many :=
  withTurns keeps.repeated

theorem manyOne (keeps : Keeps related parser) : Keeps related parser.manyOne := by
  intro bound state
  unfold Parser.manyOne
  refine (keeps.attempt bound state).andThen fun value after => ?_
  split
  · exact kept.refl after
  · exact (keeps.many bound after).map _

theorem repetition (keeps : Keeps related parser) (mayBeEmpty : Bool) :
    Keeps related (parser.repetition mayBeEmpty) := by
  cases mayBeEmpty with
  | true => exact keeps.many
  | false => exact keeps.manyOne

theorem followers {element : Parser α} {delimiter : Parser δ} (elements : Keeps related element)
    (delimiters : Keeps related delimiter) (turns : Nat) :
    Keeps related (Parser.followers element delimiter turns) := by
  induction turns with
  | zero => exact fun _ _ => trivial
  | succ turns ih =>
      refine delimiters.optional.bind fun mark => ?_
      cases mark with
      | none => exact pure _
      | some mark => exact elements.bind fun _ => ih.bind fun _ => pure _

theorem interleaved {element : Parser α} {delimiter : Parser δ} (elements : Keeps related element)
    (delimiters : Keeps related delimiter) (mayBeEmpty : Bool) :
    Keeps related (Parser.interleaved element delimiter mayBeEmpty) := by
  cases mayBeEmpty
  case' true => refine elements.optional.bind fun value => ?_
  case' false => refine (elements.map some).bind fun value => ?_
  all_goals
    cases value with
    | none => exact pure _
    | some value => exact (withTurns (elements.followers delimiters)).bind fun _ => pure _

theorem links {operator : Parser (Joint α × α)} (operands : Keeps related parser)
    (operators : Keeps related operator) (turns : Nat) :
    Keeps related (Parser.links parser operator turns) := by
  induction turns with
  | zero => exact fun _ _ => trivial
  | succ turns ih =>
      refine operators.optional.bind fun value => ?_
      cases value with
      | none => exact pure _
      | some value => exact operands.bind fun _ => ih.bind fun _ => pure _

theorem operatorOf {operators : List (Operator α)}
    (keeps : ∀ operator ∈ operators, Keeps related operator.parser) :
    Keeps related (Parser.operatorOf operators) := by
  refine choice fun parser member => ?_
  obtain ⟨operator, among, rfl⟩ := List.mem_map.1 member
  exact (keeps operator among).map _

theorem binary {operators : List (Operator α)} (operands : Keeps related parser)
    (keeps : ∀ operator ∈ operators, Keeps related operator.parser) :
    Keeps related (Parser.binary parser operators) :=
  attempt (operands.bind fun _ =>
    (withTurns (operands.links (operatorOf keeps))).bind fun _ => pure _)

theorem nested (keeps : Keeps related parser) (limit : Nat) :
    Keeps related (Parser.nested limit parser) := by
  intro turns state
  unfold Parser.nested
  simp only
  split
  · exact kept.refl state
  · exact (keeps turns { state with depth := state.depth + 1 }).mapState fun _ => kept.nest

theorem recorded (keeps : Keeps related parser) (label : String) :
    Keeps related (Parser.recorded label parser) := fun turns state =>
  (keeps turns (state.enter label)).mapState fun _ => kept.leave

theorem recordedWhen (keeps : Keeps related parser) (label : String)
    (keep : α → Bool) : Keeps related (Parser.recordedWhen label keep parser) := by
  intro turns state
  have inner := keeps turns (state.enter label)
  unfold Parser.recordedWhen
  simp only
  split
  · rename_i value after run
    rw [run] at inner
    show related state (if keep value then after.leave else after.leaveSpliced)
    split
    · exact kept.leave inner
    · exact kept.leaveSpliced inner
  · rename_i failure after run
    rw [run] at inner
    exact kept.leave inner
  · trivial

theorem noted (keeps : Keeps related parser) (describe : α → String) :
    Keeps related (parser.noted describe) :=
  keeps.bind fun _ => (note _).bind fun _ => pure _

end Keeps

/-- What every step keeps, every run of a parser built from the combinators keeps. -/
theorem Built.keeps {related : State → State → Prop} [State.Kept related] {parser : Parser α}
    (built : Built parser) : Keeps related parser := by
  induction built with
  | pure value => exact .pure value
  | exhausted => exact fun _ _ => trivial
  | fail expected => exact fun _ state => State.Kept.refl state
  | fatal expected => exact fun _ state => State.Kept.refl state
  | note label => exact .note label
  | satisfy test expected => exact .satisfy test expected
  | endOfInput => exact .endOfInput
  | map f _ ih => exact ih.map f
  | filterMap f expected _ ih => exact ih.filterMap f expected
  | label name _ ih => exact ih.label name
  | attempt _ ih => exact ih.attempt
  | optional _ ih => exact ih.optional
  | pair _ _ left right => exact left.pair right
  | sequence _ ih => exact (Keeps.inOrder ih).attempt
  | choice _ ih => exact .choice ih
  | repetition mayBeEmpty _ ih => exact ih.repetition mayBeEmpty
  | listWithDelimiters mayBeEmpty _ _ _ _ elements delimiters before behind =>
      exact (elements.interleaved delimiters mayBeEmpty).group before behind
  | binary _ _ operands operators => exact operands.binary operators
  | recursive _ ih => exact fun turns state => ih turns turns state
  | deferred _ ih => exact ih
  | nested limit _ ih => exact ih.nested limit
  | recorded label _ ih => exact ih.recorded label
  | recordedWhen label keep _ ih => exact ih.recordedWhen label keep
  | noted describe _ ih => exact ih.noted describe

/-- Every run of the parser ends ahead of the state where it started. -/
def Advances (parser : Parser α) : Prop :=
  ∀ turns state, (parser.run turns state).Ends state.Leads

/-- Every parser built from the combinators advances. -/
theorem Built.advances {parser : Parser α} (built : Built parser) : Advances parser := built.keeps

end Parser

end Curried
