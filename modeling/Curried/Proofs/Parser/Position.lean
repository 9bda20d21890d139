import Curried.Proofs.Parser.Frame

/-!
# Where a failed run stands

A failed run leaves the position as it was, with one exception: a repetition that no transaction
surrounds keeps the elements it took when a later one fails fatally.  `Strands` says that a run
comes to such a repetition and that its first element takes a token.
-/

namespace Curried

namespace Outcome

variable {α β : Type}

theorem map_eq_error {f : α → β} {outcome : Outcome α} {failure : Failure} {state : State}
    (fails : outcome.map f = .error failure state) : outcome = .error failure state := by
  cases outcome with
  | ok value after => simp [map] at fails
  | error other after => simpa [map] using fails
  | exhausted => simp [map] at fails

theorem mapState_eq_error {f : State → State} {outcome : Outcome α} {failure : Failure}
    {state : State} (fails : outcome.mapState f = .error failure state) :
    ∃ after, outcome = .error failure after ∧ f after = state := by
  cases outcome with
  | ok value after => simp [mapState] at fails
  | error other after =>
      simp only [mapState, error.injEq] at fails
      exact ⟨after, by rw [fails.1], fails.2⟩
  | exhausted => simp [mapState] at fails

theorem andThen_eq_error {outcome : Outcome α} {next : α → State → Outcome β} {failure : Failure}
    {state : State} (fails : outcome.andThen next = .error failure state) :
    outcome = .error failure state ∨
      ∃ value after, outcome = .ok value after ∧ next value after = .error failure state := by
  cases outcome with
  | ok value after => exact .inr ⟨value, after, rfl, fails⟩
  | error other after => exact .inl (by simpa [andThen] using fails)
  | exhausted => simp [andThen] at fails

theorem andThen_eq_ok {outcome : Outcome α} {next : α → State → Outcome β} {value : β}
    {after : State} : outcome.andThen next = .ok value after ↔
      ∃ first middle, outcome = .ok first middle ∧ next first middle = .ok value after := by
  constructor
  · intro goes
    cases outcome with
    | ok first middle => exact ⟨first, middle, rfl, goes⟩
    | error => cases goes
    | exhausted => cases goes
  · rintro ⟨first, middle, rfl, goes⟩
    exact goes

theorem map_eq_ok {outcome : Outcome α} {f : α → β} {value : β} {after : State} :
    outcome.map f = .ok value after ↔ ∃ inner, outcome = .ok inner after ∧ f inner = value := by
  constructor
  · intro maps
    cases outcome with
    | ok inner state =>
        obtain ⟨same, rfl⟩ := ok.inj maps
        exact ⟨inner, rfl, same⟩
    | error => cases maps
    | exhausted => cases maps
  · rintro ⟨inner, rfl, rfl⟩
    rfl

end Outcome

namespace Parser

variable {α β γ δ : Type} {turns : Nat} {state after : State} {failure : Failure}

/-- The run comes, outside of every transaction, to a repetition whose first element takes a
token. -/
inductive Strands : {α : Type} → Parser α → Nat → State → Prop where
  | repetition {α : Type} {parser : Parser α} {mayBeEmpty : Bool} {turns : Nat}
      {state after : State} {value : α} :
      Built parser → parser.attempt.run turns state = .ok value after →
        state.position < after.position → Strands (parser.repetition mayBeEmpty) turns state
  | map {α β : Type} {parser : Parser α} {turns : Nat} {state : State} (f : α → β) :
      Strands parser turns state → Strands (parser.map f) turns state
  | label {α : Type} {parser : Parser α} {turns : Nat} {state : State} (name : String) :
      Strands parser turns state → Strands (parser.label name) turns state
  | recursive {α : Type} {build : Parser α → Parser α} {turns : Nat} {state : State} :
      Strands ⟨unfolded build turns⟩ turns state → Strands (Parser.recursive build) turns state
  | deferred {α : Type} {build : Unit → Parser α} {turns : Nat} {state : State} :
      Strands (build ()) turns state → Strands (Parser.deferred build) turns state
  | nested {α : Type} {parser : Parser α} {turns limit : Nat} {state : State} :
      state.depth < limit → Strands parser turns { state with depth := state.depth + 1 } →
        Strands (Parser.nested limit parser) turns state
  | recorded {α : Type} {parser : Parser α} {turns : Nat} {state : State} (label : String) :
      Strands parser turns (state.enter label) → Strands (Parser.recorded label parser) turns state
  | recordedWhen {α : Type} {parser : Parser α} {turns : Nat} {state : State} (label : String)
      (keep : α → Bool) :
      Strands parser turns (state.enter label) →
        Strands (Parser.recordedWhen label keep parser) turns state
  | noted {α : Type} {parser : Parser α} {turns : Nat} {state : State} (describe : α → String) :
      Strands parser turns state → Strands (parser.noted describe) turns state

/-! ### Transactions put the state back -/

theorem attempt_eq_error {parser : Parser α}
    (fails : parser.attempt.run turns state = .error failure after) :
    after = state ∧ ∃ inside, parser.run turns state = .error failure inside := by
  unfold attempt at fails
  simp only at fails
  split at fails
  · simp at fails
  · rename_i other inside run
    obtain ⟨rfl, rfl⟩ := Outcome.error.inj fails
    exact ⟨rfl, inside, run⟩
  · simp at fails

theorem optional_eq_error {parser : Parser α}
    (fails : parser.optional.run turns state = .error failure after) :
    after = state ∧ failure.fatal = true := by
  unfold optional at fails
  simp only at fails
  split at fails
  · simp at fails
  · rename_i other inside run
    split at fails
    · rename_i fatal
      obtain ⟨rfl, rfl⟩ := Outcome.error.inj fails
      exact ⟨(attempt_eq_error run).1, fatal⟩
    · simp at fails
  · simp at fails

theorem group_eq_error {inner : Parser α} {opening : Parser β} {closing : Parser γ}
    (fails : (group inner opening closing).run turns state = .error failure after) :
    after = state :=
  (attempt_eq_error (Outcome.map_eq_error fails)).1

theorem alternatives_eq_error {parsers : List (Parser α)} {failures : List Failure}
    (fails : (alternatives parsers failures).run turns state = .error failure after) :
    after = state := by
  induction parsers generalizing failures state with
  | nil => exact (Outcome.error.inj fails).2.symm
  | cons parser others ih =>
      unfold alternatives at fails
      simp only at fails
      split at fails
      · split at fails <;> simp at fails
      · rename_i other inside run
        obtain ⟨rfl, _⟩ := attempt_eq_error run
        split at fails
        · exact (Outcome.error.inj fails).2.symm
        · exact ih fails
      · simp at fails

/-! ### Parsers that only look at the next token, and parsers around one other -/

theorem satisfy_eq_error {test : Token → Bool} {expected : String}
    (fails : (Parser.satisfy test expected).run turns state = .error failure after) :
    after = state := by
  unfold Parser.satisfy at fails
  simp only at fails
  split at fails
  · split at fails
    · simp at fails
    · exact (Outcome.error.inj fails).2.symm
  · exact (Outcome.error.inj fails).2.symm

theorem endOfInput_eq_error (fails : Parser.endOfInput.run turns state = .error failure after) :
    after = state := by
  unfold Parser.endOfInput at fails
  simp only at fails
  split at fails
  · exact (Outcome.error.inj fails).2.symm
  · simp at fails

theorem filterMap_eq_error {parser : Parser α} {f : α → Option β} {expected : String}
    (fails : (parser.filterMap f expected).run turns state = .error failure after) :
    after = state := by
  unfold Parser.filterMap at fails
  simp only at fails
  split at fails
  · split at fails
    · simp at fails
    · exact (Outcome.error.inj fails).2.symm
  · exact (Outcome.error.inj fails).2.symm
  · simp at fails

theorem label_eq_error {parser : Parser α} {name : String}
    (fails : (parser.label name).run turns state = .error failure after) :
    ∃ inside, parser.run turns state = .error inside after ∧ failure = inside.relabel name := by
  unfold Parser.label at fails
  simp only at fails
  split at fails
  · simp at fails
  · rename_i inside other run
    obtain ⟨rfl, rfl⟩ := Outcome.error.inj fails
    exact ⟨inside, run, rfl⟩
  · simp at fails

/-- A parser that may not be entered any deeper fails where it is. -/
theorem nested_eq_error {parser : Parser α} {limit : Nat}
    (fails : (Parser.nested limit parser).run turns state = .error failure after) :
    limit ≤ state.depth ∧ after = state ∨ state.depth < limit ∧
      ∃ inside, parser.run turns { state with depth := state.depth + 1 } = .error failure inside ∧
        after.position = inside.position := by
  unfold Parser.nested at fails
  simp only at fails
  split at fails
  · rename_i full
    exact .inl ⟨full, (Outcome.error.inj fails).2.symm⟩
  · rename_i room
    obtain ⟨inside, run, rfl⟩ := Outcome.mapState_eq_error fails
    exact .inr ⟨Nat.lt_of_not_le room, inside, run, rfl⟩

theorem recordedWhen_eq_error {parser : Parser α} {label : String} {keep : α → Bool}
    (fails : (Parser.recordedWhen label keep parser).run turns state = .error failure after) :
    ∃ inside, parser.run turns (state.enter label) = .error failure inside ∧
      after = inside.leave := by
  unfold Parser.recordedWhen at fails
  simp only at fails
  split at fails
  · simp at fails
  · rename_i other inside run
    obtain ⟨rfl, rfl⟩ := Outcome.error.inj fails
    exact ⟨inside, run, rfl⟩
  · simp at fails

theorem noted_eq_error {parser : Parser α} {describe : α → String}
    (fails : (parser.noted describe).run turns state = .error failure after) :
    parser.run turns state = .error failure after := by
  rcases Outcome.andThen_eq_error fails with first | ⟨value, between, _, rest⟩
  · exact first
  · change Outcome.ok value _ = Outcome.error failure after at rest
    simp at rest

/-! ### Repetitions -/

theorem optional_of_attempt {parser : Parser α} {value : α}
    (takes : parser.attempt.run turns state = .ok value after) :
    parser.optional.run turns state = .ok (some value) after := by
  unfold optional
  simp only [takes]

theorem attempt_of_optional {parser : Parser α} {value : α}
    (takes : parser.optional.run turns state = .ok (some value) after) :
    parser.attempt.run turns state = .ok value after := by
  unfold optional at takes
  simp only at takes
  split at takes
  · rename_i other inside run
    obtain ⟨same, rfl⟩ := Outcome.ok.inj takes
    obtain rfl := Option.some.inj same
    exact run
  · split at takes <;> simp at takes
  · simp at takes

theorem attempt_eq_ok {parser : Parser α} {value : α} :
    parser.attempt.run turns state = .ok value after ↔
      parser.run turns state = .ok value after := by
  simp only [attempt]
  cases parser.run turns state <;> simp

theorem optional_eq_some {parser : Parser α} {value : α} :
    parser.optional.run turns state = .ok (some value) after ↔
      parser.run turns state = .ok value after :=
  ⟨fun takes => attempt_eq_ok.1 (attempt_of_optional takes),
    fun takes => optional_of_attempt (attempt_eq_ok.2 takes)⟩

/-- Only a fatal failure ends a repetition that may be empty. -/
theorem fatal_of_repeated {parser : Parser α} {left : Nat}
    (fails : (repeated parser left).run turns state = .error failure after) :
    failure.fatal = true := by
  induction left generalizing state with
  | zero => simp [repeated, exhausted] at fails
  | succ left ih =>
      unfold repeated at fails
      rcases Outcome.andThen_eq_error fails with first | ⟨value, between, _, rest⟩
      · exact (optional_eq_error first).2
      · cases value with
        | none => simp at rest
        | some value =>
            simp only at rest
            split at rest
            · simp at rest
            · exact ih (Outcome.map_eq_error rest)

/-- A repetition that fails and has moved took a token with its first element. -/
theorem strands_of_repetition {parser : Parser α} (built : Built parser) {mayBeEmpty : Bool}
    (fails : (parser.repetition mayBeEmpty).run turns state = .error failure after)
    (moved : after.position ≠ state.position) :
    Strands (parser.repetition mayBeEmpty) turns state := by
  have ahead {value : α} {between : State}
      (takes : parser.attempt.run turns state = .ok value between)
      (differs : between.position ≠ state.position) :
      Strands (parser.repetition mayBeEmpty) turns state := by
    have leads := Keeps.attempt built.advances turns state
    rw [takes] at leads
    exact .repetition built takes (Nat.lt_of_le_of_ne leads.position_le (Ne.symm differs))
  cases mayBeEmpty with
  | true =>
      cases turns with
      | zero => simp [repetition, many, withTurns, repeated, exhausted] at fails
      | succ turns =>
          change (repeated parser (turns + 1)).run (turns + 1) state = _ at fails
          unfold repeated at fails
          rcases Outcome.andThen_eq_error fails with first | ⟨value, between, first, rest⟩
          · exact (moved (congrArg State.position (optional_eq_error first).1)).elim
          · cases value with
            | none => simp at rest
            | some value =>
                simp only at rest
                split at rest
                · simp at rest
                · rename_i differs
                  exact ahead (attempt_of_optional first) differs
  | false =>
      change parser.manyOne.run turns state = _ at fails
      unfold manyOne at fails
      rcases Outcome.andThen_eq_error fails with first | ⟨value, between, first, rest⟩
      · exact (moved (congrArg State.position (attempt_eq_error first).1)).elim
      · split at rest
        · simp at rest
        · rename_i differs
          exact ahead first differs

/-- A repetition whose first element took a token only fails fatally, and behind that element. -/
theorem ahead_of_repetition {parser : Parser α} (built : Built parser) {mayBeEmpty : Bool}
    {value : α} {between : State} (takes : parser.attempt.run turns state = .ok value between)
    (ahead : state.position < between.position)
    (fails : (parser.repetition mayBeEmpty).run turns state = .error failure after) :
    state.position < after.position ∧ failure.fatal = true := by
  have behind {left : Nat}
      (rest : (repeated parser left).run turns between = .error failure after) :
      state.position < after.position ∧ failure.fatal = true := by
    have leads := Keeps.repeated built.advances left turns between
    rw [rest] at leads
    exact ⟨Nat.lt_of_lt_of_le ahead leads.position_le, fatal_of_repeated rest⟩
  have differs : between.position ≠ state.position := Nat.ne_of_gt ahead
  cases mayBeEmpty with
  | true =>
      cases turns with
      | zero => simp [repetition, many, withTurns, repeated, exhausted] at fails
      | succ turns =>
          change (repeated parser (turns + 1)).run (turns + 1) state = _ at fails
          unfold repeated at fails
          simp only [optional_of_attempt takes, Outcome.andThen, if_neg differs] at fails
          exact behind (Outcome.map_eq_error fails)
  | false =>
      change parser.manyOne.run turns state = _ at fails
      unfold manyOne at fails
      simp only [takes, Outcome.andThen, if_neg differs] at fails
      exact behind (Outcome.map_eq_error fails)

/-! ### All parsers -/

/-- A failed run that has moved came to a repetition outside of every transaction. -/
theorem Built.strands_of_moved {parser : Parser α} (built : Built parser)
    (fails : parser.run turns state = .error failure after)
    (moved : after.position ≠ state.position) : Strands parser turns state := by
  induction built generalizing turns state failure after with
  | pure value => simp [Parser.pure] at fails
  | exhausted => simp [Parser.exhausted] at fails
  | fail expected => exact (moved (congrArg State.position (Outcome.error.inj fails).2.symm)).elim
  | fatal expected => exact (moved (congrArg State.position (Outcome.error.inj fails).2.symm)).elim
  | note label => simp [Parser.note] at fails
  | satisfy => exact (moved (congrArg State.position (satisfy_eq_error fails))).elim
  | endOfInput => exact (moved (congrArg State.position (endOfInput_eq_error fails))).elim
  | map f _ ih => exact .map f (ih (Outcome.map_eq_error fails) moved)
  | filterMap => exact (moved (congrArg State.position (filterMap_eq_error fails))).elim
  | label name _ ih =>
      obtain ⟨inside, run, _⟩ := label_eq_error fails
      exact .label name (ih run moved)
  | attempt => exact (moved (congrArg State.position (attempt_eq_error fails).1)).elim
  | optional => exact (moved (congrArg State.position (optional_eq_error fails).1)).elim
  | pair => exact (moved (congrArg State.position (attempt_eq_error fails).1)).elim
  | sequence => exact (moved (congrArg State.position (attempt_eq_error fails).1)).elim
  | choice _ ih =>
      unfold Parser.choice at fails
      split at fails
      · exact ih _ List.mem_cons_self fails moved
      · exact (moved (congrArg State.position (alternatives_eq_error fails))).elim
  | repetition mayBeEmpty built _ => exact strands_of_repetition built fails moved
  | listWithDelimiters => exact (moved (congrArg State.position (group_eq_error fails))).elim
  | binary => exact (moved (congrArg State.position (attempt_eq_error fails).1)).elim
  | recursive _ ih => exact .recursive (ih turns fails moved)
  | deferred _ ih => exact .deferred (ih fails moved)
  | nested limit _ ih =>
      rcases nested_eq_error fails with ⟨_, stays⟩ | ⟨room, inside, run, same⟩
      · exact (moved (congrArg State.position stays)).elim
      · rw [same] at moved
        exact .nested room (ih run moved)
  | recorded label _ ih =>
      obtain ⟨inside, run, rfl⟩ := Outcome.mapState_eq_error fails
      exact .recorded label (ih run moved)
  | recordedWhen label keep _ ih =>
      obtain ⟨inside, run, rfl⟩ := recordedWhen_eq_error fails
      exact .recordedWhen label keep (ih run moved)
  | noted describe _ ih => exact .noted describe (ih (noted_eq_error fails) moved)

/-- A run that comes to a repetition outside of every transaction, whose first element takes a
token, fails only fatally, and then it has moved. -/
theorem Strands.moved {parser : Parser α} (strands : Strands parser turns state)
    (fails : parser.run turns state = .error failure after) :
    state.position < after.position ∧ failure.fatal = true := by
  induction strands generalizing failure after with
  | repetition built takes ahead => exact ahead_of_repetition built takes ahead fails
  | map f _ ih => exact ih (Outcome.map_eq_error fails)
  | label name _ ih =>
      obtain ⟨inside, run, rfl⟩ := label_eq_error fails
      obtain ⟨ahead, fatal⟩ := ih run
      exact ⟨ahead, by simp [Failure.relabel, fatal]⟩
  | recursive _ ih => exact ih fails
  | deferred _ ih => exact ih fails
  | nested room _ ih =>
      rcases nested_eq_error fails with ⟨full, _⟩ | ⟨_, inside, run, same⟩
      · exact absurd room (Nat.not_lt.2 full)
      · rw [same]
        exact ih run
  | recorded label _ ih =>
      obtain ⟨inside, run, rfl⟩ := Outcome.mapState_eq_error fails
      have behind := ih run
      exact behind
  | recordedWhen label keep _ ih =>
      obtain ⟨inside, run, rfl⟩ := recordedWhen_eq_error fails
      have behind := ih run
      exact behind
  | noted describe _ ih => exact ih (noted_eq_error fails)

/-- After a failure that is not fatal, other alternatives start where the failed one did. -/
theorem Built.position_of_mild {parser : Parser α} (built : Built parser)
    (fails : parser.run turns state = .error failure after) (mild : failure.fatal = false) :
    after.position = state.position := by
  apply Classical.byContradiction
  intro moved
  have fatal := ((built.strands_of_moved fails moved).moved fails).2
  rw [mild] at fatal
  cases fatal

/-- A failed run of a parser built from the combinators leaves the position as it was, unless it
came to a repetition outside of every transaction whose first element took a token.  Then the
failure is fatal and the run stands behind that element. -/
theorem position_of_failure {parser : Parser α} (built : Built parser)
    (fails : parser.run turns state = .error failure after) :
    (after.position = state.position ↔ ¬ Strands parser turns state) ∧
      (Strands parser turns state → state.position < after.position ∧ failure.fatal = true) := by
  refine ⟨⟨fun stays strands => ?_, fun strandless => ?_⟩, fun strands => strands.moved fails⟩
  · exact absurd stays (Nat.ne_of_gt (strands.moved fails).1)
  · exact Classical.byContradiction fun moved => strandless (built.strands_of_moved fails moved)

/-- Words up to a fatal failure: the repetition fails behind the word that it took. -/
theorem position_of_failure_behind_word :
    let words := ((token "word").or (fatal "a word")).many
    let start := State.start [⟨"word", "a", "a", .text "a", .start⟩]
    ∃ failure after, words.run 2 start = .error failure after ∧
      start.position < after.position ∧ failure.fatal = true := by
  intro words start
  have built : Built ((token "word").or (fatal "a word")) := inferInstance
  have fails : words.run 2 start = .error (start.advance.fatal "a word") start.advance := rfl
  have strands : Strands (((token "word").or (fatal "a word")).repetition true) 2 start :=
    .repetition built rfl Nat.zero_lt_one
  exact ⟨_, _, fails, (position_of_failure (.repetition true built) fails).2 strands⟩

end Parser

end Curried
