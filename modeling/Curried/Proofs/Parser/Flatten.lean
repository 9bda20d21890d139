import Curried.Proofs.Parser.Merging
import Curried.Proofs.Parser.Position

/-!
# Choices inside of choices

A choice among the alternatives of a choice is a choice among all of them: it takes the same
alternative and reports the same failure.

`Parser.trials` says what the alternatives come to in one state, whatever choice they stand in: the
ordinary failures in front, and the run that decided the choice, if one did.  A choice is settled by
its trials, and the trials of a list are put together from those of its parts.  Only the failure that
a success remembers may depend on the grouping, since an earlier one of two equal failures is kept.
-/

namespace Curried

/-! ### Ends that differ in what they remember -/

namespace State

/-- The state without the failure that it remembers. -/
def forget (state : State) : State := { state with furthest := none }

theorem forget_remember (state : State) (failure : Failure) :
    (state.remember failure).forget = state.forget := by
  rcases state.remember_cases failure with same | replaced
  · rw [same]
  · rw [replaced, forget, forget]

/-- Remember the deepest of some failures, if there are any. -/
def rememberDeepest (state : State) (failures : List Failure) : State :=
  match Failure.deepest failures with
  | some failure => state.remember failure
  | none => state

theorem forget_rememberDeepest (state : State) (failures : List Failure) :
    (state.rememberDeepest failures).forget = state.forget := by
  unfold rememberDeepest
  split
  · exact state.forget_remember _
  · rfl

end State

/-- Two runs end alike: with the same value, at the same place and with the same history, or with the
same failure. -/
inductive Outcome.EndsAlike {α : Type} : Outcome α → Outcome α → Prop where
  | ok (value : α) {left right : State} :
      left.forget = right.forget → EndsAlike (.ok value left) (.ok value right)
  | error (failure : Failure) (state : State) :
      EndsAlike (.error failure state) (.error failure state)
  | exhausted : EndsAlike .exhausted .exhausted

namespace Outcome.EndsAlike

variable {α : Type} {first second third : Outcome α}

theorem refl (outcome : Outcome α) : outcome.EndsAlike outcome := by
  cases outcome with
  | ok value state => exact .ok value rfl
  | error failure state => exact .error failure state
  | exhausted => exact .exhausted

theorem symm (alike : first.EndsAlike second) : second.EndsAlike first := by
  cases alike with
  | ok value same => exact .ok value same.symm
  | error failure state => exact .error failure state
  | exhausted => exact .exhausted

theorem trans (left : first.EndsAlike second) (right : second.EndsAlike third) :
    first.EndsAlike third := by
  cases left with
  | ok value same =>
      cases right with
      | ok _ same' => exact .ok value (same.trans same')
  | error failure state => exact right
  | exhausted => exact right

end Outcome.EndsAlike

namespace Parser

variable {α : Type}

/-! ### Trials -/

/-- What trying alternatives in order comes to. -/
structure Trials (α : Type) where
  /-- The ordinary failures, in order. -/
  passed : List Failure
  /-- The end of the run behind them, a success or a fatal failure, if there was one. -/
  decided : Option (Outcome α)

/-- Try alternatives in order, each of them from the same state. -/
def trials : List (Parser α) → Nat → State → Trials α
  | [], _, _ => ⟨[], none⟩
  | parser :: others, turns, state =>
      match parser.run turns state with
      | .ok value after => ⟨[], some (.ok value after)⟩
      | .error failure _ =>
          if failure.fatal then ⟨[], some (.error failure state)⟩
          else
            let rest := trials others turns state
            ⟨failure :: rest.passed, rest.decided⟩
      | .exhausted => ⟨[], some .exhausted⟩

namespace Trials

variable {first second later : Trials α}

/-- Go on with further trials if nothing is decided yet. -/
def andThen (first second : Trials α) : Trials α :=
  match first.decided with
  | none => ⟨first.passed ++ second.passed, second.decided⟩
  | some _ => first

/-- How a choice ends, from its trials in a state, behind failures that are known already. -/
def settle (trials : Trials α) (known : List Failure) (state : State) : Outcome α :=
  match trials.decided with
  | none =>
      .error ((Failure.deepest (known ++ trials.passed)).getD (state.failure "nothing")) state
  | some (.ok value after) => .ok value (after.rememberDeepest (known ++ trials.passed))
  | some ended => ended

/-- Trials that settle a choice alike.  What was passed over only matters as long as nothing is
decided. -/
inductive Alike : Trials α → Trials α → Prop where
  | undecided {passed passed' : List Failure} :
      Failure.deepest passed = Failure.deepest passed' → Alike ⟨passed, none⟩ ⟨passed', none⟩
  | decided (passed passed' : List Failure) {ended ended' : Outcome α} :
      ended.EndsAlike ended' → Alike ⟨passed, some ended⟩ ⟨passed', some ended'⟩

theorem Alike.refl (trials : Trials α) : trials.Alike trials := by
  obtain ⟨passed, _ | ended⟩ := trials
  · exact .undecided rfl
  · exact .decided passed passed (.refl ended)

theorem Alike.andThen_right (alike : second.Alike later) :
    (first.andThen second).Alike (first.andThen later) := by
  obtain ⟨passed, _ | ended⟩ := first
  · cases alike with
    | undecided same =>
        refine .undecided ?_
        rw [Failure.deepest_append, same, ← Failure.deepest_append]
    | decided _ _ ends => exact .decided _ _ ends
  · exact .refl _

theorem Alike.andThen_left (alike : first.Alike second) :
    (first.andThen later).Alike (second.andThen later) := by
  cases alike with
  | undecided same =>
      obtain ⟨passed, _ | ended⟩ := later
      · refine .undecided ?_
        rw [Failure.deepest_append, same, ← Failure.deepest_append]
      · exact .decided _ _ (.refl ended)
  | decided passed passed' ends => exact .decided passed passed' ends

theorem Alike.settle (alike : first.Alike second) (state : State) :
    (first.settle [] state).EndsAlike (second.settle [] state) := by
  cases alike with
  | undecided same =>
      simp only [Trials.settle, List.nil_append, same]
      exact .refl _
  | decided passed passed' ends =>
      cases ends with
      | ok value same =>
          refine .ok value ?_
          rw [State.forget_rememberDeepest, State.forget_rememberDeepest, same]
      | error failure state => exact .error failure state
      | exhausted => exact .exhausted

end Trials

theorem trials_append (parsers others : List (Parser α)) (turns : Nat) (state : State) :
    trials (parsers ++ others) turns state =
      (trials parsers turns state).andThen (trials others turns state) := by
  induction parsers with
  | nil => rfl
  | cons parser parsers ih =>
      rw [List.cons_append, trials, trials]
      cases parser.run turns state with
      | ok value after => rfl
      | exhausted => rfl
      | error failure after =>
          simp only
          split
          · rfl
          · rw [ih]
            obtain ⟨passed, _ | ended⟩ := trials parsers turns state <;> rfl

/-- All alternatives that were passed over failed by themselves, and none of them fatally. -/
theorem forall_passed {parsers : List (Parser α)} {turns : Nat} {state : State} :
    ∀ failure ∈ (trials parsers turns state).passed, failure.fatal = false := by
  induction parsers with
  | nil => exact List.forall_mem_nil _
  | cons parser others ih =>
      rw [trials]
      split
      · exact List.forall_mem_nil _
      · split
        · exact List.forall_mem_nil _
        · rename_i ordinary
          exact List.forall_mem_cons.2 ⟨Bool.eq_false_iff.2 ordinary, ih⟩
      · exact List.forall_mem_nil _

/-- Nothing is decided if every alternative fails, and not fatally. -/
theorem failures_of_undecided {parsers : List (Parser α)} {turns : Nat} {state : State}
    (undecided : (trials parsers turns state).decided = none) :
    List.Forall₂ (fun parser failure =>
      (∃ after, parser.run turns state = .error failure after) ∧ failure.fatal = false)
      parsers (trials parsers turns state).passed := by
  induction parsers with
  | nil => exact .nil
  | cons parser others ih =>
      rw [trials] at undecided ⊢
      split at undecided
      · cases undecided
      · rename_i failure after run
        split at undecided
        · cases undecided
        · rename_i ordinary
          simp only [if_neg ordinary]
          exact .cons ⟨⟨after, run⟩, Bool.eq_false_iff.2 ordinary⟩ (ih undecided)
      · cases undecided

/-- A failure that decides is fatal. -/
theorem fatal_of_decided {parsers : List (Parser α)} {turns : Nat} {state after : State}
    {failure : Failure}
    (decided : (trials parsers turns state).decided = some (.error failure after)) :
    failure.fatal = true ∧ after = state := by
  induction parsers with
  | nil => cases decided
  | cons parser others ih =>
      rw [trials] at decided
      split at decided
      · cases decided
      · split at decided
        · rename_i fatal
          obtain ⟨rfl, rfl⟩ := Outcome.error.inj (Option.some.inj decided)
          exact ⟨fatal, rfl⟩
        · exact ih decided
      · cases decided

/-! ### Choices are settled by their trials -/

theorem run_alternatives (parsers : List (Parser α)) (known : List Failure) (turns : Nat)
    (state : State) :
    (alternatives parsers known).run turns state =
      (trials parsers turns state).settle known state := by
  induction parsers generalizing known with
  | nil => simp [alternatives, trials, Trials.settle]
  | cons parser others ih =>
      rw [alternatives, trials]
      simp only [attempt]
      cases parser.run turns state with
      | ok value after =>
          simp only [Trials.settle, List.append_nil, State.rememberDeepest]
          cases Failure.deepest known <;> rfl
      | exhausted => rfl
      | error failure after =>
          simp only
          split
          · rfl
          · rw [ih]
            simp only [Trials.settle, List.append_assoc, List.singleton_append]

/-- A single alternative runs as it is; otherwise a choice is settled by its trials. -/
theorem run_choice {parsers : List (Parser α)} (several : parsers.length ≠ 1) (turns : Nat)
    (state : State) :
    (choice parsers).run turns state = (trials parsers turns state).settle [] state := by
  rw [← run_alternatives]
  unfold choice
  split
  · exact absurd rfl several
  · rfl

/-- As an alternative, a choice comes to the same as its own alternatives. -/
theorem trials_choice {inner : List (Parser α)} (some_inner : inner ≠ []) (turns : Nat)
    (state : State) :
    (trials [choice inner] turns state).Alike (trials inner turns state) := by
  by_cases single : inner.length = 1
  · obtain ⟨only, rfl⟩ := List.length_eq_one_iff.1 single
    exact .refl _
  · rw [trials, run_choice single]
    have passed := @forall_passed α inner turns state
    have undecided := @failures_of_undecided α inner turns state
    have fatal := @fatal_of_decided α inner turns state
    generalize trials inner turns state = tried at passed undecided fatal ⊢
    obtain ⟨failures, decided⟩ := tried
    match decided with
    | some (.ok value after) =>
        exact .decided _ _ (.ok value (State.forget_rememberDeepest after _))
    | some .exhausted => exact .decided _ _ .exhausted
    | some (.error failure after) =>
        obtain ⟨is_fatal, rfl⟩ := fatal rfl
        simp only [Trials.settle, if_pos is_fatal]
        exact .decided _ _ (.error failure after)
    | none =>
        have some_failures : failures ≠ [] := by
          rintro rfl
          cases undecided rfl
          exact some_inner rfl
        cases found : Failure.deepest failures with
        | none => exact absurd (Failure.eq_nil_of_deepest found) some_failures
        | some deepest =>
            have ordinary : deepest.fatal = false := Failure.fatal_of_deepest passed found
            simp only [Trials.settle, List.nil_append, found, Option.getD_some, ordinary,
              Bool.false_eq_true, if_false, trials]
            refine .undecided ?_
            rw [found, Failure.deepest_singleton]

/-- A choice among others is as good as its alternatives in its place. -/
theorem endsAlike_of_choice (before inner behind : List (Parser α)) (some_inner : inner ≠ [])
    (turns : Nat) (state : State) :
    ((choice (before ++ [choice inner] ++ behind)).run turns state).EndsAlike
      ((choice (before ++ inner ++ behind)).run turns state) := by
  by_cases alone : before = [] ∧ behind = []
  · obtain ⟨rfl, rfl⟩ := alone
    rw [List.nil_append, List.append_nil, List.nil_append, List.append_nil]
    exact .refl _
  · have more : 0 < before.length + behind.length := by
      rcases not_and_or.1 alone with some_before | some_behind
      · exact Nat.add_pos_left (List.length_pos_iff.2 some_before) _
      · exact Nat.add_pos_right _ (List.length_pos_iff.2 some_behind)
    have positive := List.length_pos_iff.2 some_inner
    rw [run_choice (by simp only [List.length_append, List.length_singleton]; omega),
      run_choice (by simp only [List.length_append]; omega)]
    refine Trials.Alike.settle ?_ state
    rw [trials_append, trials_append, trials_append, trials_append]
    exact (trials_choice some_inner turns state).andThen_right.andThen_left

/-- An ordinary failure of a choice that has alternatives is merged from failures of them all. -/
theorem deepest_of_choice {parsers : List (Parser α)} (some_parsers : parsers ≠ []) {turns : Nat}
    {state after : State} {failure : Failure}
    (fails : (choice parsers).run turns state = .error failure after)
    (ordinary : failure.fatal = false) :
    ∃ failures, List.Forall₂ (fun parser failure =>
        (∃ after, parser.run turns state = .error failure after) ∧ failure.fatal = false)
        parsers failures ∧ Failure.deepest failures = some failure := by
  by_cases single : parsers.length = 1
  · obtain ⟨only, rfl⟩ := List.length_eq_one_iff.1 single
    exact ⟨[failure], .cons ⟨⟨after, fails⟩, ordinary⟩ .nil, Failure.deepest_singleton failure⟩
  · rw [run_choice single] at fails
    have undecided := @failures_of_undecided α parsers turns state
    have fatal := @fatal_of_decided α parsers turns state
    generalize trials parsers turns state = tried at fails undecided fatal
    obtain ⟨failures, decided⟩ := tried
    match decided with
    | some (.ok value after) => cases fails
    | some .exhausted => cases fails
    | some (.error other last) =>
        obtain ⟨rfl, rfl⟩ := Outcome.error.inj fails
        rw [(fatal rfl).1] at ordinary
        cases ordinary
    | none =>
        refine ⟨failures, undecided rfl, ?_⟩
        have merged := (Outcome.error.inj fails).1
        rw [List.nil_append] at merged
        cases found : Failure.deepest failures with
        | some deepest =>
            rw [found] at merged
            exact congrArg some merged
        | none =>
            obtain rfl := Failure.eq_nil_of_deepest found
            cases undecided rfl
            exact absurd rfl some_parsers

/-- A choice that stands among the alternatives of another one may be replaced by its own
alternatives: the two yield the same value at the same place with the same history, or the same
failure.  An ordinary failure of the flat choice is merged from those failures of its alternatives
that got furthest, and stands where the first of them does; and it lists no label twice, unless the
state or an alternative does, which nothing that is built from the combinators does.  So it does not
matter how alternatives are grouped. -/
theorem choice_flatten (before inner behind : List (Parser α)) (some_inner : inner ≠ [])
    (turns : Nat) (state : State) :
    ((choice (before ++ [choice inner] ++ behind)).run turns state).EndsAlike
      ((choice (before ++ inner ++ behind)).run turns state) ∧
    (∀ failure after,
      (choice (before ++ inner ++ behind)).run turns state = .error failure after →
        failure.fatal = false →
          ∃ failures, List.Forall₂ (fun parser failure =>
              (∃ after, parser.run turns state = .error failure after) ∧ failure.fatal = false)
              (before ++ inner ++ behind) failures ∧
            failure.IsDeepest failures ∧
            ((∀ parser ∈ before ++ inner ++ behind, ListsOnce parser) → state.Distinct →
              failure.expected.Nodup)) ∧
    (∀ parser : Parser α, Built parser → ListsOnce parser) ∧
    ∀ first second third : Parser α,
      (((first.or second).or third).run turns state).EndsAlike
        ((first.or (second.or third)).run turns state) := by
  refine ⟨endsAlike_of_choice before inner behind some_inner turns state, ?_,
    fun parser built => built.listsOnce, fun first second third => ?_⟩
  · intro failure after fails ordinary
    have some_parsers : before ++ inner ++ behind ≠ [] := by simp [some_inner]
    obtain ⟨failures, each, found⟩ := deepest_of_choice some_parsers fails ordinary
    refine ⟨failures, each, Failure.isDeepest_of_deepest found, fun lists distinct => ?_⟩
    have last := ListsOnce.choice lists turns state distinct
    rw [fails] at last
    exact last.1
  · have left := endsAlike_of_choice [] [first, second] [third] (by simp) turns state
    have right := endsAlike_of_choice [first] [second, third] [] (by simp) turns state
    exact left.trans right.symm

/-- A word with a number or a text behind it, in a choice inside of a choice: the two failures behind
the word are merged, and the one in front of it is not. -/
theorem choice_flatten_words :
    let behind_word (kind : String) := (token "word").pair (token kind)
    let other := (token "number").pair (token "number")
    let start := State.start [⟨"word", "a", "a", .text "a", .start⟩]
    let missing : Failure := ⟨["number", "string"], ⟨1, []⟩, .root, false⟩
    [behind_word "number", behind_word "string"] ≠ [] ∧
      (choice [other, behind_word "number", behind_word "string", behind_word "number"]).run 0 start =
        .error missing start ∧
      ((choice [other, choice [behind_word "number", behind_word "string"],
        behind_word "number"]).run 0 start).EndsAlike (.error missing start) ∧
      missing.expected.Nodup := by
  intro behind_word other start missing
  have some_inner : [behind_word "number", behind_word "string"] ≠ [] := by simp
  have fails : (choice [other, behind_word "number", behind_word "string",
      behind_word "number"]).run 0 start = .error missing start := rfl
  obtain ⟨alike, merged, lists, _⟩ :=
    choice_flatten [other] [behind_word "number", behind_word "string"] [behind_word "number"]
      some_inner 0 start
  obtain ⟨failures, _, _, once⟩ := merged missing start fails rfl
  refine ⟨some_inner, fails, alike, once (fun parser member => lists parser ?_) nofun⟩
  simp only [List.cons_append, List.nil_append, List.mem_cons, List.not_mem_nil, or_false] at member
  rcases member with rfl | rfl | rfl | rfl <;> exact inferInstanceAs (Built ((token _).pair (token _)))

end Parser

end Curried
