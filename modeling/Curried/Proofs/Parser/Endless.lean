import Curried.Proofs.Parser.Position
import Curried.Proofs.Parser.Reading
import Mathlib.Order.WellFounded

/-!
# Loops that end

A loop of parsers ends on a state if some number of turns is enough for it there.  A repetition
ends wherever its parser does, because a success that takes no token is its last one.  A list and a
chain of operators have no such rule: they end exactly where their parsers do not go on succeeding
forever, and from some round on without taking a token.

What is assumed of the parsers in a loop is only that they return: turns stand for a bound, so that
more of them never change a run that has ended, on every state some number of them is enough, and a
success takes tokens off the front.
-/

namespace Curried

/-- The second state is reached by taking tokens off the front. -/
structure State.Onward (before after : State) : Prop where
  position_le : before.position ≤ after.position
  total_eq : after.position + after.remaining = before.position + before.remaining

namespace State.Onward

variable {before middle after : State}

theorem refl (state : State) : state.Onward state := ⟨Nat.le_refl _, rfl⟩

theorem trans (first : before.Onward middle) (second : middle.Onward after) :
    before.Onward after :=
  ⟨Nat.le_trans first.position_le second.position_le, second.total_eq.trans first.total_eq⟩

theorem remember (state : State) (failure : Failure) : state.Onward (state.remember failure) := by
  rcases state.remember_cases failure with same | replaced
  · rw [same]
    exact .refl state
  · rw [replaced]
    exact ⟨Nat.le_refl _, rfl⟩

end State.Onward

namespace Outcome

variable {α β : Type}

/-- The first run ends as the second one does, unless it is exhausted. -/
def Stays (first second : Outcome α) : Prop := first = .exhausted ∨ first = second

namespace Stays

variable {first second : Outcome α}

theorem refl (outcome : Outcome α) : outcome.Stays outcome := .inr rfl

theorem eq_of_ne (stays : first.Stays second) (ends : first ≠ .exhausted) : first = second :=
  stays.resolve_left ends

theorem trans {third : Outcome α} (stays : first.Stays second) (further : second.Stays third) :
    first.Stays third := by
  rcases stays with rfl | rfl
  · exact .inl rfl
  · exact further

theorem andThen {next next' : α → State → Outcome β} (stays : first.Stays second)
    (goesOn : ∀ value after, (next value after).Stays (next' value after)) :
    (first.andThen next).Stays (second.andThen next') := by
  rcases stays with rfl | rfl
  · exact .inl rfl
  · cases first with
    | ok value after => exact goesOn value after
    | error => exact .inr rfl
    | exhausted => exact .inl rfl

theorem map (stays : first.Stays second) (f : α → β) : (first.map f).Stays (second.map f) := by
  rcases stays with rfl | rfl
  · exact .inl rfl
  · exact .refl _

end Stays

end Outcome

namespace Parser

variable {α β γ δ μ ω : Type}

/-- More turns never change a run that has ended. -/
def Steady (parser : Parser α) : Prop :=
  ∀ turns more state, turns ≤ more → (parser.run turns state).Stays (parser.run more state)

/-- Some number of turns is enough on the state. -/
def EndsFrom (parser : Parser α) (state : State) : Prop :=
  ∃ turns, parser.run turns state ≠ .exhausted

/-- With turns enough, the parser yields a value and ends in the second state. -/
def Yields (parser : Parser α) (before : State) (value : α) (after : State) : Prop :=
  ∃ turns, parser.run turns before = .ok value after

/-- A parser that returns on every state. -/
structure Returns (parser : Parser α) : Prop where
  steady : Steady parser
  ends : ∀ state, parser.EndsFrom state
  onward : ∀ before value after, parser.Yields before value after → before.Onward after

/-! ### Steady parsers -/

namespace Steady

/-- Runs that have ended are the same, however many turns they were given. -/
theorem run_eq {parser : Parser α} (steady : Steady parser) {turns more : Nat} {state : State}
    (ends : parser.run turns state ≠ .exhausted) (ends' : parser.run more state ≠ .exhausted) :
    parser.run turns state = parser.run more state := by
  rcases Nat.le_total turns more with fewer | fewer
  · exact (steady turns more state fewer).eq_of_ne ends
  · exact ((steady more turns state fewer).eq_of_ne ends').symm

theorem run_of_yields {parser : Parser α} (steady : Steady parser) {turns : Nat}
    {before after : State} {value : α} (yields : parser.Yields before value after)
    (ends : parser.run turns before ≠ .exhausted) : parser.run turns before = .ok value after := by
  obtain ⟨more, succeeds⟩ := yields
  have more_ends : parser.run more before ≠ .exhausted := by
    rw [succeeds]
    exact nofun
  rw [steady.run_eq ends more_ends, succeeds]

theorem yields_unique {parser : Parser α} (steady : Steady parser) {before after after' : State}
    {value value' : α} (yields : parser.Yields before value after)
    (yields' : parser.Yields before value' after') : value = value' ∧ after = after' := by
  obtain ⟨turns, succeeds⟩ := yields
  have ends : parser.run turns before ≠ .exhausted := by
    rw [succeeds]
    exact nofun
  have same := steady.run_of_yields yields' ends
  rw [succeeds] at same
  exact ⟨(Outcome.ok.inj same).1, (Outcome.ok.inj same).2⟩

theorem pure (value : α) : Steady (Parser.pure value) := fun _ _ _ _ => .refl _

theorem exhausted : Steady (Parser.exhausted : Parser α) := fun _ _ _ _ => .refl _

variable {parser : Parser α}

theorem map (steady : Steady parser) (f : α → β) : Steady (parser.map f) := by
  intro turns more state fewer
  rcases steady turns more state fewer with stops | same
  · exact .inl (by simp only [Parser.map, stops, Outcome.map])
  · exact .inr (by simp only [Parser.map, same])

theorem attempt (steady : Steady parser) : Steady parser.attempt := by
  intro turns more state fewer
  rcases steady turns more state fewer with stops | same
  · exact .inl (by simp only [Parser.attempt, stops])
  · exact .inr (by simp only [Parser.attempt, same])

theorem optional (steady : Steady parser) : Steady parser.optional := by
  intro turns more state fewer
  rcases steady.attempt turns more state fewer with stops | same
  · exact .inl (by simp only [Parser.optional, stops])
  · exact .inr (by simp only [Parser.optional, same])

theorem bind {next : α → Parser β} (steady : Steady parser) (goesOn : ∀ value, Steady (next value)) :
    Steady (parser >>= next) := fun turns more state fewer =>
  (steady turns more state fewer).andThen fun value after => goesOn value turns more after fewer

theorem pair {first : Parser α} {second : Parser β} (left : Steady first) (right : Steady second) :
    Steady (first.pair second) :=
  attempt (left.bind fun _ => right.bind fun _ => pure _)

/-- A loop whose turns are steady, and that more turns do not change once it has ended. -/
theorem withTurns {loop : Nat → Parser α} (steady : ∀ turns, Steady (loop turns))
    (stays : ∀ turns more bound state, turns ≤ more →
      ((loop turns).run bound state).Stays ((loop more).run bound state)) :
    Steady (Parser.withTurns loop) := fun turns more state fewer =>
  (stays turns more turns state fewer).trans (steady more turns more state fewer)

end Steady

/-! ### Where combinators end -/

section
variable {parser : Parser α} {state : State}

theorem endsFrom_map (f : α → β) : (parser.map f).EndsFrom state ↔ parser.EndsFrom state := by
  refine exists_congr fun turns => not_congr ?_
  simp only [Parser.map]
  cases parser.run turns state <;> simp [Outcome.map]

theorem endsFrom_attempt : parser.attempt.EndsFrom state ↔ parser.EndsFrom state := by
  refine exists_congr fun turns => not_congr ?_
  simp only [attempt]
  cases parser.run turns state <;> simp

theorem endsFrom_optional : parser.optional.EndsFrom state ↔ parser.EndsFrom state := by
  refine exists_congr fun turns => not_congr ?_
  simp only [optional, attempt]
  cases parser.run turns state with
  | ok => simp
  | error failure =>
      dsimp only
      split <;> simp
  | exhausted => simp

theorem endsFrom_bind {next : α → Parser β} (steady : Steady parser)
    (goesOn : ∀ value, Steady (next value)) :
    (parser >>= next).EndsFrom state ↔ parser.EndsFrom state ∧
      ∀ value after, parser.Yields state value after → (next value).EndsFrom after := by
  have run_bind (turns : Nat) : (parser >>= next).run turns state =
      (parser.run turns state).andThen fun value after => (next value).run turns after := rfl
  constructor
  · rintro ⟨turns, ends⟩
    rw [run_bind] at ends
    have first_ends : parser.run turns state ≠ .exhausted := by
      intro stops
      rw [stops] at ends
      exact ends rfl
    refine ⟨⟨turns, first_ends⟩, fun value after yields => ⟨turns, ?_⟩⟩
    rw [steady.run_of_yields yields first_ends] at ends
    exact ends
  · rintro ⟨⟨turns, ends⟩, continues⟩
    cases run : parser.run turns state with
    | ok value after =>
        obtain ⟨more, goes⟩ := continues value after ⟨turns, run⟩
        refine ⟨max turns more, ?_⟩
        have first := (steady turns _ state (Nat.le_max_left turns more)).eq_of_ne ends
        have second := (goesOn value more _ after (Nat.le_max_right turns more)).eq_of_ne goes
        rw [run_bind, ← first, run]
        show (next value).run _ after ≠ _
        rw [← second]
        exact goes
    | error failure after =>
        refine ⟨turns, ?_⟩
        rw [run_bind, run]
        exact nofun
    | exhausted => exact (ends run).elim

theorem endsFrom_pure (value : α) : (Parser.pure value).EndsFrom state := ⟨0, nofun⟩

theorem endsFrom_bind_pure (steady : Steady parser) (f : α → β) :
    (parser >>= fun value => Parser.pure (f value)).EndsFrom state ↔ parser.EndsFrom state := by
  rw [endsFrom_bind steady fun _ => .pure _]
  exact and_iff_left fun _ _ _ => endsFrom_pure _

theorem endsFrom_pair {first : Parser α} {second : Parser β} (left : Steady first)
    (right : Steady second) :
    (first.pair second).EndsFrom state ↔ first.EndsFrom state ∧
      ∀ value after, first.Yields state value after → second.EndsFrom after := by
  have sequence : first.pair second =
    attempt (first >>= fun left => second >>= fun right => Parser.pure (left, right)) := rfl
  rw [sequence, endsFrom_attempt, endsFrom_bind left fun _ => right.bind fun _ => .pure _]
  simp only [endsFrom_bind_pure right]

theorem endsFrom_withTurns {loop : Nat → Parser α} (steady : ∀ turns, Steady (loop turns))
    (stays : ∀ turns more bound state, turns ≤ more →
      ((loop turns).run bound state).Stays ((loop more).run bound state)) :
    (withTurns loop).EndsFrom state ↔ ∃ turns, (loop turns).EndsFrom state := by
  constructor
  · rintro ⟨turns, ends⟩
    exact ⟨turns, turns, ends⟩
  · rintro ⟨turns, bound, ends⟩
    refine ⟨max turns bound, fun stops => ends ?_⟩
    have more := (stays turns _ bound state (Nat.le_max_left turns bound)).trans
      (steady _ bound _ state (Nat.le_max_right turns bound))
    rw [more.eq_of_ne ends]
    exact stops

theorem yields_map {value : β} {after : State} (f : α → β) :
    (parser.map f).Yields state value after ↔
      ∃ inner, parser.Yields state inner after ∧ f inner = value := by
  constructor
  · rintro ⟨turns, succeeds⟩
    obtain ⟨inner, run, same⟩ := Outcome.map_eq_ok.1 succeeds
    exact ⟨inner, ⟨turns, run⟩, same⟩
  · rintro ⟨inner, ⟨turns, run⟩, same⟩
    exact ⟨turns, Outcome.map_eq_ok.2 ⟨inner, run, same⟩⟩

theorem yields_attempt {value : α} {after : State} :
    parser.attempt.Yields state value after ↔ parser.Yields state value after :=
  exists_congr fun _ => attempt_eq_ok

theorem yields_optional {value : α} {after : State} :
    parser.optional.Yields state (some value) after ↔ parser.Yields state value after :=
  exists_congr fun _ => optional_eq_some

end

/-! ### Repetitions -/

section
variable {parser : Parser α}

/-- More turns never change a repetition that has ended. -/
theorem repeated_stays (turns more bound : Nat) (state : State) (fewer : turns ≤ more) :
    ((repeated parser turns).run bound state).Stays ((repeated parser more).run bound state) := by
  induction turns generalizing more state with
  | zero => exact .inl rfl
  | succ turns ih =>
      obtain ⟨more, rfl⟩ : ∃ others, more = others + 1 := ⟨more - 1, by omega⟩
      refine (Outcome.Stays.refl _).andThen fun found after => ?_
      cases found with
      | none => exact .refl _
      | some value =>
          dsimp only
          split
          · exact .refl _
          · exact (ih more after (Nat.le_of_succ_le_succ fewer)).map _

/-- What a repetition does behind a success of its parser on the state `before`. -/
def repeatBehind (before : State) (again : Parser (List α)) (value : α) : Parser (List α) :=
  ⟨fun bound after =>
    if after.position = before.position then .ok [value] after
    else (again.map (value :: ·)).run bound after⟩

/-- What a repetition does behind its optional parser. -/
def repeatStep (before : State) (again : Parser (List α)) : Option α → Parser (List α)
  | none => Parser.pure []
  | some value => repeatBehind before again value

theorem run_repeated_succ (turns bound : Nat) (state : State) :
    (repeated parser (turns + 1)).run bound state =
      (parser.optional >>= repeatStep state (repeated parser turns)).run bound state :=
  congrArg (parser.optional.run bound state).andThen
    (funext fun found => funext fun after => by cases found <;> rfl)

section
variable {again : Parser (List α)}

theorem steady_repeatBehind (before : State) (steady : Steady again) (value : α) :
    Steady (repeatBehind before again value) := by
  intro bound more after fewer
  dsimp only [repeatBehind]
  split
  · exact .refl _
  · exact steady.map _ bound more after fewer

theorem steady_repeatStep (before : State) (steady : Steady again) (found : Option α) :
    Steady (repeatStep before again found) := by
  cases found with
  | none => exact .pure _
  | some value => exact steady_repeatBehind before steady value

theorem endsFrom_repeatBehind {before after : State} (value : α)
    (ends : after.position ≠ before.position → again.EndsFrom after) :
    (repeatBehind before again value).EndsFrom after := by
  by_cases stands : after.position = before.position
  · exact ⟨0, by simp [repeatBehind, stands]⟩
  · obtain ⟨bound, goes⟩ := (endsFrom_map (value :: ·)).2 (ends stands)
    exact ⟨bound, by simpa only [repeatBehind, if_neg stands] using goes⟩

end

theorem steady_repeated (steady : Steady parser) (turns : Nat) :
    Steady (repeated parser turns) := by
  induction turns with
  | zero => exact .exhausted
  | succ turns ih =>
      intro bound more state fewer
      rw [run_repeated_succ, run_repeated_succ]
      exact steady.optional.bind (steady_repeatStep state ih) bound more state fewer

/-- A repetition ends: every success but the last one takes a token. -/
theorem endsFrom_repeated (returns : Returns parser) (state : State) :
    ∃ turns, (repeated parser turns).EndsFrom state := by
  induction left : state.remaining using Nat.strong_induction_on generalizing state with
  | _ remaining ih =>
      have rest : ∃ turns, ∀ value after, parser.Yields state value after →
          after.position ≠ state.position → (repeated parser turns).EndsFrom after := by
        by_cases goes : ∃ value after, parser.Yields state value after ∧
          after.position ≠ state.position
        · obtain ⟨value, after, yields, moves⟩ := goes
          have onward := returns.onward _ _ _ yields
          have position_le := onward.position_le
          have total_eq := onward.total_eq
          obtain ⟨turns, ends⟩ := ih after.remaining (by omega) after rfl
          refine ⟨turns, fun _ other yields' _ => ?_⟩
          obtain ⟨-, rfl⟩ := returns.steady.yields_unique yields yields'
          exact ends
        · exact ⟨0, fun value after yields moves => (goes ⟨value, after, yields, moves⟩).elim⟩
      obtain ⟨turns, rest⟩ := rest
      have steady := steady_repeatStep state (steady_repeated returns.steady turns)
      obtain ⟨bound, ends⟩ := (endsFrom_bind returns.steady.optional steady).2
        ⟨endsFrom_optional.2 (returns.ends state), fun found after yields => by
          cases found with
          | none => exact endsFrom_pure _
          | some value =>
              exact endsFrom_repeatBehind value (rest value after (yields_optional.1 yields))⟩
      exact ⟨turns + 1, bound, by rwa [run_repeated_succ]⟩

theorem endsFrom_many (returns : Returns parser) (state : State) : parser.many.EndsFrom state :=
  (endsFrom_withTurns (steady_repeated returns.steady) repeated_stays).2
    (endsFrom_repeated returns state)

theorem endsFrom_manyOne (returns : Returns parser) (state : State) :
    parser.manyOne.EndsFrom state := by
  have many : Steady parser.many := .withTurns (steady_repeated returns.steady) repeated_stays
  have sequence : (parser.attempt >>= repeatBehind state parser.many).EndsFrom state :=
    (endsFrom_bind returns.steady.attempt (steady_repeatBehind state many)).2
      ⟨endsFrom_attempt.2 (returns.ends state), fun value after _ =>
        endsFrom_repeatBehind value fun _ => endsFrom_many returns after⟩
  exact sequence

theorem endsFrom_repetition (returns : Returns parser) (mayBeEmpty : Bool) (state : State) :
    (parser.repetition mayBeEmpty).EndsFrom state := by
  cases mayBeEmpty with
  | true => exact endsFrom_many returns state
  | false => exact endsFrom_manyOne returns state

end

/-! ### Rounds -/

/-- What a loop does behind its optional first parser. -/
def carryOn (second : Parser α) (collect : μ → α → List ω → List ω) (again : Parser (List ω)) :
    Option μ → Parser (List ω)
  | none => pure []
  | some mark => second >>= fun value => again >>= fun rest => pure (collect mark value rest)

/-- Run two parsers in turn until the first one fails: behind a success of it the second one has
to follow. -/
def rounds (first : Parser μ) (second : Parser α) (collect : μ → α → List ω → List ω) :
    Nat → Parser (List ω)
  | 0 => exhausted
  | turns + 1 => first.optional >>= carryOn second collect (rounds first second collect turns)

/-- Both parsers of a loop succeed in turn. -/
def Round (first : Parser μ) (second : Parser α) (before after : State) : Prop :=
  ∃ mark middle value, first.Yields before mark middle ∧ second.Yields middle value after

/-- The two parsers succeed in turn forever, and from some round on without taking a token. -/
def Idles (first : Parser μ) (second : Parser α) (state : State) : Prop :=
  ∃ states : Nat → State, states 0 = state ∧
    (∀ n, Round first second (states n) (states (n + 1))) ∧
    ∃ settled, ∀ n, settled ≤ n → (states n).position = (states settled).position

theorem followers_eq_rounds (element : Parser α) (delimiter : Parser δ) (turns : Nat) :
    followers element delimiter turns =
      rounds delimiter element (fun mark value rest => .delimiter mark :: .item value :: rest)
        turns := by
  induction turns with
  | zero => rfl
  | succ turns ih =>
      rw [followers_succ, rounds, ← ih]
      exact congrArg (delimiter.optional >>= ·) (funext fun mark => by cases mark <;> rfl)

theorem links_eq_rounds (operand : Parser α) (operator : Parser (Joint α × α)) (turns : Nat) :
    links operand operator turns =
      rounds operator operand (fun found value rest => ⟨found.1, found.2, value⟩ :: rest)
        turns := by
  induction turns with
  | zero => rfl
  | succ turns ih =>
      rw [links_succ, rounds, ← ih]
      exact congrArg (operator.optional >>= ·) (funext fun found => by cases found <;> rfl)

section
variable {first : Parser μ} {second : Parser α} {collect : μ → α → List ω → List ω}
  {before after after' : State}

theorem Round.onward (firsts : Returns first) (seconds : Returns second)
    (round : Round first second before after) : before.Onward after := by
  obtain ⟨mark, middle, value, marks, follows⟩ := round
  exact (firsts.onward _ _ _ marks).trans (seconds.onward _ _ _ follows)

theorem Round.unique (firsts : Steady first) (seconds : Steady second)
    (round : Round first second before after) (round' : Round first second before after') :
    after = after' := by
  obtain ⟨mark, middle, value, marks, follows⟩ := round
  obtain ⟨mark', middle', value', marks', follows'⟩ := round'
  obtain ⟨-, rfl⟩ := firsts.yields_unique marks marks'
  exact (seconds.yields_unique follows follows').2

/-- Rounds that never end take no token from some round on. -/
theorem idles_of_rounds (firsts : Returns first) (seconds : Returns second)
    (states : Nat → State) (goes : ∀ n, Round first second (states n) (states (n + 1))) :
    Idles first second (states 0) := by
  have onward (n steps : Nat) : (states n).Onward (states (n + steps)) := by
    induction steps with
    | zero => exact .refl _
    | succ steps ih => exact ih.trans ((goes (n + steps)).onward firsts seconds)
  let settled := Function.argmin fun n => (states n).remaining
  have least (n : Nat) : (states settled).remaining ≤ (states n).remaining :=
    Function.argmin_le (fun n => (states n).remaining) n
  refine ⟨states, rfl, goes, settled, fun n late => ?_⟩
  obtain ⟨steps, rfl⟩ := Nat.exists_eq_add_of_le late
  have ahead := onward settled steps
  have fewest := least (settled + steps)
  have total_eq := ahead.total_eq
  have position_le := ahead.position_le
  omega

/-! ### Where a loop ends -/

theorem steady_carryOn {again : Parser (List ω)} (seconds : Steady second) (steady : Steady again)
    (found : Option μ) : Steady (carryOn second collect again found) := by
  cases found with
  | none => exact .pure _
  | some mark => exact seconds.bind fun _ => steady.bind fun _ => .pure _

theorem steady_rounds (firsts : Steady first) (seconds : Steady second) (turns : Nat) :
    Steady (rounds first second collect turns) := by
  induction turns with
  | zero => exact .exhausted
  | succ turns ih => exact firsts.optional.bind (steady_carryOn seconds ih)

/-- More rounds never change a loop that has ended. -/
theorem rounds_stays (turns more bound : Nat) (state : State) (fewer : turns ≤ more) :
    ((rounds first second collect turns).run bound state).Stays
      ((rounds first second collect more).run bound state) := by
  induction turns generalizing more state with
  | zero => exact .inl rfl
  | succ turns ih =>
      obtain ⟨more, rfl⟩ : ∃ others, more = others + 1 := ⟨more - 1, by omega⟩
      refine (Outcome.Stays.refl _).andThen fun found middle => ?_
      cases found with
      | none => exact .refl _
      | some mark =>
          refine (Outcome.Stays.refl _).andThen fun value after => ?_
          exact (ih more after (Nat.le_of_succ_le_succ fewer)).andThen fun _ _ => .refl _

theorem steady_loop (firsts : Steady first) (seconds : Steady second) :
    Steady (withTurns (rounds first second collect)) :=
  .withTurns (steady_rounds firsts seconds) rounds_stays

/-- A loop with one more round ends exactly if the loop ends behind the next round, where there is
one. -/
theorem endsFrom_rounds_succ (firsts : Returns first) (seconds : Returns second) (turns : Nat) :
    (rounds first second collect (turns + 1)).EndsFrom before ↔
      ∀ after, Round first second before after →
        (rounds first second collect turns).EndsFrom after := by
  have again : Steady (rounds first second collect turns) :=
    steady_rounds firsts.steady seconds.steady turns
  rw [rounds, endsFrom_bind firsts.steady.optional (steady_carryOn seconds.steady again)]
  constructor
  · rintro ⟨-, continues⟩ after ⟨mark, middle, value, marks, follows⟩
    have behind := continues (some mark) middle (yields_optional.2 marks)
    rw [carryOn, endsFrom_bind seconds.steady fun _ => again.bind fun _ => .pure _] at behind
    exact (endsFrom_bind_pure again _).1 (behind.2 value after follows)
  · intro continues
    refine ⟨endsFrom_optional.2 (firsts.ends before), fun found middle yields => ?_⟩
    cases found with
    | none => exact endsFrom_pure _
    | some mark =>
        rw [carryOn, endsFrom_bind seconds.steady fun _ => again.bind fun _ => .pure _]
        refine ⟨seconds.ends middle, fun value after follows => ?_⟩
        exact (endsFrom_bind_pure again _).2
          (continues after ⟨mark, middle, value, yields_optional.1 yields, follows⟩)

/-- A loop of which no endless sequence of rounds can be made ends. -/
theorem endsFrom_of_acc (firsts : Returns first) (seconds : Returns second)
    (accessible : Acc (fun after before => Round first second before after) before) :
    ∃ turns, (rounds first second collect turns).EndsFrom before := by
  induction accessible with
  | intro before _ ih =>
      by_cases goes : ∃ after, Round first second before after
      · obtain ⟨after, round⟩ := goes
        obtain ⟨turns, ends⟩ := ih after round
        refine ⟨turns + 1, (endsFrom_rounds_succ firsts seconds turns).2 fun other round' => ?_⟩
        exact round.unique firsts.steady seconds.steady round' ▸ ends
      · refine ⟨1, (endsFrom_rounds_succ firsts seconds 0).2 fun after round => ?_⟩
        exact (goes ⟨after, round⟩).elim

/-- A loop ends unless its parsers go on forever. -/
theorem endsFrom_loop (firsts : Returns first) (seconds : Returns second) :
    (withTurns (rounds first second collect)).EndsFrom before ↔ ¬ Idles first second before := by
  rw [endsFrom_withTurns (steady_rounds firsts.steady seconds.steady) rounds_stays]
  constructor
  · rintro ⟨turns, ends⟩ ⟨states, rfl, goes, -⟩
    -- every round of the endless sequence uses up a turn
    have never (turns n : Nat) : ¬ (rounds first second collect turns).EndsFrom (states n) := by
      induction turns generalizing n with
      | zero => exact fun ⟨_, ends⟩ => ends rfl
      | succ turns ih =>
          rw [endsFrom_rounds_succ firsts seconds]
          exact fun continues => ih (n + 1) (continues _ (goes n))
    exact never turns 0 ends
  · intro settles
    refine endsFrom_of_acc firsts seconds ?_
    by_contra endless
    obtain ⟨states, rfl, goes⟩ := not_acc_iff_exists_descending_chain.1 endless
    exact settles (idles_of_rounds firsts seconds states goes)

end

/-! ### Lists and chains of operators -/

section
variable {element : Parser α} {delimiter : Parser δ} {state : State}

theorem steady_behindFirst (elements : Steady element) (delimiters : Steady delimiter)
    (found : Option α) : Steady (behindFirst element delimiter found) := by
  cases found with
  | none => exact .pure _
  | some value =>
      have loop : Steady (withTurns (followers element delimiter)) := by
        rw [funext (followers_eq_rounds element delimiter)]
        exact steady_loop delimiters elements
      exact loop.bind fun _ => .pure _

theorem steady_firstElement (elements : Steady element) (mayBeEmpty : Bool) :
    Steady (if mayBeEmpty then element.optional else element.map some) := by
  cases mayBeEmpty with
  | true => exact elements.optional
  | false => exact elements.map some

theorem endsFrom_firstElement (mayBeEmpty : Bool) :
    (if mayBeEmpty then element.optional else element.map some).EndsFrom state ↔
      element.EndsFrom state := by
  cases mayBeEmpty with
  | true => exact endsFrom_optional
  | false => exact endsFrom_map some

theorem yields_firstElement {value : α} {after : State} (mayBeEmpty : Bool) :
    (if mayBeEmpty then element.optional else element.map some).Yields state (some value) after ↔
      element.Yields state value after := by
  cases mayBeEmpty with
  | true => exact yields_optional
  | false => exact (yields_map some).trans (by simp)

theorem steady_interleaved (elements : Steady element) (delimiters : Steady delimiter)
    (mayBeEmpty : Bool) : Steady (interleaved element delimiter mayBeEmpty) := by
  rw [interleaved_eq]
  exact (steady_firstElement elements mayBeEmpty).bind (steady_behindFirst elements delimiters)

/-- The elements of a list end unless they go on forever behind the first one. -/
theorem endsFrom_interleaved (elements : Returns element) (delimiters : Returns delimiter)
    (mayBeEmpty : Bool) :
    (interleaved element delimiter mayBeEmpty).EndsFrom state ↔
      ∀ value first, element.Yields state value first → ¬ Idles delimiter element first := by
  have behind (value : α) (first : State) :
      (behindFirst element delimiter (some value)).EndsFrom first ↔
        ¬ Idles delimiter element first := by
    rw [behindFirst, funext (followers_eq_rounds element delimiter),
      endsFrom_bind_pure (steady_loop delimiters.steady elements.steady),
      endsFrom_loop delimiters elements]
  rw [interleaved_eq, endsFrom_bind (steady_firstElement elements.steady mayBeEmpty)
    (steady_behindFirst elements.steady delimiters.steady)]
  constructor
  · rintro ⟨-, continues⟩ value first yields
    exact (behind value first).1 (continues _ first ((yields_firstElement mayBeEmpty).2 yields))
  · intro settles
    refine ⟨(endsFrom_firstElement mayBeEmpty).2 (elements.ends state), fun found first yields => ?_⟩
    cases found with
    | none => exact endsFrom_pure _
    | some value =>
        have reads := (yields_firstElement mayBeEmpty).1 yields
        exact (behind value first).2 (settles value first reads)

theorem endsFrom_group {inner : Parser α} {opening : Parser β} {closing : Parser γ}
    (inside : Steady inner) (openings : Returns opening) (closings : Returns closing) :
    (group inner opening closing).EndsFrom state ↔
      ∀ mark opened, opening.Yields state mark opened → inner.EndsFrom opened := by
  have front : Steady (opening.keepRight inner) := (openings.steady.pair inside).map _
  rw [group, keepLeft, endsFrom_map, endsFrom_pair front closings.steady, keepRight,
    endsFrom_map, endsFrom_pair openings.steady inside]
  constructor
  · rintro ⟨⟨-, continues⟩, -⟩
    exact continues
  · intro continues
    exact ⟨⟨openings.ends state, continues⟩, fun _ after _ => closings.ends after⟩

end

/-! ### Choice -/

section
variable {parsers : List (Parser α)}

theorem steady_alternatives (steady : ∀ parser ∈ parsers, Steady parser)
    (failures : List Failure) : Steady (alternatives parsers failures) := by
  induction parsers generalizing failures with
  | nil => exact fun _ _ _ _ => .refl _
  | cons parser others ih =>
      intro turns more state fewer
      have first := steady parser List.mem_cons_self
      rcases first.attempt turns more state fewer with stops | same
      · exact .inl (by simp only [alternatives, stops])
      · simp only [alternatives, same]
        cases parser.attempt.run more state with
        | ok => exact .refl _
        | error failure after =>
            have rest := ih (fun other member => steady other (List.mem_cons_of_mem _ member))
              (failures ++ [failure])
            dsimp only
            split
            · exact .refl _
            · exact rest turns more after fewer
        | exhausted => exact .refl _

theorem endsFrom_alternatives (returns : ∀ parser ∈ parsers, Returns parser)
    (failures : List Failure) (state : State) : (alternatives parsers failures).EndsFrom state := by
  induction parsers generalizing failures state with
  | nil => exact ⟨0, by simp [alternatives]⟩
  | cons parser others ih =>
      have first := returns parser List.mem_cons_self
      have behind (other : Parser α) (member : other ∈ others) : Returns other :=
        returns other (List.mem_cons_of_mem _ member)
      obtain ⟨turns, ends⟩ := endsFrom_attempt.2 (first.ends state)
      cases run : parser.attempt.run turns state with
      | ok =>
          refine ⟨turns, ?_⟩
          simp only [alternatives, run]
          split <;> simp
      | error failure after =>
          obtain ⟨more, goes⟩ := ih behind (failures ++ [failure]) after
          have attempts := (first.steady.attempt turns _ state
            (Nat.le_max_left turns more)).eq_of_ne ends
          have rest := (steady_alternatives (fun other member => (behind other member).steady)
            (failures ++ [failure]) more _ after (Nat.le_max_right turns more)).eq_of_ne goes
          refine ⟨max turns more, ?_⟩
          simp only [alternatives, ← attempts, run, ← rest]
          split
          · simp
          · exact goes
      | exhausted => exact (ends run).elim

theorem onward_of_alternatives (returns : ∀ parser ∈ parsers, Returns parser)
    (failures : List Failure) {before after : State} {value : α}
    (yields : (alternatives parsers failures).Yields before value after) :
    before.Onward after := by
  obtain ⟨turns, succeeds⟩ := yields
  induction parsers generalizing failures with
  | nil => cases succeeds
  | cons parser others ih =>
      simp only [alternatives] at succeeds
      cases run : parser.attempt.run turns before with
      | ok found middle =>
          have onward := (returns parser List.mem_cons_self).onward _ _ _
            (yields_attempt.1 ⟨turns, run⟩)
          simp only [run] at succeeds
          split at succeeds
          · obtain ⟨-, rfl⟩ := Outcome.ok.inj succeeds
            exact onward.trans (.remember middle _)
          · obtain ⟨-, rfl⟩ := Outcome.ok.inj succeeds
            exact onward
      | error failure middle =>
          obtain ⟨rfl, -⟩ := attempt_eq_error run
          simp only [run] at succeeds
          split at succeeds
          · cases succeeds
          · exact ih (fun other member => returns other (List.mem_cons_of_mem _ member)) _ succeeds
      | exhausted => simp [run] at succeeds

end

namespace Returns

theorem nothing : Returns Parser.nothing where
  steady := .pure ()
  ends _ := endsFrom_pure ()
  onward := by
    rintro before value after ⟨turns, succeeds⟩
    obtain ⟨-, rfl⟩ := Outcome.ok.inj succeeds
    exact .refl before

theorem map {parser : Parser α} (returns : Returns parser) (f : α → β) :
    Returns (parser.map f) where
  steady := returns.steady.map f
  ends state := (endsFrom_map f).2 (returns.ends state)
  onward before value after yields := by
    obtain ⟨inner, reads, -⟩ := (yields_map f).1 yields
    exact returns.onward before inner after reads

theorem alternatives {parsers : List (Parser α)} (returns : ∀ parser ∈ parsers, Returns parser)
    (failures : List Failure) : Returns (Parser.alternatives parsers failures) where
  steady := steady_alternatives (fun parser member => (returns parser member).steady) failures
  ends := endsFrom_alternatives returns failures
  onward _ _ _ := onward_of_alternatives returns failures

theorem choice {parsers : List (Parser α)} (returns : ∀ parser ∈ parsers, Returns parser) :
    Returns (Parser.choice parsers) := by
  unfold Parser.choice
  split
  · exact returns _ List.mem_cons_self
  · exact alternatives returns []

theorem operatorOf {operators : List (Operator α)}
    (returns : ∀ operator ∈ operators, Returns operator.parser) :
    Returns (Parser.operatorOf operators) := by
  refine choice fun parser member => ?_
  obtain ⟨operator, among, rfl⟩ := List.mem_map.1 member
  exact (returns operator among).map _

end Returns

/-- A chain of operators ends unless they and their operands go on forever behind the first
operand. -/
theorem endsFrom_binary {operand : Parser α} {operators : List (Operator α)} {state : State}
    (operands : Returns operand) (signs : Returns (operatorOf operators)) :
    (binary operand operators).EndsFrom state ↔
      ∀ value first, operand.Yields state value first →
        ¬ Idles (operatorOf operators) operand first := by
  have loop : Steady (withTurns (links operand (operatorOf operators))) := by
    rw [funext (links_eq_rounds operand (operatorOf operators))]
    exact steady_loop signs.steady operands.steady
  have sequence : binary operand operators = attempt (operand >>= fun first =>
    withTurns (links operand (operatorOf operators)) >>= fun rest =>
      Parser.pure (Link.fold first rest)) := rfl
  rw [sequence, endsFrom_attempt,
    endsFrom_bind operands.steady fun _ => loop.bind fun _ => .pure _]
  simp only [endsFrom_bind_pure loop]
  rw [funext (links_eq_rounds operand (operatorOf operators))]
  simp only [endsFrom_loop signs operands]
  exact and_iff_right (operands.ends state)

/-- Of parsers that return on every state, a repetition ends on every state.  A list ends on a state
exactly if its delimiters and elements do not succeed in turn forever behind its first element, from
some round on without taking a token.  A chain ends on a state exactly if its operators and operands
do not. -/
theorem endsFrom_iff_not_idles (mayBeEmpty : Bool) (state : State) :
    (∀ parser : Parser α, Returns parser → (parser.repetition mayBeEmpty).EndsFrom state) ∧
    (∀ (element : Parser α) (delimiter : Parser δ) (opening : Parser β) (closing : Parser γ),
      Returns element → Returns delimiter → Returns opening → Returns closing →
        ((listWithDelimiters element delimiter opening closing mayBeEmpty).EndsFrom state ↔
          ∀ mark opened value first, opening.Yields state mark opened →
            element.Yields opened value first → ¬ Idles delimiter element first) ∧
        ((list element delimiter opening closing mayBeEmpty).EndsFrom state ↔
          (listWithDelimiters element delimiter opening closing mayBeEmpty).EndsFrom state)) ∧
    ∀ (operand : Parser α) (operators : List (Operator α)), Returns operand →
      (∀ operator ∈ operators, Returns operator.parser) →
        ((binary operand operators).EndsFrom state ↔
          ∀ value first, operand.Yields state value first →
            ¬ Idles (operatorOf operators) operand first) := by
  refine ⟨fun parser returns => endsFrom_repetition returns mayBeEmpty state, ?_, ?_⟩
  · intro element delimiter opening closing elements delimiters openings closings
    refine ⟨?_, endsFrom_map _⟩
    have inside := steady_interleaved elements.steady delimiters.steady mayBeEmpty
    rw [listWithDelimiters, endsFrom_group inside openings closings]
    simp only [endsFrom_interleaved elements delimiters]
    exact ⟨fun ends mark opened value first opens => ends mark opened opens value first,
      fun ends mark opened opens value first => ends mark opened value first opens⟩
  · intro operand operators operands signs
    exact endsFrom_binary operands (.operatorOf signs)

/-- Where nothing at all is an element, a delimiter, an operand and an operator, a repetition ends
and a list and a chain do not. -/
theorem endsFrom_iff_not_idles_nothing :
    (nothing.repetition true).EndsFrom (.start []) ∧
    ¬ (listWithDelimiters nothing nothing nothing nothing true).EndsFrom (.start []) ∧
    ¬ (list nothing nothing nothing nothing true).EndsFrom (.start []) ∧
    ¬ (binary nothing [⟨⟨1, fun _ _ _ => ()⟩, nothing⟩]).EndsFrom (.start []) := by
  obtain ⟨repetitions, lists, chains⟩ :=
    @endsFrom_iff_not_idles Unit Unit Unit Unit true (.start [])
  have returns : Returns nothing := .nothing
  have signs : ∀ operator ∈ [(⟨⟨1, fun _ _ _ => ()⟩, nothing⟩ : Operator Unit)],
      Returns operator.parser := List.forall_mem_singleton.2 returns
  obtain ⟨settles, same⟩ := lists nothing nothing nothing nothing returns returns returns returns
  have idle : Idles nothing nothing (.start []) :=
    ⟨fun _ => .start [], rfl, fun _ => ⟨(), _, (), ⟨0, rfl⟩, 0, rfl⟩, 0, fun _ _ => rfl⟩
  have endless : ¬ (listWithDelimiters nothing nothing nothing nothing true).EndsFrom (.start []) :=
    fun stops => settles.1 stops () _ () _ ⟨0, rfl⟩ ⟨0, rfl⟩ idle
  refine ⟨repetitions nothing returns, endless, fun stops => endless (same.1 stops), fun stops => ?_⟩
  refine (chains nothing _ returns signs).1 stops () _ ⟨0, rfl⟩ ?_
  exact ⟨fun _ => .start [], rfl, fun _ => ⟨(_, ()), _, (), ⟨0, rfl⟩, 0, rfl⟩, 0, fun _ _ => rfl⟩

end Parser

end Curried
