import Curried.Proofs.Parser.Frame

/-!
# Reports never fall behind

A parse remembers the failure that got furthest of those it carried on from.  Whatever a parser
does next, an ordinary failure that it reports is at least as far as the place where it started and
as the failure remembered there; and if it succeeds, the state behind it remembers a failure that
is at least as far as the one before and as every failure that was passed over on the way.

Which failures a run passes over is said by `PassesOver`, combinator by combinator.  A failure
inside of an attempt that is itself given up does not count, since the attempt goes back to the
state before it.
-/

namespace Curried

/-! ### What states remember -/

namespace State

/-- The state remembers a failure with at most so many tokens left. -/
def Knows (state : State) (remaining : Nat) : Prop :=
  ∃ kept ∈ state.furthest, kept.remaining ≤ remaining

/-- The second state is not behind the first one, and neither is the failure that it remembers. -/
structure Remembers (before after : State) : Prop where
  remaining : after.remaining ≤ before.remaining
  known : ∀ known ∈ before.furthest, after.Knows known.remaining

namespace Remembers

variable {before middle after : State}

theorem refl (state : State) : state.Remembers state :=
  ⟨Nat.le_refl _, fun known member => ⟨known, member, Nat.le_refl _⟩⟩

/-- Only the input and the remembered failure matter. -/
theorem of_eq (input : after.input = before.input) (furthest : after.furthest = before.furthest) :
    before.Remembers after := by
  refine ⟨Nat.le_of_eq (congrArg Input.remaining input), fun known member => ?_⟩
  exact ⟨known, furthest ▸ member, Nat.le_refl _⟩

/-- What was known before is still known. -/
theorem knows (remembers : before.Remembers after) {remaining : Nat}
    (knows : before.Knows remaining) : after.Knows remaining := by
  obtain ⟨known, member, further⟩ := knows
  obtain ⟨kept, still, furthest⟩ := remembers.known known member
  exact ⟨kept, still, Nat.le_trans furthest further⟩

theorem trans (first : before.Remembers middle) (second : middle.Remembers after) :
    before.Remembers after :=
  ⟨Nat.le_trans second.remaining first.remaining,
    fun known member => second.knows (first.known known member)⟩

end Remembers

theorem remembers_advance (state : State) : state.Remembers state.advance := by
  refine ⟨?_, (Remembers.refl state).known⟩
  show state.input.rest.tail.length ≤ state.input.rest.length
  simp

theorem knows_remember (state : State) (failure : Failure) :
    (state.remember failure).Knows failure.remaining := by
  unfold remember
  split
  · rename_i furthest remembered
    split
    · exact ⟨failure, rfl, Nat.le_refl _⟩
    · rename_i behind
      exact ⟨furthest, remembered, Nat.le_of_not_lt behind⟩
  · exact ⟨failure, rfl, Nat.le_refl _⟩

theorem remembers_remember (state : State) (failure : Failure) :
    state.Remembers (state.remember failure) := by
  unfold remember
  split
  · rename_i furthest remembered
    split
    · rename_i further
      refine ⟨Nat.le_refl _, fun known member => ⟨failure, rfl, ?_⟩⟩
      obtain rfl : furthest = known := Option.some.inj (remembered.symm.trans member)
      exact Nat.le_of_lt further
    · exact .refl state
  · rename_i nothing
    refine ⟨Nat.le_refl _, fun known member => ?_⟩
    rw [nothing] at member
    exact nomatch member

end State

/-! ### Failures that are not behind -/

namespace Failure

/-- The failure is not behind a state, nor behind the failure that the state remembers. -/
structure Reaches (failure : Failure) (state : State) : Prop where
  remaining : failure.remaining ≤ state.remaining
  known : ∀ known ∈ state.furthest, failure.remaining ≤ known.remaining

variable {failure : Failure} {failures : List Failure} {state : State}

/-- A failure that is far enough for a later state is far enough for an earlier one. -/
theorem Reaches.of_remembers {before after : State} (reaches : failure.Reaches after)
    (remembers : before.Remembers after) : failure.Reaches before := by
  refine ⟨Nat.le_trans reaches.remaining remembers.remaining, fun known member => ?_⟩
  obtain ⟨kept, still, further⟩ := remembers.known known member
  exact Nat.le_trans (reaches.known kept still) further

/-- The failure that a state reports is far enough for that state. -/
theorem reaches_failure (state : State) (expected : String) :
    (state.failure expected).Reaches state := by
  unfold State.failure
  split
  · rename_i furthest remembered
    have only {known : Failure} (member : known ∈ state.furthest) : known = furthest :=
      Option.some.inj (member.symm.trans remembered)
    split
    · rename_i ahead
      exact ⟨Nat.le_of_lt ahead, fun known member => Nat.le_of_eq (by rw [only member])⟩
    · rename_i behind
      refine ⟨Nat.le_refl _, fun known member => ?_⟩
      rw [only member]
      exact Nat.le_of_not_lt behind
  · rename_i nothing
    refine ⟨Nat.le_refl _, fun known member => ?_⟩
    rw [nothing] at member
    exact nomatch member

theorem remaining_relabel (failure : Failure) (label : String) :
    (failure.relabel label).remaining = failure.remaining := by
  unfold relabel
  split <;> rfl

theorem remaining_foldl_merge (others : List Failure) (failure : Failure) :
    (others.foldl merge failure).remaining = failure.remaining := by
  induction others generalizing failure with
  | nil => rfl
  | cons other others ih => exact ih (failure.merge other)

/-- The deepest of several failures stands where one of them does, and none of them is further. -/
theorem remaining_of_deepest (found : deepest failures = some failure) :
    (∃ first ∈ failures, failure.remaining = first.remaining) ∧
      ∀ other ∈ failures, failure.remaining ≤ other.remaining := by
  unfold deepest at found
  split at found
  · simp at found
  · rename_i fewest least
    split at found
    · simp at found
    · rename_i first others kept
      obtain rfl := Option.some.inj found
      have chosen : first ∈ failures.filter fun failure => failure.remaining == fewest := by
        rw [kept]
        exact List.mem_cons_self
      obtain ⟨member, same⟩ := List.mem_filter.1 chosen
      have same : first.remaining = fewest := by simpa using same
      rw [remaining_foldl_merge]
      refine ⟨⟨first, member, rfl⟩, fun other among => ?_⟩
      rw [same]
      exact (List.min?_eq_some_iff.1 least).2 other.remaining (List.mem_map_of_mem among)

theorem eq_nil_of_deepest (nothing : deepest failures = none) : failures = [] := by
  cases failures with
  | nil => rfl
  | cons first others =>
      obtain ⟨fewest, least⟩ : ∃ fewest, ((first :: others).map remaining).min? = some fewest :=
        Option.isSome_iff_exists.1 (by simp)
      obtain ⟨attained, _⟩ := List.min?_eq_some_iff.1 least
      obtain ⟨deepest, member, same⟩ := List.mem_map.1 attained
      have kept : deepest ∈ (first :: others).filter fun failure => failure.remaining == fewest :=
        List.mem_filter.2 ⟨member, by simp [same]⟩
      unfold Failure.deepest at nothing
      rw [least] at nothing
      simp only at nothing
      split at nothing
      · rename_i empty
        rw [empty] at kept
        exact nomatch kept
      · simp at nothing

end Failure

/-! ### Runs that report well -/

namespace Outcome

variable {α β : Type} {outcome : Outcome α} {state : State} {passed : List Failure}

/-- An ordinary failure is not behind the start of the run; and a success ends in a state that has
forgotten nothing, neither from before nor of the failures that the run passed over. -/
def Reports (state : State) (passed : List Failure) : Outcome α → Prop
  | .ok _ after => state.Remembers after ∧ ∀ failure ∈ passed, after.Knows failure.remaining
  | .error failure _ => failure.fatal = false → failure.Reaches state
  | .exhausted => True

theorem Reports.map (reports : outcome.Reports state passed) (f : α → β) :
    (outcome.map f).Reports state passed := by
  cases outcome <;> exact reports

theorem Reports.mapState {start : State} {f : State → State}
    (reports : outcome.Reports start passed) (before : state.Remembers start)
    (behind : ∀ after : State, after.Remembers (f after)) :
    (outcome.mapState f).Reports state passed := by
  cases outcome with
  | ok value after =>
      obtain ⟨remembers, knows⟩ := reports
      exact ⟨(before.trans remembers).trans (behind after),
        fun failure member => (behind after).knows (knows failure member)⟩
  | error failure after => exact fun mild => (reports mild).of_remembers before
  | exhausted => trivial

/-- The failures that are passed over behind a success. -/
def passing (more : α → State → List Failure) : Outcome α → List Failure
  | .ok value after => more value after
  | _ => []

theorem Reports.andThen {next : α → State → Outcome β} {more : α → State → List Failure}
    (reports : outcome.Reports state passed)
    (goesOn : ∀ value after, (next value after).Reports after (more value after)) :
    (outcome.andThen next).Reports state (passed ++ outcome.passing more) := by
  cases outcome with
  | ok value after =>
      obtain ⟨remembers, knows⟩ := reports
      have behind := goesOn value after
      show (next value after).Reports state (passed ++ more value after)
      cases run : next value after with
      | ok result last =>
          rw [run] at behind
          obtain ⟨further, all⟩ := behind
          refine ⟨remembers.trans further, fun failure member => ?_⟩
          rcases List.mem_append.1 member with member | member
          · exact further.knows (knows failure member)
          · exact all failure member
      | error failure last =>
          rw [run] at behind
          exact fun mild => (behind mild).of_remembers remembers
      | exhausted => trivial
  | error failure after => exact reports
  | exhausted => trivial

end Outcome

namespace Parser

/-- For every run, the failures that the run passes over if it succeeds. -/
abbrev Log := Nat → State → List Failure

namespace Log

variable {α β : Type}

/-- Nothing is passed over. -/
def nothing : Log := fun _ _ => []

/-- What a run passes over and, behind it, what the parser made from its value does. -/
def andThen (log : Log) (parser : Parser α) (next : α → Log) : Log := fun turns state =>
  log turns state ++ (parser.run turns state).passing fun value after => next value turns after

/-- An ordinary failure of a parser that need not succeed is passed over, and nothing inside of the
failed run is. -/
def optional (log : Log) (parser : Parser α) : Log := fun turns state =>
  match parser.run turns state with
  | .ok _ _ => log turns state
  | .error failure _ => if failure.fatal then [] else [failure]
  | .exhausted => []

/-- The ordinary failures of the alternatives before the one that succeeds are passed over. -/
def alternatives : List (Parser α × Log) → Nat → State → List Failure
  | [], _, _ => []
  | (parser, log) :: others, turns, state =>
      match parser.run turns state with
      | .ok _ _ => log turns state
      | .error failure _ => if failure.fatal then [] else failure :: alternatives others turns state
      | .exhausted => []

/-- A single alternative is no choice. -/
def choice : List (Parser α × Log) → Log
  | [only] => only.2
  | pairs => alternatives pairs

/-- The failure that ends a repetition is passed over. -/
def repeated (log : Log) (parser : Parser α) : Nat → Log
  | 0 => nothing
  | left + 1 => fun turns before =>
      log.optional parser turns before ++
        (parser.optional.run turns before).passing fun value after =>
          match value with
          | none => []
          | some _ =>
              if after.position = before.position then []
              else repeated log parser left turns after

/-- The first element of a repetition that may not be empty has to succeed. -/
def manyOne (log : Log) (parser : Parser α) : Log := fun turns before =>
  log turns before ++
    (parser.attempt.run turns before).passing fun _ after =>
      if after.position = before.position then [] else log.repeated parser turns turns after

end Log

/-- The runs of the parser that succeed pass over the failures in the log. -/
inductive PassesOver : {α : Type} → Parser α → Log → Prop where
  | pure {α : Type} (value : α) : PassesOver (Parser.pure value) .nothing
  | exhausted {α : Type} : PassesOver (Parser.exhausted : Parser α) .nothing
  | fail {α : Type} (expected : String) : PassesOver (Parser.fail expected : Parser α) .nothing
  | fatal {α : Type} (expected : String) : PassesOver (Parser.fatal expected : Parser α) .nothing
  | note (label : String) : PassesOver (Parser.note label) .nothing
  | satisfy (test : Token → Bool) (expected : String) :
      PassesOver (Parser.satisfy test expected) .nothing
  | endOfInput : PassesOver Parser.endOfInput .nothing
  | map {α β : Type} {parser : Parser α} {log : Log} (f : α → β) :
      PassesOver parser log → PassesOver (parser.map f) log
  | filterMap {α β : Type} {parser : Parser α} {log : Log} (f : α → Option β) (expected : String) :
      PassesOver parser log → PassesOver (parser.filterMap f expected) log
  | label {α : Type} {parser : Parser α} {log : Log} (name : String) :
      PassesOver parser log → PassesOver (parser.label name) log
  | attempt {α : Type} {parser : Parser α} {log : Log} :
      PassesOver parser log → PassesOver parser.attempt log
  | optional {α : Type} {parser : Parser α} {log : Log} :
      PassesOver parser log → PassesOver parser.optional (log.optional parser)
  | bind {α β : Type} {parser : Parser α} {log : Log} {next : α → Parser β} {logs : α → Log} :
      PassesOver parser log → (∀ value, PassesOver (next value) (logs value)) →
        PassesOver (parser >>= next) (log.andThen parser logs)
  | withTurns {α : Type} {family : Nat → Parser α} {logs : Nat → Log} :
      (∀ turns, PassesOver (family turns) (logs turns)) →
        PassesOver (Parser.withTurns family) fun turns => logs turns turns
  | choice {α : Type} {pairs : List (Parser α × Log)} :
      (∀ pair ∈ pairs, PassesOver pair.1 pair.2) →
        PassesOver (Parser.choice (pairs.map Prod.fst)) (.choice pairs)
  | repeated {α : Type} {parser : Parser α} {log : Log} (left : Nat) :
      PassesOver parser log → PassesOver (Parser.repeated parser left) (log.repeated parser left)
  | manyOne {α : Type} {parser : Parser α} {log : Log} :
      PassesOver parser log → PassesOver parser.manyOne (log.manyOne parser)
  | recursive {α : Type} {build : Parser α → Parser α} {logs : Nat → Log} :
      (∀ entries, PassesOver ⟨unfolded build entries⟩ (logs entries)) →
        PassesOver (Parser.recursive build) fun turns => logs turns turns
  | deferred {α : Type} {build : Unit → Parser α} {log : Log} :
      PassesOver (build ()) log → PassesOver (Parser.deferred build) log
  | nested {α : Type} {parser : Parser α} {log : Log} (limit : Nat) :
      PassesOver parser log → PassesOver (Parser.nested limit parser) fun turns state =>
        log turns { state with depth := state.depth + 1 }
  | recorded {α : Type} {parser : Parser α} {log : Log} (label : String) :
      PassesOver parser log → PassesOver (Parser.recorded label parser) fun turns state =>
        log turns (state.enter label)
  | recordedWhen {α : Type} {parser : Parser α} {log : Log} (label : String) (keep : α → Bool) :
      PassesOver parser log → PassesOver (Parser.recordedWhen label keep parser) fun turns state =>
        log turns (state.enter label)

variable {α β γ δ : Type}

/-- Every run of the parser reports well, and a success remembers what is in the log. -/
def Reports (parser : Parser α) (log : Log) : Prop :=
  ∀ turns state, (parser.run turns state).Reports state (log turns state)

namespace Reports

variable {parser : Parser α} {log : Log}

theorem pure (value : α) : Reports (Parser.pure value) .nothing :=
  fun _ state => ⟨.refl state, by simp [Log.nothing]⟩

theorem satisfy (test : Token → Bool) (expected : String) :
    Reports (Parser.satisfy test expected) .nothing := by
  intro turns state
  unfold Parser.satisfy
  simp only
  split
  · split
    · exact ⟨state.remembers_advance, by simp [Log.nothing]⟩
    · exact fun _ => Failure.reaches_failure state expected
  · exact fun _ => Failure.reaches_failure state expected

theorem endOfInput : Reports Parser.endOfInput .nothing := by
  intro turns state
  unfold Parser.endOfInput
  simp only
  split
  · exact fun _ => Failure.reaches_failure state "EOF"
  · exact ⟨.refl state, by simp [Log.nothing]⟩

theorem map (reports : Reports parser log) (f : α → β) : Reports (parser.map f) log :=
  fun turns state => (reports turns state).map f

theorem bind {next : α → Parser β} {logs : α → Log} (first : Reports parser log)
    (second : ∀ value, Reports (next value) (logs value)) :
    Reports (parser >>= next) (log.andThen parser logs) :=
  fun turns state => (first turns state).andThen fun value after => second value turns after

/-- The failure of a refusal is the one to report at the start. -/
theorem filterMap (reports : Reports parser log) (f : α → Option β) (expected : String) :
    Reports (parser.filterMap f expected) log := by
  intro turns state
  have inner := reports turns state
  unfold Parser.filterMap
  simp only
  cases run : parser.run turns state with
  | ok value after =>
      rw [run] at inner
      simp only
      split
      · exact inner
      · exact fun _ => Failure.reaches_failure state expected
  | error failure after =>
      rw [run] at inner
      exact inner
  | exhausted => trivial

/-- A label changes what a failure says, not how far it is. -/
theorem label (reports : Reports parser log) (name : String) : Reports (parser.label name) log := by
  intro turns state
  have inner := reports turns state
  unfold Parser.label
  simp only
  cases run : parser.run turns state with
  | ok value after =>
      rw [run] at inner
      exact inner
  | error failure after =>
      rw [run] at inner
      intro mild
      have mild : failure.fatal = false := by
        unfold Failure.relabel at mild
        split at mild <;> exact mild
      obtain ⟨remaining, known⟩ := inner mild
      exact ⟨by rwa [Failure.remaining_relabel], by rwa [Failure.remaining_relabel]⟩
  | exhausted => trivial

theorem attempt (reports : Reports parser log) : Reports parser.attempt log := by
  intro turns state
  have inner := reports turns state
  unfold Parser.attempt
  simp only
  cases run : parser.run turns state <;> rw [run] at inner <;> exact inner

theorem optional (reports : Reports parser log) :
    Reports parser.optional (log.optional parser) := by
  intro turns state
  have inner := reports turns state
  unfold Parser.optional Parser.attempt Log.optional
  simp only
  cases run : parser.run turns state with
  | ok value after =>
      rw [run] at inner
      exact inner
  | error failure after =>
      rw [run] at inner
      simp only
      split
      · exact inner
      · refine ⟨state.remembers_remember failure, fun passed member => ?_⟩
        obtain rfl := List.mem_singleton.1 member
        exact state.knows_remember passed
  | exhausted => trivial

/-! ### Choices -/

/-- Alternatives after others that failed: a success remembers the failures of both. -/
theorem alternatives {pairs : List (Parser α × Log)}
    (reports : ∀ pair ∈ pairs, Reports pair.1 pair.2) (turns : Nat) (state : State)
    {failures : List Failure} (reach : ∀ failure ∈ failures, failure.Reaches state) :
    ((Parser.alternatives (pairs.map Prod.fst) failures).run turns state).Reports state
      (failures ++ Log.alternatives pairs turns state) := by
  induction pairs generalizing failures with
  | nil =>
      intro _
      cases found : Failure.deepest failures with
      | none => exact Failure.reaches_failure state "nothing"
      | some deepest =>
          obtain ⟨⟨first, member, same⟩, _⟩ := Failure.remaining_of_deepest found
          obtain ⟨remaining, known⟩ := reach first member
          exact ⟨Nat.le_trans (Nat.le_of_eq same) remaining,
            fun other remembered => Nat.le_trans (Nat.le_of_eq same) (known other remembered)⟩
  | cons first others ih =>
      obtain ⟨parser, log⟩ := first
      have inner := reports (parser, log) (.head _) turns state
      unfold Log.alternatives
      simp only [List.map_cons, Parser.alternatives, Parser.attempt]
      cases run : parser.run turns state with
      | ok value after =>
          rw [run] at inner
          obtain ⟨remembers, knows⟩ := inner
          simp only
          cases found : Failure.deepest failures with
          | none =>
              rw [Failure.eq_nil_of_deepest found]
              exact ⟨remembers, knows⟩
          | some deepest =>
              have keeps := after.remembers_remember deepest
              refine ⟨remembers.trans keeps, fun failure member => ?_⟩
              rcases List.mem_append.1 member with earlier | inside
              · obtain ⟨kept, still, further⟩ := after.knows_remember deepest
                have least := (Failure.remaining_of_deepest found).2 failure earlier
                exact ⟨kept, still, Nat.le_trans further least⟩
              · exact keeps.knows (knows failure inside)
      | error failure after =>
          rw [run] at inner
          simp only
          split
          · exact inner
          · rename_i ordinary
            have mild : failure.fatal = false := Bool.eq_false_iff.2 ordinary
            have reach : ∀ other ∈ failures ++ [failure], other.Reaches state := by
              intro other member
              rcases List.mem_append.1 member with earlier | last
              · exact reach other earlier
              · rw [List.mem_singleton.1 last]
                exact inner mild
            have rest := ih (fun pair member => reports pair (.tail _ member)) reach
            rwa [List.append_assoc] at rest
      | exhausted => trivial

theorem choice {pairs : List (Parser α × Log)} (reports : ∀ pair ∈ pairs, Reports pair.1 pair.2) :
    Reports (Parser.choice (pairs.map Prod.fst)) (.choice pairs) := by
  have several (turns : Nat) (state : State) :=
    alternatives reports turns state (List.forall_mem_nil _)
  match pairs with
  | [] => exact several
  | [only] => exact reports only (.head _)
  | _ :: _ :: _ => exact several

/-! ### Loops -/

theorem repeated (reports : Reports parser log) (left : Nat) :
    Reports (Parser.repeated parser left) (log.repeated parser left) := by
  induction left with
  | zero => exact fun _ _ => trivial
  | succ left ih =>
      intro turns before
      refine (reports.optional turns before).andThen fun value after => ?_
      cases value with
      | none => exact ⟨.refl after, by simp⟩
      | some value =>
          simp only
          split
          · exact ⟨.refl after, by simp⟩
          · exact (ih turns after).map _

theorem manyOne (reports : Reports parser log) : Reports parser.manyOne (log.manyOne parser) := by
  intro turns before
  refine (reports.attempt turns before).andThen fun value after => ?_
  split
  · exact ⟨.refl after, by simp⟩
  · exact (reports.repeated turns turns after).map _

/-! ### Nesting and records -/

theorem nested (reports : Reports parser log) (limit : Nat) :
    Reports (Parser.nested limit parser) fun turns state =>
      log turns { state with depth := state.depth + 1 } := by
  intro turns state
  unfold Parser.nested
  simp only
  split
  · exact fun mild => nomatch mild
  · exact (reports turns { state with depth := state.depth + 1 }).mapState (.of_eq rfl rfl)
      fun _ => .of_eq rfl rfl

theorem recorded (reports : Reports parser log) (label : String) :
    Reports (Parser.recorded label parser) fun turns state => log turns (state.enter label) :=
  fun turns state =>
    (reports turns (state.enter label)).mapState (.of_eq rfl rfl) fun _ => .of_eq rfl rfl

theorem recordedWhen (reports : Reports parser log) (label : String) (keep : α → Bool) :
    Reports (Parser.recordedWhen label keep parser) fun turns state =>
      log turns (state.enter label) := by
  intro turns state
  have inner := reports turns (state.enter label)
  unfold Parser.recordedWhen
  simp only
  cases run : parser.run turns (state.enter label) with
  | ok value after =>
      rw [run] at inner
      obtain ⟨remembers, knows⟩ := inner
      have entered : state.Remembers (state.enter label) := .of_eq rfl rfl
      simp only
      split <;> exact ⟨(entered.trans remembers).trans (.of_eq rfl rfl), knows⟩
  | error failure after =>
      rw [run] at inner
      exact fun mild => (inner mild).of_remembers (.of_eq rfl rfl)
  | exhausted => trivial

end Reports

namespace PassesOver

theorem reports {parser : Parser α} {log : Log} (passes : PassesOver parser log) :
    Reports parser log := by
  induction passes with
  | pure value => exact .pure value
  | exhausted => exact fun _ _ => trivial
  | fail expected => exact fun _ state _ => Failure.reaches_failure state expected
  | fatal expected => exact fun _ _ mild => nomatch mild
  | note label => exact fun _ _ => ⟨.of_eq rfl rfl, by simp [Log.nothing]⟩
  | satisfy test expected => exact .satisfy test expected
  | endOfInput => exact .endOfInput
  | map f _ ih => exact ih.map f
  | filterMap f expected _ ih => exact ih.filterMap f expected
  | label name _ ih => exact ih.label name
  | attempt _ ih => exact ih.attempt
  | optional _ ih => exact ih.optional
  | bind _ _ first second => exact first.bind second
  | withTurns _ ih => exact fun turns state => ih turns turns state
  | choice _ ih => exact .choice ih
  | repeated left _ ih => exact ih.repeated left
  | manyOne _ ih => exact ih.manyOne
  | recursive _ ih => exact fun turns state => ih turns turns state
  | deferred _ ih => exact ih
  | nested limit _ ih => exact ih.nested limit
  | recorded label _ ih => exact ih.recorded label
  | recordedWhen label keep _ ih => exact ih.recordedWhen label keep

end PassesOver

/-! ### Every parser has a log -/

/-- If each member of a list has a partner, the members can be paired with their partners. -/
theorem exists_pairs {ι : Type _} {κ : Type _} {related : ι → κ → Prop} {members : List ι}
    (each : ∀ member ∈ members, ∃ partner, related member partner) :
    ∃ pairs : List (ι × κ), pairs.map Prod.fst = members ∧ ∀ pair ∈ pairs, related pair.1 pair.2 := by
  induction members with
  | nil => exact ⟨[], rfl, by simp⟩
  | cons first others ih =>
      obtain ⟨partner, paired⟩ := each first (.head _)
      obtain ⟨pairs, rfl, rest⟩ := ih fun other member => each other (.tail _ member)
      exact ⟨(first, partner) :: pairs, rfl, List.forall_mem_cons.2 ⟨paired, rest⟩⟩

/-- It is determined what the runs of the parser pass over. -/
def Logged (parser : Parser α) : Prop := ∃ log, PassesOver parser log

namespace Logged

variable {parser : Parser α}

theorem pure (value : α) : Logged (Parser.pure value) := ⟨_, .pure value⟩

theorem map (logged : Logged parser) (f : α → β) : Logged (parser.map f) :=
  Exists.imp (fun _ passes => passes.map f) logged

theorem attempt (logged : Logged parser) : Logged parser.attempt :=
  Exists.imp (fun _ passes => passes.attempt) logged

theorem optional (logged : Logged parser) : Logged parser.optional := by
  obtain ⟨_, passes⟩ := logged
  exact ⟨_, passes.optional⟩

theorem bind {next : α → Parser β} (first : Logged parser) (second : ∀ value, Logged (next value)) :
    Logged (parser >>= next) := by
  obtain ⟨_, passes⟩ := first
  obtain ⟨_, passes'⟩ := Classical.skolem.1 second
  exact ⟨_, passes.bind passes'⟩

theorem withTurns {family : Nat → Parser α} (logged : ∀ turns, Logged (family turns)) :
    Logged (Parser.withTurns family) := by
  obtain ⟨_, passes⟩ := Classical.skolem.1 logged
  exact ⟨_, .withTurns passes⟩

theorem pair {second : Parser β} (left : Logged parser) (right : Logged second) :
    Logged (parser.pair second) :=
  (left.bind fun _ => right.bind fun _ => pure _).attempt

theorem group {opening : Parser β} {closing : Parser γ} (inside : Logged parser)
    (before : Logged opening) (behind : Logged closing) :
    Logged (Parser.group parser opening closing) :=
  (((before.pair inside).map _).pair behind).map _

theorem inOrder {parsers : List (Parser α)} (logged : ∀ parser ∈ parsers, Logged parser) :
    Logged (Parser.inOrder parsers) := by
  induction parsers with
  | nil => exact pure []
  | cons parser others ih =>
      have rest := ih fun other member => logged other (.tail _ member)
      exact (logged parser (.head _)).bind fun _ => rest.bind fun _ => pure _

theorem choice {parsers : List (Parser α)} (logged : ∀ parser ∈ parsers, Logged parser) :
    Logged (Parser.choice parsers) := by
  obtain ⟨pairs, rfl, all⟩ := exists_pairs logged
  exact ⟨_, .choice all⟩

theorem repetition (logged : Logged parser) (mayBeEmpty : Bool) :
    Logged (parser.repetition mayBeEmpty) := by
  obtain ⟨_, passes⟩ := logged
  cases mayBeEmpty with
  | true => exact ⟨_, .withTurns fun left => passes.repeated left⟩
  | false => exact ⟨_, passes.manyOne⟩

theorem followers {delimiter : Parser δ} (elements : Logged parser) (delimiters : Logged delimiter)
    (left : Nat) : Logged (Parser.followers parser delimiter left) := by
  induction left with
  | zero => exact ⟨_, .exhausted⟩
  | succ left ih =>
      refine delimiters.optional.bind fun mark => ?_
      cases mark with
      | none => exact pure []
      | some mark => exact elements.bind fun _ => ih.bind fun _ => pure _

theorem interleaved {delimiter : Parser δ} (elements : Logged parser)
    (delimiters : Logged delimiter) (mayBeEmpty : Bool) :
    Logged (Parser.interleaved parser delimiter mayBeEmpty) := by
  have behind (value : α) := (withTurns (elements.followers delimiters)).bind fun rest =>
    pure (Interleaved.item value :: rest)
  cases mayBeEmpty with
  | true => exact elements.optional.bind fun
      | none => pure []
      | some value => behind value
  | false => exact (elements.map some).bind fun
      | none => pure []
      | some value => behind value

theorem links {operator : Parser (Joint α × α)} (operands : Logged parser)
    (operators : Logged operator) (left : Nat) : Logged (Parser.links parser operator left) := by
  induction left with
  | zero => exact ⟨_, .exhausted⟩
  | succ left ih =>
      refine operators.optional.bind fun value => ?_
      cases value with
      | none => exact pure []
      | some value => exact operands.bind fun _ => ih.bind fun _ => pure _

theorem binary {operators : List (Operator α)} (operands : Logged parser)
    (logged : ∀ operator ∈ operators, Logged operator.parser) :
    Logged (Parser.binary parser operators) := by
  have signs : Logged (operatorOf operators) := by
    refine choice fun parser member => ?_
    obtain ⟨operator, among, rfl⟩ := List.mem_map.1 member
    exact (logged operator among).map _
  exact (operands.bind fun _ => (withTurns (operands.links signs)).bind fun _ => pure _).attempt

end Logged

/-- For every parser built from the combinators it is determined what its runs pass over. -/
theorem Built.logged {parser : Parser α} (built : Built parser) : Logged parser := by
  induction built with
  | pure value => exact .pure value
  | exhausted => exact ⟨_, .exhausted⟩
  | fail expected => exact ⟨_, .fail expected⟩
  | fatal expected => exact ⟨_, .fatal expected⟩
  | note label => exact ⟨_, .note label⟩
  | satisfy test expected => exact ⟨_, .satisfy test expected⟩
  | endOfInput => exact ⟨_, .endOfInput⟩
  | map f _ ih => exact ih.map f
  | filterMap f expected _ ih => exact Exists.imp (fun _ passes => passes.filterMap f expected) ih
  | label name _ ih => exact Exists.imp (fun _ passes => passes.label name) ih
  | attempt _ ih => exact ih.attempt
  | optional _ ih => exact ih.optional
  | pair _ _ left right => exact left.pair right
  | sequence _ ih => exact (Logged.inOrder ih).attempt
  | choice _ ih => exact .choice ih
  | repetition mayBeEmpty _ ih => exact ih.repetition mayBeEmpty
  | listWithDelimiters mayBeEmpty _ _ _ _ elements delimiters before behind =>
      exact (elements.interleaved delimiters mayBeEmpty).group before behind
  | binary _ _ operands operators => exact operands.binary operators
  | recursive _ ih =>
      obtain ⟨_, passes⟩ := Classical.skolem.1 ih
      exact ⟨_, .recursive passes⟩
  | deferred _ ih => exact Exists.imp (fun _ passes => passes.deferred) ih
  | nested limit _ ih =>
      obtain ⟨_, passes⟩ := ih
      exact ⟨_, passes.nested limit⟩
  | recorded label _ ih =>
      obtain ⟨_, passes⟩ := ih
      exact ⟨_, passes.recorded label⟩
  | recordedWhen label keep _ ih =>
      obtain ⟨_, passes⟩ := ih
      exact ⟨_, passes.recordedWhen label keep⟩
  | noted describe _ ih =>
      exact ih.bind fun value => Logged.bind ⟨_, .note (describe value)⟩ fun _ => .pure value

/-- An ordinary failure is not behind the start of the run, nor behind the failure remembered there.
A success does not go back, and the failure that it remembers is behind neither the one remembered
before nor any that the run passed over. -/
theorem reports_of_run {parser : Parser α} (built : Built parser) (turns : Nat) (state : State) :
    (∀ failure after, parser.run turns state = .error failure after → failure.fatal = false →
      failure.remaining ≤ state.remaining ∧
        ∀ known ∈ state.furthest, failure.remaining ≤ known.remaining) ∧
      ∀ value after, parser.run turns state = .ok value after →
        state.position ≤ after.position ∧
          (∀ known ∈ state.furthest, ∃ kept ∈ after.furthest, kept.remaining ≤ known.remaining) ∧
          (∃ log, PassesOver parser log) ∧
          ∀ log, PassesOver parser log → ∀ passed ∈ log turns state,
            ∃ kept ∈ after.furthest, kept.remaining ≤ passed.remaining := by
  obtain ⟨log, passes⟩ := built.logged
  have reports := passes.reports turns state
  have leads := built.advances turns state
  refine ⟨fun failure after fails mild => ?_, fun value after succeeds => ?_⟩
  · rw [fails] at reports
    obtain ⟨remaining, known⟩ := reports mild
    exact ⟨remaining, known⟩
  · rw [succeeds] at reports leads
    obtain ⟨remembers, _⟩ := reports
    refine ⟨leads.position_le, remembers.known, ⟨log, passes⟩, fun other passes' => ?_⟩
    have reports' := passes'.reports turns state
    rw [succeeds] at reports'
    exact reports'.2

/-- Words with a number behind each: the last word without a number is put back, and the failure of
the number that is missing is remembered. -/
theorem reports_of_run_words :
    let words := ((token "word").pair (token "number")).many
    let start := State.start [⟨"word", "a", "a", .text "a", .start⟩]
    let missing : Failure := ⟨["number"], ⟨1, []⟩, .root, false⟩
    ∃ log after, Built words ∧ PassesOver words log ∧ words.run 2 start = .ok [] after ∧
      missing ∈ log 2 start ∧ ∃ kept ∈ after.furthest, kept.remaining ≤ missing.remaining := by
  intro words start missing
  have built : Built words := inferInstance
  have one (kind : String) : PassesOver (token kind) .nothing := .satisfy _ kind
  have both := ((one "word").bind fun first => (one "number").bind fun second =>
    .pure (first, second)).attempt
  have passes : PassesOver words _ := .withTurns fun left => both.repeated left
  have succeeds : words.run 2 start = .ok [] { start with furthest := some missing } := rfl
  have passed : missing ∈ _ := List.mem_singleton.2 (rfl : missing = missing)
  exact ⟨_, _, built, passes, succeeds, passed,
    ((reports_of_run built 2 start).2 _ _ succeeds).2.2.2 _ passes missing passed⟩

end Parser

end Curried
