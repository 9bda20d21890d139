import Curried.Proofs.Parser.Frame

/-!
# Diagnostics decide nothing

What a parser says about its failures and what it records never changes what it decides.  Two
states are level if they differ at most in their histories and in the ordinary failures that they
remember; two parsers are alike if they differ at most in their labels, expected texts and history
labels.  Run on level states, parsers that are alike succeed with the same value at the same place,
or fail with the same fatality.

The invariant is that no remembered failure is fatal.  A failure that is handed back in place of a
new one is then as ordinary as the new one, and nothing but its fatality is ever looked at.
-/

namespace Curried

/-! ### Level states -/

namespace State

/-- Two states stand at the same place of the same tokens, equally deep.  Their histories may
differ, and so may the failures that they remember, as long as none of them is fatal. -/
structure Level (left right : State) : Prop where
  input : left.input = right.input
  depth : left.depth = right.depth
  left_mild : left.Mild
  right_mild : right.Mild

namespace Level

variable {left right : State}

theorem symm (level : left.Level right) : right.Level left :=
  ⟨level.input.symm, level.depth.symm, level.right_mild, level.left_mild⟩

theorem position (level : left.Level right) : left.position = right.position :=
  congrArg Input.position level.input

theorem peek (level : left.Level right) : left.peek = right.peek :=
  congrArg (fun input => input.rest.head?) level.input

theorem advance (level : left.Level right) : left.advance.Level right.advance :=
  ⟨congrArg Input.advance level.input, level.depth, level.left_mild, level.right_mild⟩

theorem enter (level : left.Level right) (label : String) : (left.enter label).Level right :=
  ⟨level.input, level.depth, level.left_mild, level.right_mild⟩

theorem leave (level : left.Level right) : left.leave.Level right :=
  ⟨level.input, level.depth, level.left_mild, level.right_mild⟩

theorem leaveSpliced (level : left.Level right) : left.leaveSpliced.Level right :=
  ⟨level.input, level.depth, level.left_mild, level.right_mild⟩

theorem note (level : left.Level right) (label : String) : (left.note label).Level right :=
  ⟨level.input, level.depth, level.left_mild, level.right_mild⟩

theorem remember {failure : Failure} (level : left.Level right) (mild : failure.fatal = false) :
    (left.remember failure).Level right := by
  have still_mild := (leads_remember mild).mild level.left_mild
  rcases left.remember_cases failure with same | replaced
  · rwa [same]
  · rw [replaced] at still_mild ⊢
    exact ⟨level.input, level.depth, still_mild, level.right_mild⟩

/-- One nesting level deeper. -/
theorem deepen (level : left.Level right) :
    Level { left with depth := left.depth + 1 } { right with depth := right.depth + 1 } :=
  ⟨level.input, congrArg (· + 1) level.depth, level.left_mild, level.right_mild⟩

/-- One nesting level up again. -/
theorem rise (level : left.Level right) :
    Level { left with depth := left.depth - 1 } { right with depth := right.depth - 1 } :=
  ⟨level.input, congrArg (· - 1) level.depth, level.left_mild, level.right_mild⟩

/-- The failures that level states report are both ordinary. -/
theorem fatal_failure (level : left.Level right) (expected other : String) :
    (left.failure expected).fatal = (right.failure other).fatal :=
  (State.fatal_failure level.left_mild expected).trans
    (State.fatal_failure level.right_mild other).symm

end Level

end State

/-! ### Runs that decide the same -/

/-- Two runs decide the same: both succeed, with one value and in level states, or both fail, with
one fatality and in level states, or both need more turns than they were given. -/
inductive Outcome.Agrees {α : Type} : Outcome α → Outcome α → Prop where
  | ok (value : α) {left right : State} :
      left.Level right → Agrees (.ok value left) (.ok value right)
  | error {failure other : Failure} {left right : State} :
      failure.fatal = other.fatal → left.Level right →
        Agrees (.error failure left) (.error other right)
  | exhausted : Agrees .exhausted .exhausted

namespace Outcome.Agrees

variable {α β : Type} {first second : Outcome α}

theorem symm (agrees : first.Agrees second) : second.Agrees first := by
  cases agrees with
  | ok value level => exact .ok value level.symm
  | error fatal level => exact .error fatal.symm level.symm
  | exhausted => exact .exhausted

theorem map (agrees : first.Agrees second) (f : α → β) : (first.map f).Agrees (second.map f) := by
  cases agrees with
  | ok value level => exact .ok (f value) level
  | error fatal level => exact .error fatal level
  | exhausted => exact .exhausted

theorem andThen {next further : α → State → Outcome β} (agrees : first.Agrees second)
    (goesOn : ∀ value left right, left.Level right →
      (next value left).Agrees (further value right)) :
    (first.andThen next).Agrees (second.andThen further) := by
  cases agrees with
  | ok value level => exact goesOn value _ _ level
  | error fatal level => exact .error fatal level
  | exhausted => exact .exhausted

/-- A change to the states that keeps them level changes nothing else. -/
theorem mapState {f g : State → State} (agrees : first.Agrees second)
    (keeps : ∀ left right : State, left.Level right → (f left).Level (g right)) :
    (first.mapState f).Agrees (second.mapState g) := by
  cases agrees with
  | ok value level => exact .ok value (keeps _ _ level)
  | error fatal level => exact .error fatal (keeps _ _ level)
  | exhausted => exact .exhausted

theorem mapState_left {f : State → State} (agrees : first.Agrees second)
    (keeps : ∀ left right : State, left.Level right → (f left).Level right) :
    (first.mapState f).Agrees second := by
  cases agrees with
  | ok value level => exact .ok value (keeps _ _ level)
  | error fatal level => exact .error fatal (keeps _ _ level)
  | exhausted => exact .exhausted

end Outcome.Agrees

namespace Parser

variable {α β γ δ : Type}

/-- Two parsers decide the same on all level states. -/
def Agrees (parser other : Parser α) : Prop :=
  ∀ turns left right, left.Level right → (parser.run turns left).Agrees (other.run turns right)

namespace Agrees

variable {parser other : Parser α}

theorem symm (agrees : Agrees parser other) : Agrees other parser :=
  fun turns left right level => (agrees turns right left level.symm).symm

/-! ### The smallest parsers -/

theorem pure (value : α) : Agrees (Parser.pure value) (Parser.pure value) :=
  fun _ _ _ level => .ok value level

theorem exhausted : Agrees (Parser.exhausted : Parser α) Parser.exhausted :=
  fun _ _ _ _ => .exhausted

theorem fail (expected text : String) : Agrees (Parser.fail expected : Parser α) (.fail text) :=
  fun _ _ _ level => .error (level.fatal_failure expected text) level

theorem fatal (expected text : String) : Agrees (Parser.fatal expected : Parser α) (.fatal text) :=
  fun _ _ _ level => .error rfl level

theorem note (label text : String) : Agrees (Parser.note label) (Parser.note text) :=
  fun _ _ _ level => .ok () ((level.note label).symm.note text).symm

theorem satisfy (test : Token → Bool) (expected text : String) :
    Agrees (Parser.satisfy test expected) (Parser.satisfy test text) := by
  intro turns left right level
  unfold Parser.satisfy
  simp only [level.peek]
  cases right.peek with
  | none => exact .error (level.fatal_failure expected text) level
  | some token =>
      simp only
      split
      · exact .ok token level.advance
      · exact .error (level.fatal_failure expected text) level

theorem endOfInput : Agrees Parser.endOfInput Parser.endOfInput := by
  intro turns left right level
  unfold Parser.endOfInput
  simp only [level.peek]
  cases right.peek with
  | none => exact .ok () level
  | some token => exact .error (level.fatal_failure "EOF" "EOF") level

/-! ### Values and transactions -/

theorem map (agrees : Agrees parser other) (f : α → β) : Agrees (parser.map f) (other.map f) :=
  fun turns left right level => (agrees turns left right level).map f

theorem bind {next further : α → Parser β} (first : Agrees parser other)
    (second : ∀ value, Agrees (next value) (further value)) :
    Agrees (parser >>= next) (other >>= further) :=
  fun turns left right level =>
    (first turns left right level).andThen fun value _ _ after => second value turns _ _ after

theorem withTurns {family others : Nat → Parser α}
    (agrees : ∀ turns, Agrees (family turns) (others turns)) :
    Agrees (Parser.withTurns family) (Parser.withTurns others) :=
  fun turns left right level => agrees turns turns left right level

theorem attempt (agrees : Agrees parser other) : Agrees parser.attempt other.attempt := by
  intro turns left right level
  have inner := agrees turns left right level
  unfold Parser.attempt
  simp only
  generalize parser.run turns left = first at inner
  generalize other.run turns right = second at inner
  cases inner with
  | ok value after => exact .ok value after
  | error fatal _ => exact .error fatal level
  | exhausted => exact .exhausted

/-- Both parsers give up without a value and remember why, or both pass on a fatal failure. -/
theorem optional (agrees : Agrees parser other) : Agrees parser.optional other.optional := by
  intro turns left right level
  have inner := agrees.attempt turns left right level
  unfold Parser.optional
  simp only
  generalize parser.attempt.run turns left = first at inner
  generalize other.attempt.run turns right = second at inner
  cases inner with
  | ok value after => exact .ok (some value) after
  | @error failure report _ _ fatal after =>
      simp only [← fatal]
      split
      · exact .error fatal after
      · rename_i ordinary
        have mild : failure.fatal = false := Bool.eq_false_iff.2 ordinary
        exact .ok none
          ((after.remember mild).symm.remember (fatal.symm.trans mild)).symm
  | exhausted => exact .exhausted

theorem filterMap (agrees : Agrees parser other) (f : α → Option β) (expected text : String) :
    Agrees (parser.filterMap f expected) (other.filterMap f text) := by
  intro turns left right level
  have inner := agrees turns left right level
  unfold Parser.filterMap
  simp only
  generalize parser.run turns left = first at inner
  generalize other.run turns right = second at inner
  cases inner with
  | ok value after =>
      simp only
      split
      · exact .ok _ after
      · exact .error (level.fatal_failure expected text) level
  | error fatal _ => exact .error fatal level
  | exhausted => exact .exhausted

/-! ### Labels and records

Each of these is dropped from one of two parsers; with symmetry, from both. -/

theorem fatal_relabel (failure : Failure) (name : String) :
    (failure.relabel name).fatal = failure.fatal := by
  unfold Failure.relabel
  split <;> rfl

theorem label (agrees : Agrees parser other) (name : String) : Agrees (parser.label name) other := by
  intro turns left right level
  have inner := agrees turns left right level
  unfold Parser.label
  simp only
  generalize parser.run turns left = first at inner
  generalize other.run turns right = second at inner
  cases inner with
  | ok value after => exact .ok value after
  | @error failure _ _ _ fatal after =>
      exact .error ((fatal_relabel failure name).trans fatal) after
  | exhausted => exact .exhausted

theorem recorded (agrees : Agrees parser other) (label : String) :
    Agrees (Parser.recorded label parser) other :=
  fun turns left right level =>
    (agrees turns (left.enter label) right (level.enter label)).mapState_left
      fun _ _ after => after.leave

theorem recordedWhen (agrees : Agrees parser other) (label : String) (keep : α → Bool) :
    Agrees (Parser.recordedWhen label keep parser) other := by
  intro turns left right level
  have inner := agrees turns _ right (level.enter label)
  unfold Parser.recordedWhen
  simp only
  generalize parser.run turns (left.enter label) = first at inner
  generalize other.run turns right = second at inner
  cases inner with
  | ok value after =>
      simp only
      split
      · exact .ok value after.leave
      · exact .ok value after.leaveSpliced
  | error fatal after => exact .error fatal after.leave
  | exhausted => exact .exhausted

theorem noted (agrees : Agrees parser other) (describe : α → String) :
    Agrees (parser.noted describe) other := by
  intro turns left right level
  have inner := agrees turns left right level
  show ((parser.run turns left).andThen fun value after =>
    .ok value (after.note (describe value))).Agrees (other.run turns right)
  generalize parser.run turns left = first at inner
  generalize other.run turns right = second at inner
  cases inner with
  | ok value after => exact .ok value (after.note (describe value))
  | error fatal after => exact .error fatal after
  | exhausted => exact .exhausted

/-! ### Sequences and choices -/

theorem pair {second further : Parser β} (left : Agrees parser other)
    (right : Agrees second further) : Agrees (parser.pair second) (other.pair further) :=
  attempt (left.bind fun _ => right.bind fun _ => pure _)

theorem group {opening opens : Parser β} {closing closes : Parser γ} (inside : Agrees parser other)
    (before : Agrees opening opens) (behind : Agrees closing closes) :
    Agrees (Parser.group parser opening closing) (Parser.group other opens closes) :=
  (((before.pair inside).map _).pair behind).map _

variable {pairs : List (Parser α × Parser α)}

theorem inOrder (agrees : ∀ pair ∈ pairs, Agrees pair.1 pair.2) :
    Agrees (Parser.inOrder (pairs.map Prod.fst)) (Parser.inOrder (pairs.map Prod.snd)) := by
  induction pairs with
  | nil => exact pure []
  | cons first others ih =>
      have rest := ih fun pair member => agrees pair (.tail _ member)
      exact (agrees first (.head _)).bind fun _ => rest.bind fun _ => pure _

/-- What a choice reports when all alternatives failed is ordinary. -/
theorem fatal_of_alternatives {state : State} {failures : List Failure} (state_mild : state.Mild)
    (mild : ∀ failure ∈ failures, failure.fatal = false) :
    ((Failure.deepest failures).getD (state.failure "nothing")).fatal = false := by
  cases found : Failure.deepest failures with
  | none => exact State.fatal_failure state_mild "nothing"
  | some failure => exact Failure.fatal_of_deepest mild found

theorem mild_append {failures : List Failure} {failure : Failure}
    (mild : ∀ other ∈ failures, other.fatal = false) (ordinary : failure.fatal = false) :
    ∀ other ∈ failures ++ [failure], other.fatal = false := by
  intro other member
  rcases List.mem_append.1 member with member | member
  · exact mild other member
  · rw [List.mem_singleton.1 member]
    exact ordinary

/-- Alternatives may have failed before on both sides, with any ordinary failures. -/
theorem alternatives (agrees : ∀ pair ∈ pairs, Agrees pair.1 pair.2)
    {failures reports : List Failure} (mild : ∀ failure ∈ failures, failure.fatal = false)
    (reports_mild : ∀ report ∈ reports, report.fatal = false) :
    Agrees (Parser.alternatives (pairs.map Prod.fst) failures)
      (Parser.alternatives (pairs.map Prod.snd) reports) := by
  induction pairs generalizing failures reports with
  | nil =>
      intro turns left right level
      refine .error ?_ level
      exact (fatal_of_alternatives level.left_mild mild).trans
        (fatal_of_alternatives level.right_mild reports_mild).symm
  | cons first others ih =>
      intro turns left right level
      have inner := (agrees first (.head _)).attempt turns left right level
      simp only [List.map_cons, Parser.alternatives]
      generalize first.1.attempt.run turns left = one at inner
      generalize first.2.attempt.run turns right = two at inner
      cases inner with
      | ok value after =>
          -- a choice that succeeds only remembers what failed before
          cases left_found : Failure.deepest failures with
          | none =>
              cases right_found : Failure.deepest reports with
              | none => exact .ok value after
              | some report =>
                  have ordinary := Failure.fatal_of_deepest reports_mild right_found
                  exact .ok value (after.symm.remember ordinary).symm
          | some failure =>
              have kept := after.remember (Failure.fatal_of_deepest mild left_found)
              cases right_found : Failure.deepest reports with
              | none => exact .ok value kept
              | some report =>
                  have ordinary := Failure.fatal_of_deepest reports_mild right_found
                  exact .ok value (kept.symm.remember ordinary).symm
      | @error failure report _ _ fatal after =>
          simp only [← fatal]
          split
          · exact .error fatal after
          · rename_i ordinary
            have ordinary : failure.fatal = false := Bool.eq_false_iff.2 ordinary
            exact ih (fun pair member => agrees pair (.tail _ member))
              (mild_append mild ordinary) (mild_append reports_mild (fatal.symm.trans ordinary))
              turns _ _ after
      | exhausted => exact .exhausted

theorem choice (agrees : ∀ pair ∈ pairs, Agrees pair.1 pair.2) :
    Agrees (Parser.choice (pairs.map Prod.fst)) (Parser.choice (pairs.map Prod.snd)) := by
  have none_failed : ∀ failure ∈ ([] : List Failure), failure.fatal = false := by simp
  match pairs with
  | [] => exact alternatives agrees none_failed none_failed
  | [only] => exact agrees only (.head _)
  | _ :: _ :: _ => exact alternatives agrees none_failed none_failed

/-! ### Loops

Both runs take the same number of tokens in each turn, so they notice a turn that takes none at the
same time. -/

theorem repeated (agrees : Agrees parser other) (more : Nat) :
    Agrees (Parser.repeated parser more) (Parser.repeated other more) := by
  induction more with
  | zero => exact exhausted
  | succ more ih =>
      intro turns left right level
      refine (agrees.optional turns left right level).andThen fun value before after later => ?_
      cases value with
      | none => exact .ok [] later
      | some value =>
          simp only [level.position, later.position]
          split
          · exact .ok [value] later
          · exact (ih turns before after later).map (value :: ·)

theorem many (agrees : Agrees parser other) : Agrees parser.many other.many :=
  withTurns agrees.repeated

theorem manyOne (agrees : Agrees parser other) : Agrees parser.manyOne other.manyOne := by
  intro turns left right level
  refine (agrees.attempt turns left right level).andThen fun value before after later => ?_
  simp only [level.position, later.position]
  split
  · exact .ok [value] later
  · exact (agrees.many turns before after later).map (value :: ·)

theorem repetition (agrees : Agrees parser other) (mayBeEmpty : Bool) :
    Agrees (parser.repetition mayBeEmpty) (other.repetition mayBeEmpty) := by
  cases mayBeEmpty with
  | true => exact agrees.many
  | false => exact agrees.manyOne

theorem followers {delimiter mark : Parser δ} (elements : Agrees parser other)
    (delimiters : Agrees delimiter mark) (more : Nat) :
    Agrees (Parser.followers parser delimiter more) (Parser.followers other mark more) := by
  induction more with
  | zero => exact exhausted
  | succ more ih =>
      refine delimiters.optional.bind fun value => ?_
      cases value with
      | none => exact pure []
      | some value => exact elements.bind fun _ => ih.bind fun _ => pure _

theorem interleaved {delimiter mark : Parser δ} (elements : Agrees parser other)
    (delimiters : Agrees delimiter mark) (mayBeEmpty : Bool) :
    Agrees (Parser.interleaved parser delimiter mayBeEmpty)
      (Parser.interleaved other mark mayBeEmpty) := by
  have behind (value : α) := (withTurns (elements.followers delimiters)).bind fun rest =>
    pure (Interleaved.item value :: rest)
  cases mayBeEmpty with
  | true => exact elements.optional.bind fun
      | none => pure []
      | some value => behind value
  | false => exact (elements.map some).bind fun
      | none => pure []
      | some value => behind value

theorem links {operator sign : Parser (Joint α × α)} (operands : Agrees parser other)
    (operators : Agrees operator sign) (more : Nat) :
    Agrees (Parser.links parser operator more) (Parser.links other sign more) := by
  induction more with
  | zero => exact exhausted
  | succ more ih =>
      refine operators.optional.bind fun value => ?_
      cases value with
      | none => exact pure []
      | some value => exact operands.bind fun _ => ih.bind fun _ => pure _

theorem binary {entries : List (Joint α × Parser α × Parser α)} (operands : Agrees parser other)
    (operators : ∀ entry ∈ entries, Agrees entry.2.1 entry.2.2) :
    Agrees (Parser.binary parser (entries.map fun entry => ⟨entry.1, entry.2.1⟩))
      (Parser.binary other (entries.map fun entry => ⟨entry.1, entry.2.2⟩)) := by
  let tagged (entry : Joint α × Parser α × Parser α) :
      Parser (Joint α × α) × Parser (Joint α × α) :=
    (entry.2.1.map (entry.1, ·), entry.2.2.map (entry.1, ·))
  have every : ∀ pair ∈ entries.map tagged, Agrees pair.1 pair.2 := by
    intro pair member
    obtain ⟨entry, among, rfl⟩ := List.mem_map.1 member
    exact (operators entry among).map _
  have table : Agrees (operatorOf (entries.map fun entry => ⟨entry.1, entry.2.1⟩))
      (operatorOf (entries.map fun entry => ⟨entry.1, entry.2.2⟩)) := by
    have choices := choice every
    rw [List.map_map, List.map_map] at choices
    rw [operatorOf, operatorOf, List.map_map, List.map_map]
    exact choices
  exact attempt (operands.bind fun _ => (withTurns (operands.links table)).bind fun _ => pure _)

/-! ### Nesting -/

theorem nested (agrees : Agrees parser other) (limit : Nat) :
    Agrees (Parser.nested limit parser) (Parser.nested limit other) := by
  intro turns left right level
  unfold Parser.nested
  simp only [level.depth]
  split
  · exact .error rfl level
  · have inner := agrees turns _ _ level.deepen
    simp only [level.depth] at inner
    exact inner.mapState fun _ _ after => after.rise

end Agrees

/-! ### Parsers that are alike -/

/-- Parsers that are put together in the same way, but for their labels, their expected texts and
what they record: one may say it differently from the other, or not say it at all. -/
inductive Alike : {α : Type} → Parser α → Parser α → Prop where
  | symm {α : Type} {parser other : Parser α} : Alike parser other → Alike other parser
  | pure {α : Type} (value : α) : Alike (Parser.pure value) (Parser.pure value)
  | exhausted {α : Type} : Alike (Parser.exhausted : Parser α) Parser.exhausted
  | fail {α : Type} (expected text : String) : Alike (Parser.fail expected : Parser α) (.fail text)
  | fatal {α : Type} (expected text : String) :
      Alike (Parser.fatal expected : Parser α) (.fatal text)
  | note (label text : String) : Alike (Parser.note label) (Parser.note text)
  | satisfy (test : Token → Bool) (expected text : String) :
      Alike (Parser.satisfy test expected) (Parser.satisfy test text)
  | endOfInput : Alike Parser.endOfInput Parser.endOfInput
  | map {α β : Type} {parser other : Parser α} (f : α → β) :
      Alike parser other → Alike (parser.map f) (other.map f)
  | filterMap {α β : Type} {parser other : Parser α} (f : α → Option β) (expected text : String) :
      Alike parser other → Alike (parser.filterMap f expected) (other.filterMap f text)
  | label {α : Type} {parser other : Parser α} (name : String) :
      Alike parser other → Alike (parser.label name) other
  | attempt {α : Type} {parser other : Parser α} :
      Alike parser other → Alike parser.attempt other.attempt
  | optional {α : Type} {parser other : Parser α} :
      Alike parser other → Alike parser.optional other.optional
  | pair {α β : Type} {first other : Parser α} {second further : Parser β} :
      Alike first other → Alike second further → Alike (first.pair second) (other.pair further)
  | sequence {α : Type} {pairs : List (Parser α × Parser α)} :
      (∀ pair ∈ pairs, Alike pair.1 pair.2) →
        Alike (Parser.sequence (pairs.map Prod.fst)) (Parser.sequence (pairs.map Prod.snd))
  | choice {α : Type} {pairs : List (Parser α × Parser α)} :
      (∀ pair ∈ pairs, Alike pair.1 pair.2) →
        Alike (Parser.choice (pairs.map Prod.fst)) (Parser.choice (pairs.map Prod.snd))
  | repetition {α : Type} {parser other : Parser α} (mayBeEmpty : Bool) :
      Alike parser other → Alike (parser.repetition mayBeEmpty) (other.repetition mayBeEmpty)
  | listWithDelimiters {α β γ δ : Type} {element other : Parser α} {delimiter mark : Parser δ}
      {opening opens : Parser β} {closing closes : Parser γ} (mayBeEmpty : Bool) :
      Alike element other → Alike delimiter mark → Alike opening opens → Alike closing closes →
        Alike (Parser.listWithDelimiters element delimiter opening closing mayBeEmpty)
          (Parser.listWithDelimiters other mark opens closes mayBeEmpty)
  | binary {α : Type} {operand other : Parser α} {entries : List (Joint α × Parser α × Parser α)} :
      Alike operand other → (∀ entry ∈ entries, Alike entry.2.1 entry.2.2) →
        Alike (Parser.binary operand (entries.map fun entry => ⟨entry.1, entry.2.1⟩))
          (Parser.binary other (entries.map fun entry => ⟨entry.1, entry.2.2⟩))
  | recursive {α : Type} {build rebuild : Parser α → Parser α} :
      (∀ entries, Alike ⟨unfolded build entries⟩ ⟨unfolded rebuild entries⟩) →
        Alike (Parser.recursive build) (Parser.recursive rebuild)
  | deferred {α : Type} {build rebuild : Unit → Parser α} :
      Alike (build ()) (rebuild ()) → Alike (Parser.deferred build) (Parser.deferred rebuild)
  | nested {α : Type} {parser other : Parser α} (limit : Nat) :
      Alike parser other → Alike (Parser.nested limit parser) (Parser.nested limit other)
  | recorded {α : Type} {parser other : Parser α} (label : String) :
      Alike parser other → Alike (Parser.recorded label parser) other
  | recordedWhen {α : Type} {parser other : Parser α} (label : String) (keep : α → Bool) :
      Alike parser other → Alike (Parser.recordedWhen label keep parser) other
  | noted {α : Type} {parser other : Parser α} (describe : α → String) :
      Alike parser other → Alike (parser.noted describe) other

namespace Alike

variable {α : Type}

theorem agrees {parser other : Parser α} (alike : Alike parser other) : Agrees parser other := by
  induction alike with
  | symm _ ih => exact ih.symm
  | pure value => exact .pure value
  | exhausted => exact .exhausted
  | fail expected text => exact .fail expected text
  | fatal expected text => exact .fatal expected text
  | note label text => exact .note label text
  | satisfy test expected text => exact .satisfy test expected text
  | endOfInput => exact .endOfInput
  | map f _ ih => exact ih.map f
  | filterMap f expected text _ ih => exact ih.filterMap f expected text
  | label name _ ih => exact ih.label name
  | attempt _ ih => exact ih.attempt
  | optional _ ih => exact ih.optional
  | pair _ _ first second => exact first.pair second
  | sequence _ ih => exact (Agrees.inOrder ih).attempt
  | choice _ ih => exact .choice ih
  | repetition mayBeEmpty _ ih => exact ih.repetition mayBeEmpty
  | listWithDelimiters mayBeEmpty _ _ _ _ element delimiter opening closing =>
      exact (element.interleaved delimiter mayBeEmpty).group opening closing
  | binary _ _ operand operators => exact operand.binary operators
  | recursive _ ih => exact fun turns left right level => ih turns turns left right level
  | deferred _ ih => exact fun turns left right level => ih turns left right level
  | nested limit _ ih => exact ih.nested limit
  | recorded label _ ih => exact ih.recorded label
  | recordedWhen label keep _ ih => exact ih.recordedWhen label keep
  | noted describe _ ih => exact ih.noted describe

/-- A parser that is built from the combinators is like itself. -/
theorem of_built {parser : Parser α} (built : Built parser) : Alike parser parser := by
  induction built with
  | pure value => exact .pure value
  | exhausted => exact .exhausted
  | fail expected => exact .fail expected expected
  | fatal expected => exact .fatal expected expected
  | note label => exact .note label label
  | satisfy test expected => exact .satisfy test expected expected
  | endOfInput => exact .endOfInput
  | map f _ ih => exact ih.map f
  | filterMap f expected _ ih => exact ih.filterMap f expected expected
  | label name _ ih => exact ((ih.label name).symm.label name).symm
  | attempt _ ih => exact ih.attempt
  | optional _ ih => exact ih.optional
  | pair _ _ first second => exact first.pair second
  | @sequence _ parsers _ ih =>
      have doubled : ∀ pair ∈ parsers.map fun parser => (parser, parser), Alike pair.1 pair.2 := by
        simpa using ih
      simpa [Function.comp_def] using Alike.sequence doubled
  | @choice _ parsers _ ih =>
      have doubled : ∀ pair ∈ parsers.map fun parser => (parser, parser), Alike pair.1 pair.2 := by
        simpa using ih
      simpa [Function.comp_def] using Alike.choice doubled
  | repetition mayBeEmpty _ ih => exact ih.repetition mayBeEmpty
  | listWithDelimiters mayBeEmpty _ _ _ _ element delimiter opening closing =>
      exact .listWithDelimiters mayBeEmpty element delimiter opening closing
  | @binary _ _ operators _ _ operand ih =>
      have doubled : ∀ entry ∈ operators.map fun operator =>
          (operator.toJoint, operator.parser, operator.parser), Alike entry.2.1 entry.2.2 := by
        simpa using ih
      simpa [Function.comp_def] using Alike.binary operand doubled
  | recursive _ ih => exact .recursive ih
  | deferred _ ih => exact .deferred ih
  | nested limit _ ih => exact ih.nested limit
  | recorded label _ ih => exact ((ih.recorded label).symm.recorded label).symm
  | recordedWhen label keep _ ih =>
      exact ((ih.recordedWhen label keep).symm.recordedWhen label keep).symm
  | noted describe _ ih => exact ((ih.noted describe).symm.noted describe).symm

end Alike

/-- Run on level states, a parser decides the same both times, and so does any parser that differs
from it only in its labels, its expected texts and what it records. -/
theorem agrees_of_alike {α : Type} {parser other : Parser α} (built : Built parser)
    (alike : Alike parser other) (turns : Nat) {left right : State} (level : left.Level right) :
    (parser.run turns left).Agrees (parser.run turns right) ∧
      (parser.run turns left).Agrees (other.run turns right) :=
  ⟨(Alike.of_built built).agrees turns left right level, alike.agrees turns left right level⟩

/-- Words up to a fatal failure, once more with other descriptions, in a state with a history and a
remembered failure: both repetitions take one word and fail fatally behind it. -/
theorem agrees_of_alike_words :
    let words := ((token "word").or (fatal "a word")).many
    let letters := recorded "letters"
      (((satisfy (fun token => token.kind == "word") "a letter").label "letter").or
        (fatal "no more")).many
    let left := State.start [⟨"word", "a", "a", .text "a", .start⟩]
    let right := (left.note "seen").remember ⟨["more"], ⟨1, []⟩, .root, false⟩
    Built words ∧ Alike words letters ∧ left.Level right ∧
      (words.run 2 left).Agrees (words.run 2 right) ∧
        (words.run 2 left).Agrees (letters.run 2 right) := by
  intro words letters left right
  have built : Built words := inferInstance
  have pairs : ∀ pair ∈ [(token "word",
      (satisfy (fun token => token.kind == "word") "a letter").label "letter"),
      (fatal "a word", fatal "no more")], Alike pair.1 pair.2 := by
    simp only [List.forall_mem_cons]
    exact ⟨((Alike.satisfy _ "a letter" "word").label "letter").symm, .fatal _ _, by simp⟩
  have alike : Alike words letters :=
    (((Alike.choice pairs).repetition true).symm.recorded "letters").symm
  have level : left.Level right := ⟨rfl, rfl, by simp [State.Mild, left, State.start], by
    simp [State.Mild, right, left, State.start, State.note, State.remember]⟩
  exact ⟨built, alike, level, agrees_of_alike built alike 2 level⟩

end Parser

end Curried
