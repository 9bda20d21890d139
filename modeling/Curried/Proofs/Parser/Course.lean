import Curried.Proofs.Parser.Reports

/-!
# Fatal failures cut through

The run of a parser is made of further runs, of the parsers that its combinators were applied to.
`TakesCourse` says, combinator by combinator, which runs those are and in which order they come.
Each of them is in the course twice, where it starts and where it ends, with the runs that it is
made of in between.

Behind the end of a run that failed fatally nothing starts any more.  Only the runs around it end,
every one with that very failure, and so does the run whose course it is.
-/

namespace Curried

/-! ### Events -/

/-- A run of a parser, whatever the type of its values. -/
structure Run : Type 1 where
  {Value : Type}
  parser : Parser Value
  /-- The bound on turns. -/
  turns : Nat
  /-- The state that the run starts from. -/
  state : State

/-- What happens in the course of a run: one of the runs that it is made of starts or ends. -/
inductive Event : Type 1 where
  | starts (run : Run)
  | ends (run : Run)

namespace Outcome

variable {α β : Type}

/-- The failure of a run that fails. -/
def failure? : Outcome α → Option Failure
  | .error failure _ => some failure
  | .ok _ _ | .exhausted => none

/-- What happens behind a success. -/
def goingOn (more : α → State → List Event) : Outcome α → List Event
  | .ok value after => more value after
  | .error _ _ | .exhausted => []

theorem eq_error_of_failure? {outcome : Outcome α} {failure : Failure}
    (fails : outcome.failure? = some failure) : ∃ after, outcome = .error failure after := by
  cases outcome with
  | ok value after => simp [failure?] at fails
  | error other after =>
      obtain rfl : other = failure := Option.some.inj fails
      exact ⟨after, rfl⟩
  | exhausted => simp [failure?] at fails

@[simp] theorem failure?_error (failure : Failure) (after : State) :
    (Outcome.error failure after : Outcome α).failure? = some failure := rfl

@[simp] theorem failure?_map (f : α → β) (outcome : Outcome α) :
    (outcome.map f).failure? = outcome.failure? := by
  cases outcome <;> rfl

@[simp] theorem failure?_mapState (f : State → State) (outcome : Outcome α) :
    (outcome.mapState f).failure? = outcome.failure? := by
  cases outcome <;> rfl

end Outcome

/-- The failure of the run, if it fails. -/
def Run.failure? (run : Run) : Option Failure :=
  (run.parser.run run.turns run.state).failure?

namespace Event

/-- A run ends with the failure. -/
def EndsWith (failure : Failure) (event : Event) : Prop :=
  ∃ run, event = .ends run ∧ run.failure? = some failure

/-- A fatal failure of one of the runs is the last failure, and behind it there are only runs that
end with it. -/
def CutsThrough (events : List Event) (last : Option Failure) : Prop :=
  ∀ before run behind failure, events = before ++ .ends run :: behind →
    run.failure? = some failure → failure.fatal = true →
      last = some failure ∧ ∀ event ∈ behind, EndsWith failure event

namespace CutsThrough

variable {events others : List Event} {last final : Option Failure}

theorem nil (last : Option Failure) : CutsThrough [] last := by
  intro before run behind failure split
  simp at split

theorem starts (run : Run) : CutsThrough [.starts run] none := by
  intro before other behind failure split
  cases before <;> simp at split

theorem ends (run : Run) : CutsThrough [.ends run] run.failure? := by
  intro before other behind failure split fails _
  cases before with
  | nil =>
      obtain ⟨rfl, rfl⟩ : run = other ∧ behind = [] := by simpa using split
      exact ⟨fails, by simp⟩
  | cons first before => simp at split

/-- Behind a fatal failure only more runs may end with it. -/
theorem append (front : CutsThrough events last) (rest : CutsThrough others final)
    (passesOn : ∀ failure, last = some failure → failure.fatal = true →
      final = some failure ∧ ∀ event ∈ others, EndsWith failure event) :
    CutsThrough (events ++ others) final := by
  intro before run behind failure split fails fatal
  rcases List.append_eq_append_iff.1 split with ⟨between, -, inside⟩ | ⟨between, inside, same⟩
  · exact rest between run behind failure inside fails fatal
  · cases between with
    | nil => exact rest [] run behind failure same.symm fails fatal
    | cons event between =>
        obtain ⟨rfl, rfl⟩ := List.cons.inj same
        obtain ⟨reported, ending⟩ := front before run between failure inside fails fatal
        obtain ⟨reported', ending'⟩ := passesOn failure reported fatal
        refine ⟨reported', fun event member => ?_⟩
        exact (List.mem_append.1 member).elim (ending event) (ending' event)

/-- Behind a run that does not fail anything may happen. -/
theorem followed (front : CutsThrough events none) (rest : CutsThrough others final) :
    CutsThrough (events ++ others) final :=
  front.append rest (by simp)

/-- What is made of an outcome has to fail in the same way if the failure is fatal. -/
theorem imp (cuts : CutsThrough events last)
    (passesOn : ∀ failure, last = some failure → failure.fatal = true → final = some failure) :
    CutsThrough events final := by
  intro before run behind failure split fails fatal
  obtain ⟨reported, ending⟩ := cuts before run behind failure split fails fatal
  exact ⟨passesOn failure reported fatal, ending⟩

/-- The runs that a run is made of, with its start and its end around them. -/
theorem within (run : Run) (cuts : CutsThrough events run.failure?) :
    CutsThrough (.starts run :: events ++ [.ends run]) run.failure? := by
  have started : CutsThrough ([.starts run] ++ events) run.failure? := (starts run).followed cuts
  refine started.append (ends run) fun failure fails _ => ⟨fails, fun event member => ?_⟩
  exact ⟨run, List.mem_singleton.1 member, fails⟩

theorem andThen {α β : Type} {outcome : Outcome α} {more : α → State → List Event}
    {next : α → State → Outcome β} (first : CutsThrough events outcome.failure?)
    (goesOn : ∀ value after, CutsThrough (more value after) (next value after).failure?) :
    CutsThrough (events ++ outcome.goingOn more) (outcome.andThen next).failure? := by
  cases outcome with
  | ok value after => exact followed first (goesOn value after)
  | error failure after =>
      exact first.append (nil _) fun _ fails _ => ⟨fails, by simp [Outcome.goingOn]⟩
  | exhausted => exact followed first (nil _)

end CutsThrough

end Event

namespace Parser

/-! ### The runs that a run is made of -/

/-- For every run of a parser, the starts and ends of the runs that it is made of. -/
abbrev Course := Nat → State → List Event

namespace Course

variable {α β : Type}

/-- There is no run inside. -/
def nothing : Course := fun _ _ => []

/-- The run of the parser is one of the runs inside. -/
def within (course : Course) (parser : Parser α) : Course := fun turns state =>
  .starts ⟨parser, turns, state⟩ :: course turns state ++ [.ends ⟨parser, turns, state⟩]

/-- A run of the parser and, behind a success, a run of the parser made from its value. -/
def andThen (course : Course) (parser : Parser α) (courses : α → Course) (next : α → Parser β) :
    Course := fun turns state =>
  course.within parser turns state ++
    (parser.run turns state).goingOn fun value after =>
      (courses value).within (next value) turns after

/-- Each alternative runs if the one before it failed and its failure is not fatal. -/
def choice : List (Parser α × Course) → Course
  | [], _, _ => []
  | (parser, course) :: others, turns, state =>
      course.within parser turns state ++
        match parser.run turns state with
        | .error failure _ => if failure.fatal then [] else choice others turns state
        | .ok _ _ | .exhausted => []

/-- The parser runs again behind each success that takes a token. -/
def repeated (course : Course) (parser : Parser α) : Nat → Course
  | 0 => nothing
  | left + 1 => fun turns before =>
      course.within parser turns before ++
        (parser.optional.run turns before).goingOn fun value after =>
          match value with
          | none => []
          | some _ =>
              if after.position = before.position then []
              else repeated course parser left turns after

/-- The parser runs once and, behind a success that takes a token, as often as it can. -/
def manyOne (course : Course) (parser : Parser α) : Course := fun turns before =>
  course.within parser turns before ++
    (parser.attempt.run turns before).goingOn fun _ after =>
      if after.position = before.position then [] else course.repeated parser turns turns after

end Course

/-- The runs of the parser are made of the runs in the course.  What is inside of the run of a
parser that a combinator was applied to is the course of that parser. -/
inductive TakesCourse : {α : Type} → Parser α → Course → Prop where
  | pure {α : Type} (value : α) : TakesCourse (Parser.pure value) .nothing
  | exhausted {α : Type} : TakesCourse (Parser.exhausted : Parser α) .nothing
  | fail {α : Type} (expected : String) : TakesCourse (Parser.fail expected : Parser α) .nothing
  | fatal {α : Type} (expected : String) : TakesCourse (Parser.fatal expected : Parser α) .nothing
  | note (label : String) : TakesCourse (Parser.note label) .nothing
  | satisfy (test : Token → Bool) (expected : String) :
      TakesCourse (Parser.satisfy test expected) .nothing
  | endOfInput : TakesCourse Parser.endOfInput .nothing
  | map {α β : Type} {parser : Parser α} {course : Course} (f : α → β) :
      TakesCourse parser course → TakesCourse (parser.map f) (course.within parser)
  | filterMap {α β : Type} {parser : Parser α} {course : Course} (f : α → Option β)
      (expected : String) :
      TakesCourse parser course → TakesCourse (parser.filterMap f expected) (course.within parser)
  | label {α : Type} {parser : Parser α} {course : Course} (name : String) :
      TakesCourse parser course → TakesCourse (parser.label name) (course.within parser)
  | attempt {α : Type} {parser : Parser α} {course : Course} :
      TakesCourse parser course → TakesCourse parser.attempt (course.within parser)
  | optional {α : Type} {parser : Parser α} {course : Course} :
      TakesCourse parser course → TakesCourse parser.optional (course.within parser)
  | bind {α β : Type} {parser : Parser α} {course : Course} {next : α → Parser β}
      {courses : α → Course} :
      TakesCourse parser course → (∀ value, TakesCourse (next value) (courses value)) →
        TakesCourse (parser >>= next) (course.andThen parser courses next)
  | withTurns {α : Type} {family : Nat → Parser α} {courses : Nat → Course} :
      (∀ turns, TakesCourse (family turns) (courses turns)) →
        TakesCourse (Parser.withTurns family) fun turns =>
          (courses turns).within (family turns) turns
  | choice {α : Type} {pairs : List (Parser α × Course)} :
      (∀ pair ∈ pairs, TakesCourse pair.1 pair.2) →
        TakesCourse (Parser.choice (pairs.map Prod.fst)) (.choice pairs)
  | repeated {α : Type} {parser : Parser α} {course : Course} (left : Nat) :
      TakesCourse parser course →
        TakesCourse (Parser.repeated parser left) (course.repeated parser left)
  | manyOne {α : Type} {parser : Parser α} {course : Course} :
      TakesCourse parser course → TakesCourse parser.manyOne (course.manyOne parser)
  | recursive {α : Type} {build : Parser α → Parser α} {courses : Nat → Course} :
      (∀ entries, TakesCourse ⟨unfolded build entries⟩ (courses entries)) →
        TakesCourse (Parser.recursive build) fun turns =>
          (courses turns).within ⟨unfolded build turns⟩ turns
  | deferred {α : Type} {build : Unit → Parser α} {course : Course} :
      TakesCourse (build ()) course →
        TakesCourse (Parser.deferred build) (course.within (build ()))
  | nested {α : Type} {parser : Parser α} {course : Course} (limit : Nat) :
      TakesCourse parser course → TakesCourse (Parser.nested limit parser) fun turns state =>
        if limit ≤ state.depth then []
        else course.within parser turns { state with depth := state.depth + 1 }
  | recorded {α : Type} {parser : Parser α} {course : Course} (label : String) :
      TakesCourse parser course → TakesCourse (Parser.recorded label parser) fun turns state =>
        course.within parser turns (state.enter label)
  | recordedWhen {α : Type} {parser : Parser α} {course : Course} (label : String)
      (keep : α → Bool) :
      TakesCourse parser course →
        TakesCourse (Parser.recordedWhen label keep parser) fun turns state =>
          course.within parser turns (state.enter label)

variable {α β : Type}

/-- A fatal failure in the course of a run of the parser is the failure of the run. -/
def CutsThrough (parser : Parser α) (course : Course) : Prop :=
  ∀ turns state, Event.CutsThrough (course turns state) (parser.run turns state).failure?

namespace CutsThrough

variable {parser : Parser α} {course : Course}

/-- Nothing runs inside of a parser that is not made of others. -/
theorem nothing (parser : Parser α) : CutsThrough parser .nothing := fun _ _ => .nil _

theorem within (cuts : CutsThrough parser course) : CutsThrough parser (course.within parser) :=
  fun turns state => .within ⟨parser, turns, state⟩ (cuts turns state)

/-- A combinator that runs one parser has to pass its fatal failures on. -/
theorem around {outer : Parser β} (cuts : CutsThrough parser course)
    (passesOn : ∀ turns state failure after, parser.run turns state = .error failure after →
      failure.fatal = true → (outer.run turns state).failure? = some failure) :
    CutsThrough outer (course.within parser) := by
  intro turns state
  refine (cuts.within turns state).imp fun failure fails fatal => ?_
  obtain ⟨after, run⟩ := Outcome.eq_error_of_failure? fails
  exact passesOn turns state failure after run fatal

theorem map (cuts : CutsThrough parser course) (f : α → β) :
    CutsThrough (parser.map f) (course.within parser) :=
  cuts.around fun turns state failure after run _ => by simp [Parser.map, run]

theorem filterMap (cuts : CutsThrough parser course) (f : α → Option β) (expected : String) :
    CutsThrough (parser.filterMap f expected) (course.within parser) :=
  cuts.around fun turns state failure after run _ => by simp [Parser.filterMap, run]

/-- A fatal failure keeps its description. -/
theorem label (cuts : CutsThrough parser course) (name : String) :
    CutsThrough (parser.label name) (course.within parser) :=
  cuts.around fun turns state failure after run fatal => by
    simp [Parser.label, run, Failure.relabel, fatal]

theorem attempt (cuts : CutsThrough parser course) :
    CutsThrough parser.attempt (course.within parser) :=
  cuts.around fun turns state failure after run _ => by simp [Parser.attempt, run]

theorem optional (cuts : CutsThrough parser course) :
    CutsThrough parser.optional (course.within parser) :=
  cuts.around fun turns state failure after run fatal => by
    simp [Parser.optional, Parser.attempt, run, fatal]

theorem bind {next : α → Parser β} {courses : α → Course} (first : CutsThrough parser course)
    (second : ∀ value, CutsThrough (next value) (courses value)) :
    CutsThrough (parser >>= next) (course.andThen parser courses next) :=
  fun turns state => (first.within turns state).andThen fun value after =>
    (second value).within turns after

/-- Only failures that are not fatal are kept while the alternatives are tried. -/
theorem alternatives {pairs : List (Parser α × Course)}
    (all : ∀ pair ∈ pairs, CutsThrough pair.1 pair.2) (failures : List Failure) :
    CutsThrough (Parser.alternatives (pairs.map Prod.fst) failures) (.choice pairs) := by
  induction pairs generalizing failures with
  | nil => exact fun _ _ => .nil _
  | cons pair others ih =>
      obtain ⟨parser, course⟩ := pair
      obtain ⟨first, rest⟩ := List.forall_mem_cons.1 all
      intro turns state
      have tried := first.within turns state
      simp only [List.map_cons, Course.choice, Parser.alternatives, Parser.attempt]
      cases run : parser.run turns state with
      | ok value after =>
          rw [run] at tried
          exact Event.CutsThrough.followed tried (.nil _)
      | error failure after =>
          rw [run] at tried
          by_cases fatal : failure.fatal
          · simp only [fatal, if_true]
            exact tried.append (.nil _) fun _ fails _ => ⟨fails, by simp⟩
          · simp only [fatal, Bool.false_eq_true, if_false]
            refine tried.append (ih rest _ turns state) fun other fails fatal' => ?_
            obtain rfl : failure = other := Option.some.inj fails
            exact absurd fatal' fatal
      | exhausted =>
          rw [run] at tried
          exact Event.CutsThrough.followed tried (.nil _)

/-- A single alternative is no choice, but it runs all the same. -/
theorem choice {pairs : List (Parser α × Course)}
    (all : ∀ pair ∈ pairs, CutsThrough pair.1 pair.2) :
    CutsThrough (Parser.choice (pairs.map Prod.fst)) (.choice pairs) := by
  match pairs, all with
  | [], all => exact alternatives all []
  | [(only, course)], all =>
      intro turns state
      have tried := (all _ (List.mem_singleton.2 rfl)).within turns state
      have nothing_else : Course.choice [(only, course)] turns state =
          course.within only turns state := by
        simp only [Course.choice]
        split <;> simp
      rw [nothing_else]
      exact tried
  | _ :: _ :: _, all => exact alternatives all []

theorem repeated (cuts : CutsThrough parser course) (left : Nat) :
    CutsThrough (Parser.repeated parser left) (course.repeated parser left) := by
  induction left with
  | zero => exact nothing _
  | succ left ih =>
      intro turns before
      refine (cuts.optional turns before).andThen fun value after => ?_
      cases value with
      | none => exact .nil _
      | some value =>
          simp only
          split
          · exact .nil _
          · rw [Outcome.failure?_map]
            exact ih turns after

theorem manyOne (cuts : CutsThrough parser course) :
    CutsThrough parser.manyOne (course.manyOne parser) := by
  intro turns before
  refine (cuts.attempt turns before).andThen fun value after => ?_
  split
  · exact .nil _
  · rw [Outcome.failure?_map]
    exact cuts.repeated turns turns after

theorem nested (cuts : CutsThrough parser course) (limit : Nat) :
    CutsThrough (Parser.nested limit parser) fun turns state =>
      if limit ≤ state.depth then []
      else course.within parser turns { state with depth := state.depth + 1 } := by
  intro turns state
  unfold Parser.nested
  simp only
  split
  · exact .nil _
  · rw [Outcome.failure?_mapState]
    exact cuts.within turns _

theorem recorded (cuts : CutsThrough parser course) (label : String) :
    CutsThrough (Parser.recorded label parser) fun turns state =>
      course.within parser turns (state.enter label) := by
  intro turns state
  unfold Parser.recorded
  rw [Outcome.failure?_mapState]
  exact cuts.within turns _

theorem recordedWhen (cuts : CutsThrough parser course) (label : String) (keep : α → Bool) :
    CutsThrough (Parser.recordedWhen label keep parser) fun turns state =>
      course.within parser turns (state.enter label) := by
  intro turns state
  have inside := cuts.within turns (state.enter label)
  unfold Parser.recordedWhen
  simp only
  cases run : parser.run turns (state.enter label) with
  | ok value after => rwa [run] at inside
  | error failure after => rwa [run] at inside
  | exhausted => rwa [run] at inside

end CutsThrough

/-- No combinator swallows a fatal failure, replaces it or runs anything behind it. -/
theorem TakesCourse.cutsThrough {parser : Parser α} {course : Course}
    (takes : TakesCourse parser course) : CutsThrough parser course := by
  induction takes with
  | pure value => exact .nothing _
  | exhausted => exact .nothing _
  | fail expected => exact .nothing _
  | fatal expected => exact .nothing _
  | note label => exact .nothing _
  | satisfy test expected => exact .nothing _
  | endOfInput => exact .nothing _
  | map f _ ih => exact ih.map f
  | filterMap f expected _ ih => exact ih.filterMap f expected
  | label name _ ih => exact ih.label name
  | attempt _ ih => exact ih.attempt
  | optional _ ih => exact ih.optional
  | bind _ _ first second => exact first.bind second
  | withTurns _ ih => exact fun turns state => (ih turns).within turns state
  | choice _ ih => exact .choice ih
  | repeated left _ ih => exact ih.repeated left
  | manyOne _ ih => exact ih.manyOne
  | recursive _ ih => exact fun turns state => (ih turns).within turns state
  | deferred _ ih => exact ih.within
  | nested limit _ ih => exact ih.nested limit
  | recorded label _ ih => exact ih.recorded label
  | recordedWhen label keep _ ih => exact ih.recordedWhen label keep

/-! ### Every parser has a course -/

/-- Where it is determined what the runs of a parser pass over, it is also determined what they are
made of. -/
theorem PassesOver.exists_course {parser : Parser α} {log : Log} (passes : PassesOver parser log) :
    ∃ course, TakesCourse parser course := by
  induction passes with
  | pure value => exact ⟨_, .pure value⟩
  | exhausted => exact ⟨_, .exhausted⟩
  | fail expected => exact ⟨_, .fail expected⟩
  | fatal expected => exact ⟨_, .fatal expected⟩
  | note label => exact ⟨_, .note label⟩
  | satisfy test expected => exact ⟨_, .satisfy test expected⟩
  | endOfInput => exact ⟨_, .endOfInput⟩
  | map f _ ih => exact ih.elim fun _ takes => ⟨_, takes.map f⟩
  | filterMap f expected _ ih => exact ih.elim fun _ takes => ⟨_, takes.filterMap f expected⟩
  | label name _ ih => exact ih.elim fun _ takes => ⟨_, takes.label name⟩
  | attempt _ ih => exact ih.elim fun _ takes => ⟨_, takes.attempt⟩
  | optional _ ih => exact ih.elim fun _ takes => ⟨_, takes.optional⟩
  | bind _ _ first second =>
      obtain ⟨_, takes⟩ := first
      obtain ⟨_, takes'⟩ := Classical.skolem.1 second
      exact ⟨_, takes.bind takes'⟩
  | withTurns _ ih => exact (Classical.skolem.1 ih).elim fun _ takes => ⟨_, .withTurns takes⟩
  | choice _ ih =>
      obtain ⟨pairs, same, all⟩ := exists_pairs (List.forall_mem_map.2 ih)
      exact same ▸ ⟨_, .choice all⟩
  | repeated left _ ih => exact ih.elim fun _ takes => ⟨_, takes.repeated left⟩
  | manyOne _ ih => exact ih.elim fun _ takes => ⟨_, takes.manyOne⟩
  | recursive _ ih => exact (Classical.skolem.1 ih).elim fun _ takes => ⟨_, .recursive takes⟩
  | deferred _ ih => exact ih.elim fun _ takes => ⟨_, takes.deferred⟩
  | nested limit _ ih => exact ih.elim fun _ takes => ⟨_, takes.nested limit⟩
  | recorded label _ ih => exact ih.elim fun _ takes => ⟨_, takes.recorded label⟩
  | recordedWhen label keep _ ih => exact ih.elim fun _ takes => ⟨_, takes.recordedWhen label keep⟩

/-- If any run in the course of a run fails fatally, the whole run fails with that very failure, and
behind it no run starts: the runs around it end, each with the same failure. -/
theorem fatal_cuts_through {parser : Parser α} (built : Built parser) (turns : Nat)
    (state : State) :
    (∃ course, TakesCourse parser course) ∧
      ∀ course, TakesCourse parser course → ∀ before run behind failure,
        course turns state = before ++ .ends run :: behind →
        run.failure? = some failure → failure.fatal = true →
          (∃ after, parser.run turns state = .error failure after) ∧
            ∀ event ∈ behind, ∃ outer, event = .ends outer ∧ outer.failure? = some failure := by
  obtain ⟨_, passes⟩ := built.logged
  refine ⟨passes.exists_course, ?_⟩
  intro course takes before run behind failure split fails fatal
  obtain ⟨reported, ending⟩ :=
    takes.cutsThrough turns state before run behind failure split fails fatal
  exact ⟨Outcome.eq_error_of_failure? reported, ending⟩

/-- A repetition of labelled alternatives stops where the second of them fails fatally. -/
theorem fatal_cuts_through_halt :
    let halt : Parser Token := fatal "halt"
    let item := (choice [token "word", halt, token "number"]).label "item"
    let start := State.start [⟨"number", "1", "1", .text "1", .start⟩]
    let halted := start.fatal "halt"
    ∃ course before behind, Built item.many ∧ TakesCourse item.many course ∧
      course 2 start = before ++ .ends ⟨halt, 2, start⟩ :: behind ∧
      (∃ after, item.many.run 2 start = .error halted after) ∧
      ∀ event ∈ behind, ∃ outer, event = .ends outer ∧ outer.failure? = some halted := by
  intro halt item start halted
  have built : Built item.many := inferInstance
  have one (kind : String) : TakesCourse (token kind) .nothing := .satisfy _ kind
  let pairs := [(token "word", Course.nothing), (halt, .nothing), (token "number", .nothing)]
  have each : ∀ pair ∈ pairs, TakesCourse pair.1 pair.2 := by
    simpa [pairs] using ⟨one "word", .fatal "halt", one "number"⟩
  let inside := ((Course.choice pairs).within (choice (pairs.map Prod.fst))).repeated item
  let course : Course := fun turns => (inside turns).within (item.repeated turns) turns
  have takes : TakesCourse item.many course :=
    .withTurns fun left => (TakesCourse.choice each |>.label "item").repeated left
  obtain ⟨before, behind, split⟩ : ∃ before behind,
      course 2 start = before ++ .ends ⟨halt, 2, start⟩ :: behind :=
    ⟨[_, _, _, _, _, _], [_, _, _], rfl⟩
  exact ⟨course, before, behind, built, takes, split,
    (fatal_cuts_through built 2 start).2 course takes before _ behind halted split rfl rfl⟩

end Parser

end Curried
