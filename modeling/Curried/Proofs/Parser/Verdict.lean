import Curried.Proofs.Parser.Frame

/-!
# What a run decides

The verdict of a run is its value with the tokens behind it, or that it was refused, or what
stopped it.  Verdicts do not depend on the history, on remembered failures or on the position:
`read` is the verdict as a function of the tokens ahead, and every combinator has an equation
for it.  In these equations transactions, labels and records are gone.
-/

namespace Curried

/-- What stops a whole parse. -/
inductive Stop where
  /-- A fatal failure, with what it expected. -/
  | cut (expected : List String)
  /-- The run needs more turns than it was given. -/
  | exhausted

/-- What a run decides. -/
inductive Verdict (α : Type) where
  /-- The value, and the tokens behind it. -/
  | taken (value : α) (rest : List Token)
  /-- An ordinary failure. -/
  | refused
  /-- The end of the whole parse. -/
  | stopped (reason : Stop)

namespace Verdict

variable {α β γ : Type}

/-- Apply a function to the value. -/
def map (f : α → β) : Verdict α → Verdict β
  | .taken value rest => .taken (f value) rest
  | .refused => .refused
  | .stopped reason => .stopped reason

/-- Go on with the value and the tokens behind it. -/
def andThen (verdict : Verdict α) (next : α → List Token → Verdict β) : Verdict β :=
  match verdict with
  | .taken value rest => next value rest
  | .refused => .refused
  | .stopped reason => .stopped reason

/-- Turn to another verdict after a refusal. -/
def orElse (first second : Verdict α) : Verdict α :=
  match first with
  | .refused => second
  | decided => decided

@[simp]
theorem map_taken (f : α → β) (value : α) (rest : List Token) :
    (taken value rest).map f = taken (f value) rest := rfl

@[simp]
theorem map_refused (f : α → β) : (refused : Verdict α).map f = refused := rfl

@[simp]
theorem map_stopped (f : α → β) (reason : Stop) :
    (stopped reason : Verdict α).map f = stopped reason := rfl

@[simp]
theorem andThen_taken (value : α) (rest : List Token) (next : α → List Token → Verdict β) :
    (taken value rest).andThen next = next value rest := rfl

@[simp]
theorem andThen_refused (next : α → List Token → Verdict β) :
    (refused : Verdict α).andThen next = refused := rfl

@[simp]
theorem andThen_stopped (reason : Stop) (next : α → List Token → Verdict β) :
    (stopped reason : Verdict α).andThen next = stopped reason := rfl

@[simp]
theorem orElse_taken (value : α) (rest : List Token) (second : Verdict α) :
    (taken value rest).orElse second = taken value rest := rfl

@[simp]
theorem orElse_refused (second : Verdict α) : (refused : Verdict α).orElse second = second := rfl

@[simp]
theorem orElse_stopped (reason : Stop) (second : Verdict α) :
    (stopped reason : Verdict α).orElse second = stopped reason := rfl

theorem map_andThen (verdict : Verdict α) (next : α → List Token → Verdict β) (f : β → γ) :
    (verdict.andThen next).map f = verdict.andThen fun value rest => (next value rest).map f := by
  cases verdict <;> rfl

theorem andThen_assoc {δ : Type} (verdict : Verdict α) (next : α → List Token → Verdict β)
    (last : β → List Token → Verdict δ) :
    (verdict.andThen next).andThen last =
      verdict.andThen fun value rest => (next value rest).andThen last := by
  cases verdict <;> rfl

theorem taken_of_map {verdict : Verdict α} {f : α → β} {value : β} {rest : List Token}
    (takes : verdict.map f = .taken value rest) :
    ∃ inner, verdict = .taken inner rest ∧ f inner = value := by
  cases verdict with
  | taken inner behind =>
      obtain ⟨rfl, rfl⟩ : f inner = value ∧ behind = rest := by simpa using takes
      exact ⟨inner, rfl, rfl⟩
  | refused => simp at takes
  | stopped => simp at takes

theorem taken_of_andThen {verdict : Verdict α} {next : α → List Token → Verdict β} {value : β}
    {rest : List Token} (takes : verdict.andThen next = .taken value rest) :
    ∃ first middle, verdict = .taken first middle ∧ next first middle = .taken value rest := by
  cases verdict with
  | taken first middle => exact ⟨first, middle, rfl, takes⟩
  | refused => simp at takes
  | stopped => simp at takes

theorem taken_of_orElse {first second : Verdict α} {value : α} {rest : List Token}
    (takes : first.orElse second = .taken value rest) :
    first = .taken value rest ∨ (first = .refused ∧ second = .taken value rest) := by
  cases first with
  | taken => exact .inl takes
  | refused => exact .inr ⟨rfl, takes⟩
  | stopped => simp at takes

end Verdict

namespace Outcome

variable {α β : Type}

/-- What a run that ended so decides. -/
def verdict : Outcome α → Verdict α
  | .ok value state => .taken value state.input.rest
  | .error failure _ => if failure.fatal then .stopped (.cut failure.expected) else .refused
  | .exhausted => .stopped .exhausted

theorem verdict_map (f : α → β) (outcome : Outcome α) :
    (outcome.map f).verdict = outcome.verdict.map f := by
  cases outcome with
  | ok value state => rfl
  | error failure state =>
      simp only [map, verdict]
      split <;> rfl
  | exhausted => rfl

theorem verdict_mapState (f : State → State) (keeps : ∀ state, (f state).input = state.input)
    (outcome : Outcome α) : (outcome.mapState f).verdict = outcome.verdict := by
  cases outcome with
  | ok value state => simp [mapState, verdict, keeps]
  | error failure state => rfl
  | exhausted => rfl

/-- Going on with a run is going on with its verdict, if the rest of the run only depends on the
tokens ahead. -/
theorem verdict_andThen {start : State} {outcome : Outcome α} {next : α → State → Outcome β}
    {reading : α → List Token → Verdict β} (mild : start.Mild) (ends : outcome.Ends start.Leads)
    (goesOn : ∀ value after, start.Leads after → after.Mild →
      (next value after).verdict = reading value after.input.rest) :
    (outcome.andThen next).verdict = outcome.verdict.andThen reading := by
  cases outcome with
  | ok value after => exact goesOn value after ends (ends.mild mild)
  | error failure after =>
      simp only [andThen, verdict]
      split <;> rfl
  | exhausted => rfl

end Outcome

theorem State.input_leave (state : State) : state.leave.input = state.input := rfl

theorem State.mild_of_furthest {state : State} (nothing : state.furthest = none) : state.Mild := by
  intro failure member
  simp [nothing] at member

namespace Parser

variable {α β γ δ : Type}

/-- The verdict of a run, as a function of the turns, the depth and the tokens ahead. -/
def read (parser : Parser α) (turns depth : Nat) (tokens : List Token) : Verdict α :=
  (parser.run turns ⟨⟨0, tokens⟩, depth, none, .root⟩).verdict

/-- A parser whose verdicts do not depend on what was recorded before. -/
class Blind (parser : Parser α) : Prop where
  advances : Advances parser
  verdict_run : ∀ turns state, state.Mild →
    (parser.run turns state).verdict = parser.read turns state.depth state.input.rest

/-- The verdicts of a parser are given by a function of the turns, the depth and the tokens. -/
def ReadsAs (parser : Parser α) (reading : Nat → Nat → List Token → Verdict α) : Prop :=
  ∀ turns state, state.Mild →
    (parser.run turns state).verdict = reading turns state.depth state.input.rest

theorem ReadsAs.read_eq {parser : Parser α} {reading : Nat → Nat → List Token → Verdict α}
    (reads : parser.ReadsAs reading) (turns depth : Nat) (tokens : List Token) :
    parser.read turns depth tokens = reading turns depth tokens :=
  reads turns _ (State.mild_of_furthest rfl)

theorem ReadsAs.blind {parser : Parser α} {reading : Nat → Nat → List Token → Verdict α}
    (reads : parser.ReadsAs reading) (advances : Advances parser) : Blind parser :=
  ⟨advances, fun turns state mild => by rw [reads turns state mild, reads.read_eq]⟩

/-- What is behind a value is an end of the tokens ahead. -/
theorem Blind.suffix {parser : Parser α} [blind : Blind parser] {turns depth : Nat}
    {tokens rest : List Token} {value : α}
    (takes : parser.read turns depth tokens = .taken value rest) : rest <:+ tokens := by
  have ahead := blind.advances turns ⟨⟨0, tokens⟩, depth, none, .root⟩
  unfold read at takes
  cases run : parser.run turns ⟨⟨0, tokens⟩, depth, none, .root⟩ with
  | ok other after =>
      rw [run] at takes ahead
      obtain ⟨rfl, rfl⟩ : other = value ∧ after.input.rest = rest := by
        simpa [Outcome.verdict] using takes
      exact State.Leads.suffix ahead
  | error failure after =>
      rw [run] at takes
      simp only [Outcome.verdict] at takes
      split at takes <;> simp at takes
  | exhausted =>
      rw [run] at takes
      simp [Outcome.verdict] at takes

/-! ### The basic parsers -/

theorem readsAs_pure (value : α) :
    (Parser.pure value).ReadsAs fun _ _ tokens => .taken value tokens := fun _ _ _ => rfl

instance (value : α) : Blind (Parser.pure value) := (readsAs_pure value).blind (Keeps.pure value)

@[simp]
theorem read_pure (value : α) (turns depth : Nat) (tokens : List Token) :
    (Parser.pure value).read turns depth tokens = .taken value tokens := rfl

instance : Blind (Parser.exhausted : Parser α) :=
  ⟨fun _ _ => trivial, fun _ _ _ => rfl⟩

/-- The next token, if it passes a test. -/
def takeNext (test : Token → Bool) : List Token → Verdict Token
  | [] => .refused
  | token :: rest => if test token then .taken token rest else .refused

theorem readsAs_satisfy (test : Token → Bool) (expected : String) :
    (Parser.satisfy test expected).ReadsAs fun _ _ tokens => takeNext test tokens := by
  intro turns state mild
  have ordinary := State.fatal_failure mild expected
  obtain ⟨⟨position, tokens⟩, depth, furthest, trail⟩ := state
  cases tokens with
  | nil => simp [satisfy, State.peek, takeNext, Outcome.verdict, ordinary]
  | cons token rest =>
      simp only [satisfy, State.peek, takeNext, List.head?_cons]
      split
      · rfl
      · simp [Outcome.verdict, ordinary]

instance (test : Token → Bool) (expected : String) : Blind (Parser.satisfy test expected) :=
  (readsAs_satisfy test expected).blind (Keeps.satisfy test expected)

@[simp]
theorem read_satisfy (test : Token → Bool) (expected : String) (turns depth : Nat)
    (tokens : List Token) :
    (Parser.satisfy test expected).read turns depth tokens = takeNext test tokens :=
  (readsAs_satisfy test expected).read_eq turns depth tokens

instance (kind : String) : Blind (Parser.token kind) :=
  inferInstanceAs (Blind (Parser.satisfy _ _))

instance (kind : String) (value : TokenValue) : Blind (Parser.tokenValue kind value) :=
  inferInstanceAs (Blind (Parser.satisfy _ _))

theorem read_token (kind : String) (turns depth : Nat) (tokens : List Token) :
    (Parser.token kind).read turns depth tokens =
      takeNext (fun token => token.kind == kind) tokens :=
  read_satisfy _ _ turns depth tokens

theorem read_tokenValue (kind : String) (value : TokenValue) (turns depth : Nat)
    (tokens : List Token) :
    (Parser.tokenValue kind value).read turns depth tokens =
      takeNext (fun token => token.kind == kind && token.value == value) tokens :=
  read_satisfy _ _ turns depth tokens

theorem readsAs_endOfInput :
    Parser.endOfInput.ReadsAs fun _ _ tokens => if tokens = [] then .taken () [] else .refused := by
  intro turns state mild
  have ordinary := State.fatal_failure mild "EOF"
  obtain ⟨⟨position, tokens⟩, depth, furthest, trail⟩ := state
  cases tokens with
  | nil => rfl
  | cons token rest => simp [endOfInput, State.peek, Outcome.verdict, ordinary]

instance : Blind Parser.endOfInput := readsAs_endOfInput.blind Keeps.endOfInput

theorem read_endOfInput (turns depth : Nat) (tokens : List Token) :
    Parser.endOfInput.read turns depth tokens =
      if tokens = [] then .taken () [] else .refused :=
  readsAs_endOfInput.read_eq turns depth tokens

instance (label : String) : Blind (Parser.note label) :=
  ⟨Keeps.note label, fun _ _ _ => rfl⟩

/-! ### Combinators of one parser -/

section
variable {parser : Parser α} [blind : Blind parser]

theorem readsAs_map (f : α → β) :
    (parser.map f).ReadsAs fun turns depth tokens => (parser.read turns depth tokens).map f := by
  intro turns state mild
  exact (Outcome.verdict_map f _).trans (congrArg _ (blind.verdict_run turns state mild))

instance (f : α → β) : Blind (parser.map f) := (readsAs_map f).blind (Keeps.map blind.advances f)

@[simp]
theorem read_map (f : α → β) (turns depth : Nat) (tokens : List Token) :
    (parser.map f).read turns depth tokens = (parser.read turns depth tokens).map f :=
  (readsAs_map f).read_eq turns depth tokens

theorem readsAs_attempt : parser.attempt.ReadsAs parser.read := by
  intro turns state mild
  rw [← blind.verdict_run turns state mild]
  unfold attempt
  simp only
  cases parser.run turns state <;> rfl

instance : Blind parser.attempt := readsAs_attempt.blind (Keeps.attempt blind.advances)

@[simp]
theorem read_attempt (turns depth : Nat) (tokens : List Token) :
    parser.attempt.read turns depth tokens = parser.read turns depth tokens :=
  readsAs_attempt.read_eq turns depth tokens

/-- Carry on without the value after a refusal. -/
def orNone (tokens : List Token) : Verdict α → Verdict (Option α)
  | .taken value rest => .taken (some value) rest
  | .refused => .taken none tokens
  | .stopped reason => .stopped reason

theorem taken_of_orNone {tokens rest : List Token} {verdict : Verdict α} {value : Option α}
    (takes : orNone tokens verdict = .taken value rest) :
    (∃ inner, value = some inner ∧ verdict = .taken inner rest) ∨
      (value = none ∧ rest = tokens ∧ verdict = .refused) := by
  cases verdict with
  | taken inner behind =>
      obtain ⟨rfl, rfl⟩ : some inner = value ∧ behind = rest := by simpa [orNone] using takes
      exact .inl ⟨inner, rfl, rfl⟩
  | refused =>
      obtain ⟨rfl, rfl⟩ : none = value ∧ tokens = rest := by simpa [orNone] using takes
      exact .inr ⟨rfl, rfl, rfl⟩
  | stopped => simp [orNone] at takes

theorem readsAs_optional :
    parser.optional.ReadsAs fun turns depth tokens =>
      orNone tokens (parser.read turns depth tokens) := by
  intro turns state mild
  have same : (parser.attempt.run turns state).verdict =
    parser.read turns state.depth state.input.rest := readsAs_attempt turns state mild
  have back : ∀ failure after, parser.attempt.run turns state = .error failure after →
      after = state := by
    intro failure after fails
    unfold attempt at fails
    simp only at fails
    split at fails <;> simp_all
  simp only
  rw [← same]
  unfold optional
  simp only
  split
  · rename_i run
    rw [run]
    rfl
  · rename_i failure after run
    obtain rfl := back failure after run
    rw [run]
    split
    · rename_i fatal
      simp [Outcome.verdict, fatal, orNone]
    · rename_i ordinary
      rcases after.remember_cases failure with kept | replaced
      · simp [Outcome.verdict, ordinary, orNone, kept]
      · simp [Outcome.verdict, ordinary, orNone, replaced]
  · rename_i run
    rw [run]
    rfl

instance : Blind parser.optional := readsAs_optional.blind (Keeps.optional blind.advances)

@[simp]
theorem read_optional (turns depth : Nat) (tokens : List Token) :
    parser.optional.read turns depth tokens = orNone tokens (parser.read turns depth tokens) :=
  readsAs_optional.read_eq turns depth tokens

/-- Turn the value into another one, or refuse it. -/
def keepSome (f : α → Option β) : Verdict α → Verdict β
  | .taken value rest =>
      match f value with
      | some result => .taken result rest
      | none => .refused
  | .refused => .refused
  | .stopped reason => .stopped reason

theorem taken_of_keepSome {f : α → Option β} {verdict : Verdict α} {value : β}
    {rest : List Token} (takes : keepSome f verdict = .taken value rest) :
    ∃ inner, verdict = .taken inner rest ∧ f inner = some value := by
  cases verdict with
  | taken inner behind =>
      simp only [keepSome] at takes
      split at takes
      · rename_i result kept
        obtain ⟨rfl, rfl⟩ : result = value ∧ behind = rest := by simpa using takes
        exact ⟨inner, rfl, kept⟩
      · simp at takes
  | refused => simp [keepSome] at takes
  | stopped => simp [keepSome] at takes

theorem readsAs_filterMap (f : α → Option β) (expected : String) :
    (parser.filterMap f expected).ReadsAs fun turns depth tokens =>
      keepSome f (parser.read turns depth tokens) := by
  intro turns state mild
  have ordinary := State.fatal_failure mild expected
  simp only
  rw [← blind.verdict_run turns state mild]
  unfold filterMap
  simp only
  split
  · rename_i value after run
    rw [run]
    cases result : f value <;> simp [Outcome.verdict, keepSome, result, ordinary]
  · rename_i failure after run
    rw [run]
    simp only [Outcome.verdict]
    split <;> rfl
  · rename_i run
    rw [run]
    rfl

instance (f : α → Option β) (expected : String) : Blind (parser.filterMap f expected) :=
  (readsAs_filterMap f expected).blind (Keeps.filterMap blind.advances f expected)

@[simp]
theorem read_filterMap (f : α → Option β) (expected : String) (turns depth : Nat)
    (tokens : List Token) :
    (parser.filterMap f expected).read turns depth tokens =
      keepSome f (parser.read turns depth tokens) :=
  (readsAs_filterMap f expected).read_eq turns depth tokens

instance (test : α → Bool) (expected : String) : Blind (parser.verify test expected) :=
  inferInstanceAs (Blind (parser.filterMap _ expected))

@[simp]
theorem read_verify (test : α → Bool) (expected : String) (turns depth : Nat)
    (tokens : List Token) :
    (parser.verify test expected).read turns depth tokens =
      keepSome (fun value => if test value then some value else none)
        (parser.read turns depth tokens) :=
  read_filterMap _ expected turns depth tokens

theorem readsAs_nested (limit : Nat) :
    (Parser.nested limit parser).ReadsAs fun turns depth tokens =>
      if limit ≤ depth then
        .stopped (.cut ["at most " ++ toString limit ++ " levels of nesting"])
      else parser.read turns (depth + 1) tokens := by
  intro turns state mild
  unfold nested
  simp only
  split
  · rfl
  · have inner := blind.verdict_run turns { state with depth := state.depth + 1 } mild
    refine Eq.trans (Outcome.verdict_mapState _ ?_ _) inner
    exact fun _ => rfl

instance (limit : Nat) : Blind (Parser.nested limit parser) :=
  (readsAs_nested limit).blind (Keeps.nested blind.advances limit)

theorem read_nested (limit turns depth : Nat) (tokens : List Token) :
    (Parser.nested limit parser).read turns depth tokens =
      if limit ≤ depth then
        .stopped (.cut ["at most " ++ toString limit ++ " levels of nesting"])
      else parser.read turns (depth + 1) tokens :=
  (readsAs_nested limit).read_eq turns depth tokens

theorem readsAs_recorded (label : String) : (Parser.recorded label parser).ReadsAs parser.read := by
  intro turns state mild
  have inner := blind.verdict_run turns (state.enter label) mild
  exact (Outcome.verdict_mapState State.leave State.input_leave _).trans inner

instance (label : String) : Blind (Parser.recorded label parser) :=
  (readsAs_recorded label).blind (Keeps.recorded blind.advances label)

@[simp]
theorem read_recorded (label : String) (turns depth : Nat) (tokens : List Token) :
    (Parser.recorded label parser).read turns depth tokens = parser.read turns depth tokens :=
  (readsAs_recorded label).read_eq turns depth tokens

theorem readsAs_recordedWhen (label : String) (keep : α → Bool) :
    (Parser.recordedWhen label keep parser).ReadsAs parser.read := by
  intro turns state mild
  have inner := blind.verdict_run turns (state.enter label) mild
  refine Eq.trans ?_ inner
  unfold recordedWhen
  simp only
  split
  · rename_i value after run
    rw [run]
    simp only [Outcome.verdict]
    split <;> rfl
  · rename_i run
    rw [run]
    rfl
  · rename_i run
    rw [run]

instance (label : String) (keep : α → Bool) : Blind (Parser.recordedWhen label keep parser) :=
  (readsAs_recordedWhen label keep).blind (Keeps.recordedWhen blind.advances label keep)

@[simp]
theorem read_recordedWhen (label : String) (keep : α → Bool) (turns depth : Nat)
    (tokens : List Token) :
    (Parser.recordedWhen label keep parser).read turns depth tokens =
      parser.read turns depth tokens :=
  (readsAs_recordedWhen label keep).read_eq turns depth tokens

end

end Parser

end Curried
