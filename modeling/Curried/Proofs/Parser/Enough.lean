import Curried.Proofs.Parser.Reading

/-!
# Turns enough

A run is exhausted only if it was given too few turns.  Every turn of a loop takes a token, or it
is the last one, and a rule that is entered behind a token finds fewer tokens ahead.  So a number
of turns that is larger than the number of tokens is enough.
-/

namespace Curried

/-- A verdict other than exhaustion. -/
def Verdict.Decided {α : Type} (verdict : Verdict α) : Prop := verdict ≠ .stopped .exhausted

namespace Verdict.Decided

variable {α β : Type}

theorem taken (value : α) (rest : List Token) : (Verdict.taken value rest).Decided := by
  simp [Decided]

theorem refused : (Verdict.refused : Verdict α).Decided := by simp [Decided]

theorem cut (expected : List String) : (Verdict.stopped (.cut expected) : Verdict α).Decided := by
  simp [Decided]

theorem map {verdict : Verdict α} (decided : verdict.Decided) (f : α → β) :
    (verdict.map f).Decided := by
  cases verdict with
  | taken value rest => exact taken _ rest
  | refused => exact refused
  | stopped reason =>
      intro stops
      cases stops
      exact decided rfl

theorem andThen {verdict : Verdict α} {next : α → List Token → Verdict β}
    (decided : verdict.Decided)
    (goesOn : ∀ value rest, verdict = .taken value rest → (next value rest).Decided) :
    (verdict.andThen next).Decided := by
  cases verdict with
  | taken value rest => exact goesOn value rest rfl
  | refused => exact refused
  | stopped reason =>
      intro stops
      cases stops
      exact decided rfl

theorem orElse {first second : Verdict α} (decided : first.Decided) (other : second.Decided) :
    (first.orElse second).Decided := by
  cases first with
  | refused => exact other
  | _ => exact decided

end Verdict.Decided

namespace Parser

variable {α β γ δ : Type}

/-- A parser that takes a token whenever it takes anything. -/
class Progresses (parser : Parser α) : Prop where
  shorter : ∀ turns depth tokens value rest,
    parser.read turns depth tokens = .taken value rest → rest.length < tokens.length

/-- A parser that is decided on fewer tokens than the bound, if there are as many turns. -/
class Enough (turns bound : Nat) (parser : Parser α) : Prop where
  decided : bound ≤ turns → ∀ depth tokens, tokens.length < bound →
    (parser.read turns depth tokens).Decided

/-! ### Progress -/

namespace Progresses

theorem of_takeNext {test : Token → Bool} {tokens rest : List Token} {token : Token}
    (takes : takeNext test tokens = .taken token rest) : rest.length < tokens.length := by
  cases tokens with
  | nil => cases takes
  | cons first others =>
      simp only [takeNext] at takes
      split at takes
      · cases takes
        exact Nat.lt_succ_self _
      · cases takes

instance (test : Token → Bool) (expected : String) : Progresses (Parser.satisfy test expected) :=
  ⟨fun turns depth tokens value rest takes => by
    rw [read_satisfy] at takes
    exact of_takeNext takes⟩

instance (kind : String) : Progresses (Parser.token kind) :=
  inferInstanceAs (Progresses (Parser.satisfy _ _))

instance (kind : String) (value : TokenValue) : Progresses (Parser.tokenValue kind value) :=
  inferInstanceAs (Progresses (Parser.satisfy _ _))

section
variable {parser : Parser α} [Blind parser] [progress : Progresses parser]

instance (f : α → β) : Progresses (parser.map f) :=
  ⟨fun turns depth tokens value rest takes => by
    rw [read_map] at takes
    obtain ⟨inner, reads, _⟩ := Verdict.taken_of_map takes
    exact progress.shorter turns depth tokens inner rest reads⟩

instance (f : α → Option β) (expected : String) : Progresses (parser.filterMap f expected) :=
  ⟨fun turns depth tokens value rest takes => by
    rw [read_filterMap] at takes
    obtain ⟨inner, reads, _⟩ := taken_of_keepSome takes
    exact progress.shorter turns depth tokens inner rest reads⟩

instance (test : α → Bool) (expected : String) : Progresses (parser.verify test expected) :=
  inferInstanceAs (Progresses (parser.filterMap _ expected))

instance (describe : α → String) : Progresses (parser.noted describe) :=
  ⟨fun turns depth tokens value rest takes => by
    rw [read_noted] at takes
    exact progress.shorter turns depth tokens value rest takes⟩

instance : Progresses parser.manyOne :=
  ⟨fun turns depth tokens value rest takes => by
    rw [read_manyOne] at takes
    obtain ⟨first, middle, reads, goes⟩ := Verdict.taken_of_andThen takes
    have shorter := progress.shorter turns depth tokens first middle reads
    rw [if_neg (Nat.ne_of_lt shorter)] at goes
    obtain ⟨_, again, _⟩ := Verdict.taken_of_map goes
    exact Nat.lt_of_le_of_lt (Blind.suffix again).length_le shorter⟩

end

section
variable {first : Parser α} {second : Parser β} [Blind first] [Blind second]
  [progress : Progresses first]

instance : Progresses (first.pair second) :=
  ⟨fun turns depth tokens value rest takes => by
    obtain ⟨middle, reads, goes⟩ := taken_of_pair takes
    exact Nat.lt_of_le_of_lt (Blind.suffix goes).length_le
      (progress.shorter turns depth tokens value.1 middle reads)⟩

instance : Progresses (first.keepLeft second) :=
  inferInstanceAs (Progresses ((first.pair second).map _))

instance : Progresses (first.keepRight second) :=
  inferInstanceAs (Progresses ((first.pair second).map _))

end

/-- Alternatives that take a token. -/
class All (parsers : List (Parser α)) : Prop where
  shorter : ∀ turns depth tokens value rest,
    readFirst parsers turns depth tokens = .taken value rest → rest.length < tokens.length

instance : All ([] : List (Parser α)) := ⟨fun _ _ _ _ _ takes => by cases takes⟩

instance {parser : Parser α} {others : List (Parser α)} [first : Progresses parser]
    [rest : All others] : All (parser :: others) :=
  ⟨fun turns depth tokens value behind takes => by
    rcases Verdict.taken_of_orElse takes with takes | ⟨_, takes⟩
    · exact first.shorter turns depth tokens value behind takes
    · exact rest.shorter turns depth tokens value behind takes⟩

instance {parsers : List (Parser α)} [AllBlind parsers] [all : All parsers] :
    Progresses (choice parsers) :=
  ⟨fun turns depth tokens value rest takes => by
    rw [read_choice] at takes
    exact all.shorter turns depth tokens value rest takes⟩

end Progresses

/-! ### Enough turns -/

namespace Enough

variable {turns bound : Nat}

instance (value : α) : Enough turns bound (Parser.pure value) :=
  ⟨fun _ _ tokens _ => .taken value tokens⟩

instance (test : Token → Bool) (expected : String) :
    Enough turns bound (Parser.satisfy test expected) :=
  ⟨fun _ depth tokens _ => by
    rw [read_satisfy]
    cases tokens with
    | nil => exact .refused
    | cons token rest =>
        simp only [takeNext]
        split
        · exact .taken token rest
        · exact .refused⟩

instance (kind : String) : Enough turns bound (Parser.token kind) :=
  inferInstanceAs (Enough _ _ (Parser.satisfy _ _))

instance (kind : String) (value : TokenValue) : Enough turns bound (Parser.tokenValue kind value) :=
  inferInstanceAs (Enough _ _ (Parser.satisfy _ _))

instance : Enough turns bound Parser.endOfInput :=
  ⟨fun _ depth tokens _ => by
    rw [read_endOfInput]
    split
    · exact .taken () []
    · exact .refused⟩

section
variable {parser : Parser α} [Blind parser] [enough : Enough turns bound parser]

instance (f : α → β) : Enough turns bound (parser.map f) :=
  ⟨fun few depth tokens shorter => by
    rw [read_map]
    exact (enough.decided few depth tokens shorter).map f⟩

instance : Enough turns bound parser.optional :=
  ⟨fun few depth tokens shorter => by
    have decided := enough.decided few depth tokens shorter
    rw [read_optional]
    cases reads : parser.read turns depth tokens with
    | taken value rest => exact .taken _ rest
    | refused => exact .taken _ tokens
    | stopped reason =>
        rw [reads] at decided
        intro stops
        cases stops
        exact decided rfl⟩

instance (f : α → Option β) (expected : String) :
    Enough turns bound (parser.filterMap f expected) :=
  ⟨fun few depth tokens shorter => by
    have decided := enough.decided few depth tokens shorter
    rw [read_filterMap]
    cases reads : parser.read turns depth tokens with
    | taken value rest =>
        simp only [keepSome]
        split
        · exact .taken _ rest
        · exact .refused
    | refused => exact .refused
    | stopped reason =>
        rw [reads] at decided
        intro stops
        cases stops
        exact decided rfl⟩

instance (test : α → Bool) (expected : String) : Enough turns bound (parser.verify test expected) :=
  inferInstanceAs (Enough _ _ (parser.filterMap _ expected))

instance (describe : α → String) : Enough turns bound (parser.noted describe) :=
  ⟨fun few depth tokens shorter => by
    rw [read_noted]
    exact enough.decided few depth tokens shorter⟩

instance (label : String) : Enough turns bound (Parser.recorded label parser) :=
  ⟨fun few depth tokens shorter => by
    rw [read_recorded]
    exact enough.decided few depth tokens shorter⟩

instance (label : String) (keep : α → Bool) :
    Enough turns bound (Parser.recordedWhen label keep parser) :=
  ⟨fun few depth tokens shorter => by
    rw [read_recordedWhen]
    exact enough.decided few depth tokens shorter⟩

instance (limit : Nat) : Enough turns bound (Parser.nested limit parser) :=
  ⟨fun few depth tokens shorter => by
    rw [read_nested]
    split
    · exact .cut _
    · exact enough.decided few (depth + 1) tokens shorter⟩

theorem repeated (few : bound ≤ turns) (more depth : Nat) {tokens : List Token}
    (shorter : tokens.length < bound) (turn : tokens.length < more) :
    (readRepeated parser turns depth more tokens).Decided := by
  induction more generalizing tokens with
  | zero => omega
  | succ more ih =>
      have decided := enough.decided few depth tokens shorter
      rw [readRepeated]
      cases reads : parser.read turns depth tokens with
      | taken value rest =>
          have taken_shorter := (Blind.suffix reads).length_le
          simp only [goOn]
          split
          · exact .taken _ rest
          · exact .map (ih (by omega) (by omega)) _
      | refused => exact .taken _ tokens
      | stopped reason =>
          rw [reads] at decided
          intro stops
          cases stops
          exact decided rfl

instance : Enough turns bound parser.many :=
  ⟨fun few depth tokens shorter => by
    rw [read_many]
    exact repeated few turns depth shorter (by omega)⟩

instance : Enough turns bound parser.manyOne :=
  ⟨fun few depth tokens shorter => by
    rw [read_manyOne]
    refine (enough.decided few depth tokens shorter).andThen fun value rest reads => ?_
    have taken_shorter := (Blind.suffix reads).length_le
    split
    · exact .taken _ rest
    · rw [read_many]
      exact .map (repeated few turns depth (by omega) (by omega)) _⟩

end

instance {parser : Parser α} {next : α → Parser β} [Blind parser] [∀ value, Blind (next value)]
    [enough : Enough turns bound parser] [further : ∀ value, Enough turns bound (next value)] :
    Enough turns bound (parser >>= next) :=
  ⟨fun few depth tokens shorter => by
    rw [read_bind]
    refine (enough.decided few depth tokens shorter).andThen fun value rest reads => ?_
    have taken_shorter := (Blind.suffix reads).length_le
    exact (further value).decided few depth rest (by omega)⟩

section
variable {first : Parser α} {second : Parser β} [Blind first] [Blind second]

instance [enough : Enough turns bound first] [further : Enough turns bound second] :
    Enough turns bound (first.pair second) :=
  ⟨fun few depth tokens shorter => by
    rw [read_pair]
    refine (enough.decided few depth tokens shorter).andThen fun value rest reads => ?_
    have taken_shorter := (Blind.suffix reads).length_le
    exact (further.decided few depth rest (by omega)).map _⟩

/-- Behind a token the second parser finds fewer tokens. -/
instance pair_behind [progress : Progresses first] [enough : Enough turns (bound + 1) first]
    [further : Enough turns bound second] : Enough turns (bound + 1) (first.pair second) :=
  ⟨fun few depth tokens shorter => by
    rw [read_pair]
    refine (enough.decided few depth tokens shorter).andThen fun value rest reads => ?_
    have taken_shorter := progress.shorter turns depth tokens value rest reads
    exact (further.decided (by omega) depth rest (by omega)).map _⟩

instance [Enough turns bound (first.pair second)] : Enough turns bound (first.keepLeft second) :=
  inferInstanceAs (Enough turns bound ((first.pair second).map _))

instance [Enough turns bound (first.pair second)] : Enough turns bound (first.keepRight second) :=
  inferInstanceAs (Enough turns bound ((first.pair second).map _))

end

instance {inner : Parser α} {opening : Parser β} {closing : Parser γ} [Blind inner]
    [Blind opening] [Blind closing]
    [Enough turns bound ((opening.keepRight inner).keepLeft closing)] :
    Enough turns bound (group inner opening closing) :=
  inferInstanceAs (Enough turns bound ((opening.keepRight inner).keepLeft closing))

/-- Alternatives that have turns enough. -/
class All (turns bound : Nat) (parsers : List (Parser α)) : Prop where
  decided : bound ≤ turns → ∀ depth tokens, tokens.length < bound →
    (readFirst parsers turns depth tokens).Decided

instance : All turns bound ([] : List (Parser α)) := ⟨fun _ _ _ _ => .refused⟩

instance {parser : Parser α} {others : List (Parser α)} [first : Enough turns bound parser]
    [rest : All turns bound others] : All turns bound (parser :: others) :=
  ⟨fun few depth tokens shorter =>
    (first.decided few depth tokens shorter).orElse (rest.decided few depth tokens shorter)⟩

instance {parsers : List (Parser α)} [AllBlind parsers] [all : All turns bound parsers] :
    Enough turns bound (choice parsers) :=
  ⟨fun few depth tokens shorter => by
    rw [read_choice]
    exact all.decided few depth tokens shorter⟩

instance {first second : Parser α} [Blind first] [Blind second] [Enough turns bound first]
    [Enough turns bound second] : Enough turns bound (first.or second) :=
  inferInstanceAs (Enough turns bound (choice [first, second]))

/-! ### Loops over several parsers -/

section
variable {element : Parser α} {delimiter : Parser δ} [Blind element] [Blind delimiter]
  [elements : Enough turns bound element] [delimiters : Enough turns bound delimiter]
  [progress : Progresses delimiter]

theorem followers (few : bound ≤ turns) (more depth : Nat) {tokens : List Token}
    (shorter : tokens.length < bound) (turn : tokens.length < more) :
    ((Parser.followers element delimiter more).read turns depth tokens).Decided := by
  induction more generalizing tokens with
  | zero => omega
  | succ more ih =>
      rw [read_followers_succ, ← read_optional]
      have comes : Enough turns bound delimiter.optional := inferInstance
      refine (comes.decided few depth tokens shorter).andThen fun mark rest reads => ?_
      rcases taken_of_optional reads with ⟨found, rfl, delimits⟩ | ⟨rfl, _, _⟩
      · have rest_shorter := progress.shorter turns depth tokens found rest delimits
        rw [follower, read_bind]
        refine (elements.decided few depth rest (by omega)).andThen fun value behind reads => ?_
        have behind_shorter := (Blind.suffix reads).length_le
        rw [read_bind]
        exact (ih (by omega) (by omega)).andThen fun pieces left _ => .taken _ left
      · exact .taken _ rest

instance : Enough turns bound (withTurns (Parser.followers element delimiter)) :=
  ⟨fun few depth tokens shorter => by
    rw [read_withTurns]
    exact followers few turns depth shorter (by omega)⟩

instance (first : Option α) : Enough turns bound (behindFirst element delimiter first) := by
  cases first with
  | none => exact (inferInstance : Enough turns bound (pure []))
  | some value =>
      exact (inferInstance : Enough turns bound
        (withTurns (Parser.followers element delimiter) >>= fun rest => pure (.item value :: rest)))

instance : Enough turns bound (interleaved element delimiter true) := by
  rw [interleaved_eq, if_pos rfl]
  infer_instance

end

instance {element : Parser α} {delimiter : Parser δ} {opening : Parser β} {closing : Parser γ}
    [Blind element] [Blind delimiter] [Blind opening] [Blind closing]
    [Enough turns bound (group (interleaved element delimiter true) opening closing)] :
    Enough turns bound (list element delimiter opening closing true) :=
  inferInstanceAs (Enough turns bound
    ((group (interleaved element delimiter true) opening closing).map _))

section
variable {operand : Parser α} {operator : Parser (Joint α × α)} [Blind operand] [Blind operator]
  [operands : Enough turns bound operand] [operators : Enough turns bound operator]
  [progress : Progresses operator]

theorem links (few : bound ≤ turns) (more depth : Nat) {tokens : List Token}
    (shorter : tokens.length < bound) (turn : tokens.length < more) :
    ((Parser.links operand operator more).read turns depth tokens).Decided := by
  induction more generalizing tokens with
  | zero => omega
  | succ more ih =>
      rw [read_links_succ, ← read_optional]
      have comes : Enough turns bound operator.optional := inferInstance
      refine (comes.decided few depth tokens shorter).andThen fun sign rest reads => ?_
      rcases taken_of_optional reads with ⟨found, rfl, operates⟩ | ⟨rfl, _, _⟩
      · have rest_shorter := progress.shorter turns depth tokens found rest operates
        rw [linked, read_bind]
        refine (operands.decided few depth rest (by omega)).andThen fun value behind reads => ?_
        have behind_shorter := (Blind.suffix reads).length_le
        rw [read_bind]
        exact (ih (by omega) (by omega)).andThen fun pieces left _ => .taken _ left
      · exact .taken _ rest

end

theorem binary {operand : Parser α} {operators : List (Operator α)} [Blind operand]
    [Blind (operatorOf operators)] [operands : Enough turns bound operand]
    [Enough turns bound (operatorOf operators)] [Progresses (operatorOf operators)] :
    Enough turns bound (Parser.binary operand operators) :=
  ⟨fun few depth tokens shorter => by
    rw [read_binary]
    refine (operands.decided few depth tokens shorter).andThen fun value rest reads => ?_
    have rest_shorter := (Blind.suffix reads).length_le
    exact (links few turns depth (by omega) (by omega)).map _⟩

/-- A rule that is entered behind a token has turns enough if it is entered as often as there are
tokens. -/
theorem entering {step : Parser α → Parser α} [KeepsBlind step]
    (keeps : ∀ self bound, Blind self → Enough turns bound self →
      Enough turns (bound + 1) (step self)) (entries : Nat) :
    Enough turns entries (Parser.entering step entries) := by
  induction entries with
  | zero => exact ⟨fun _ _ _ shorter => absurd shorter (Nat.not_lt_zero _)⟩
  | succ entries ih =>
      have whole := keeps (Parser.entering step entries) entries inferInstance ih
      exact ⟨whole.decided⟩

/-- Fewer tokens need no more turns. -/
theorem mono {parser : Parser α} {bound' : Nat} (enough : Enough turns bound parser)
    (few : bound ≤ turns) (smaller : bound' ≤ bound) : Enough turns bound' parser :=
  ⟨fun _ depth tokens shorter => enough.decided few depth tokens (by omega)⟩

end Enough

end Parser

end Curried
