import Curried.Proofs.Parser.Reading

/-!
# Parsers that agree until one of them is stopped

A parser agrees with another one until it is stopped for a reason, if on all tokens the two have
the same verdict or the first one is stopped for that reason.  All combinators keep such an
agreement.  So a rule with a bound, on the nesting or on how often it is entered, agrees with the
same rule with a wider bound until the bound stops it.
-/

namespace Curried

/-- The verdicts are the same, or the first one is a stop for the reason. -/
def Verdict.Until {α : Type} (reason : Stop) (first second : Verdict α) : Prop :=
  first = second ∨ first = .stopped reason

namespace Verdict.Until

variable {α β : Type} {reason : Stop}

theorem map {first second : Verdict α} (agree : first.Until reason second) (f : α → β) :
    (first.map f).Until reason (second.map f) := by
  rcases agree with rfl | rfl
  · exact .inl rfl
  · exact .inr rfl

theorem andThen {first second : Verdict α} {next next' : α → List Token → Verdict β}
    (agree : first.Until reason second)
    (goesOn : ∀ value rest, (next value rest).Until reason (next' value rest)) :
    (first.andThen next).Until reason (second.andThen next') := by
  rcases agree with rfl | rfl
  · cases first with
    | taken value rest => exact goesOn value rest
    | refused => exact .inl rfl
    | stopped => exact .inl rfl
  · exact .inr rfl

theorem orElse {first second other other' : Verdict α} (agree : first.Until reason second)
    (rest : other.Until reason other') :
    (first.orElse other).Until reason (second.orElse other') := by
  rcases agree with rfl | rfl
  · cases first with
    | taken => exact .inl rfl
    | refused => exact rest
    | stopped => exact .inl rfl
  · exact .inr rfl

/-- A refusal is not a stop, so the other verdict is a refusal too. -/
theorem refused {second : Verdict α} (agree : (Verdict.refused : Verdict α).Until reason second) :
    second = .refused := by
  rcases agree with same | stop
  · exact same.symm
  · cases stop

theorem taken {second : Verdict α} {value : α} {rest : List Token}
    (agree : (Verdict.taken value rest).Until reason second) : second = .taken value rest := by
  rcases agree with same | stop
  · exact same.symm
  · cases stop

end Verdict.Until

namespace Parser

variable {α β γ δ : Type}

/-- The first parser, at the first depth, agrees with the second one, at the second depth, until
it is stopped for the reason. -/
class Until (reason : Stop) (turns depth depth' : Nat) (parser parser' : Parser α) : Prop where
  agrees : ∀ tokens,
    (parser.read turns depth tokens).Until reason (parser'.read turns depth' tokens)

namespace Until

variable {reason : Stop} {turns depth depth' : Nat}

instance same_depth (parser : Parser α) : Until reason turns depth depth parser parser :=
  ⟨fun _ => .inl rfl⟩

instance (value : α) : Until reason turns depth depth' (Parser.pure value) (Parser.pure value) :=
  ⟨fun _ => .inl rfl⟩

instance (value : α) :
    Until reason turns depth depth' (Pure.pure value : Parser α) (Pure.pure value) :=
  ⟨fun _ => .inl rfl⟩

instance : Until reason turns depth depth' (Parser.exhausted : Parser α) Parser.exhausted :=
  ⟨fun _ => .inl rfl⟩

instance (test : Token → Bool) (expected : String) :
    Until reason turns depth depth' (Parser.satisfy test expected)
      (Parser.satisfy test expected) :=
  ⟨fun tokens => .inl (by rw [read_satisfy, read_satisfy])⟩

instance (kind : String) :
    Until reason turns depth depth' (Parser.token kind) (Parser.token kind) :=
  inferInstanceAs (Until _ _ _ _ (Parser.satisfy _ _) (Parser.satisfy _ _))

instance (kind : String) (value : TokenValue) :
    Until reason turns depth depth' (Parser.tokenValue kind value)
      (Parser.tokenValue kind value) :=
  inferInstanceAs (Until _ _ _ _ (Parser.satisfy _ _) (Parser.satisfy _ _))

instance (label : String) :
    Until reason turns depth depth' (Parser.note label) (Parser.note label) :=
  ⟨fun _ => .inl rfl⟩

section
variable {parser parser' : Parser α} [Blind parser] [Blind parser']
  [agree : Until reason turns depth depth' parser parser']

instance (f : α → β) : Until reason turns depth depth' (parser.map f) (parser'.map f) :=
  ⟨fun tokens => by
    rw [read_map, read_map]
    exact (agree.agrees tokens).map f⟩

instance : Until reason turns depth depth' parser.attempt parser'.attempt :=
  ⟨fun tokens => by
    rw [read_attempt, read_attempt]
    exact agree.agrees tokens⟩

instance : Until reason turns depth depth' parser.optional parser'.optional :=
  ⟨fun tokens => by
    rw [read_optional, read_optional]
    rcases agree.agrees tokens with same | stop
    · exact .inl (by rw [same])
    · exact .inr (by rw [stop]; rfl)⟩

instance (f : α → Option β) (expected : String) :
    Until reason turns depth depth' (parser.filterMap f expected) (parser'.filterMap f expected) :=
  ⟨fun tokens => by
    rw [read_filterMap, read_filterMap]
    rcases agree.agrees tokens with same | stop
    · exact .inl (by rw [same])
    · exact .inr (by rw [stop]; rfl)⟩

instance (test : α → Bool) (expected : String) :
    Until reason turns depth depth' (parser.verify test expected) (parser'.verify test expected) :=
  inferInstanceAs (Until _ _ _ _ (parser.filterMap _ expected) (parser'.filterMap _ expected))

instance (describe : α → String) :
    Until reason turns depth depth' (parser.noted describe) (parser'.noted describe) :=
  ⟨fun tokens => by
    rw [read_noted, read_noted]
    exact agree.agrees tokens⟩

instance (label : String) :
    Until reason turns depth depth' (Parser.recorded label parser)
      (Parser.recorded label parser') :=
  ⟨fun tokens => by
    rw [read_recorded, read_recorded]
    exact agree.agrees tokens⟩

instance (label : String) (keep : α → Bool) :
    Until reason turns depth depth' (Parser.recordedWhen label keep parser)
      (Parser.recordedWhen label keep parser') :=
  ⟨fun tokens => by
    rw [read_recordedWhen, read_recordedWhen]
    exact agree.agrees tokens⟩

omit [Blind parser] [Blind parser'] in
theorem repeated (more : Nat) (tokens : List Token) :
    (readRepeated parser turns depth more tokens).Until reason
      (readRepeated parser' turns depth' more tokens) := by
  induction more generalizing tokens with
  | zero => exact .inl rfl
  | succ more ih =>
      simp only [readRepeated]
      rcases agree.agrees tokens with same | stop
      · rw [same]
        cases parser'.read turns depth' tokens with
        | taken value rest =>
            simp only [goOn]
            split
            · exact .inl rfl
            · exact (ih rest).map _
        | refused => exact .inl rfl
        | stopped => exact .inl rfl
      · rw [stop]
        exact .inr rfl

instance : Until reason turns depth depth' parser.many parser'.many :=
  ⟨fun tokens => by
    rw [read_many, read_many]
    exact repeated turns tokens⟩

instance : Until reason turns depth depth' parser.manyOne parser'.manyOne :=
  ⟨fun tokens => by
    rw [read_manyOne, read_manyOne]
    refine (agree.agrees tokens).andThen fun value rest => ?_
    split
    · exact .inl rfl
    · rw [read_many, read_many]
      exact (repeated turns rest).map _⟩

end

instance {parser parser' : Parser α} {next next' : α → Parser β} [Blind parser] [Blind parser']
    [∀ value, Blind (next value)] [∀ value, Blind (next' value)]
    [agree : Until reason turns depth depth' parser parser']
    [goesOn : ∀ value, Until reason turns depth depth' (next value) (next' value)] :
    Until reason turns depth depth' (parser >>= next) (parser' >>= next') :=
  ⟨fun tokens => by
    rw [read_bind, read_bind]
    exact (agree.agrees tokens).andThen fun value rest => (goesOn value).agrees rest⟩

section
variable {first first' : Parser α} {second second' : Parser β} [Blind first] [Blind first']
  [Blind second] [Blind second'] [left : Until reason turns depth depth' first first']
  [right : Until reason turns depth depth' second second']

instance : Until reason turns depth depth' (first.pair second) (first'.pair second') :=
  ⟨fun tokens => by
    rw [read_pair, read_pair]
    exact (left.agrees tokens).andThen fun value rest => (right.agrees rest).map _⟩

instance : Until reason turns depth depth' (first.keepLeft second) (first'.keepLeft second') :=
  inferInstanceAs (Until _ _ _ _ ((first.pair second).map _) ((first'.pair second').map _))

instance : Until reason turns depth depth' (first.keepRight second) (first'.keepRight second') :=
  inferInstanceAs (Until _ _ _ _ ((first.pair second).map _) ((first'.pair second').map _))

end

instance {inner inner' : Parser α} {opening opening' : Parser β} {closing closing' : Parser γ}
    [Blind inner] [Blind inner'] [Blind opening] [Blind opening'] [Blind closing] [Blind closing']
    [Until reason turns depth depth' inner inner']
    [Until reason turns depth depth' opening opening']
    [Until reason turns depth depth' closing closing'] :
    Until reason turns depth depth' (group inner opening closing)
      (group inner' opening' closing') :=
  inferInstanceAs (Until _ _ _ _ ((opening.keepRight inner).keepLeft closing)
    ((opening'.keepRight inner').keepLeft closing'))

/-! ### Choice -/

/-- Alternatives that agree one by one. -/
class All (reason : Stop) (turns depth depth' : Nat) (parsers parsers' : List (Parser α)) :
    Prop where
  agree : ∀ tokens, (readFirst parsers turns depth tokens).Until reason
    (readFirst parsers' turns depth' tokens)

instance : All reason turns depth depth' ([] : List (Parser α)) [] := ⟨fun _ => .inl rfl⟩

instance {parser parser' : Parser α} {others others' : List (Parser α)}
    [first : Until reason turns depth depth' parser parser']
    [rest : All reason turns depth depth' others others'] :
    All reason turns depth depth' (parser :: others) (parser' :: others') :=
  ⟨fun tokens => (first.agrees tokens).orElse (rest.agree tokens)⟩

instance {parsers parsers' : List (Parser α)} [AllBlind parsers] [AllBlind parsers']
    [all : All reason turns depth depth' parsers parsers'] :
    Until reason turns depth depth' (choice parsers) (choice parsers') :=
  ⟨fun tokens => by
    rw [read_choice, read_choice]
    exact all.agree tokens⟩

instance {first first' second second' : Parser α} [Blind first] [Blind first'] [Blind second]
    [Blind second'] [Until reason turns depth depth' first first']
    [Until reason turns depth depth' second second'] :
    Until reason turns depth depth' (first.or second) (first'.or second') :=
  inferInstanceAs (Until _ _ _ _ (choice [first, second]) (choice [first', second']))

/-! ### Loops over several parsers -/

section
variable {element element' : Parser α} {delimiter delimiter' : Parser δ} [Blind element]
  [Blind element'] [Blind delimiter] [Blind delimiter']
  [elements : Until reason turns depth depth' element element']
  [delimiters : Until reason turns depth depth' delimiter delimiter']

instance {again again' : Parser (List (Interleaved α δ))} [Blind again] [Blind again']
    [Until reason turns depth depth' again again'] (mark : Option δ) :
    Until reason turns depth depth' (follower element again mark)
      (follower element' again' mark) := by
  cases mark with
  | none => exact (inferInstance : Until reason turns depth depth' (pure []) (pure []))
  | some mark =>
      exact (inferInstance : Until reason turns depth depth'
        (element >>= fun value => again >>= fun rest =>
          pure (.delimiter mark :: .item value :: rest))
        (element' >>= fun value => again' >>= fun rest =>
          pure (.delimiter mark :: .item value :: rest)))

instance followers (more : Nat) :
    Until reason turns depth depth' (Parser.followers element delimiter more)
      (Parser.followers element' delimiter' more) := by
  induction more with
  | zero =>
      exact (inferInstance : Until reason turns depth depth' Parser.exhausted Parser.exhausted)
  | succ more ih =>
      rw [followers_succ, followers_succ]
      infer_instance

theorem withTurns {parser parser' : Nat → Parser α}
    (agree : Until reason turns depth depth' (parser turns) (parser' turns)) :
    Until reason turns depth depth' (Parser.withTurns parser) (Parser.withTurns parser') :=
  ⟨agree.agrees⟩

instance (first : Option α) :
    Until reason turns depth depth' (behindFirst element delimiter first)
      (behindFirst element' delimiter' first) := by
  cases first with
  | none => exact (inferInstance : Until reason turns depth depth' (pure []) (pure []))
  | some value =>
      have loop : Until reason turns depth depth'
          (Parser.withTurns (Parser.followers element delimiter))
          (Parser.withTurns (Parser.followers element' delimiter')) :=
        withTurns inferInstance
      exact (inferInstance : Until reason turns depth depth'
        (Parser.withTurns (Parser.followers element delimiter) >>= fun rest =>
          pure (.item value :: rest))
        (Parser.withTurns (Parser.followers element' delimiter') >>= fun rest =>
          pure (.item value :: rest)))

instance (mayBeEmpty : Bool) :
    Until reason turns depth depth' (interleaved element delimiter mayBeEmpty)
      (interleaved element' delimiter' mayBeEmpty) := by
  rw [interleaved_eq, interleaved_eq]
  cases mayBeEmpty <;> simp only [Bool.false_eq_true, if_true, if_false] <;> infer_instance

instance {opening : Parser β} {closing : Parser γ} [Blind opening] [Blind closing]
    [Until reason turns depth depth' opening opening]
    [Until reason turns depth depth' closing closing] (mayBeEmpty : Bool) :
    Until reason turns depth depth' (list element delimiter opening closing mayBeEmpty)
      (list element' delimiter' opening closing mayBeEmpty) :=
  inferInstanceAs (Until _ _ _ _
    ((group (interleaved element delimiter mayBeEmpty) opening closing).map _)
    ((group (interleaved element' delimiter' mayBeEmpty) opening closing).map _))

end

section
variable {operand operand' : Parser α} {operator : Parser (Joint α × α)} [Blind operand]
  [Blind operand'] [Blind operator] [operands : Until reason turns depth depth' operand operand']
  [operators : Until reason turns depth depth' operator operator]

instance {again again' : Parser (List (Link α))} [Blind again] [Blind again']
    [Until reason turns depth depth' again again'] (value : Option (Joint α × α)) :
    Until reason turns depth depth' (linked operand again value)
      (linked operand' again' value) := by
  cases value with
  | none => exact (inferInstance : Until reason turns depth depth' (pure []) (pure []))
  | some value =>
      exact (inferInstance : Until reason turns depth depth'
        (operand >>= fun other => again >>= fun rest => pure (⟨value.1, value.2, other⟩ :: rest))
        (operand' >>= fun other => again' >>= fun rest =>
          pure (⟨value.1, value.2, other⟩ :: rest)))

instance links (more : Nat) :
    Until reason turns depth depth' (Parser.links operand operator more)
      (Parser.links operand' operator more) := by
  induction more with
  | zero =>
      exact (inferInstance : Until reason turns depth depth' Parser.exhausted Parser.exhausted)
  | succ more ih =>
      rw [links_succ, links_succ]
      infer_instance

end

theorem binary {operand operand' : Parser α} {operators : List (Operator α)} [Blind operand]
    [Blind operand'] [Blind (operatorOf operators)]
    [operands : Until reason turns depth depth' operand operand']
    [Until reason turns depth depth' (operatorOf operators) (operatorOf operators)] :
    Until reason turns depth depth' (Parser.binary operand operators)
      (Parser.binary operand' operators) :=
  ⟨fun tokens => by
    rw [read_binary, read_binary]
    exact (operands.agrees tokens).andThen fun first rest => ((links turns).agrees rest).map _⟩

end Until

end Parser

end Curried
