import Curried.Proofs.Parser.Verdict

/-!
# Verdicts of parsers made of several others

Sequences hand the tokens that are left from one parser to the next, a choice takes the first
verdict that is no refusal, and loops go on as long as each turn takes a token.
-/

namespace Curried.Parser

variable {α β γ δ : Type}

/-! ### Sequences -/

section
variable {parser : Parser α} {next : α → Parser β} [blind : Blind parser]
  [blinds : ∀ value, Blind (next value)]

theorem readsAs_bind :
    (parser >>= next).ReadsAs fun turns depth tokens =>
      (parser.read turns depth tokens).andThen fun value rest =>
        (next value).read turns depth rest := by
  intro turns state mild
  have goesOn : ∀ value after, state.Leads after → after.Mild →
      ((next value).run turns after).verdict =
        (next value).read turns state.depth after.input.rest := by
    intro value after leads after_mild
    rw [(blinds value).verdict_run turns after after_mild, leads.depth]
  refine (Outcome.verdict_andThen mild (blind.advances turns state) goesOn).trans ?_
  rw [blind.verdict_run turns state mild]

instance : Blind (parser >>= next) :=
  readsAs_bind.blind (Keeps.bind blind.advances fun value => (blinds value).advances)

theorem read_bind (turns depth : Nat) (tokens : List Token) :
    (parser >>= next).read turns depth tokens =
      (parser.read turns depth tokens).andThen fun value rest =>
        (next value).read turns depth rest :=
  readsAs_bind.read_eq turns depth tokens

end

instance (value : α) : Blind (Pure.pure value : Parser α) :=
  inferInstanceAs (Blind (Parser.pure value))

section
variable {first : Parser α} {second : Parser β} [Blind first] [Blind second]

instance : Blind (first.pair second) :=
  inferInstanceAs (Blind (attempt (first >>= fun left => second >>= fun right =>
    Pure.pure (left, right))))

theorem read_pair (turns depth : Nat) (tokens : List Token) :
    (first.pair second).read turns depth tokens =
      (first.read turns depth tokens).andThen fun left rest =>
        (second.read turns depth rest).map (left, ·) := by
  refine (read_attempt turns depth tokens).trans ?_
  rw [read_bind]
  congr 1
  funext left rest
  rw [read_bind]
  cases second.read turns depth rest <;> rfl

instance : Blind (first.keepLeft second) := inferInstanceAs (Blind ((first.pair second).map _))

instance : Blind (first.keepRight second) := inferInstanceAs (Blind ((first.pair second).map _))

theorem read_keepLeft (turns depth : Nat) (tokens : List Token) :
    (first.keepLeft second).read turns depth tokens =
      (first.read turns depth tokens).andThen fun left rest =>
        (second.read turns depth rest).map fun _ => left := by
  refine (read_map _ turns depth tokens).trans ?_
  rw [read_pair, Verdict.map_andThen]
  congr 1
  funext left rest
  cases second.read turns depth rest <;> rfl

theorem read_keepRight (turns depth : Nat) (tokens : List Token) :
    (first.keepRight second).read turns depth tokens =
      (first.read turns depth tokens).andThen fun _ rest => second.read turns depth rest := by
  refine (read_map _ turns depth tokens).trans ?_
  rw [read_pair, Verdict.map_andThen]
  congr 1
  funext left rest
  cases second.read turns depth rest <;> rfl

end

section
variable {first : Parser α} {second : Parser β} [Blind first] [Blind second]
  {turns depth : Nat} {tokens rest : List Token}

theorem taken_of_pair {value : α × β}
    (takes : (first.pair second).read turns depth tokens = .taken value rest) :
    ∃ middle, first.read turns depth tokens = .taken value.1 middle ∧
      second.read turns depth middle = .taken value.2 rest := by
  rw [read_pair] at takes
  obtain ⟨left, middle, reads, goes⟩ := Verdict.taken_of_andThen takes
  obtain ⟨right, last, rfl⟩ := Verdict.taken_of_map goes
  exact ⟨middle, reads, last⟩

theorem taken_of_keepLeft {value : α}
    (takes : (first.keepLeft second).read turns depth tokens = .taken value rest) :
    ∃ other middle, first.read turns depth tokens = .taken value middle ∧
      second.read turns depth middle = .taken other rest := by
  rw [read_keepLeft] at takes
  obtain ⟨left, middle, reads, goes⟩ := Verdict.taken_of_andThen takes
  obtain ⟨right, last, rfl⟩ := Verdict.taken_of_map goes
  exact ⟨right, middle, reads, last⟩

theorem taken_of_keepRight {value : β}
    (takes : (first.keepRight second).read turns depth tokens = .taken value rest) :
    ∃ other middle, first.read turns depth tokens = .taken other middle ∧
      second.read turns depth middle = .taken value rest := by
  rw [read_keepRight] at takes
  exact Verdict.taken_of_andThen takes

theorem taken_of_optional {value : Option α}
    (takes : first.optional.read turns depth tokens = .taken value rest) :
    (∃ inner, value = some inner ∧ first.read turns depth tokens = .taken inner rest) ∨
      (value = none ∧ rest = tokens ∧ first.read turns depth tokens = .refused) := by
  rw [read_optional] at takes
  exact taken_of_orNone takes

end

section
variable {inner : Parser α} {opening : Parser β} {closing : Parser γ} [Blind inner]
  [Blind opening] [Blind closing]

instance : Blind (group inner opening closing) :=
  inferInstanceAs (Blind ((opening.keepRight inner).keepLeft closing))

theorem read_group (turns depth : Nat) (tokens : List Token) :
    (group inner opening closing).read turns depth tokens =
      (opening.read turns depth tokens).andThen fun _ rest =>
        (inner.read turns depth rest).andThen fun value last =>
          (closing.read turns depth last).map fun _ => value := by
  refine (read_keepLeft turns depth tokens).trans ?_
  rw [read_keepRight, Verdict.andThen_assoc]

end

section
variable {parser : Parser α} [Blind parser]

instance (describe : α → String) : Blind (parser.noted describe) :=
  inferInstanceAs (Blind (parser >>= fun value => note (describe value) >>= fun _ =>
    Pure.pure value))

@[simp]
theorem read_noted (describe : α → String) (turns depth : Nat) (tokens : List Token) :
    (parser.noted describe).read turns depth tokens = parser.read turns depth tokens := by
  have whole : parser.noted describe = parser >>= fun value =>
    note (describe value) >>= fun _ => Pure.pure value := rfl
  rw [whole, read_bind]
  cases parser.read turns depth tokens <;> rfl

end

/-! ### Choice -/

/-- Parsers whose verdicts do not depend on what was recorded. -/
class AllBlind (parsers : List (Parser α)) : Prop where
  blind : ∀ parser ∈ parsers, Blind parser

instance : AllBlind ([] : List (Parser α)) := ⟨by simp⟩

instance {parser : Parser α} {others : List (Parser α)} [Blind parser] [AllBlind others] :
    AllBlind (parser :: others) :=
  ⟨by
    rintro other (_ | ⟨_, member⟩)
    · assumption
    · exact AllBlind.blind other member⟩

/-- The first verdict that is no refusal. -/
def readFirst (parsers : List (Parser α)) (turns depth : Nat) (tokens : List Token) : Verdict α :=
  parsers.foldr (fun parser others => (parser.read turns depth tokens).orElse others) .refused

theorem readsAs_alternatives {parsers : List (Parser α)} [all : AllBlind parsers]
    {failures : List Failure} (mild : ∀ failure ∈ failures, failure.fatal = false) :
    (alternatives parsers failures).ReadsAs (readFirst parsers) := by
  obtain ⟨blind⟩ := all
  induction parsers generalizing failures with
  | nil =>
      intro turns state state_mild
      have ordinary := State.fatal_failure state_mild "nothing"
      simp only [alternatives, Outcome.verdict, readFirst, List.foldr_nil]
      cases found : Failure.deepest failures with
      | none => simp [ordinary]
      | some failure => simp [Failure.fatal_of_deepest mild found]
  | cons parser others ih =>
      intro turns state state_mild
      have head : Blind parser := blind parser List.mem_cons_self
      have same : (parser.attempt.run turns state).verdict =
        parser.read turns state.depth state.input.rest := readsAs_attempt turns state state_mild
      simp only [readFirst, List.foldr_cons]
      rw [← same]
      unfold alternatives
      simp only
      split
      · rename_i value after run
        rw [run]
        split
        · rename_i failure found
          rcases after.remember_cases failure with kept | replaced
          · simp [Outcome.verdict, kept]
          · simp [Outcome.verdict, replaced]
        · rfl
      · rename_i failure after run
        have back : after = state := by
          unfold attempt at run
          simp only at run
          split at run <;> simp_all
        subst back
        rw [run]
        split
        · rename_i fatal
          simp [Outcome.verdict, fatal]
        · rename_i ordinary
          have still_mild : ∀ other ∈ failures ++ [failure], other.fatal = false := by
            intro other member
            rcases List.mem_append.1 member with member | member
            · exact mild other member
            · obtain rfl := List.mem_singleton.1 member
              exact Bool.eq_false_iff.2 ordinary
          have rest := ih still_mild (fun other member => blind other (.tail _ member)) turns after
            state_mild
          simp only [Outcome.verdict, if_neg ordinary, Verdict.orElse_refused]
          exact rest
      · rename_i run
        rw [run]
        rfl

theorem readsAs_choice {parsers : List (Parser α)} [all : AllBlind parsers] :
    (choice parsers).ReadsAs (readFirst parsers) := by
  unfold choice
  split
  · rename_i only
    intro turns state mild
    have single : Blind only := all.blind only List.mem_cons_self
    rw [single.verdict_run turns state mild, readFirst, List.foldr_cons, List.foldr_nil]
    cases only.read turns state.depth state.input.rest <;> rfl
  · exact readsAs_alternatives (by simp)

instance {parsers : List (Parser α)} [all : AllBlind parsers] : Blind (choice parsers) :=
  readsAs_choice.blind (Keeps.choice fun parser member => (all.blind parser member).advances)

theorem read_choice {parsers : List (Parser α)} [AllBlind parsers] (turns depth : Nat)
    (tokens : List Token) :
    (choice parsers).read turns depth tokens = readFirst parsers turns depth tokens :=
  readsAs_choice.read_eq turns depth tokens

@[simp]
theorem readFirst_nil (turns depth : Nat) (tokens : List Token) :
    readFirst ([] : List (Parser α)) turns depth tokens = .refused := rfl

@[simp]
theorem readFirst_cons (parser : Parser α) (others : List (Parser α)) (turns depth : Nat)
    (tokens : List Token) :
    readFirst (parser :: others) turns depth tokens =
      (parser.read turns depth tokens).orElse (readFirst others turns depth tokens) := rfl

section
variable {first second : Parser α} [Blind first] [Blind second]

instance : Blind (first.or second) := inferInstanceAs (Blind (choice [first, second]))

theorem read_or (turns depth : Nat) (tokens : List Token) :
    (first.or second).read turns depth tokens =
      (first.read turns depth tokens).orElse (second.read turns depth tokens) := by
  refine (read_choice turns depth tokens).trans ?_
  simp only [readFirst_cons, readFirst_nil]
  cases first.read turns depth tokens with
  | refused => cases second.read turns depth tokens <;> rfl
  | _ => rfl

end

/-! ### Repetition -/

section
variable {parser : Parser α} [blind : Blind parser]

/-- Go on with a loop after one of its turns: a refusal ends it, and so does a turn that takes no
token. -/
def goOn (tokens : List Token) (again : List Token → Verdict (List α)) (turn : Verdict α) :
    Verdict (List α) :=
  match turn with
  | .taken value rest =>
      if rest.length = tokens.length then .taken [value] rest
      else (again rest).map (value :: ·)
  | .refused => .taken [] tokens
  | .stopped reason => .stopped reason

/-- The verdict of a loop with a bound on its turns. -/
def readRepeated (parser : Parser α) (turns depth : Nat) : Nat → List Token → Verdict (List α)
  | 0, _ => .stopped .exhausted
  | more + 1, tokens =>
      goOn tokens (readRepeated parser turns depth more) (parser.read turns depth tokens)

/-- A loop is never refused. -/
theorem readRepeated_ne_refused (parser : Parser α) (turns depth more : Nat)
    (tokens : List Token) : readRepeated parser turns depth more tokens ≠ .refused := by
  induction more generalizing tokens with
  | zero => simp [readRepeated]
  | succ more ih =>
      simp only [readRepeated]
      cases parser.read turns depth tokens with
      | taken value rest =>
          simp only [goOn]
          split
          · simp
          · intro refused
            have again := ih rest
            cases reads : readRepeated parser turns depth more rest with
            | refused => exact again reads
            | taken => simp [reads] at refused
            | stopped => simp [reads] at refused
      | refused => simp [goOn]
      | stopped => simp [goOn]

theorem length_eq_iff_position_eq {before after : State} (leads : before.Leads after) :
    after.input.rest.length = before.input.rest.length ↔ after.position = before.position := by
  obtain ⟨tokens, rest, position⟩ := leads.taken
  rw [rest, position, List.length_append]
  omega

theorem readsAs_repeated (more : Nat) :
    (repeated parser more).ReadsAs fun turns depth tokens =>
      readRepeated parser turns depth more tokens := by
  induction more with
  | zero => exact fun _ _ _ => rfl
  | succ more ih =>
      intro turns state mild
      have first : (parser.optional.run turns state).verdict =
        orNone state.input.rest (parser.read turns state.depth state.input.rest) :=
        readsAs_optional turns state mild
      have ends := Keeps.optional blind.advances turns state
      let further : Option α → List Token → Verdict (List α)
        | none, rest => .taken [] rest
        | some value, rest =>
            if rest.length = state.input.rest.length then .taken [value] rest
            else (readRepeated parser turns state.depth more rest).map (value :: ·)
      refine (@Outcome.verdict_andThen _ _ state _ _ further mild ends ?goesOn).trans ?_
      case goesOn =>
        intro value after leads after_mild
        cases value with
        | none => rfl
        | some value =>
            have rest := ih turns after after_mild
            simp only [further, length_eq_iff_position_eq leads]
            split
            · rfl
            · rw [Outcome.verdict_map, rest, leads.depth]
      rw [first]
      simp only [readRepeated]
      cases parser.read turns state.depth state.input.rest <;> rfl

instance (more : Nat) : Blind (repeated parser more) :=
  (readsAs_repeated more).blind (Keeps.repeated blind.advances more)

theorem read_repeated (more turns depth : Nat) (tokens : List Token) :
    (repeated parser more).read turns depth tokens =
      readRepeated parser turns depth more tokens :=
  (readsAs_repeated more).read_eq turns depth tokens

end

section
variable {parser : Nat → Parser α} [blind : ∀ turns, Blind (parser turns)]

theorem readsAs_withTurns :
    (withTurns parser).ReadsAs fun turns => (parser turns).read turns :=
  fun turns state mild => (blind turns).verdict_run turns state mild

instance : Blind (withTurns parser) :=
  readsAs_withTurns.blind (Keeps.withTurns fun turns => (blind turns).advances)

omit blind in
theorem read_withTurns (turns depth : Nat) (tokens : List Token) :
    (withTurns parser).read turns depth tokens = (parser turns).read turns depth tokens := rfl

end

section
variable {parser : Parser α} [blind : Blind parser]

instance : Blind parser.many := inferInstanceAs (Blind (withTurns (repeated parser)))

theorem read_many (turns depth : Nat) (tokens : List Token) :
    parser.many.read turns depth tokens = readRepeated parser turns depth turns tokens :=
  read_repeated turns turns depth tokens

theorem readsAs_manyOne :
    parser.manyOne.ReadsAs fun turns depth tokens =>
      (parser.read turns depth tokens).andThen fun value rest =>
        if rest.length = tokens.length then .taken [value] rest
        else (parser.many.read turns depth rest).map (value :: ·) := by
  intro turns state mild
  have first : (parser.attempt.run turns state).verdict =
    parser.read turns state.depth state.input.rest := readsAs_attempt turns state mild
  have ends := Keeps.attempt blind.advances turns state
  let further (value : α) (rest : List Token) : Verdict (List α) :=
    if rest.length = state.input.rest.length then .taken [value] rest
    else (parser.many.read turns state.depth rest).map (value :: ·)
  have goesOn : ∀ value after, state.Leads after → after.Mild →
      Outcome.verdict (if after.position = state.position then .ok [value] after
        else (parser.many.run turns after).map (value :: ·)) = further value after.input.rest := by
    intro value after leads after_mild
    have rest := (inferInstance : Blind parser.many).verdict_run turns after after_mild
    simp only [further, length_eq_iff_position_eq leads]
    split
    · rfl
    · rw [Outcome.verdict_map, rest, leads.depth]
  exact (Outcome.verdict_andThen mild ends goesOn).trans
    (congrArg (Verdict.andThen · further) first)

instance : Blind parser.manyOne := readsAs_manyOne.blind (Keeps.manyOne blind.advances)

theorem read_manyOne (turns depth : Nat) (tokens : List Token) :
    parser.manyOne.read turns depth tokens =
      (parser.read turns depth tokens).andThen fun value rest =>
        if rest.length = tokens.length then .taken [value] rest
        else (parser.many.read turns depth rest).map (value :: ·) :=
  readsAs_manyOne.read_eq turns depth tokens

end

/-! ### Lists -/

section
variable {element : Parser α} {delimiter : Parser δ} {opening : Parser β} {closing : Parser γ}

/-- What a list goes on with behind an optional delimiter. -/
def follower (element : Parser α) (again : Parser (List (Interleaved α δ))) :
    Option δ → Parser (List (Interleaved α δ))
  | none => pure []
  | some mark => element >>= fun value => again >>= fun rest =>
      pure (.delimiter mark :: .item value :: rest)

theorem followers_succ (turns : Nat) :
    followers element delimiter (turns + 1) =
      delimiter.optional >>= follower element (followers element delimiter turns) := by
  rw [followers]
  congr 1

/-- What a list goes on with behind its optional first element. -/
def behindFirst (element : Parser α) (delimiter : Parser δ) :
    Option α → Parser (List (Interleaved α δ))
  | none => pure []
  | some value => withTurns (followers element delimiter) >>= fun rest =>
      pure (.item value :: rest)

theorem interleaved_eq (mayBeEmpty : Bool) :
    interleaved element delimiter mayBeEmpty =
      (if mayBeEmpty then element.optional else element.map some) >>=
        behindFirst element delimiter := by
  cases mayBeEmpty with
  | true => exact congrArg (element.optional >>= ·) (funext fun value => by cases value <;> rfl)
  | false => exact congrArg (element.map some >>= ·) (funext fun value => by cases value <;> rfl)

variable [Blind element] [Blind delimiter] [Blind opening] [Blind closing]

instance {again : Parser (List (Interleaved α δ))} [Blind again] (mark : Option δ) :
    Blind (follower element again mark) := by
  cases mark with
  | none => exact (inferInstance : Blind (pure []))
  | some mark =>
      exact (inferInstance : Blind (element >>= fun value => again >>= fun rest =>
        pure (.delimiter mark :: .item value :: rest)))

instance blind_followers (turns : Nat) : Blind (followers element delimiter turns) := by
  induction turns with
  | zero => exact (inferInstance : Blind Parser.exhausted)
  | succ turns ih =>
      rw [followers_succ]
      infer_instance

theorem read_followers_succ (more turns depth : Nat) (tokens : List Token) :
    (followers element delimiter (more + 1)).read turns depth tokens =
      (orNone tokens (delimiter.read turns depth tokens)).andThen fun mark rest =>
        (follower element (followers element delimiter more) mark).read turns depth rest := by
  rw [followers_succ, read_bind, read_optional]

instance (first : Option α) : Blind (behindFirst element delimiter first) := by
  cases first with
  | none => exact (inferInstance : Blind (pure []))
  | some value =>
      exact (inferInstance : Blind (withTurns (followers element delimiter) >>= fun rest =>
        pure (.item value :: rest)))

instance (mayBeEmpty : Bool) : Blind (interleaved element delimiter mayBeEmpty) := by
  rw [interleaved_eq]
  cases mayBeEmpty <;> simp only [Bool.false_eq_true, if_true, if_false] <;> infer_instance

theorem read_interleaved_true (turns depth : Nat) (tokens : List Token) :
    (interleaved element delimiter true).read turns depth tokens =
      (orNone tokens (element.read turns depth tokens)).andThen fun first rest =>
        (behindFirst element delimiter first).read turns depth rest := by
  rw [interleaved_eq, if_pos rfl, read_bind, read_optional]

instance (mayBeEmpty : Bool) :
    Blind (listWithDelimiters element delimiter opening closing mayBeEmpty) :=
  inferInstanceAs (Blind (group (interleaved element delimiter mayBeEmpty) opening closing))

instance (mayBeEmpty : Bool) : Blind (list element delimiter opening closing mayBeEmpty) :=
  inferInstanceAs (Blind ((listWithDelimiters element delimiter opening closing mayBeEmpty).map _))

theorem read_list (mayBeEmpty : Bool) (turns depth : Nat) (tokens : List Token) :
    (list element delimiter opening closing mayBeEmpty).read turns depth tokens =
      ((group (interleaved element delimiter mayBeEmpty) opening closing).read turns depth
        tokens).map (List.filterMap Interleaved.item?) :=
  read_map _ turns depth tokens

end

/-! ### Operator chains -/

section
variable {operand : Parser α} {operator : Parser (Joint α × α)} {operators : List (Operator α)}

/-- What a chain goes on with behind an optional operator. -/
def linked (operand : Parser α) (again : Parser (List (Link α))) :
    Option (Joint α × α) → Parser (List (Link α))
  | none => pure []
  | some (joint, symbol) => operand >>= fun value => again >>= fun rest =>
      pure (⟨joint, symbol, value⟩ :: rest)

theorem links_succ (turns : Nat) :
    links operand operator (turns + 1) =
      operator.optional >>= linked operand (links operand operator turns) := by
  rw [links]
  congr 1

variable [Blind operand] [Blind operator]

instance {again : Parser (List (Link α))} [Blind again] (value : Option (Joint α × α)) :
    Blind (linked operand again value) := by
  cases value with
  | none => exact (inferInstance : Blind (pure []))
  | some value =>
      exact (inferInstance : Blind (operand >>= fun other => again >>= fun rest =>
        pure (⟨value.1, value.2, other⟩ :: rest)))

instance blind_links (turns : Nat) : Blind (links operand operator turns) := by
  induction turns with
  | zero => exact (inferInstance : Blind Parser.exhausted)
  | succ turns ih =>
      rw [links_succ]
      infer_instance

theorem read_links_succ (more turns depth : Nat) (tokens : List Token) :
    (links operand operator (more + 1)).read turns depth tokens =
      (orNone tokens (operator.read turns depth tokens)).andThen fun value rest =>
        (linked operand (links operand operator more) value).read turns depth rest := by
  rw [links_succ, read_bind, read_optional]

instance [all : AllBlind (operators.map fun operator =>
      operator.parser.map fun value => (operator.toJoint, value))] :
    Blind (operatorOf operators) :=
  inferInstanceAs (Blind (choice _))

instance [Blind (operatorOf operators)] : Blind (binary operand operators) :=
  inferInstanceAs (Blind (attempt (operand >>= fun first =>
    withTurns (links operand (operatorOf operators)) >>= fun rest =>
      pure (Link.fold first rest))))

theorem read_binary [Blind (operatorOf operators)] (turns depth : Nat) (tokens : List Token) :
    (binary operand operators).read turns depth tokens =
      (operand.read turns depth tokens).andThen fun first rest =>
        ((links operand (operatorOf operators) turns).read turns depth rest).map
          (Link.fold first) := by
  have whole : binary operand operators = attempt (operand >>= fun first =>
    withTurns (links operand (operatorOf operators)) >>= fun rest =>
      pure (Link.fold first rest)) := rfl
  rw [whole, read_attempt, read_bind]
  congr 1
  funext first rest
  rw [read_bind, read_withTurns]
  cases (links operand (operatorOf operators) turns).read turns depth rest <;> rfl

end

/-! ### Recursive rules -/

section
variable {build : Parser α → Parser α}

/-- A rule that can still be entered as often as the number says. -/
def entering (build : Parser α → Parser α) (entries : Nat) : Parser α := ⟨unfolded build entries⟩

/-- A rule whose verdicts do not depend on what was recorded if those of its handle do not. -/
class KeepsBlind (build : Parser α → Parser α) : Prop where
  keeps : ∀ self, Blind self → Blind (build self)

variable [rule : KeepsBlind build]

instance blind_entering (entries : Nat) : Blind (entering build entries) := by
  induction entries with
  | zero => exact (inferInstance : Blind Parser.exhausted)
  | succ entries ih => exact rule.keeps (entering build entries) ih

instance : Blind (recursive build) where
  advances turns state := (blind_entering turns : Blind (entering build turns)).advances turns state
  verdict_run turns state mild :=
    (blind_entering turns : Blind (entering build turns)).verdict_run turns state mild

end

end Curried.Parser
