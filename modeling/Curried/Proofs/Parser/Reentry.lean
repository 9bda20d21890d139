import Curried.Proofs.Parser.Enough
import Mathlib.Data.List.Forall2

/-!
# Entering a rule again

A rule that refers to itself may be entered again inside itself.  Here such an entry goes astray
unless it starts strictly behind the entry around it: what then happens is left open.  A rule that
runs the same whatever stray entries do has none.

All combinators keep it that two parsers run alike from a position on, and behind a parser that
takes a token the second of two parsers only has to do so from the next position on.  So a rule that
enters itself only behind tokens has no stray entries, and no more entries inside each other than
there are tokens, and one.
-/

namespace Curried

/-- A state of a parse of so many tokens that stands at the position or behind it. -/
structure State.Beyond (total position : Nat) (state : State) : Prop where
  total_eq : state.position + state.remaining = total
  position_le : position ≤ state.position
  mild : state.Mild

namespace State.Beyond

variable {total position : Nat} {state after : State}

theorem start (tokens : List Token) : (State.start tokens).Beyond tokens.length 0 :=
  ⟨Nat.zero_add _, Nat.le_refl 0, mild_of_furthest rfl⟩

theorem of_leads (beyond : state.Beyond total position) (leads : state.Leads after) :
    after.Beyond total position := by
  refine ⟨?_, Nat.le_trans beyond.position_le leads.position_le, leads.mild beyond.mild⟩
  obtain ⟨tokens, rest_eq, position_eq⟩ := leads.taken
  have total_eq := beyond.total_eq
  rw [remaining, Input.remaining, rest_eq, List.length_append] at total_eq
  rw [position_eq, remaining, Input.remaining]
  omega

theorem next (beyond : state.Beyond total position) (leads : state.Leads after)
    (later : state.position < after.position) : after.Beyond total (position + 1) where
  total_eq := (beyond.of_leads leads).total_eq
  position_le := Nat.lt_of_le_of_lt beyond.position_le later
  mild := leads.mild beyond.mild

/-- A state is beyond its own position. -/
theorem here (beyond : state.Beyond total position) : state.Beyond total state.position :=
  ⟨beyond.total_eq, Nat.le_refl _, beyond.mild⟩

theorem position_le_total (beyond : state.Beyond total position) : position ≤ total := by
  have total_eq := beyond.total_eq
  have position_le := beyond.position_le
  omega

end State.Beyond

namespace Outcome

variable {α β : Type}

/-- Two runs that go on alike from all later states. -/
theorem andThen_congr {start : State} {outcome : Outcome α} {next next' : α → State → Outcome β}
    (ends : outcome.Ends start.Leads)
    (alike : ∀ value after, outcome = .ok value after → start.Leads after →
      next' value after = next value after) :
    outcome.andThen next' = outcome.andThen next := by
  cases outcome with
  | ok value after => exact alike value after rfl ends
  | error => rfl
  | exhausted => rfl

end Outcome

namespace Parser

variable {α β γ δ : Type}

/-! ### Stray entries -/

/-- A handle that may be used behind a position only: anywhere else it goes astray. -/
def behind (position : Nat) (stray parser : Parser α) : Parser α :=
  ⟨fun turns state =>
    if position < state.position then parser.run turns state else stray.run turns state⟩

/-- The rule that is built from itself, where every entry starts strictly behind the entry around
it, and no more than so many are inside each other.  Any other entry goes astray. -/
def ascending (stray : Parser α) (build : Parser α → Parser α) : Nat → Parser α
  | 0 => stray
  | entries + 1 =>
      ⟨fun turns state =>
        (build (behind state.position stray (ascending stray build entries))).run turns state⟩

/-- Parsers that run alike from the position on, in a parse of so many tokens with more turns than
that. -/
class SameFrom (total position : Nat) (parser parser' : Parser α) : Prop where
  run_eq : ∀ turns state, total < turns → state.Beyond total position →
    parser'.run turns state = parser.run turns state

/-- A parser that progresses ends behind the state where it started. -/
theorem Progresses.position_lt {parser : Parser α} [blind : Blind parser]
    [progress : Progresses parser] {turns : Nat} {state after : State} {value : α}
    (mild : state.Mild) (succeeds : parser.run turns state = .ok value after) :
    state.position < after.position := by
  have leads := blind.advances turns state
  have verdict := blind.verdict_run turns state mild
  rw [succeeds] at leads verdict
  have shorter := progress.shorter turns state.depth state.input.rest value after.input.rest
    verdict.symm
  obtain ⟨tokens, rest_eq, position_eq⟩ := State.Leads.taken leads
  rw [rest_eq, List.length_append] at shorter
  omega

namespace SameFrom

variable {total position : Nat}

instance same (parser : Parser α) : SameFrom total position parser parser := ⟨fun _ _ _ _ => rfl⟩

section
variable {parser parser' : Parser α} [alike : SameFrom total position parser parser']

instance (f : α → β) : SameFrom total position (parser.map f) (parser'.map f) :=
  ⟨fun turns state enough beyond => by
    simp only [map, alike.run_eq turns state enough beyond]⟩

instance : SameFrom total position parser.attempt parser'.attempt :=
  ⟨fun turns state enough beyond => by
    simp only [attempt, alike.run_eq turns state enough beyond]⟩

instance : SameFrom total position parser.optional parser'.optional :=
  ⟨fun turns state enough beyond => by
    simp only [optional, attempt, alike.run_eq turns state enough beyond]⟩

instance (limit : Nat) : SameFrom total position (nested limit parser) (nested limit parser') :=
  ⟨fun turns state enough beyond => by
    have deeper : { state with depth := state.depth + 1 }.Beyond total position :=
      ⟨beyond.total_eq, beyond.position_le, beyond.mild⟩
    simp only [nested, alike.run_eq turns _ enough deeper]⟩

instance (label : String) :
    SameFrom total position (recorded label parser) (recorded label parser') :=
  ⟨fun turns state enough beyond => by
    have entered := beyond.of_leads (state.leads_enter label)
    simp only [recorded, alike.run_eq turns _ enough entered]⟩

instance (label : String) (keep : α → Bool) :
    SameFrom total position (recordedWhen label keep parser) (recordedWhen label keep parser') :=
  ⟨fun turns state enough beyond => by
    have entered := beyond.of_leads (state.leads_enter label)
    simp only [recordedWhen, alike.run_eq turns _ enough entered]⟩

variable [blind : Blind parser]

theorem repeated (more : Nat) :
    SameFrom total position (Parser.repeated parser more) (Parser.repeated parser' more) := by
  induction more with
  | zero => exact .same _
  | succ more ih =>
      refine ⟨fun turns state enough beyond => ?_⟩
      have turn : SameFrom total position parser.optional parser'.optional := inferInstance
      rw [Parser.repeated, Parser.repeated]
      simp only [turn.run_eq turns state enough beyond]
      refine Outcome.andThen_congr (Keeps.optional blind.advances turns state)
        fun value after _ leads => ?_
      cases value with
      | none => rfl
      | some value => simp only [ih.run_eq turns after enough (beyond.of_leads leads)]

instance : SameFrom total position parser.many parser'.many :=
  ⟨fun turns => (repeated turns).run_eq turns⟩

end

instance {first first' : Parser α} {next next' : α → Parser β} [blind : Blind first]
    [alike : SameFrom total position first first']
    [goesOn : ∀ value, SameFrom total position (next value) (next' value)] :
    SameFrom total position (first >>= next) (first' >>= next') :=
  ⟨fun turns state enough beyond => by
    show (first'.run turns state).andThen _ = (first.run turns state).andThen _
    rw [alike.run_eq turns state enough beyond]
    refine Outcome.andThen_congr (blind.advances turns state) fun value after _ leads => ?_
    exact (goesOn value).run_eq turns after enough (beyond.of_leads leads)⟩

/-- Behind a parser that takes a token it is enough to run alike from the next position on. -/
theorem bind_behind {first first' : Parser α} {next next' : α → Parser β} [blind : Blind first]
    [Progresses first] [alike : SameFrom total position first first']
    (goesOn : ∀ value, SameFrom total (position + 1) (next value) (next' value)) :
    SameFrom total position (first >>= next) (first' >>= next') := by
  refine ⟨fun turns state enough beyond => ?_⟩
  show (first'.run turns state).andThen _ = (first.run turns state).andThen _
  rw [alike.run_eq turns state enough beyond]
  refine Outcome.andThen_congr (blind.advances turns state) fun value after succeeds leads => ?_
  have later := Progresses.position_lt beyond.mild succeeds
  exact (goesOn value).run_eq turns after enough (beyond.next leads later)

section
variable {first first' : Parser α} {second second' : Parser β} [Blind first] [Blind second]
  [SameFrom total position first first']

instance [SameFrom total position second second'] :
    SameFrom total position (first.pair second) (first'.pair second') :=
  inferInstanceAs (SameFrom total position
    (attempt (first >>= fun left => second >>= fun right => pure (left, right)))
    (attempt (first' >>= fun left => second' >>= fun right => pure (left, right))))

instance pair_behind [Progresses first] [SameFrom total (position + 1) second second'] :
    SameFrom total position (first.pair second) (first'.pair second') := by
  have sequence : SameFrom total position
      (first >>= fun left => second >>= fun right => pure (left, right))
      (first' >>= fun left => second' >>= fun right => pure (left, right)) :=
    bind_behind fun _ => inferInstance
  exact inferInstanceAs (SameFrom total position
    (attempt (first >>= fun left => second >>= fun right => pure (left, right)))
    (attempt (first' >>= fun left => second' >>= fun right => pure (left, right))))

end

section
variable {first first' : Parser α} {second second' : Parser β}
  [SameFrom total position (first.pair second) (first'.pair second')]

instance : SameFrom total position (first.keepLeft second) (first'.keepLeft second') :=
  inferInstanceAs (SameFrom total position ((first.pair second).map _) ((first'.pair second').map _))

instance : SameFrom total position (first.keepRight second) (first'.keepRight second') :=
  inferInstanceAs (SameFrom total position ((first.pair second).map _) ((first'.pair second').map _))

end

instance {inner inner' : Parser α} {opening : Parser β} {closing : Parser γ}
    [SameFrom total position ((opening.keepRight inner).keepLeft closing)
      ((opening.keepRight inner').keepLeft closing)] :
    SameFrom total position (group inner opening closing) (group inner' opening closing) :=
  inferInstanceAs (SameFrom total position ((opening.keepRight inner).keepLeft closing)
    ((opening.keepRight inner').keepLeft closing))

/-! ### Choice -/

/-- Alternatives that run alike one by one. -/
class All (total position : Nat) (parsers parsers' : List (Parser α)) : Prop where
  alike : List.Forall₂ (SameFrom total position) parsers parsers'

instance : All total position ([] : List (Parser α)) [] := ⟨.nil⟩

instance {parser parser' : Parser α} {others others' : List (Parser α)}
    [first : SameFrom total position parser parser'] [rest : All total position others others'] :
    All total position (parser :: others) (parser' :: others') :=
  ⟨.cons first rest.alike⟩

theorem alternatives {parsers parsers' : List (Parser α)} [all : AllBlind parsers]
    (alike : List.Forall₂ (SameFrom total position) parsers parsers') (failures : List Failure) :
    SameFrom total position (Parser.alternatives parsers failures)
      (Parser.alternatives parsers' failures) := by
  obtain ⟨blind⟩ := all
  induction alike generalizing failures with
  | nil => exact .same _
  | @cons parser parser' others others' first _ ih =>
      refine ⟨fun turns state enough beyond => ?_⟩
      have attempts : SameFrom total position parser.attempt parser'.attempt := inferInstance
      have ends := Keeps.attempt (blind parser List.mem_cons_self).advances turns state
      rw [Parser.alternatives, Parser.alternatives]
      simp only [attempts.run_eq turns state enough beyond]
      cases run : parser.attempt.run turns state with
      | ok => rfl
      | error failure after =>
          rw [run] at ends
          have rest := ih (failures ++ [failure]) fun other member =>
            blind other (List.mem_cons_of_mem _ member)
          simp only [rest.run_eq turns after enough (beyond.of_leads ends)]
      | exhausted => rfl

instance {parsers parsers' : List (Parser α)} [AllBlind parsers]
    [all : All total position parsers parsers'] :
    SameFrom total position (choice parsers) (choice parsers') := by
  obtain ⟨alike⟩ := all
  cases alike with
  | nil => exact .same _
  | cons first others =>
      cases others with
      | nil => exact first
      | cons second others => exact alternatives (.cons first (.cons second others)) []

instance {first first' second second' : Parser α} [Blind first] [Blind second]
    [SameFrom total position first first'] [SameFrom total position second second'] :
    SameFrom total position (first.or second) (first'.or second') :=
  inferInstanceAs (SameFrom total position (choice [first, second]) (choice [first', second']))

/-! ### Lists and operator chains -/

theorem withTurns {parser parser' : Nat → Parser α}
    (alike : ∀ turns, SameFrom total position (parser turns) (parser' turns)) :
    SameFrom total position (Parser.withTurns parser) (Parser.withTurns parser') :=
  ⟨fun turns => (alike turns).run_eq turns⟩

section
variable {element element' : Parser α} {delimiter : Parser δ} [Blind element] [Blind delimiter]
  [SameFrom total position element element']

instance followers (more : Nat) : SameFrom total position (Parser.followers element delimiter more)
    (Parser.followers element' delimiter more) := by
  induction more with
  | zero => exact .same _
  | succ more ih =>
      have goesOn (mark : Option δ) : SameFrom total position
          (follower element (Parser.followers element delimiter more) mark)
          (follower element' (Parser.followers element' delimiter more) mark) := by
        cases mark with
        | none => exact .same _
        | some mark =>
            exact (inferInstance : SameFrom total position
              (element >>= fun value => Parser.followers element delimiter more >>= fun rest =>
                pure (.delimiter mark :: .item value :: rest))
              (element' >>= fun value => Parser.followers element' delimiter more >>= fun rest =>
                pure (.delimiter mark :: .item value :: rest)))
      rw [followers_succ, followers_succ]
      infer_instance

instance (mayBeEmpty : Bool) : SameFrom total position (interleaved element delimiter mayBeEmpty)
    (interleaved element' delimiter mayBeEmpty) := by
  have loop : SameFrom total position (Parser.withTurns (Parser.followers element delimiter))
      (Parser.withTurns (Parser.followers element' delimiter)) := withTurns inferInstance
  have goesOn (first : Option α) : SameFrom total position (behindFirst element delimiter first)
      (behindFirst element' delimiter first) := by
    cases first with
    | none => exact .same _
    | some value =>
        exact (inferInstance : SameFrom total position
          (Parser.withTurns (Parser.followers element delimiter) >>= fun rest =>
            pure (.item value :: rest))
          (Parser.withTurns (Parser.followers element' delimiter) >>= fun rest =>
            pure (.item value :: rest)))
  rw [interleaved_eq, interleaved_eq]
  cases mayBeEmpty with
  | true => exact (inferInstance : SameFrom total position
      (element.optional >>= behindFirst element delimiter)
      (element'.optional >>= behindFirst element' delimiter))
  | false => exact (inferInstance : SameFrom total position
      (element.map some >>= behindFirst element delimiter)
      (element'.map some >>= behindFirst element' delimiter))

end

instance {element element' : Parser α} {delimiter : Parser δ} {opening : Parser β}
    {closing : Parser γ} {mayBeEmpty : Bool}
    [SameFrom total position (group (interleaved element delimiter mayBeEmpty) opening closing)
      (group (interleaved element' delimiter mayBeEmpty) opening closing)] :
    SameFrom total position (list element delimiter opening closing mayBeEmpty)
      (list element' delimiter opening closing mayBeEmpty) :=
  inferInstanceAs (SameFrom total position
    ((group (interleaved element delimiter mayBeEmpty) opening closing).map _)
    ((group (interleaved element' delimiter mayBeEmpty) opening closing).map _))

section
variable {operand operand' : Parser α} [Blind operand] [SameFrom total position operand operand']

instance links {operator : Parser (Joint α × α)} [Blind operator] (more : Nat) :
    SameFrom total position (Parser.links operand operator more)
      (Parser.links operand' operator more) := by
  induction more with
  | zero => exact .same _
  | succ more ih =>
      have goesOn (found : Option (Joint α × α)) : SameFrom total position
          (linked operand (Parser.links operand operator more) found)
          (linked operand' (Parser.links operand' operator more) found) := by
        cases found with
        | none => exact .same _
        | some found =>
            exact (inferInstance : SameFrom total position
              (operand >>= fun value => Parser.links operand operator more >>= fun rest =>
                pure (⟨found.1, found.2, value⟩ :: rest))
              (operand' >>= fun value => Parser.links operand' operator more >>= fun rest =>
                pure (⟨found.1, found.2, value⟩ :: rest)))
      rw [links_succ, links_succ]
      infer_instance

theorem binary {operators : List (Operator α)} [Blind (operatorOf operators)] :
    SameFrom total position (Parser.binary operand operators)
      (Parser.binary operand' operators) := by
  have loop : SameFrom total position
      (Parser.withTurns (Parser.links operand (operatorOf operators)))
      (Parser.withTurns (Parser.links operand' (operatorOf operators))) := withTurns inferInstance
  exact inferInstanceAs (SameFrom total position
    (attempt (operand >>= fun first =>
      Parser.withTurns (Parser.links operand (operatorOf operators)) >>= fun rest =>
        pure (Link.fold first rest)))
    (attempt (operand' >>= fun first =>
      Parser.withTurns (Parser.links operand' (operatorOf operators)) >>= fun rest =>
        pure (Link.fold first rest))))

end

/-! ### Recursive rules -/

/-- If a rule uses its handle only behind tokens, then stray entries make no difference to it, and
neither do more entries inside each other than there are positions. -/
theorem ascending {build build' : Parser α → Parser α} [KeepsBlind build] (stray : Parser α)
    (keeps : ∀ position self self', Blind self → SameFrom total (position + 1) self self' →
      SameFrom total position (build self) (build' self'))
    (entries more : Nat) (enough : total < entries + position)
    (enough_more : total < more + position) :
    SameFrom total position (entering build more) (Parser.ascending stray build' entries) := by
  induction entries generalizing more position with
  | zero =>
      refine ⟨fun _ state _ beyond => ?_⟩
      have within := beyond.position_le_total
      omega
  | succ entries ih =>
      refine ⟨fun turns state less beyond => ?_⟩
      have within := beyond.position_le_total
      obtain ⟨fewer, rfl⟩ : ∃ fewer, more = fewer + 1 := ⟨more - 1, by omega⟩
      have position_le := beyond.position_le
      have inside : SameFrom total (state.position + 1) (entering build fewer)
          (behind state.position stray (Parser.ascending stray build' entries)) := by
        refine ⟨fun turns later less beyond => ?_⟩
        have entries_alike : SameFrom total (state.position + 1) (entering build fewer)
            (Parser.ascending stray build' entries) := ih fewer (by omega) (by omega)
        rw [behind]
        simp only [if_pos (Nat.lt_of_succ_le beyond.position_le)]
        exact entries_alike.run_eq turns later less beyond
      exact (keeps state.position _ _ inferInstance inside).run_eq turns state less beyond.here

/-- The rule itself, with one entry for every position. -/
theorem recursive {build build' : Parser α → Parser α} [KeepsBlind build] (stray : Parser α)
    (keeps : ∀ position self self', Blind self → SameFrom total (position + 1) self self' →
      SameFrom total position (build self) (build' self')) :
    SameFrom total position (Parser.recursive build)
      (Parser.ascending stray build' (total + 1)) := by
  refine ⟨fun turns state less beyond => ?_⟩
  have alike : SameFrom total position (entering build turns)
      (Parser.ascending stray build' (total + 1)) :=
    ascending stray keeps (total + 1) turns (by omega) (by omega)
  exact alike.run_eq turns state less beyond

end SameFrom

end Parser

end Curried
