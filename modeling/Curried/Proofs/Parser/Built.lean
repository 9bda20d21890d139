import Curried.Parser.Operator
import Curried.Parser.Record
import Curried.Parser.Recursion
import Curried.Parser.Repetition

/-!
# Parsers built from the combinators

The parsers that can be written with the combinators of the library, in any nesting.  A law of
every such parser is proved by induction on how it is built: one case for each combinator.

The predicate is a class, so that the parsers of a grammar are recognised by instance search.
-/

namespace Curried.Parser

/-- A parser that is put together from the combinators.  A recursive rule is built if each of its
unfoldings is, and the handle of a rule that may not be entered again is the exhausted parser.  A
rule that defers to itself is recursive; `deferred` only delays a parser that is there already. -/
class inductive Built : {α : Type} → Parser α → Prop where
  | pure {α : Type} (value : α) : Built (Parser.pure value)
  | exhausted {α : Type} : Built (Parser.exhausted : Parser α)
  | fail {α : Type} (expected : String) : Built (Parser.fail expected : Parser α)
  | fatal {α : Type} (expected : String) : Built (Parser.fatal expected : Parser α)
  | note (label : String) : Built (Parser.note label)
  | satisfy (test : Token → Bool) (expected : String) : Built (Parser.satisfy test expected)
  | endOfInput : Built Parser.endOfInput
  | map {α β : Type} {parser : Parser α} (f : α → β) : Built parser → Built (parser.map f)
  | filterMap {α β : Type} {parser : Parser α} (f : α → Option β) (expected : String) :
      Built parser → Built (parser.filterMap f expected)
  | label {α : Type} {parser : Parser α} (name : String) : Built parser → Built (parser.label name)
  | attempt {α : Type} {parser : Parser α} : Built parser → Built parser.attempt
  | optional {α : Type} {parser : Parser α} : Built parser → Built parser.optional
  | pair {α β : Type} {first : Parser α} {second : Parser β} :
      Built first → Built second → Built (first.pair second)
  | sequence {α : Type} {parsers : List (Parser α)} :
      (∀ parser ∈ parsers, Built parser) → Built (Parser.sequence parsers)
  | choice {α : Type} {parsers : List (Parser α)} :
      (∀ parser ∈ parsers, Built parser) → Built (Parser.choice parsers)
  | repetition {α : Type} {parser : Parser α} (mayBeEmpty : Bool) :
      Built parser → Built (parser.repetition mayBeEmpty)
  | listWithDelimiters {α β γ δ : Type} {element : Parser α} {delimiter : Parser δ}
      {opening : Parser β} {closing : Parser γ} (mayBeEmpty : Bool) :
      Built element → Built delimiter → Built opening → Built closing →
        Built (Parser.listWithDelimiters element delimiter opening closing mayBeEmpty)
  | binary {α : Type} {operand : Parser α} {operators : List (Operator α)} :
      Built operand → (∀ operator ∈ operators, Built operator.parser) →
        Built (Parser.binary operand operators)
  | recursive {α : Type} {build : Parser α → Parser α} :
      (∀ entries, Built ⟨unfolded build entries⟩) → Built (Parser.recursive build)
  | deferred {α : Type} {build : Unit → Parser α} : Built (build ()) → Built (Parser.deferred build)
  | nested {α : Type} {parser : Parser α} (limit : Nat) :
      Built parser → Built (Parser.nested limit parser)
  | recorded {α : Type} {parser : Parser α} (label : String) :
      Built parser → Built (Parser.recorded label parser)
  | recordedWhen {α : Type} {parser : Parser α} (label : String) (keep : α → Bool) :
      Built parser → Built (Parser.recordedWhen label keep parser)
  | noted {α : Type} {parser : Parser α} (describe : α → String) :
      Built parser → Built (parser.noted describe)

namespace Built

variable {α β γ δ : Type}

/-- A list of parsers that are all built from the combinators. -/
class All (parsers : List (Parser α)) : Prop where
  built : ∀ parser ∈ parsers, Built parser

instance : All ([] : List (Parser α)) := ⟨by simp⟩

instance {parser : Parser α} {others : List (Parser α)} [Built parser] [All others] :
    All (parser :: others) :=
  ⟨by
    rintro other (_ | ⟨_, member⟩)
    · assumption
    · exact All.built other member⟩

/-! ### Each combinator, for instance search -/

section
variable {parser : Parser α} [Built parser]

instance (value : α) : Built (Parser.pure value) := .pure value
instance : Built Parser.nothing := .pure ()
instance (expected : String) : Built (Parser.fail expected : Parser α) := .fail expected
instance (expected : String) : Built (Parser.fatal expected : Parser α) := .fatal expected
instance (test : Token → Bool) (expected : String) : Built (Parser.satisfy test expected) :=
  .satisfy test expected
instance (kind : String) : Built (Parser.token kind) := .satisfy _ _
instance (kind : String) (value : TokenValue) : Built (Parser.tokenValue kind value) :=
  .satisfy _ _
instance : Built Parser.endOfInput := .endOfInput
instance (f : α → β) : Built (parser.map f) := .map f ‹_›
instance (f : α → Option β) (expected : String) : Built (parser.filterMap f expected) :=
  .filterMap f expected ‹_›
instance (test : α → Bool) (expected : String) : Built (parser.verify test expected) :=
  .filterMap _ expected ‹_›
instance (name : String) : Built (parser.label name) := .label name ‹_›
instance : Built parser.attempt := .attempt ‹_›
instance : Built parser.optional := .optional ‹_›
instance (mayBeEmpty : Bool) : Built (parser.repetition mayBeEmpty) := .repetition mayBeEmpty ‹_›
instance : Built parser.many := .repetition true ‹_›
instance : Built parser.manyOne := .repetition false ‹_›
instance (limit : Nat) : Built (Parser.nested limit parser) := .nested limit ‹_›
instance (label : String) : Built (Parser.recorded label parser) := .recorded label ‹_›
instance (label : String) (keep : α → Bool) : Built (Parser.recordedWhen label keep parser) :=
  .recordedWhen label keep ‹_›
instance (describe : α → String) : Built (parser.noted describe) := .noted describe ‹_›

end

instance {first : Parser α} {second : Parser β} [Built first] [Built second] :
    Built (first.pair second) :=
  .pair ‹_› ‹_›

instance {first : Parser α} {second : Parser β} [Built first] [Built second] :
    Built (first.keepLeft second) :=
  .map _ (.pair ‹_› ‹_›)

instance {first : Parser α} {second : Parser β} [Built first] [Built second] :
    Built (first.keepRight second) :=
  .map _ (.pair ‹_› ‹_›)

instance {inner : Parser α} {opening : Parser β} {closing : Parser γ} [Built inner]
    [Built opening] [Built closing] : Built (Parser.group inner opening closing) :=
  inferInstanceAs (Built ((opening.keepRight inner).keepLeft closing))

instance {parsers : List (Parser α)} [All parsers] : Built (Parser.sequence parsers) :=
  .sequence All.built

instance {parsers : List (Parser α)} [All parsers] : Built (Parser.choice parsers) :=
  .choice All.built

instance {first second : Parser α} [Built first] [Built second] : Built (first.or second) :=
  inferInstanceAs (Built (Parser.choice [first, second]))

instance {element : Parser α} {delimiter : Parser δ} {opening : Parser β} {closing : Parser γ}
    [Built element] [Built delimiter] [Built opening] [Built closing] (mayBeEmpty : Bool) :
    Built (Parser.listWithDelimiters element delimiter opening closing mayBeEmpty) :=
  .listWithDelimiters mayBeEmpty ‹_› ‹_› ‹_› ‹_›

instance {element : Parser α} {delimiter : Parser δ} {opening : Parser β} {closing : Parser γ}
    [Built element] [Built delimiter] [Built opening] [Built closing] (mayBeEmpty : Bool) :
    Built (Parser.list element delimiter opening closing mayBeEmpty) :=
  .map _ (.listWithDelimiters mayBeEmpty ‹_› ‹_› ‹_› ‹_›)

/-- Every unfolding of a rule is built if the rule keeps parsers built. -/
theorem of_unfolded {build : Parser α → Parser α} (keeps : ∀ self, Built self → Built (build self))
    (entries : Nat) : Built ⟨unfolded build entries⟩ := by
  induction entries with
  | zero => exact .exhausted
  | succ entries ih => exact keeps _ ih

/-- A rule that is built from the combinators and its own handle. -/
theorem recursive_of_keeps {build : Parser α → Parser α}
    (keeps : ∀ self, Built self → Built (build self)) : Built (Parser.recursive build) :=
  .recursive (of_unfolded keeps)

instance {build : Unit → Parser α} [Built (build ())] : Built (Parser.deferred build) :=
  .deferred ‹_›

end Built

end Curried.Parser
