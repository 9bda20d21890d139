import Curried.Program
import Curried.Proofs.Grammar.Built

/-!
# Every node that is opened is closed

When a run ends, in success or failure, the same nodes of the history are open as before, and the
nesting is as deep.  Of the open nodes only the innermost one may have changed: it holds what was
recorded in between.

So a node that is closed always has another one around it.  This is said by parsers that are
watched: where the root would be closed, anything at all may happen to them, and they run the same.
-/

namespace Curried

/-! ### Open nodes -/

namespace Trail

variable {trail : Trail} {node : History} {outer : List History}

theorem enclosing_leave (inside : trail.enclosing = node :: outer) :
    trail.leave.enclosing = outer := by
  obtain ⟨current, enclosing⟩ := trail
  cases inside
  rfl

theorem enclosing_leaveSpliced (inside : trail.enclosing = node :: outer) :
    trail.leaveSpliced.enclosing = outer := by
  obtain ⟨current, enclosing⟩ := trail
  cases inside
  rfl

/-- If only the root is open, it is the whole history. -/
theorem eq_of_enclosing_eq_nil (alone : trail.enclosing = []) : trail = ⟨trail.history, []⟩ := by
  obtain ⟨current, enclosing⟩ := trail
  cases alone
  rfl

end Trail

namespace State

/-- Two states are nested equally deep, and the open nodes around the current one are the same. -/
structure Balanced (before after : State) : Prop where
  depth : after.depth = before.depth
  enclosing : after.trail.enclosing = before.trail.enclosing

instance : Kept Balanced where
  refl _ := ⟨rfl, rfl⟩
  trans first second :=
    ⟨second.depth.trans first.depth, second.enclosing.trans first.enclosing⟩
  advance _ := ⟨rfl, rfl⟩
  remember {state failure} _ := by
    rcases state.remember_cases failure with same | replaced
    · rw [same]
      exact ⟨rfl, rfl⟩
    · rw [replaced]
      exact ⟨rfl, rfl⟩
  note _ _ := ⟨rfl, rfl⟩
  nest {state after} balanced := by
    have deeper : after.depth = state.depth + 1 := balanced.depth
    exact ⟨by rw [deeper, Nat.add_sub_cancel], balanced.enclosing⟩
  leave balanced := ⟨balanced.depth, Trail.enclosing_leave balanced.enclosing⟩
  leaveSpliced balanced := ⟨balanced.depth, Trail.enclosing_leaveSpliced balanced.enclosing⟩

end State

namespace Parser

variable {α : Type}

/-! ### Watched nodes -/

/-- A parser that records a node around another one, watched: if only the root is open at the end of
the inner run, where the node is closed, the parser goes astray. -/
def watched (stray : Parser α) (label : String) (inner recording : Parser α) : Parser α :=
  ⟨fun turns state =>
    match inner.run turns (state.enter label) with
    | .ok _ after | .error _ after =>
        match after.trail.enclosing with
        | [] => stray.run turns after
        | _ :: _ => recording.run turns state
    | .exhausted => recording.run turns state⟩

/-- Around a parser that keeps the open nodes there is nothing to watch. -/
theorem watched_eq {inner : Parser α} (balanced : Keeps State.Balanced inner)
    (stray : Parser α) (label : String) (recording : Parser α) :
    watched stray label inner recording = recording := by
  refine congrArg Parser.mk (funext fun turns => funext fun state => ?_)
  have ends := balanced turns (state.enter label)
  cases run : inner.run turns (state.enter label) with
  | ok value after | error failure after =>
      rw [run] at ends
      have inside : after.trail.enclosing = state.trail.current :: state.trail.enclosing :=
        State.Balanced.enclosing ends
      simp only [inside]
  | exhausted => rfl

/-- The second parser is put together like the first, but every node that it records is watched. -/
inductive Watches (stray : ∀ α : Type, Parser α) : {α : Type} → Parser α → Parser α → Prop where
  | pure {α : Type} (value : α) : Watches stray (Parser.pure value) (Parser.pure value)
  | exhausted {α : Type} : Watches stray (Parser.exhausted : Parser α) Parser.exhausted
  | fail {α : Type} (expected : String) :
      Watches stray (Parser.fail expected : Parser α) (.fail expected)
  | fatal {α : Type} (expected : String) :
      Watches stray (Parser.fatal expected : Parser α) (.fatal expected)
  | note (label : String) : Watches stray (Parser.note label) (Parser.note label)
  | satisfy (test : Token → Bool) (expected : String) :
      Watches stray (Parser.satisfy test expected) (Parser.satisfy test expected)
  | endOfInput : Watches stray Parser.endOfInput Parser.endOfInput
  | map {α β : Type} {parser other : Parser α} (f : α → β) :
      Watches stray parser other → Watches stray (parser.map f) (other.map f)
  | filterMap {α β : Type} {parser other : Parser α} (f : α → Option β) (expected : String) :
      Watches stray parser other →
        Watches stray (parser.filterMap f expected) (other.filterMap f expected)
  | label {α : Type} {parser other : Parser α} (name : String) :
      Watches stray parser other → Watches stray (parser.label name) (other.label name)
  | attempt {α : Type} {parser other : Parser α} :
      Watches stray parser other → Watches stray parser.attempt other.attempt
  | optional {α : Type} {parser other : Parser α} :
      Watches stray parser other → Watches stray parser.optional other.optional
  | pair {α β : Type} {first other : Parser α} {second further : Parser β} :
      Watches stray first other → Watches stray second further →
        Watches stray (first.pair second) (other.pair further)
  | sequence {α : Type} {pairs : List (Parser α × Parser α)} :
      (∀ pair ∈ pairs, Watches stray pair.1 pair.2) →
        Watches stray (Parser.sequence (pairs.map Prod.fst)) (Parser.sequence (pairs.map Prod.snd))
  | choice {α : Type} {pairs : List (Parser α × Parser α)} :
      (∀ pair ∈ pairs, Watches stray pair.1 pair.2) →
        Watches stray (Parser.choice (pairs.map Prod.fst)) (Parser.choice (pairs.map Prod.snd))
  | repetition {α : Type} {parser other : Parser α} (mayBeEmpty : Bool) :
      Watches stray parser other →
        Watches stray (parser.repetition mayBeEmpty) (other.repetition mayBeEmpty)
  | listWithDelimiters {α β γ δ : Type} {element other : Parser α} {delimiter mark : Parser δ}
      {opening opens : Parser β} {closing closes : Parser γ} (mayBeEmpty : Bool) :
      Watches stray element other → Watches stray delimiter mark → Watches stray opening opens →
        Watches stray closing closes →
          Watches stray (Parser.listWithDelimiters element delimiter opening closing mayBeEmpty)
            (Parser.listWithDelimiters other mark opens closes mayBeEmpty)
  | binary {α : Type} {operand other : Parser α} {entries : List (Joint α × Parser α × Parser α)} :
      Watches stray operand other → (∀ entry ∈ entries, Watches stray entry.2.1 entry.2.2) →
        Watches stray (Parser.binary operand (entries.map fun entry => ⟨entry.1, entry.2.1⟩))
          (Parser.binary other (entries.map fun entry => ⟨entry.1, entry.2.2⟩))
  | recursive {α : Type} {build rebuild : Parser α → Parser α} :
      (∀ entries, Watches stray ⟨unfolded build entries⟩ ⟨unfolded rebuild entries⟩) →
        Watches stray (Parser.recursive build) (Parser.recursive rebuild)
  | deferred {α : Type} {build rebuild : Unit → Parser α} :
      Watches stray (build ()) (rebuild ()) →
        Watches stray (Parser.deferred build) (Parser.deferred rebuild)
  | nested {α : Type} {parser other : Parser α} (limit : Nat) :
      Watches stray parser other →
        Watches stray (Parser.nested limit parser) (Parser.nested limit other)
  | recorded {α : Type} {parser other : Parser α} (label : String) :
      Watches stray parser other →
        Watches stray (Parser.recorded label parser)
          (watched (stray α) label other (Parser.recorded label other))
  | recordedWhen {α : Type} {parser other : Parser α} (label : String) (keep : α → Bool) :
      Watches stray parser other →
        Watches stray (Parser.recordedWhen label keep parser)
          (watched (stray α) label other (Parser.recordedWhen label keep other))
  | noted {α : Type} {parser other : Parser α} (describe : α → String) :
      Watches stray parser other → Watches stray (parser.noted describe) (other.noted describe)

namespace Watches

variable {stray : ∀ α : Type, Parser α} {parser other : Parser α}

/-- A watched parser is the parser itself. -/
theorem built_and_eq (watches : Watches stray parser other) : Built parser ∧ other = parser := by
  induction watches with
  | pure value => exact ⟨.pure value, rfl⟩
  | exhausted => exact ⟨.exhausted, rfl⟩
  | fail expected => exact ⟨.fail expected, rfl⟩
  | fatal expected => exact ⟨.fatal expected, rfl⟩
  | note label => exact ⟨.note label, rfl⟩
  | satisfy test expected => exact ⟨.satisfy test expected, rfl⟩
  | endOfInput => exact ⟨.endOfInput, rfl⟩
  | map f _ ih => exact ⟨.map f ih.1, by rw [ih.2]⟩
  | filterMap f expected _ ih => exact ⟨.filterMap f expected ih.1, by rw [ih.2]⟩
  | label name _ ih => exact ⟨.label name ih.1, by rw [ih.2]⟩
  | attempt _ ih => exact ⟨.attempt ih.1, by rw [ih.2]⟩
  | optional _ ih => exact ⟨.optional ih.1, by rw [ih.2]⟩
  | pair _ _ first second => exact ⟨.pair first.1 second.1, by rw [first.2, second.2]⟩
  | sequence _ ih =>
      refine ⟨.sequence (List.forall_mem_map.2 fun pair member => (ih pair member).1), ?_⟩
      rw [List.map_congr_left fun pair member => (ih pair member).2]
  | choice _ ih =>
      refine ⟨.choice (List.forall_mem_map.2 fun pair member => (ih pair member).1), ?_⟩
      rw [List.map_congr_left fun pair member => (ih pair member).2]
  | repetition mayBeEmpty _ ih => exact ⟨.repetition mayBeEmpty ih.1, by rw [ih.2]⟩
  | listWithDelimiters mayBeEmpty _ _ _ _ element delimiter opening closing =>
      refine ⟨.listWithDelimiters mayBeEmpty element.1 delimiter.1 opening.1 closing.1, ?_⟩
      rw [element.2, delimiter.2, opening.2, closing.2]
  | binary _ _ operand ih =>
      refine ⟨.binary operand.1 (List.forall_mem_map.2 fun entry member => (ih entry member).1), ?_⟩
      rw [operand.2, List.map_congr_left fun entry member => by rw [(ih entry member).2]]
  | @recursive _ build rebuild _ ih =>
      have same (entries : Nat) : unfolded rebuild entries = unfolded build entries :=
        congrArg Parser.run (ih entries).2
      refine ⟨.recursive fun entries => (ih entries).1, ?_⟩
      simp only [Parser.recursive, same]
  | deferred _ ih => exact ⟨.deferred ih.1, by simp only [Parser.deferred, ih.2]⟩
  | nested limit _ ih => exact ⟨.nested limit ih.1, by rw [ih.2]⟩
  | recorded label _ ih =>
      refine ⟨.recorded label ih.1, ?_⟩
      rw [ih.2, watched_eq ih.1.keeps]
  | recordedWhen label keep _ ih =>
      refine ⟨.recordedWhen label keep ih.1, ?_⟩
      rw [ih.2, watched_eq ih.1.keeps]
  | noted describe _ ih => exact ⟨.noted describe ih.1, by rw [ih.2]⟩

/-- Each parser that is built from the combinators is the watched parser of itself. -/
theorem of_built (stray : ∀ α : Type, Parser α) (built : Built parser) :
    Watches stray parser parser := by
  induction built with
  | pure value => exact .pure value
  | exhausted => exact .exhausted
  | fail expected => exact .fail expected
  | fatal expected => exact .fatal expected
  | note label => exact .note label
  | satisfy test expected => exact .satisfy test expected
  | endOfInput => exact .endOfInput
  | map f _ ih => exact ih.map f
  | filterMap f expected _ ih => exact ih.filterMap f expected
  | label name _ ih => exact ih.label name
  | attempt _ ih => exact ih.attempt
  | optional _ ih => exact ih.optional
  | pair _ _ first second => exact first.pair second
  | @sequence _ parsers _ ih =>
      have doubled : ∀ pair ∈ parsers.map fun parser => (parser, parser),
          Watches stray pair.1 pair.2 := by
        simpa using ih
      simpa [Function.comp_def] using Watches.sequence doubled
  | @choice _ parsers _ ih =>
      have doubled : ∀ pair ∈ parsers.map fun parser => (parser, parser),
          Watches stray pair.1 pair.2 := by
        simpa using ih
      simpa [Function.comp_def] using Watches.choice doubled
  | repetition mayBeEmpty _ ih => exact ih.repetition mayBeEmpty
  | listWithDelimiters mayBeEmpty _ _ _ _ element delimiter opening closing =>
      exact .listWithDelimiters mayBeEmpty element delimiter opening closing
  | @binary _ _ operators _ _ operand ih =>
      have doubled : ∀ entry ∈ operators.map fun operator =>
          (operator.toJoint, operator.parser, operator.parser),
          Watches stray entry.2.1 entry.2.2 := by
        simpa using ih
      simpa [Function.comp_def] using Watches.binary operand doubled
  | recursive _ ih => exact .recursive ih
  | deferred _ ih => exact .deferred ih
  | nested limit _ ih => exact ih.nested limit
  | recorded label built ih =>
      have recording := ih.recorded label
      rwa [watched_eq built.keeps] at recording
  | recordedWhen label keep built ih =>
      have recording := ih.recordedWhen label keep
      rwa [watched_eq built.keeps] at recording
  | noted describe _ ih => exact ih.noted describe

end Watches

end Parser

/-- When a program is parsed, only the root is open in the end, and it is the history. -/
theorem trail_of_parse {source : String} {tree : Expression} {history : History}
    (parses : parseWithHistory source = .ok (tree, history)) :
    ∃ tokens after, tokenize Rule.standard source = .ok tokens ∧
      Grammar.program.run (turnsFor tokens) (.start tokens) = .ok tree after ∧
      after.trail = ⟨history, []⟩ := by
  obtain ⟨tokens, lexed, parses⟩ := parseWithHistory_eq_ok_iff.1 parses
  obtain ⟨after, run, rfl⟩ := Parser.parseTokens_eq_ok_iff.1 parses
  have built : Parser.Built Grammar.program := Grammar.built_program (some Grammar.nestingLimit)
  have ends : (Grammar.program.run (turnsFor tokens) (.start tokens)).Ends
    (State.start tokens).Balanced := built.keeps _ _
  rw [run] at ends
  have alone : after.trail.enclosing = [] := State.Balanced.enclosing ends
  exact ⟨tokens, after, lexed, run, Trail.eq_of_enclosing_eq_nil alone⟩

namespace Parser

variable {α : Type}

/-- However a run of a parser that is built from the combinators ends, it leaves the nesting and the
open nodes of the history as they were, but for what it recorded in the innermost one.  So no node
is ever closed while only the root is open: the parser runs the same whatever would happen then.
And when a program is parsed, only the root is open in the end. -/
theorem run_balanced {parser : Parser α} (built : Built parser) :
    (∀ turns state, (parser.run turns state).Ends state.Balanced) ∧
    (∀ (stray : ∀ β : Type, Parser β) (other : Parser α),
      Watches stray parser other ↔ other = parser) ∧
    ∀ source tree history, parseWithHistory source = .ok (tree, history) →
      ∃ tokens after, tokenize Rule.standard source = .ok tokens ∧
        Grammar.program.run (turnsFor tokens) (.start tokens) = .ok tree after ∧
        after.trail = ⟨history, []⟩ := by
  refine ⟨built.keeps, fun stray other => ⟨fun watches => watches.built_and_eq.2, ?_⟩,
    fun _ _ _ => trail_of_parse⟩
  rintro rfl
  exact .of_built stray built

/-- Words up to a fatal failure, inside of an open node: the failure comes out of two nodes and a
level of nesting, one of the nodes dropped, and all of them are closed. -/
theorem run_balanced_words :
    let word := recordedWhen "word" (fun _ => false) ((token "word").or (fatal "no more"))
    let words := nested 2 (recorded "words" word.many)
    let start := (State.start [⟨"word", "a", "a", .text "a", .start⟩]).enter "outer"
    Built words ∧
    (∃ failure after, words.run 2 start = .error failure after ∧ failure.fatal = true ∧
      start.Balanced after) ∧
    (∀ other, Watches (fun _ => exhausted) words other ↔ other = words) ∧
    ∃ tree history tokens after, parseWithHistory "f (1)" = .ok (tree, history) ∧
      tokenize Rule.standard "f (1)" = .ok tokens ∧
      Grammar.program.run (turnsFor tokens) (.start tokens) = .ok tree after ∧
      after.trail = ⟨history, []⟩ := by
  intro word words start
  have built : Built words := inferInstance
  obtain ⟨balanced, watches, alone⟩ := run_balanced built
  have fails : ∃ failure after, words.run 2 start = .error failure after ∧ failure.fatal = true :=
    ⟨_, _, rfl, rfl⟩
  obtain ⟨failure, after, run, fatal⟩ := fails
  have ends := balanced 2 start
  rw [run] at ends
  refine ⟨built, ⟨failure, after, run, fatal, ends⟩, watches _, ?_⟩
  have checked : (parseWithHistory "f (1)").isOk = true := by decide +kernel
  cases parses : parseWithHistory "f (1)" with
  | error _ => simp [parses, Except.isOk, Except.toBool] at checked
  | ok found =>
      obtain ⟨tree, history⟩ := found
      obtain ⟨tokens, after, lexed, run, root⟩ := alone _ _ _ parses
      exact ⟨tree, history, tokens, after, rfl, lexed, run, root⟩

end Parser

end Curried
