import Curried.Parser.Operator
import Curried.Parser.Record
import Curried.Parser.Recursion
import Curried.Parser.Repetition

/-!
# What a parse leaves in the history

A run that succeeds hangs nodes below the current node of the history, behind those that are there,
and changes nothing else of it.  `Leaves` says which nodes a value comes with.  Whatever was tried
and given up leaves no node, since a failed attempt goes back to the state before it; so each
combinator only puts together the nodes of the parsers whose values it uses.
-/

namespace Curried

/-! ### Trails -/

namespace Trail

/-- Hang nodes below the current one, behind those that are there. -/
def hang (trail : Trail) (nodes : List History) : Trail :=
  { trail with current := nodes.foldl History.attach trail.current }

variable (trail : Trail) (label : String) (nodes others : List History)

theorem hang_append : trail.hang (nodes ++ others) = (trail.hang nodes).hang others := by
  simp [hang, List.foldl_append]

theorem foldl_attach (children : List History) :
    nodes.foldl History.attach (.node label children) = .node label (children ++ nodes) := by
  induction nodes generalizing children with
  | nil => simp
  | cons node others ih => simp [History.attach, ih]

/-- Nodes inside of a node that was opened for them. -/
theorem leave_hang : ((trail.enter label).hang nodes).leave = trail.hang [.node label nodes] := by
  simp [enter, hang, leave, History.leaf, foldl_attach]

/-- Nodes inside of a node that is dropped are handed to the one around it. -/
theorem leaveSpliced_hang : ((trail.enter label).hang nodes).leaveSpliced = trail.hang nodes := by
  simp [enter, hang, leaveSpliced, History.leaf, foldl_attach, History.children]

end Trail

theorem State.trail_remember (state : State) (failure : Failure) :
    (state.remember failure).trail = state.trail := by
  unfold State.remember
  split
  · split <;> rfl
  · rfl

/-! ### Outcomes -/

namespace Outcome

variable {α β : Type} {trail : Trail} {outcome : Outcome α} {shows : α → List History → Prop}

/-- If the run succeeds, it has hung nodes below the trail that the value comes with. -/
def Shows (trail : Trail) (shows : α → List History → Prop) : Outcome α → Prop
  | .ok value after => ∃ nodes, shows value nodes ∧ after.trail = trail.hang nodes
  | .error _ _ => True
  | .exhausted => True

theorem Shows.imp {others : α → List History → Prop} (leaves : outcome.Shows trail shows)
    (implies : ∀ value nodes, shows value nodes → others value nodes) :
    outcome.Shows trail others := by
  cases outcome with
  | ok value after =>
      obtain ⟨nodes, shown, same⟩ := leaves
      exact ⟨nodes, implies value nodes shown, same⟩
  | error failure after => trivial
  | exhausted => trivial

theorem Shows.map {f : α → β} {others : β → List History → Prop}
    (leaves : outcome.Shows trail fun value => others (f value)) :
    (outcome.map f).Shows trail others := by
  cases outcome <;> exact leaves

/-- What a run goes on with hangs its nodes behind those of the run. -/
theorem Shows.andThen {next : α → State → Outcome β} {others : β → List History → Prop}
    (leaves : outcome.Shows trail shows)
    (goesOn : ∀ value after nodes, shows value nodes →
      (next value after).Shows after.trail fun result further => others result (nodes ++ further)) :
    (outcome.andThen next).Shows trail others := by
  cases outcome with
  | ok value after =>
      obtain ⟨nodes, shown, same⟩ := leaves
      have behind := goesOn value after nodes shown
      show (next value after).Shows trail others
      cases run : next value after with
      | ok result last =>
          rw [run] at behind
          obtain ⟨further, result_shown, last_same⟩ := behind
          exact ⟨nodes ++ further, result_shown, by rw [last_same, same, Trail.hang_append]⟩
      | error failure last => trivial
      | exhausted => trivial
  | error failure after => trivial
  | exhausted => trivial

end Outcome

namespace Parser

variable {α β γ δ : Type}

/-- Every success of the parser hangs nodes below the current one that the value comes with. -/
def Leaves (parser : Parser α) (shows : α → List History → Prop) : Prop :=
  ∀ turns state, (parser.run turns state).Shows state.trail shows

/-- The nodes of several values, in their order. -/
def showAll (shows : α → List History → Prop) : List α → List History → Prop
  | [], nodes => nodes = []
  | value :: values, nodes =>
      ∃ front behind, shows value front ∧ showAll shows values behind ∧ nodes = front ++ behind

namespace Leaves

variable {parser : Parser α} {shows : α → List History → Prop}

theorem imp {others : α → List History → Prop} (leaves : Leaves parser shows)
    (implies : ∀ value nodes, shows value nodes → others value nodes) : Leaves parser others :=
  fun turns state => (leaves turns state).imp implies

/-! ### Values and transactions -/

theorem pure {value : α} (shown : shows value []) : Leaves (Parser.pure value) shows :=
  fun _ _ => ⟨[], shown, rfl⟩

theorem exhausted : Leaves (Parser.exhausted : Parser α) shows := fun _ _ => trivial

theorem satisfy (test : Token → Bool) (expected : String) :
    Leaves (Parser.satisfy test expected) fun _ nodes => nodes = [] := by
  intro turns state
  unfold Parser.satisfy
  simp only
  split
  · split
    · exact ⟨[], rfl, rfl⟩
    · trivial
  · trivial

theorem endOfInput : Leaves Parser.endOfInput fun _ nodes => nodes = [] := by
  intro turns state
  unfold Parser.endOfInput
  simp only
  split
  · trivial
  · exact ⟨[], rfl, rfl⟩

theorem map {f : α → β} {others : β → List History → Prop}
    (leaves : Leaves parser fun value => others (f value)) : Leaves (parser.map f) others :=
  fun turns state => (leaves turns state).map

theorem bind {next : α → Parser β} {others : β → List History → Prop}
    (first : Leaves parser shows)
    (second : ∀ value nodes, shows value nodes →
      Leaves (next value) fun result further => others result (nodes ++ further)) :
    Leaves (parser >>= next) others :=
  fun turns state => (first turns state).andThen fun value after nodes shown =>
    second value nodes shown turns after

theorem withTurns {parser : Nat → Parser α} (leaves : ∀ turns, Leaves (parser turns) shows) :
    Leaves (Parser.withTurns parser) shows :=
  fun turns state => leaves turns turns state

theorem attempt (leaves : Leaves parser shows) : Leaves parser.attempt shows := by
  intro turns state
  have inner := leaves turns state
  unfold Parser.attempt
  simp only
  split <;> rename_i run <;> rw [run] at inner <;> exact inner

/-- A failure that is passed over leaves no node. -/
theorem optional (leaves : Leaves parser shows) :
    Leaves parser.optional fun value nodes =>
      match value with
      | some value => shows value nodes
      | none => nodes = [] := by
  intro turns state
  have inner := leaves turns state
  unfold Parser.optional Parser.attempt
  simp only
  cases run : parser.run turns state with
  | ok value after =>
      rw [run] at inner
      exact inner
  | error failure after =>
      simp only
      split
      · trivial
      · exact ⟨[], rfl, State.trail_remember state failure⟩
  | exhausted => trivial

theorem filterMap {f : α → Option β} {others : β → List History → Prop} (expected : String)
    (leaves : Leaves parser fun value nodes => ∀ result, f value = some result →
      others result nodes) : Leaves (parser.filterMap f expected) others := by
  intro turns state
  have inner := leaves turns state
  unfold Parser.filterMap
  simp only
  cases run : parser.run turns state with
  | ok value after =>
      rw [run] at inner
      obtain ⟨nodes, shown, same⟩ := inner
      simp only
      cases kept : f value with
      | some result => exact ⟨nodes, shown result kept, same⟩
      | none => trivial
  | error failure after => trivial
  | exhausted => trivial

theorem nested (leaves : Leaves parser shows) (limit : Nat) :
    Leaves (Parser.nested limit parser) shows := by
  intro turns state
  unfold Parser.nested
  simp only
  split
  · trivial
  · have inner := leaves turns { state with depth := state.depth + 1 }
    cases run : parser.run turns { state with depth := state.depth + 1 } with
    | ok value after =>
        rw [run] at inner
        exact inner
    | error failure after => trivial
    | exhausted => trivial

theorem recursive {build : Parser α → Parser α}
    (keeps : ∀ self, Leaves self shows → Leaves (build self) shows) :
    Leaves (Parser.recursive build) shows := by
  have rules : ∀ entries, Leaves ⟨unfolded build entries⟩ shows := by
    intro entries
    induction entries with
    | zero => exact exhausted
    | succ entries ih => exact keeps _ ih
  exact fun turns state => rules turns turns state

/-! ### Records -/

theorem recorded (label : String) (leaves : Leaves parser shows) :
    Leaves (Parser.recorded label parser) fun value nodes =>
      ∃ inner, shows value inner ∧ nodes = [.node label inner] := by
  intro turns state
  have inside := leaves turns (state.enter label)
  unfold Parser.recorded
  simp only
  cases run : parser.run turns (state.enter label) with
  | ok value after =>
      rw [run] at inside
      obtain ⟨inner, shown, same⟩ := inside
      exact ⟨[.node label inner], ⟨inner, shown, rfl⟩,
        (congrArg Trail.leave same).trans (Trail.leave_hang state.trail label inner)⟩
  | error failure after => trivial
  | exhausted => trivial

theorem recordedWhen (label : String) (keep : α → Bool) (leaves : Leaves parser shows) :
    Leaves (Parser.recordedWhen label keep parser) fun value nodes =>
      ∃ inner, shows value inner ∧
        nodes = if keep value then [.node label inner] else inner := by
  intro turns state
  have inside := leaves turns (state.enter label)
  unfold Parser.recordedWhen
  simp only
  cases run : parser.run turns (state.enter label) with
  | ok value after =>
      rw [run] at inside
      obtain ⟨inner, shown, same⟩ := inside
      refine ⟨_, ⟨inner, shown, rfl⟩, ?_⟩
      split
      · exact (congrArg Trail.leave same).trans (Trail.leave_hang state.trail label inner)
      · exact (congrArg Trail.leaveSpliced same).trans
          (Trail.leaveSpliced_hang state.trail label inner)
  | error failure after => trivial
  | exhausted => trivial

theorem noted (describe : α → String) (leaves : Leaves parser shows) :
    Leaves (parser.noted describe) fun value nodes =>
      ∃ inner, shows value inner ∧ nodes = inner ++ [.leaf (describe value)] := by
  refine leaves.bind fun value inner shown => ?_
  exact fun _ _ => ⟨[.leaf (describe value)], ⟨inner, shown, rfl⟩, rfl⟩

/-! ### Sequences -/

theorem pair {second : Parser β} {others : β → List History → Prop} (left : Leaves parser shows)
    (right : Leaves second others) :
    Leaves (parser.pair second) fun value nodes =>
      ∃ front behind, shows value.1 front ∧ others value.2 behind ∧ nodes = front ++ behind := by
  refine (left.bind fun value front shown => ?_).attempt
  refine right.bind fun result behind result_shown => ?_
  exact pure ⟨front, behind, shown, result_shown, by simp⟩

end Leaves

/-- A parser whose successes leave no node. -/
class Silent (parser : Parser α) : Prop where
  silent : Leaves parser fun _ nodes => nodes = []

namespace Leaves

variable {parser : Parser α} {shows : α → List History → Prop}

theorem keepLeft {second : Parser β} [quiet : Silent second] (leaves : Leaves parser shows) :
    Leaves (parser.keepLeft second) shows := by
  refine map ((leaves.pair quiet.silent).imp ?_)
  rintro value _ ⟨front, _, shown, rfl, rfl⟩
  simpa using shown

theorem keepRight {first : Parser β} [quiet : Silent first] (leaves : Leaves parser shows) :
    Leaves (first.keepRight parser) shows := by
  refine map ((quiet.silent.pair leaves).imp ?_)
  rintro value _ ⟨_, behind, rfl, shown, rfl⟩
  simpa using shown

theorem group {opening : Parser β} {closing : Parser γ} [Silent opening] [Silent closing]
    (leaves : Leaves parser shows) : Leaves (Parser.group parser opening closing) shows :=
  leaves.keepRight.keepLeft

theorem alternatives {parsers : List (Parser α)}
    (leaves : ∀ parser ∈ parsers, Leaves parser shows) (failures : List Failure) :
    Leaves (Parser.alternatives parsers failures) shows := by
  induction parsers generalizing failures with
  | nil => exact fun _ _ => trivial
  | cons first others ih =>
      intro turns state
      have inner := (leaves first (.head _)) turns state
      unfold Parser.alternatives Parser.attempt
      simp only
      cases run : first.run turns state with
      | ok value after =>
          rw [run] at inner
          simp only
          split
          · obtain ⟨nodes, shown, same⟩ := inner
            exact ⟨nodes, shown, (State.trail_remember after _).trans same⟩
          · exact inner
      | error failure after =>
          simp only
          split
          · trivial
          · exact ih (fun other member => leaves other (.tail _ member)) _ turns state
      | exhausted => trivial

/-- Of the alternatives of a choice only the one that succeeds leaves nodes. -/
theorem choice {parsers : List (Parser α)} (leaves : ∀ parser ∈ parsers, Leaves parser shows) :
    Leaves (Parser.choice parsers) shows := by
  unfold Parser.choice
  split
  · exact leaves _ (.head _)
  · exact alternatives leaves []

/-! ### Loops -/

@[simp]
theorem showAll_nil {nodes : List History} : showAll shows [] nodes ↔ nodes = [] := Iff.rfl

theorem showAll_cons {value : α} {values : List α} {nodes others : List History}
    (shown : shows value nodes) (all : showAll shows values others) :
    showAll shows (value :: values) (nodes ++ others) :=
  ⟨nodes, others, shown, all, rfl⟩

theorem showAll_one {value : α} {nodes : List History} (shown : shows value nodes) :
    showAll shows [value] nodes :=
  ⟨nodes, [], shown, rfl, (List.append_nil nodes).symm⟩

theorem repeated (leaves : Leaves parser shows) (more : Nat) :
    Leaves (Parser.repeated parser more) (showAll shows) := by
  induction more with
  | zero => exact exhausted
  | succ more ih =>
      intro turns state
      unfold Parser.repeated
      refine (leaves.optional turns state).andThen fun value after nodes shown => ?_
      cases value with
      | none => exact ⟨[], by simpa using shown, rfl⟩
      | some value =>
          simp only
          split
          · exact ⟨[], by simpa using showAll_one shown, rfl⟩
          · exact ((ih turns after).imp fun _ _ all => showAll_cons shown all).map

theorem many (leaves : Leaves parser shows) : Leaves parser.many (showAll shows) :=
  withTurns leaves.repeated

theorem manyOne (leaves : Leaves parser shows) : Leaves parser.manyOne (showAll shows) := by
  intro turns state
  refine (leaves.attempt turns state).andThen fun value after nodes shown => ?_
  split
  · exact ⟨[], by simpa using showAll_one shown, rfl⟩
  · exact ((leaves.many turns after).imp fun _ _ all => showAll_cons shown all).map

/-- The nodes of the elements of a list whose delimiters leave none. -/
theorem followers {delimiter : Parser δ} [quiet : Silent delimiter] (leaves : Leaves parser shows)
    (more : Nat) :
    Leaves (Parser.followers parser delimiter more) fun pieces =>
      showAll shows (pieces.filterMap Interleaved.item?) := by
  induction more with
  | zero => exact exhausted
  | succ more ih =>
      refine quiet.silent.optional.bind fun mark nodes none_left => ?_
      cases mark with
      | none => exact pure (by simpa using none_left)
      | some mark =>
          obtain rfl : nodes = [] := none_left
          refine leaves.bind fun value front shown => ?_
          refine ih.bind fun rest behind all => pure ?_
          simpa [List.filterMap_cons, Interleaved.item?] using showAll_cons shown all

theorem interleaved {delimiter : Parser δ} [Silent delimiter] (leaves : Leaves parser shows) :
    Leaves (Parser.interleaved parser delimiter true) fun pieces =>
      showAll shows (pieces.filterMap Interleaved.item?) := by
  refine leaves.optional.bind fun value front shown => ?_
  cases value with
  | none => exact pure (by simpa using shown)
  | some value =>
      refine (withTurns leaves.followers).bind fun rest behind all => pure ?_
      simpa [Interleaved.item?] using showAll_cons shown all

theorem list {delimiter : Parser δ} {opening : Parser β} {closing : Parser γ} [Silent delimiter]
    [Silent opening] [Silent closing] (leaves : Leaves parser shows) :
    Leaves (Parser.list parser delimiter opening closing true) (showAll shows) :=
  map leaves.interleaved.group

/-- The nodes of the operators and operands of a chain, in their order. -/
theorem links {operator : Parser (Joint α × α)} {signs : Joint α × α → List History → Prop}
    (operands : Leaves parser shows) (operators : Leaves operator signs) (more : Nat) :
    Leaves (Parser.links parser operator more) (showAll fun link nodes =>
      ∃ sign operand, signs (link.joint, link.operator) sign ∧ shows link.operand operand ∧
        nodes = sign ++ operand) := by
  induction more with
  | zero => exact exhausted
  | succ more ih =>
      refine operators.optional.bind fun value sign sign_shown => ?_
      cases value with
      | none => exact pure (by simpa using sign_shown)
      | some value =>
          refine operands.bind fun result operand operand_shown => ?_
          refine ih.bind fun rest behind all => pure ?_
          rw [← List.append_assoc]
          exact showAll_cons ⟨sign, operand, sign_shown, operand_shown, rfl⟩ (by simpa using all)

/-- The nodes of a folded chain are those of its first operand and of its links. -/
theorem binary {operators : List (Operator α)} {signs : Joint α × α → List History → Prop}
    (operands : Leaves parser shows) (signed : Leaves (operatorOf operators) signs) :
    Leaves (Parser.binary parser operators) fun tree nodes =>
      ∃ first links front behind, tree = Link.fold first links ∧ shows first front ∧
        showAll (fun link nodes => ∃ sign operand, signs (link.joint, link.operator) sign ∧
          shows link.operand operand ∧ nodes = sign ++ operand) links behind ∧
        nodes = front ++ behind := by
  refine (operands.bind fun first front shown => ?_).attempt
  refine (withTurns (operands.links signed)).bind fun links behind all => pure ?_
  exact ⟨first, links, front, behind, rfl, shown, all, by simp⟩

end Leaves

/-! ### Parsers that leave no node -/

namespace Silent

theorem showAll_nothing {values : List α} {nodes : List History}
    (all : showAll (fun _ nodes => nodes = []) values nodes) : nodes = [] := by
  induction values generalizing nodes with
  | nil => exact all
  | cons value values ih =>
      obtain ⟨_, behind, rfl, rest, rfl⟩ := all
      exact ih rest

variable {parser : Parser α} [quiet : Silent parser]

instance (test : Token → Bool) (expected : String) : Silent (Parser.satisfy test expected) :=
  ⟨.satisfy test expected⟩

instance (kind : String) : Silent (Parser.token kind) := ⟨.satisfy _ _⟩

instance (kind : String) (value : TokenValue) : Silent (Parser.tokenValue kind value) :=
  ⟨.satisfy _ _⟩

instance : Silent Parser.endOfInput := ⟨.endOfInput⟩

instance (f : α → β) : Silent (parser.map f) := ⟨.map quiet.silent⟩

instance (test : α → Bool) (expected : String) : Silent (parser.verify test expected) :=
  ⟨.filterMap expected (quiet.silent.imp fun _ _ nothing _ _ => nothing)⟩

instance : Silent parser.optional :=
  ⟨quiet.silent.optional.imp fun value _ nothing => by cases value <;> exact nothing⟩

instance (limit : Nat) : Silent (Parser.nested limit parser) := ⟨quiet.silent.nested limit⟩

instance {second : Parser β} [Silent second] : Silent (parser.keepLeft second) :=
  ⟨quiet.silent.keepLeft⟩

instance {second : Parser β} [other : Silent second] : Silent (parser.keepRight second) :=
  ⟨other.silent.keepRight⟩

instance {second : Parser β} [other : Silent second] : Silent (parser.pair second) :=
  ⟨(quiet.silent.pair other.silent).imp fun _ _ ⟨_, _, front, behind, both⟩ => by
    rw [both, front, behind, List.append_nil]⟩

instance {opening : Parser β} {closing : Parser γ} [Silent opening] [Silent closing] :
    Silent (Parser.group parser opening closing) :=
  ⟨quiet.silent.group⟩

instance : Silent parser.many := ⟨quiet.silent.many.imp fun _ _ => showAll_nothing⟩

instance : Silent parser.manyOne := ⟨quiet.silent.manyOne.imp fun _ _ => showAll_nothing⟩

instance {second : Parser α} [other : Silent second] : Silent (parser.or second) :=
  ⟨.choice (by simpa using ⟨quiet.silent, other.silent⟩)⟩

theorem choice {parsers : List (Parser α)} (quiet : ∀ parser ∈ parsers, Silent parser) :
    Silent (Parser.choice parsers) :=
  ⟨.choice fun parser member => (quiet parser member).silent⟩

end Silent

end Parser

end Curried
