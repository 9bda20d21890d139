import Curried.Proofs.Parser.Endless

/-!
# What a list accepts

A list runs `opening (element (delimiter element)*)? closing`: each of these runs starts where the
one before it stopped, and the elements end at the first delimiter that fails without being fatal.
The entries of the list are the values of its elements and delimiters, in the order of the runs.
A delimiter that no element follows fails the list as a whole.

All of this is said of a run with some bound on turns, for whatever parsers the list is made of, as
long as the bound is enough.
-/

namespace Curried

namespace Parser

variable {α β γ δ : Type}

/-! ### The contents of a list -/

/-- What stands in a list: nothing, or a first element and the others behind their delimiters. -/
abbrev Contents (α δ : Type) : Type := Option (α × List (δ × α))

namespace Contents

/-- Every delimiter in front of its element. -/
def joined (others : List (δ × α)) : List (Interleaved α δ) :=
  others.flatMap fun (mark, value) => [.delimiter mark, .item value]

/-- Elements and delimiters in turn, with an element at both ends. -/
def entries : Contents α δ → List (Interleaved α δ)
  | none => []
  | some (first, others) => .item first :: joined others

/-- The elements in their order. -/
def elements : Contents α δ → List α
  | none => []
  | some (first, others) => first :: others.map Prod.snd

theorem filterMap_joined (others : List (δ × α)) :
    (joined others).filterMap Interleaved.item? = others.map Prod.snd := by
  induction others with
  | nil => rfl
  | cons other rest ih => exact congrArg (other.2 :: ·) ih

theorem filterMap_entries (contents : Contents α δ) :
    contents.entries.filterMap Interleaved.item? = contents.elements := by
  cases contents with
  | none => rfl
  | some contents => exact congrArg (contents.1 :: ·) (filterMap_joined contents.2)

end Contents

/-! ### The runs of a list -/

/-- The parser fails without being fatal, which the second state remembers. -/
def Declines (parser : Parser α) (turns : Nat) (before after : State) : Prop :=
  ∃ failure behind, parser.run turns before = .error failure behind ∧ failure.fatal = false ∧
    after = before.remember failure

/-- Delimiters and elements succeed in turn, each run on the state where the one before stopped. -/
inductive Rounds (element : Parser α) (delimiter : Parser δ) (turns : Nat) :
    State → List (δ × α) → State → Prop where
  | done (state : State) : Rounds element delimiter turns state [] state
  | more {before middle after last : State} {mark : δ} {value : α} {others : List (δ × α)} :
      delimiter.run turns before = .ok mark middle → element.run turns middle = .ok value after →
        Rounds element delimiter turns after others last →
          Rounds element delimiter turns before ((mark, value) :: others) last

/-- Between the two states there are elements with delimiters between them, up to the first
delimiter that declines; or there is nothing, if that is allowed and the first element declines. -/
inductive Holds (element : Parser α) (delimiter : Parser δ) (mayBeEmpty : Bool) (turns : Nat) :
    State → Contents α δ → State → Prop where
  | nothing {before after : State} :
      mayBeEmpty = true → element.Declines turns before after →
        Holds element delimiter mayBeEmpty turns before none after
  | elements {before start last after : State} {first : α} {others : List (δ × α)} :
      element.run turns before = .ok first start →
        Rounds element delimiter turns start others last → delimiter.Declines turns last after →
          Holds element delimiter mayBeEmpty turns before (some (first, others)) after

/-- The opening, the contents and the closing of a list, one behind the other. -/
inductive Encloses (element : Parser α) (delimiter : Parser δ) (opening : Parser β)
    (closing : Parser γ) (mayBeEmpty : Bool) (turns : Nat) :
    State → Contents α δ → State → Prop where
  | intro {before opened closes after : State} {mark : β} {sign : γ} {contents : Contents α δ} :
      opening.run turns before = .ok mark opened →
        Holds element delimiter mayBeEmpty turns opened contents closes →
          closing.run turns closes = .ok sign after →
            Encloses element delimiter opening closing mayBeEmpty turns before contents after

/-! ### Optional parsers and groups -/

section
variable {parser : Parser α} {turns : Nat} {before after : State}

theorem optional_eq_none :
    parser.optional.run turns before = .ok none after ↔ parser.Declines turns before after := by
  simp only [optional, attempt]
  constructor
  · intro declines
    cases run : parser.run turns before with
    | ok => simp [run] at declines
    | error failure behind =>
        cases fatal : failure.fatal with
        | true => simp [run, fatal] at declines
        | false =>
            simp only [run, fatal, Bool.false_eq_true, if_false, Outcome.ok.injEq] at declines
            exact ⟨failure, behind, run, fatal, declines.2.symm⟩
    | exhausted => simp [run] at declines
  · rintro ⟨failure, behind, run, mild, rfl⟩
    simp [run, mild]

/-- A group is one transaction around its three runs. -/
theorem group_eq (inner : Parser α) (opening : Parser β) (closing : Parser γ) :
    group inner opening closing =
      attempt (opening >>= fun _ => inner >>= fun value => closing >>= fun _ =>
        Parser.pure value) := by
  refine congrArg Parser.mk (funext fun turns => funext fun state => ?_)
  simp only [keepRight, pair, map, attempt, Bind.bind, Pure.pure, bind, Parser.pure]
  cases opening.run turns state with
  | ok mark opened =>
      simp only [Outcome.andThen]
      cases inner.run turns opened with
      | ok value middle =>
          simp only [Outcome.map]
          cases closing.run turns middle <;> rfl
      | error => rfl
      | exhausted => rfl
  | error => rfl
  | exhausted => rfl

/-- Behind its opening a group does what its inner parser and the closing do, and a failure of
these puts the state back. -/
theorem run_group {inner : Parser α} {opening : Parser β} {closing : Parser γ} {mark : β}
    (opens : opening.run turns before = .ok mark after) :
    (group inner opening closing).run turns before =
      (attempt ⟨fun _ _ => (inner.run turns after).andThen fun value closes =>
        (closing.run turns closes).map fun _ => value⟩).run turns before := by
  have inside : (opening >>= fun _ => inner >>= fun value => closing >>= fun _ =>
      Parser.pure value).run turns before = (inner.run turns after).andThen fun value closes =>
        (closing.run turns closes).map fun _ => value := by
    show (opening.run turns before).andThen _ = _
    rw [opens]
    rfl
  rw [group_eq]
  simp only [attempt, inside]

end

/-! ### Elements and delimiters in turn -/

section
variable {element : Parser α} {delimiter : Parser δ} {mayBeEmpty : Bool} {turns : Nat}
  {before middle start last after behind : State} {mark : δ} {first : α}
  {others : List (δ × α)} {items : List (Interleaved α δ)} {failure : Failure}

theorem rounds_of_followers {fuel : Nat}
    (goes : (followers element delimiter fuel).run turns before = .ok items after) :
    ∃ others last, Rounds element delimiter turns before others last ∧
      delimiter.Declines turns last after ∧ items = Contents.joined others := by
  induction fuel generalizing before items with
  | zero => cases goes
  | succ fuel ih =>
      rw [followers_succ] at goes
      obtain ⟨found, middle, delimits, goes⟩ := Outcome.andThen_eq_ok.1 goes
      cases found with
      | none =>
          obtain ⟨rfl, rfl⟩ := Outcome.ok.inj goes
          exact ⟨[], before, .done before, optional_eq_none.1 delimits, rfl⟩
      | some mark =>
          obtain ⟨value, next, follows, goes⟩ := Outcome.andThen_eq_ok.1 goes
          obtain ⟨rest, _, again, goes⟩ := Outcome.andThen_eq_ok.1 goes
          obtain ⟨rfl, rfl⟩ := Outcome.ok.inj goes
          obtain ⟨others, last, rounds, declines, rfl⟩ := ih again
          exact ⟨(mark, value) :: others, last, .more (optional_eq_some.1 delimits) follows rounds,
            declines, rfl⟩

/-- A round uses up one turn of the loop. -/
theorem run_followers_succ {value : α} (delimits : delimiter.run turns before = .ok mark middle)
    (follows : element.run turns middle = .ok value after) (fuel : Nat) :
    (followers element delimiter (fuel + 1)).run turns before =
      ((followers element delimiter fuel).run turns after).map
        fun rest => .delimiter mark :: .item value :: rest := by
  rw [followers_succ]
  show (delimiter.optional.run turns before).andThen _ = _
  rw [optional_eq_some.2 delimits]
  show (element.run turns middle).andThen _ = _
  rw [follows]
  show ((followers element delimiter fuel).run turns after).andThen _ = _
  cases (followers element delimiter fuel).run turns after <;> rfl

/-- Behind some rounds the loop goes on with the turns that are left. -/
theorem Rounds.followers_stays (rounds : Rounds element delimiter turns before others last)
    (fuel : Nat) :
    ∃ left, ((followers element delimiter fuel).run turns before).Stays
      (((followers element delimiter left).run turns last).map (Contents.joined others ++ ·)) := by
  induction rounds generalizing fuel with
  | done state =>
      refine ⟨fuel, .inr ?_⟩
      cases (followers element delimiter fuel).run turns state <;> rfl
  | more delimits follows _ ih =>
      -- the turns may run out in any round
      cases fuel with
      | zero => exact ⟨0, .inl rfl⟩
      | succ fuel =>
          obtain ⟨left, stays⟩ := ih fuel
          refine ⟨left, ?_⟩
          rw [run_followers_succ delimits follows]
          refine (stays.map _).trans (.inr ?_)
          cases (followers element delimiter left).run turns _ <;> rfl

/-- The loop ends at the first delimiter that declines. -/
theorem Rounds.stays_of_declines (rounds : Rounds element delimiter turns before others last)
    (declines : delimiter.Declines turns last after) (fuel : Nat) :
    ((followers element delimiter fuel).run turns before).Stays
      (.ok (Contents.joined others) after) := by
  obtain ⟨left, stays⟩ := rounds.followers_stays fuel
  refine stays.trans ?_
  cases left with
  | zero => exact .inl rfl
  | succ left =>
      refine .inr ?_
      rw [followers_succ]
      show ((delimiter.optional.run turns last).andThen _).map _ = _
      rw [optional_eq_none.2 declines]
      exact congrArg (Outcome.ok · after) (List.append_nil _)

/-- A delimiter that no element follows fails the loop. -/
theorem Rounds.stays_of_fails (rounds : Rounds element delimiter turns before others last)
    (delimits : delimiter.run turns last = .ok mark middle)
    (fails : element.run turns middle = .error failure behind) (fuel : Nat) :
    ((followers element delimiter fuel).run turns before).Stays (.error failure behind) := by
  obtain ⟨left, stays⟩ := rounds.followers_stays fuel
  refine stays.trans ?_
  cases left with
  | zero => exact .inl rfl
  | succ left =>
      refine .inr ?_
      rw [followers_succ]
      show ((delimiter.optional.run turns last).andThen _).map _ = _
      rw [optional_eq_some.2 delimits]
      show ((element.run turns middle).andThen _).map _ = _
      rw [fails]
      rfl

theorem firstElement_eq_some :
    (if mayBeEmpty then element.optional else element.map some).run turns before =
        .ok (some first) after ↔ element.run turns before = .ok first after := by
  cases mayBeEmpty with
  | true => exact optional_eq_some
  | false => exact Outcome.map_eq_ok.trans (by simp)

theorem holds_of_interleaved
    (goes : (interleaved element delimiter mayBeEmpty).run turns before = .ok items after) :
    ∃ contents, Holds element delimiter mayBeEmpty turns before contents after ∧
      items = contents.entries := by
  rw [interleaved_eq] at goes
  obtain ⟨found, start, reads, goes⟩ := Outcome.andThen_eq_ok.1 goes
  cases found with
  | none =>
      obtain ⟨rfl, rfl⟩ := Outcome.ok.inj goes
      cases mayBeEmpty with
      | true => exact ⟨none, .nothing rfl (optional_eq_none.1 reads), rfl⟩
      | false =>
          obtain ⟨_, _, same⟩ := Outcome.map_eq_ok.1 reads
          cases same
  | some first =>
      obtain ⟨rest, _, again, goes⟩ := Outcome.andThen_eq_ok.1 goes
      obtain ⟨rfl, rfl⟩ := Outcome.ok.inj goes
      obtain ⟨others, last, rounds, declines, rfl⟩ := rounds_of_followers again
      exact ⟨some (first, others), .elements (firstElement_eq_some.1 reads) rounds declines, rfl⟩

/-- Behind the first element there is the loop alone. -/
theorem interleaved_stays {outcome : Outcome (List (Interleaved α δ))}
    (reads : element.run turns before = .ok first start)
    (stays : ((followers element delimiter turns).run turns start).Stays outcome) :
    ((interleaved element delimiter mayBeEmpty).run turns before).Stays
      (outcome.map (.item first :: ·)) := by
  rw [interleaved_eq]
  show (((if mayBeEmpty then element.optional else element.map some).run turns before).andThen
    _).Stays _
  rw [firstElement_eq_some.2 reads]
  refine (stays.andThen fun rest after => .refl _).trans (.inr ?_)
  cases outcome <;> rfl

theorem Holds.interleaved_stays {contents : Contents α δ}
    (holds : Holds element delimiter mayBeEmpty turns before contents after) :
    ((interleaved element delimiter mayBeEmpty).run turns before).Stays
      (.ok contents.entries after) := by
  cases holds with
  | nothing allowed declines =>
      subst allowed
      refine .inr ?_
      rw [interleaved_eq]
      show (element.optional.run turns before).andThen _ = _
      rw [optional_eq_none.2 declines]
      rfl
  | elements reads rounds declines =>
      exact Parser.interleaved_stays reads (rounds.stays_of_declines declines turns)

end

/-! ### Lists -/

section
variable {element : Parser α} {delimiter : Parser δ} {opening : Parser β} {closing : Parser γ}
  {mayBeEmpty : Bool} {turns : Nat} {state after : State}

theorem encloses_of_run {items : List (Interleaved α δ)}
    (accepts : (listWithDelimiters element delimiter opening closing mayBeEmpty).run turns state =
      .ok items after) :
    ∃ contents, Encloses element delimiter opening closing mayBeEmpty turns state contents after ∧
      items = contents.entries := by
  rw [listWithDelimiters, group_eq] at accepts
  obtain ⟨mark, opened, opens, accepts⟩ := Outcome.andThen_eq_ok.1 (attempt_eq_ok.1 accepts)
  obtain ⟨inner, middle, goes, accepts⟩ := Outcome.andThen_eq_ok.1 accepts
  obtain ⟨sign, _, closes, accepts⟩ := Outcome.andThen_eq_ok.1 accepts
  obtain ⟨rfl, rfl⟩ := Outcome.ok.inj accepts
  obtain ⟨contents, holds, rfl⟩ := holds_of_interleaved goes
  exact ⟨contents, .intro opens holds closes, rfl⟩

theorem Encloses.run_eq {contents : Contents α δ}
    (encloses : Encloses element delimiter opening closing mayBeEmpty turns state contents after)
    (ends : (listWithDelimiters element delimiter opening closing mayBeEmpty).run turns state ≠
      .exhausted) :
    (listWithDelimiters element delimiter opening closing mayBeEmpty).run turns state =
      .ok contents.entries after := by
  obtain ⟨opens, holds, closes⟩ := encloses
  rw [listWithDelimiters, run_group opens] at ends ⊢
  rcases holds.interleaved_stays with stops | goes
  · exact (ends (by simp only [attempt, stops, Outcome.andThen])).elim
  · simp only [attempt, goes, Outcome.andThen, closes, Outcome.map]

/-- A delimiter that no element follows fails the whole list. -/
theorem run_eq_error_of_delimiter {mark : β} {sign : δ} {first : α} {others : List (δ × α)}
    {opened start last middle behind : State} {failure : Failure}
    (opens : opening.run turns state = .ok mark opened)
    (reads : element.run turns opened = .ok first start)
    (rounds : Rounds element delimiter turns start others last)
    (delimits : delimiter.run turns last = .ok sign middle)
    (fails : element.run turns middle = .error failure behind)
    (ends : (listWithDelimiters element delimiter opening closing mayBeEmpty).run turns state ≠
      .exhausted) :
    (listWithDelimiters element delimiter opening closing mayBeEmpty).run turns state =
      .error failure state := by
  have stays : ((interleaved element delimiter mayBeEmpty).run turns opened).Stays
      (.error failure behind) :=
    interleaved_stays reads (rounds.stays_of_fails delimits fails turns)
  rw [listWithDelimiters, run_group opens] at ends ⊢
  rcases stays with stops | goes
  · exact (ends (by simp only [attempt, stops, Outcome.andThen])).elim
  · simp only [attempt, goes, Outcome.andThen]

/-- A list that ends succeeds exactly if its opening, its elements and delimiters in turn, and its
closing do, one behind the other.  Its entries are the values of these runs in their order, and
`list` yields those of the elements.  A delimiter that no element follows fails the list, and the
state is put back. -/
theorem list_eq_ok_iff_encloses (element : Parser α) (delimiter : Parser δ) (opening : Parser β)
    (closing : Parser γ) (mayBeEmpty : Bool) (turns : Nat) (state : State)
    (ends : (listWithDelimiters element delimiter opening closing mayBeEmpty).run turns state ≠
      .exhausted) :
    (∀ items after,
      (listWithDelimiters element delimiter opening closing mayBeEmpty).run turns state =
          .ok items after ↔
        ∃ contents, Encloses element delimiter opening closing mayBeEmpty turns state contents
          after ∧ items = contents.entries) ∧
    (∀ values after,
      (list element delimiter opening closing mayBeEmpty).run turns state = .ok values after ↔
        ∃ contents, Encloses element delimiter opening closing mayBeEmpty turns state contents
          after ∧ values = contents.elements) ∧
    ∀ mark opened first start others last sign middle failure behind,
      opening.run turns state = .ok mark opened → element.run turns opened = .ok first start →
        Rounds element delimiter turns start others last →
          delimiter.run turns last = .ok sign middle →
            element.run turns middle = .error failure behind →
              (listWithDelimiters element delimiter opening closing mayBeEmpty).run turns state =
                  .error failure state ∧
                (list element delimiter opening closing mayBeEmpty).run turns state =
                  .error failure state := by
  refine ⟨fun items after => ⟨encloses_of_run, ?_⟩, fun values after => ⟨fun accepts => ?_, ?_⟩, ?_⟩
  · rintro ⟨contents, encloses, rfl⟩
    exact encloses.run_eq ends
  · obtain ⟨items, delimited, rfl⟩ := Outcome.map_eq_ok.1 accepts
    obtain ⟨contents, encloses, rfl⟩ := encloses_of_run delimited
    exact ⟨contents, encloses, contents.filterMap_entries⟩
  · rintro ⟨contents, encloses, rfl⟩
    exact Outcome.map_eq_ok.2 ⟨_, encloses.run_eq ends, contents.filterMap_entries⟩
  · intro mark opened first start others last sign middle failure behind opens reads rounds delimits
      fails
    have broken := run_eq_error_of_delimiter opens reads rounds delimits fails ends
    exact ⟨broken, congrArg (Outcome.map _) broken⟩

/-- Two words with a comma between them. -/
theorem list_eq_ok_iff_encloses_words :
    let words := listWithDelimiters (valueOf "word") (valueOf "comma") (token "open")
      (token "close") false
    let start := State.start [⟨"open", "(", "(", .text "(", .start⟩,
      ⟨"word", "a", "a", .text "a", .start⟩, ⟨"comma", ",", ",", .text ",", .start⟩,
      ⟨"word", "b", "b", .text "b", .start⟩, ⟨"close", ")", ")", .text ")", .start⟩]
    words.run 2 start ≠ .exhausted ∧
      ∃ after, after.position = 5 ∧
        words.run 2 start =
          .ok [.item (.text "a"), .delimiter (.text ","), .item (.text "b")] after ∧
        (list (valueOf "word") (valueOf "comma") (token "open") (token "close") false).run 2 start =
          .ok [.text "a", .text "b"] after := by
  intro words start
  have ends : words.run 2 start ≠ .exhausted := nofun
  obtain ⟨delimited, listed, _⟩ := list_eq_ok_iff_encloses (valueOf "word") (valueOf "comma")
    (token "open") (token "close") false 2 start ends
  let contents : Contents TokenValue TokenValue := some (.text "a", [(.text ",", .text "b")])
  have encloses : Encloses (valueOf "word") (valueOf "comma") (token "open") (token "close") false 2
      start contents _ :=
    .intro rfl (.elements rfl (.more rfl rfl (.done _)) ⟨_, _, rfl, rfl, rfl⟩) rfl
  exact ⟨ends, _, rfl, (delimited _ _).2 ⟨contents, encloses, rfl⟩,
    (listed _ _).2 ⟨contents, encloses, rfl⟩⟩

/-- A delimiter that fails fatally does not decline: the list fails with it, although the closing
succeeds where the elements end. -/
theorem list_eq_error_of_fatal_delimiter :
    let missing : Parser TokenValue := fatal "a delimiter"
    let start := State.start [⟨"open", "(", "(", .text "(", .start⟩,
      ⟨"word", "a", "a", .text "a", .start⟩, ⟨"close", ")", ")", .text ")", .start⟩]
    ∃ mark opened last failure sign after,
      (token "open").run 1 start = .ok mark opened ∧
      (valueOf "word").run 1 opened = .ok (.text "a") last ∧
      Rounds (valueOf "word") missing 1 last [] last ∧
      missing.run 1 last = .error failure last ∧
      (token "close").run 1 last = .ok sign after ∧
      (token "close").run 1 (last.remember failure) = .ok sign (after.remember failure) ∧
      (listWithDelimiters (valueOf "word") missing (token "open") (token "close") false).run 1
        start = .error failure start ∧
      (list (valueOf "word") missing (token "open") (token "close") false).run 1 start =
        .error failure start := by
  intro missing start
  exact ⟨_, _, _, _, _, _, rfl, rfl, .done _, rfl, rfl, rfl, rfl, rfl⟩

end

end Parser

end Curried
