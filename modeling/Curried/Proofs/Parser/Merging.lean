import Curried.Proofs.Parser.Reports
import Mathlib.Data.List.Induction

/-!
# Merged failures

A choice that fails reports the failures of its alternatives that got furthest, merged into the
first of them.  `Failure.deepest` of a list that is put together from two is determined by what it
is of either part, because merging is associative; so it does not matter in which groups failures
are merged.

No label is listed twice by a failure that the combinators report.
-/

namespace Curried

namespace Failure

/-! ### Lists of labels -/

/-- Labels with further ones behind them, as far as they are not listed yet. -/
def joined (known labels : List String) : List String :=
  labels.foldl (fun known label => if known.contains label then known else known ++ [label]) known

variable {known labels : List String} {label : String}

theorem joined_concat (known labels : List String) (label : String) :
    joined known (labels ++ [label]) =
      if label ∈ joined known labels then joined known labels
      else joined known labels ++ [label] := by
  simp [joined, List.foldl_append]

theorem mem_joined : label ∈ joined known labels ↔ label ∈ known ∨ label ∈ labels := by
  induction labels using List.reverseRecOn with
  | nil => simp [joined]
  | append_singleton labels last ih =>
      rw [joined_concat]
      split
      · rename_i listed
        rw [List.mem_append, List.mem_singleton, ← or_assoc, ← ih]
        exact ⟨.inl, fun either => either.elim id fun same => same ▸ listed⟩
      · rw [List.mem_append, List.mem_append, ih, or_assoc]

theorem nodup_joined (distinct : known.Nodup) : (joined known labels).Nodup := by
  induction labels using List.reverseRecOn with
  | nil => exact distinct
  | append_singleton labels last ih =>
      rw [joined_concat]
      split
      · exact ih
      · rename_i unlisted
        refine List.nodup_append.2 ⟨ih, by simp, fun other member label single => ?_⟩
        rw [List.mem_singleton.1 single]
        exact fun same => unlisted (same ▸ member)

theorem joined_joined (known labels others : List String) :
    joined known (joined labels others) = joined (joined known labels) others := by
  induction others using List.reverseRecOn with
  | nil => rfl
  | append_singleton others last ih =>
      rw [joined_concat, joined_concat, ← ih]
      by_cases listed : last ∈ joined labels others
      · rw [if_pos listed, if_pos (mem_joined.2 (.inr listed))]
      · rw [if_neg listed, joined_concat]

/-! ### Merging -/

theorem expected_merge (failure other : Failure) :
    (failure.merge other).expected = joined failure.expected other.expected := rfl

theorem merge_assoc (first second third : Failure) :
    (first.merge second).merge third = first.merge (second.merge third) := by
  have same : ((first.merge second).merge third).expected =
      (first.merge (second.merge third)).expected := by
    simp only [expected_merge, joined_joined]
  exact congrArg (fun labels => { first with expected := labels }) same

theorem foldl_merge (others : List Failure) (first second : Failure) :
    others.foldl merge (first.merge second) = first.merge (others.foldl merge second) := by
  induction others generalizing second with
  | nil => rfl
  | cons other others ih => rw [List.foldl_cons, List.foldl_cons, merge_assoc, ih]

theorem mem_expected_foldl (others : List Failure) (failure : Failure) :
    label ∈ (others.foldl merge failure).expected ↔
      ∃ other ∈ failure :: others, label ∈ other.expected := by
  induction others generalizing failure with
  | nil => simp
  | cons other others ih =>
      rw [List.foldl_cons, ih]
      simp [expected_merge, mem_joined, or_assoc]

theorem nodup_foldl (others : List Failure) {failure : Failure}
    (distinct : failure.expected.Nodup) : (others.foldl merge failure).expected.Nodup := by
  induction others generalizing failure with
  | nil => exact distinct
  | cons other others ih => exact ih (nodup_joined distinct)

/-! ### The deepest failures -/

variable {failures others : List Failure} {failure first : Failure}

theorem deepest_of_filter (least : ∀ other ∈ failures, first.remaining ≤ other.remaining)
    (kept : failures.filter (·.remaining == first.remaining) = first :: others) :
    deepest failures = some (others.foldl merge first) := by
  have among : first ∈ failures :=
    (List.mem_filter.1 (kept ▸ List.mem_cons_self : first ∈ failures.filter _)).1
  have fewest : (failures.map remaining).min? = some first.remaining := by
    refine List.min?_eq_some_iff.2 ⟨List.mem_map_of_mem among, fun number member => ?_⟩
    obtain ⟨other, among, rfl⟩ := List.mem_map.1 member
    exact least other among
  simp only [deepest, fewest, kept]

theorem deepest_singleton (failure : Failure) : deepest [failure] = some failure :=
  @deepest_of_filter [failure] [] failure (by simp) (by simp)

/-- Of some failures there is one that no other gets further than and that none before it gets as
far as. -/
theorem exists_first (some_failures : failures ≠ []) :
    ∃ first others, (∀ other ∈ failures, first.remaining ≤ other.remaining) ∧
      failures.filter (·.remaining == first.remaining) = first :: others := by
  cases minimum : (failures.map remaining).min? with
  | none => simp [some_failures] at minimum
  | some fewest =>
      obtain ⟨attained, least⟩ := List.min?_eq_some_iff.1 minimum
      obtain ⟨deep, among, rfl⟩ := List.mem_map.1 attained
      cases kept : failures.filter (·.remaining == deep.remaining) with
      | nil =>
          have member : deep ∈ failures.filter (·.remaining == deep.remaining) :=
            List.mem_filter.2 ⟨among, by simp⟩
          rw [kept] at member
          exact nomatch member
      | cons first others =>
          have same : first.remaining = deep.remaining := by
            have member : first ∈ failures.filter (·.remaining == deep.remaining) :=
              kept ▸ List.mem_cons_self
            simpa using (List.mem_filter.1 member).2
          refine ⟨first, others, fun other member => ?_, by rw [same, kept]⟩
          rw [same]
          exact least other.remaining (List.mem_map_of_mem member)

/-- The failure that got further of two; two that got equally far are merged. -/
def further : Option Failure → Option Failure → Option Failure
  | none, other => other
  | some failure, none => some failure
  | some failure, some other =>
      if failure.remaining < other.remaining then some failure
      else if other.remaining < failure.remaining then some other
      else some (failure.merge other)

/-- What is left of a list is nothing if all of its failures got less far. -/
theorem filter_eq_nil {fewest : Nat} (behind : ∀ other ∈ failures, fewest < other.remaining) :
    failures.filter (·.remaining == fewest) = [] := by
  refine List.filter_eq_nil_iff.2 fun other member equal => ?_
  exact Nat.ne_of_gt (behind other member) (by simpa using equal)

theorem deepest_append (failures others : List Failure) :
    deepest (failures ++ others) = further (deepest failures) (deepest others) := by
  by_cases no_failures : failures = []
  · subst no_failures
    rfl
  by_cases no_others : others = []
  · subst no_others
    obtain ⟨first, equal, least, kept⟩ := exists_first no_failures
    rw [List.append_nil, deepest_of_filter least kept]
    rfl
  obtain ⟨first, equal, least, kept⟩ := exists_first no_failures
  obtain ⟨second, equal', least', kept'⟩ := exists_first no_others
  have whole {fewest : Nat} (bound : fewest ≤ first.remaining) (bound' : fewest ≤ second.remaining) :
      ∀ other ∈ failures ++ others, fewest ≤ other.remaining := by
    intro other member
    rcases List.mem_append.1 member with member | member
    · exact Nat.le_trans bound (least other member)
    · exact Nat.le_trans bound' (least' other member)
  rw [deepest_of_filter least kept, deepest_of_filter least' kept']
  simp only [further, remaining_foldl_merge]
  split
  · rename_i ahead
    refine deepest_of_filter (whole (Nat.le_refl _) (Nat.le_of_lt ahead)) ?_
    rw [List.filter_append, kept, filter_eq_nil, List.append_nil]
    exact fun other member => Nat.lt_of_lt_of_le ahead (least' other member)
  · split
    · rename_i ahead
      refine deepest_of_filter (whole (Nat.le_of_lt ahead) (Nat.le_refl _)) ?_
      rw [List.filter_append, kept', filter_eq_nil, List.nil_append]
      exact fun other member => Nat.lt_of_lt_of_le ahead (least other member)
    · have level : first.remaining = second.remaining := by omega
      rw [← foldl_merge, ← List.foldl_cons, ← List.foldl_append]
      refine deepest_of_filter (whole (Nat.le_refl _) (Nat.le_of_eq level)) ?_
      rw [List.filter_append, kept, level, kept', List.cons_append]

/-- What a failure is that several are merged into: it stands where the first of those that got
furthest does, and it lists what any of these does. -/
structure IsDeepest (failure : Failure) (failures : List Failure) : Prop where
  anchored : ∃ earlier first later, failures = earlier ++ first :: later ∧
    failure.input = first.input ∧ failure.trail = first.trail ∧
      (∀ other ∈ earlier, first.remaining < other.remaining) ∧
        ∀ other ∈ later, first.remaining ≤ other.remaining
  expected : ∀ label, label ∈ failure.expected ↔
    ∃ other ∈ failures, other.remaining = failure.remaining ∧ label ∈ other.expected

theorem input_foldl_merge (others : List Failure) (failure : Failure) :
    (others.foldl merge failure).input = failure.input ∧
      (others.foldl merge failure).trail = failure.trail := by
  induction others generalizing failure with
  | nil => exact ⟨rfl, rfl⟩
  | cons other others ih => exact ih (failure.merge other)

theorem isDeepest_of_deepest (found : deepest failures = some failure) :
    failure.IsDeepest failures := by
  have some_failures : failures ≠ [] := by
    rintro rfl
    cases found
  obtain ⟨first, equal, least, kept⟩ := exists_first some_failures
  obtain rfl := Option.some.inj ((deepest_of_filter least kept).symm.trans found)
  obtain ⟨input, trail⟩ := input_foldl_merge equal first
  constructor
  · obtain ⟨earlier, later, rfl, skipped, _, _⟩ := List.filter_eq_cons_iff.1 kept
    refine ⟨earlier, first, later, rfl, input, trail, fun other member => ?_, fun other member => ?_⟩
    · have differs : other.remaining ≠ first.remaining := by simpa using skipped other member
      exact Nat.lt_of_le_of_ne (least other (List.mem_append_left _ member)) (Ne.symm differs)
    · exact least other (List.mem_append_right _ (.tail _ member))
  · intro label
    rw [mem_expected_foldl, remaining_foldl_merge, ← kept]
    simp only [List.mem_filter, beq_iff_eq, and_assoc]

theorem nodup_of_deepest (distinct : ∀ other ∈ failures, other.expected.Nodup)
    (found : deepest failures = some failure) : failure.expected.Nodup := by
  have some_failures : failures ≠ [] := by
    rintro rfl
    cases found
  obtain ⟨first, equal, least, kept⟩ := exists_first some_failures
  obtain rfl := Option.some.inj ((deepest_of_filter least kept).symm.trans found)
  have among : first ∈ failures :=
    (List.mem_filter.1 (kept ▸ List.mem_cons_self : first ∈ failures.filter _)).1
  exact nodup_foldl equal (distinct first among)

end Failure

/-! ### Labels are listed once -/

/-- The failure that a state remembers lists no label twice. -/
def State.Distinct (state : State) : Prop := ∀ known ∈ state.furthest, known.expected.Nodup

namespace State.Distinct

variable {state : State} {failure : Failure}

theorem remember (distinct : state.Distinct) (fresh : failure.expected.Nodup) :
    (state.remember failure).Distinct := by
  rcases state.remember_cases failure with same | replaced
  · rwa [same]
  · rw [replaced]
    intro known member
    obtain rfl : failure = known := Option.some.inj member
    exact fresh

theorem nodup_failure (distinct : state.Distinct) (expected : String) :
    (state.failure expected).expected.Nodup := by
  unfold State.failure
  split
  · rename_i furthest remembered
    split
    · exact distinct furthest remembered
    · simp [State.failureHere]
  · simp [State.failureHere]

end State.Distinct

/-- What a run leaves behind lists no label twice: neither its failure nor the one that the last state
remembers. -/
def Outcome.Distinct {α : Type} : Outcome α → Prop
  | .ok _ after => after.Distinct
  | .error failure after => failure.expected.Nodup ∧ after.Distinct
  | .exhausted => True

namespace Outcome.Distinct

variable {α β : Type} {outcome : Outcome α}

theorem map (distinct : outcome.Distinct) (f : α → β) : (outcome.map f).Distinct := by
  cases outcome <;> exact distinct

theorem andThen {next : α → State → Outcome β} (distinct : outcome.Distinct)
    (goesOn : ∀ value after, after.Distinct → (next value after).Distinct) :
    (outcome.andThen next).Distinct := by
  cases outcome with
  | ok value after => exact goesOn value after distinct
  | error failure after => exact distinct
  | exhausted => trivial

theorem mapState {f : State → State} (distinct : outcome.Distinct)
    (keeps : ∀ after, (f after).furthest = after.furthest) : (outcome.mapState f).Distinct := by
  have kept {after : State} (distinct : after.Distinct) : (f after).Distinct := by
    unfold State.Distinct
    rwa [keeps]
  cases outcome with
  | ok value after => exact kept distinct
  | error failure after => exact ⟨distinct.1, kept distinct.2⟩
  | exhausted => trivial

end Outcome.Distinct

namespace Parser

/-- Started where no label is listed twice, no run of the parser leaves one that is. -/
def ListsOnce {α : Type} (parser : Parser α) : Prop :=
  ∀ turns state, state.Distinct → (parser.run turns state).Distinct

namespace ListsOnce

variable {α β : Type} {parser : Parser α}

theorem satisfy (test : Token → Bool) (expected : String) :
    ListsOnce (Parser.satisfy test expected) := by
  intro turns state distinct
  have failed := distinct.nodup_failure expected
  unfold Parser.satisfy
  simp only
  split
  · split
    · exact distinct
    · exact ⟨failed, distinct⟩
  · exact ⟨failed, distinct⟩

theorem endOfInput : ListsOnce Parser.endOfInput := by
  intro turns state distinct
  unfold Parser.endOfInput
  simp only
  split
  · exact ⟨distinct.nodup_failure "EOF", distinct⟩
  · exact distinct

theorem filterMap (lists : ListsOnce parser) (f : α → Option β) (expected : String) :
    ListsOnce (parser.filterMap f expected) := by
  intro turns state distinct
  have inner := lists turns state distinct
  unfold Parser.filterMap
  simp only
  split
  · rename_i run
    rw [run] at inner
    split
    · exact inner
    · exact ⟨distinct.nodup_failure expected, distinct⟩
  · rename_i run
    rw [run] at inner
    exact ⟨inner.1, distinct⟩
  · trivial

theorem label (lists : ListsOnce parser) (name : String) : ListsOnce (parser.label name) := by
  intro turns state distinct
  have inner := lists turns state distinct
  unfold Parser.label
  simp only
  split
  · rename_i run
    rwa [run] at inner
  · rename_i failure after run
    rw [run] at inner
    refine ⟨?_, inner.2⟩
    unfold Failure.relabel
    split
    · exact inner.1
    · simp
  · trivial

theorem attempt (lists : ListsOnce parser) : ListsOnce parser.attempt := by
  intro turns state distinct
  have inner := lists turns state distinct
  unfold Parser.attempt
  simp only
  split
  · rename_i run
    rwa [run] at inner
  · rename_i run
    rw [run] at inner
    exact ⟨inner.1, distinct⟩
  · trivial

theorem optional (lists : ListsOnce parser) : ListsOnce parser.optional := by
  intro turns state distinct
  have inner := lists.attempt turns state distinct
  unfold Parser.optional
  simp only
  split
  · rename_i run
    rwa [run] at inner
  · rename_i run
    rw [run] at inner
    split
    · exact inner
    · exact inner.2.remember inner.1
  · trivial

theorem bind {next : α → Parser β} (first : ListsOnce parser)
    (second : ∀ value, ListsOnce (next value)) : ListsOnce (parser >>= next) :=
  fun turns state distinct => (first turns state distinct).andThen fun value after =>
    second value turns after

theorem alternatives {parsers : List (Parser α)} {failures : List Failure}
    (lists : ∀ parser ∈ parsers, ListsOnce parser)
    (known : ∀ failure ∈ failures, failure.expected.Nodup) :
    ListsOnce (Parser.alternatives parsers failures) := by
  induction parsers generalizing failures with
  | nil =>
      intro turns state distinct
      refine ⟨?_, distinct⟩
      cases found : Failure.deepest failures with
      | none => exact distinct.nodup_failure "nothing"
      | some failure => exact Failure.nodup_of_deepest known found
  | cons parser others ih =>
      intro turns state distinct
      have inner := (lists parser (.head _)).attempt turns state distinct
      unfold Parser.alternatives
      simp only
      split
      · rename_i run
        rw [run] at inner
        split
        · rename_i failure found
          exact State.Distinct.remember inner (Failure.nodup_of_deepest known found)
        · exact inner
      · rename_i failure after run
        rw [run] at inner
        split
        · exact inner
        · refine ih (fun other member => lists other (.tail _ member)) ?_ turns after inner.2
          intro other member
          rcases List.mem_append.1 member with earlier | last
          · exact known other earlier
          · rw [List.mem_singleton.1 last]
            exact inner.1
      · trivial

theorem choice {parsers : List (Parser α)} (lists : ∀ parser ∈ parsers, ListsOnce parser) :
    ListsOnce (Parser.choice parsers) := by
  unfold Parser.choice
  split
  · exact lists _ (.head _)
  · exact alternatives lists (List.forall_mem_nil _)

theorem repeated (lists : ListsOnce parser) (left : Nat) :
    ListsOnce (Parser.repeated parser left) := by
  induction left with
  | zero => exact fun _ _ _ => trivial
  | succ left ih =>
      intro turns before distinct
      refine (lists.optional turns before distinct).andThen fun value after still => ?_
      cases value with
      | none => exact still
      | some value =>
          simp only
          split
          · exact still
          · exact (ih turns after still).map _

theorem manyOne (lists : ListsOnce parser) : ListsOnce parser.manyOne := by
  intro turns before distinct
  refine (lists.attempt turns before distinct).andThen fun value after still => ?_
  split
  · exact still
  · exact (lists.repeated turns turns after still).map _

theorem nested (lists : ListsOnce parser) (limit : Nat) :
    ListsOnce (Parser.nested limit parser) := by
  intro turns state distinct
  unfold Parser.nested
  simp only
  split
  · exact ⟨by simp [State.fatal, State.failureHere], distinct⟩
  · exact (lists turns { state with depth := state.depth + 1 } distinct).mapState fun _ => rfl

theorem recordedWhen (lists : ListsOnce parser) (label : String) (keep : α → Bool) :
    ListsOnce (Parser.recordedWhen label keep parser) := by
  intro turns state distinct
  have inner := lists turns (state.enter label) distinct
  unfold Parser.recordedWhen
  simp only
  split
  · rename_i run
    rw [run] at inner
    show State.Distinct (if _ then _ else _)
    split <;> exact inner
  · rename_i run
    rwa [run] at inner
  · trivial

end ListsOnce

theorem PassesOver.listsOnce {α : Type} {parser : Parser α} {log : Log}
    (passes : PassesOver parser log) : ListsOnce parser := by
  induction passes with
  | pure value => exact fun _ _ distinct => distinct
  | exhausted => exact fun _ _ _ => trivial
  | fail expected => exact fun _ _ distinct => ⟨distinct.nodup_failure expected, distinct⟩
  | fatal expected => exact fun _ _ distinct => ⟨List.pairwise_singleton _ expected, distinct⟩
  | note label => exact fun _ _ distinct => distinct
  | satisfy test expected => exact .satisfy test expected
  | endOfInput => exact .endOfInput
  | map f _ ih => exact fun turns state distinct => (ih turns state distinct).map f
  | filterMap f expected _ ih => exact ih.filterMap f expected
  | label name _ ih => exact ih.label name
  | attempt _ ih => exact ih.attempt
  | optional _ ih => exact ih.optional
  | bind _ _ first second => exact first.bind second
  | withTurns _ ih => exact fun turns state => ih turns turns state
  | choice _ ih =>
      refine .choice fun parser member => ?_
      obtain ⟨pair, among, rfl⟩ := List.mem_map.1 member
      exact ih pair among
  | repeated left _ ih => exact ih.repeated left
  | manyOne _ ih => exact ih.manyOne
  | recursive _ ih => exact fun turns state => ih turns turns state
  | deferred _ ih => exact ih
  | nested limit _ ih => exact ih.nested limit
  | recorded label _ ih =>
      exact fun turns state distinct =>
        (ih turns (state.enter label) distinct).mapState fun _ => rfl
  | recordedWhen label keep _ ih => exact ih.recordedWhen label keep

/-- No parser built from the combinators lists a label twice. -/
theorem Built.listsOnce {α : Type} {parser : Parser α} (built : Built parser) :
    ListsOnce parser :=
  built.logged.elim fun _ passes => passes.listsOnce

end Parser

end Curried
