import Curried.Proofs.Grammar.Decided
import Curried.Proofs.Grammar.Sources
import Curried.Proofs.Grammar.Trees

/-!
# How deep a tree nests

A derivation opens as many levels as its tree has groups, lists, local bindings and functions
above each other, and one more for an operator in parentheses: its parenthesis is taken for that
of a group first.  So the nesting limit cuts off the trees that nest deeper, and no others.
-/

namespace Curried

open Curried.Parser Grammar

namespace Expression

/-- Whether a name is that of an operator in parentheses. -/
def isOperatorName (name : String) : Bool := name.toList.head? == some '('

mutual

/-- The number of levels that the source of a tree opens inside each other. -/
def nesting : Expression → Nat
  | .number _ | .string _ | .boolean _ | .null | .operator _ => 0
  | .list items => nestingOfItems items + 1
  | .identifier name => if isOperatorName name then 1 else 0
  | .apply callee argument => max callee.nesting argument.nesting
  | .applyInfix sign operand => max sign.nesting operand.nesting
  | .letIn _ bound body => max bound.nesting body.nesting + 1
  | .function _ _ body => body.nesting + 1
  | .group inner => inner.nesting + 1

/-- The number of levels that the items of a list open inside each other. -/
def nestingOfItems : List Expression → Nat
  | [] => 0
  | item :: others => max item.nesting (nestingOfItems others)

end

mutual

/-- Whether no parameter in a tree has an annotated type. -/
def bare : Expression → Bool
  | .number _ | .string _ | .boolean _ | .null | .operator _ | .identifier _ => true
  | .list items => bareItems items
  | .apply callee argument => callee.bare && argument.bare
  | .applyInfix sign operand => sign.bare && operand.bare
  | .letIn _ bound body => bound.bare && body.bare
  | .function _ declared body => declared.isNone && body.bare
  | .group inner => inner.bare

/-- Whether no parameter in a list of trees has an annotated type. -/
def bareItems : List Expression → Bool
  | [] => true
  | item :: others => item.bare && bareItems others

end

theorem nestingOfItems_le_iff {items : List Expression} {room : Nat} :
    nestingOfItems items ≤ room ↔ ∀ item ∈ items, item.nesting ≤ room := by
  induction items with
  | nil => simp [nestingOfItems]
  | cons item others ih => rw [nestingOfItems, Nat.max_le, ih, List.forall_mem_cons]

theorem bareItems_iff {items : List Expression} :
    bareItems items = true ↔ ∀ item ∈ items, item.bare = true := by
  induction items with
  | nil => simp [bareItems]
  | cons item others ih => simp [bareItems, ih]

end Expression

/-! ### Levels of derivations -/

/-- A phrase without an annotated type. -/
def Phrase.Bare : Phrase → Prop
  | .parameterType declared => declared = none
  | .type _ | .typeAtom _ => False
  | phrase => phrase.Forall (·.bare = true)

variable {room : Room} {phrase : Phrase} {text rest : List Glyph}

theorem isOperatorName_operatorName (symbol : String) :
    Expression.isOperatorName (Expression.operatorName symbol) = true := by
  simp [Expression.isOperatorName, Expression.operatorName]

theorem IsWord.isOperatorName {name : String} (word : IsWord name) :
    Expression.isOperatorName name = false := by
  obtain ⟨first, others, spelt, starts, _⟩ := word
  have other : first ≠ '(' := by
    rintro rfl
    exact absurd starts (by decide)
  simpa [Expression.isOperatorName, spelt] using other

theorem nesting_binary_iff (room : Nat) (left right : Expression) (symbol : String) :
    (Expression.binary left right (.operator symbol)).nesting ≤ room ↔
      left.nesting ≤ room ∧ right.nesting ≤ room := by
  simp only [Expression.binary, Expression.nesting, Nat.zero_max, Nat.max_le]

theorem nesting_apply_iff (room : Nat) (callee argument : Expression) :
    (Expression.apply callee argument).nesting ≤ room ↔
      callee.nesting ≤ room ∧ argument.nesting ≤ room := by
  rw [Expression.nesting, Nat.max_le]

/-- A derivation opens at least as many levels as its trees nest. -/
theorem Derives.nesting_le {left : Nat} (derives : Derives (some left) phrase text rest) :
    phrase.Forall (·.nesting ≤ left) := by
  generalize levels : some left = room at derives
  induction derives generalizing left with
  | expression _ _ first others =>
      exact (Expression.chain_iff (·.nesting ≤ left) (nesting_binary_iff left)).2
        ⟨first levels, others levels⟩
  | stop => simp [Phrase.Forall]
  | link _ _ _ first others =>
      exact List.forall_mem_cons.2 ⟨first levels, others levels⟩
  | application _ _ first others =>
      exact (Expression.foldl_apply_iff (·.nesting ≤ left) (nesting_apply_iff left)).2
        ⟨first levels, others levels⟩
  | done => simp [Phrase.Forall]
  | more _ _ first others => exact List.forall_mem_cons.2 ⟨first levels, others levels⟩
  | atom _ ih => exact ih levels
  | number | string => exact Nat.zero_le _
  | constant member =>
      rcases constant_cases member with ⟨_, rfl⟩ | ⟨_, rfl⟩ | ⟨_, rfl⟩ <;> exact Nat.zero_le _
  | name is_name =>
      simp [Phrase.Forall, Expression.nesting, is_name.1.isOperatorName]
  | operatorName enters _ =>
      subst levels
      cases enters
      simp [Phrase.Forall, Expression.nesting, isOperatorName_operatorName]
  | group enters _ ih =>
      subst levels
      cases enters
      exact Nat.succ_le_succ (ih rfl)
  | list enters _ ih =>
      subst levels
      cases enters
      exact Nat.succ_le_succ (Expression.nestingOfItems_le_iff.2 (ih rfl))
  | noItems => simp [Phrase.Forall]
  | items _ _ first others => exact List.forall_mem_cons.2 ⟨first levels, others levels⟩
  | noOthers => simp [Phrase.Forall]
  | others _ _ first others => exact List.forall_mem_cons.2 ⟨first levels, others levels⟩
  | letIn enters _ _ _ _ _ bound body =>
      subst levels
      cases enters
      exact Nat.succ_le_succ (Nat.max_le.2 ⟨bound rfl, body rfl⟩)
  | function enters _ _ _ _ _ body =>
      subst levels
      cases enters
      exact Nat.succ_le_succ (body rfl)
  | undeclared | declared | type | arrow | typeName | typeGroup => trivial

theorem bare_binary_iff (left right : Expression) (symbol : String) :
    (Expression.binary left right (.operator symbol)).bare = true ↔
      left.bare = true ∧ right.bare = true := by
  simp [Expression.binary, Expression.bare]

theorem bare_apply_iff (callee argument : Expression) :
    (Expression.apply callee argument).bare = true ↔
      callee.bare = true ∧ argument.bare = true := by
  simp [Expression.bare]

/-- A derivation without a limit opens no more levels than its trees nest, if no parameter has an
annotated type. -/
theorem Derives.within {left : Nat} (derives : Derives none phrase text rest)
    (fits : phrase.Forall (·.nesting ≤ left)) (bare : phrase.Bare) :
    Derives (some left) phrase text rest := by
  generalize unlimited : (none : Room) = room at derives
  induction derives generalizing left with
  | expression _ _ first others =>
      obtain ⟨first_fits, others_fit⟩ :=
        (Expression.chain_iff (·.nesting ≤ left) (nesting_binary_iff left)).1 fits
      obtain ⟨first_bare, others_bare⟩ :=
        (Expression.chain_iff (·.bare = true) bare_binary_iff).1 bare
      exact .expression (first first_fits first_bare unlimited)
        (others others_fit others_bare unlimited)
  | stop none_left => exact .stop none_left
  | link operator _ _ first others =>
      obtain ⟨first_fits, others_fit⟩ := List.forall_mem_cons.1 fits
      obtain ⟨first_bare, others_bare⟩ := List.forall_mem_cons.1 bare
      exact .link operator (first first_fits first_bare unlimited)
        (others others_fit others_bare unlimited)
  | application _ _ first others =>
      obtain ⟨first_fits, others_fit⟩ :=
        (Expression.foldl_apply_iff (·.nesting ≤ left) (nesting_apply_iff left)).1 fits
      obtain ⟨first_bare, others_bare⟩ :=
        (Expression.foldl_apply_iff (·.bare = true) bare_apply_iff).1 bare
      exact .application (first first_fits first_bare unlimited)
        (others others_fit others_bare unlimited)
  | done ends => exact .done ends
  | more _ _ first others =>
      obtain ⟨first_fits, others_fit⟩ := List.forall_mem_cons.1 fits
      obtain ⟨first_bare, others_bare⟩ := List.forall_mem_cons.1 bare
      exact .more (first first_fits first_bare unlimited)
        (others others_fit others_bare unlimited)
  | atom _ ih => exact .atom (ih fits bare unlimited)
  | number finite => exact .number finite
  | string free => exact .string free
  | constant member => exact .constant member
  | name is_name => exact .name is_name
  | @operatorName _ _ symbol _ _ enters run =>
      have counts : 1 ≤ left := by
        simpa [Phrase.Forall, Expression.nesting, isOperatorName_operatorName] using fits
      obtain ⟨left, rfl⟩ := Nat.exists_eq_add_of_le' counts
      exact .operatorName (.level left) run
  | group enters _ ih =>
      subst unlimited
      cases enters
      obtain ⟨left, rfl⟩ := Nat.exists_eq_add_of_le' (Nat.le_trans (Nat.succ_pos _) fits)
      exact .group (.level left) (ih (Nat.le_of_succ_le_succ fits) bare rfl)
  | list enters _ ih =>
      subst unlimited
      cases enters
      obtain ⟨left, rfl⟩ := Nat.exists_eq_add_of_le' (Nat.le_trans (Nat.succ_pos _) fits)
      have items_fit := Expression.nestingOfItems_le_iff.1 (Nat.le_of_succ_le_succ fits)
      exact .list (.level left) (ih items_fit (Expression.bareItems_iff.1 bare) rfl)
  | noItems => exact .noItems
  | items _ _ first others =>
      obtain ⟨first_fits, others_fit⟩ := List.forall_mem_cons.1 fits
      obtain ⟨first_bare, others_bare⟩ := List.forall_mem_cons.1 bare
      exact .items (first first_fits first_bare unlimited)
        (others others_fit others_bare unlimited)
  | noOthers => exact .noOthers
  | others _ _ first others =>
      obtain ⟨first_fits, others_fit⟩ := List.forall_mem_cons.1 fits
      obtain ⟨first_bare, others_bare⟩ := List.forall_mem_cons.1 bare
      exact .others (first first_fits first_bare unlimited)
        (others others_fit others_bare unlimited)
  | letIn enters is_name named equals _ _ bound body =>
      subst unlimited
      cases enters
      obtain ⟨left, rfl⟩ := Nat.exists_eq_add_of_le' (Nat.le_trans (Nat.succ_pos _) fits)
      obtain ⟨bound_fits, body_fits⟩ := Nat.max_le.1 (Nat.le_of_succ_le_succ fits)
      obtain ⟨bound_bare, body_bare⟩ := Bool.and_eq_true_iff.1 bare
      exact .letIn (.level left) is_name named equals (bound bound_fits bound_bare rfl)
        (body body_fits body_bare rfl)
  | function enters is_name named typed _ type body =>
      subst unlimited
      cases enters
      obtain ⟨left, rfl⟩ := Nat.exists_eq_add_of_le' (Nat.le_trans (Nat.succ_pos _) fits)
      obtain ⟨undeclared, body_bare⟩ := Bool.and_eq_true_iff.1 bare
      exact .function (.level left) is_name named
        (type trivial (Option.isNone_iff_eq_none.1 undeclared) rfl)
        (body (Nat.le_of_succ_le_succ fits) body_bare rfl)
  | undeclared => exact .undeclared
  | declared => cases bare
  | type | arrow | typeName | typeGroup => exact bare.elim

/-! ### Programs with and without the limit -/

variable {limit : Option Nat} {source : String} {tokens : List Token} {tree : Expression}

/-- A source whose tokens are not taken has an error that says what was expected. -/
theorem error_of_read (lexed : tokenize Rule.standard source = .ok tokens)
    (decided : ((programUpTo limit).read (turnsFor tokens) 0 tokens).Decided)
    (none_taken : ∀ tree behind,
      (programUpTo limit).read (turnsFor tokens) 0 tokens ≠ .taken tree behind) :
    ∃ error, parseUpTo limit source = .error (.grammatical error) ∧
      ∀ expected, (programUpTo limit).read (turnsFor tokens) 0 tokens = .stopped (.cut expected) →
        error.expected = Failure.joinAlternatives expected := by
  rw [parseUpTo_of_lexed lexed]
  have same : (programUpTo limit).read (turnsFor tokens) 0 tokens =
    ((programUpTo limit).run (turnsFor tokens) (.start tokens)).verdict := rfl
  rw [same] at decided none_taken ⊢
  cases run : (programUpTo limit).run (turnsFor tokens) (.start tokens) with
  | ok tree after =>
      rw [run] at none_taken
      exact absurd rfl (none_taken tree after.input.rest)
  | error failure after =>
      refine ⟨failure.report, rfl, fun expected stops => ?_⟩
      simp only [Outcome.verdict] at stops
      split at stops
      · cases stops
        rfl
      · cases stops
  | exhausted =>
      rw [run] at decided
      exact absurd rfl decided

/-- With the limit a program has the verdict that it has without, until it nests too deep. -/
theorem until_program (most turns : Nat) (tokens : List Token) :
    ((programUpTo (some most)).read turns 0 tokens).Until (tooDeep most)
      ((programUpTo none).read turns 0 tokens) := by
  have looser : Looser most 0 none 0 := trivial
  have rules : Until (tooDeep most) turns 0 0 (expressionUpTo (some most)) (expressionUpTo none) :=
    ⟨(until_expression turns looser).agrees⟩
  have whole : Until (tooDeep most) turns 0 0 ((expressionUpTo (some most)).keepLeft endOfInput)
    ((expressionUpTo none).keepLeft endOfInput) := inferInstance
  exact whole.agrees tokens

/-- A tree that a program has without a limit, and that nests no deeper than the limit, is the tree
that it has. -/
theorem parseUpTo_of_nesting_le {most : Nat} (found : parseUpTo none source = .ok tree)
    (bare : tree.bare = true) (fits : tree.nesting ≤ most) :
    parseUpTo (some most) source = .ok tree := by
  obtain ⟨tokens, lexed, derives⟩ := parseUpTo_iff_derives.1 found
  exact parseUpTo_iff_derives.2 ⟨tokens, lexed, derives.within fits bare⟩

/-- A tree that nests deeper than the limit is cut off, and the error tells the limit. -/
theorem parseUpTo_of_lt_nesting {most : Nat} (found : parseUpTo none source = .ok tree)
    (deep : most < tree.nesting) :
    ∃ error, parseUpTo (some most) source = .error (.grammatical error) ∧
      error.expected = "at most " ++ toString most ++ " levels of nesting" := by
  cases lexed : tokenize Rule.standard source with
  | error error => simp [parseUpTo, lexed] at found
  | ok tokens =>
      have standard := standard_of_tokenize lexed
      obtain ⟨_, reads⟩ := (parseUpTo_eq_ok_iff lexed).1 found
      have agree := until_program most (turnsFor tokens) tokens
      have stops : (programUpTo (some most)).read (turnsFor tokens) 0 tokens =
          .stopped (tooDeep most) := by
        rcases agree with same | stops
        · rw [reads] at same
          have fits := (derives_of_program standard same).nesting_le
          exact absurd deep (Nat.not_lt.2 fits)
        · exact stops
      obtain ⟨error, fails, expects⟩ := error_of_read lexed (program_decided (some most)
        (length_lt_turnsFor tokens)) (by rw [stops]; intro tree behind takes; cases takes)
      exact ⟨error, fails, expects _ stops⟩

/-- What is no program without a limit is none under one. -/
theorem error_of_unlimited {error : ProgramError} (fails : parseUpTo none source = .error error) :
    error ≠ .exhausted ∧
      ∃ other, parseUpTo limit source = .error other ∧ other ≠ .exhausted := by
  cases lexed : tokenize Rule.standard source with
  | error reason =>
      simp only [parseUpTo, lexed, Except.error.injEq] at fails ⊢
      subst fails
      exact ⟨by simp, _, rfl, by simp⟩
  | ok tokens =>
      have few := length_lt_turnsFor tokens
      have none_taken : ∀ tree behind,
          (programUpTo none).read (turnsFor tokens) 0 tokens ≠ .taken tree behind := by
        intro tree behind takes
        rw [(parseUpTo_eq_ok_iff lexed).2 ⟨behind, takes⟩] at fails
        cases fails
      obtain ⟨reason, same, _⟩ := error_of_read lexed (program_decided none few) none_taken
      rw [same] at fails
      cases fails
      refine ⟨by simp, ?_⟩
      have still_none : ∀ tree behind,
          (programUpTo limit).read (turnsFor tokens) 0 tokens ≠ .taken tree behind := by
        cases limit with
        | none => exact none_taken
        | some most =>
            intro tree behind takes
            have agree := until_program most (turnsFor tokens) tokens
            rw [takes] at agree
            exact none_taken tree behind agree.taken
      obtain ⟨other, still_fails, _⟩ := error_of_read lexed (program_decided limit few) still_none
      exact ⟨.grammatical other, still_fails, by simp⟩

/-- The nesting limit only cuts off deep trees.  What is no program without the limit is none; a
program without annotated types has the tree that it has without the limit, if that nests at most
32 levels deep, and otherwise an error that tells the limit.  An operator in parentheses counts as
a level, since its parenthesis is taken for that of a group first. -/
theorem parse_of_unlimited (source : String) :
    (∀ error, parseUpTo none source = .error error →
      error ≠ .exhausted ∧ ∃ other, parse source = .error other ∧ other ≠ .exhausted) ∧
    ∀ tree, parseUpTo none source = .ok tree → tree.bare = true →
      (tree.nesting ≤ nestingLimit → parse source = .ok tree) ∧
      (nestingLimit < tree.nesting → ∃ error, parse source = .error (.grammatical error) ∧
        error.expected = "at most 32 levels of nesting") := by
  rw [parse_eq_parseUpTo]
  refine ⟨fun error fails => error_of_unlimited fails, fun tree found bare => ⟨?_, ?_⟩⟩
  · exact parseUpTo_of_nesting_le found bare
  · exact parseUpTo_of_lt_nesting found

/-- An operator in parentheses under as many groups as may nest. -/
def deepOperator : String :=
  String.ofList (List.replicate nestingLimit '(' ++ "(+)".toList ++ List.replicate nestingLimit ')')

/-- A name in two groups is parsed, the operator under as many groups as may nest is cut off, and a
group without an end is no program. -/
theorem parse_of_unlimited_groups :
    (∃ tree, parseUpTo none "((x))" = .ok tree ∧ tree.bare = true ∧ tree.nesting ≤ nestingLimit ∧
      parse "((x))" = .ok tree) ∧
    (∃ tree error, parseUpTo none deepOperator = .ok tree ∧ tree.bare = true ∧
      nestingLimit < tree.nesting ∧ parse deepOperator = .error (.grammatical error) ∧
      error.expected = "at most 32 levels of nesting") ∧
    ∃ error other, parseUpTo none "(x" = .error error ∧ parse "(x" = .error other ∧
      other ≠ .exhausted := by
  have shallow : (match parseUpTo none "((x))" with
    | .ok tree => tree.bare && decide (tree.nesting ≤ nestingLimit)
    | .error _ => false) = true := by decide +kernel
  have deep : (match parseUpTo none deepOperator with
    | .ok tree => tree.bare && decide (nestingLimit < tree.nesting)
    | .error _ => false) = true := by decide +kernel
  have broken : (match parseUpTo none "(x" with
    | .ok _ => false
    | .error _ => true) = true := by decide +kernel
  refine ⟨?_, ?_, ?_⟩
  · cases found : parseUpTo none "((x))" with
    | error _ => simp [found] at shallow
    | ok tree =>
        obtain ⟨bare, fits⟩ : tree.bare = true ∧ tree.nesting ≤ nestingLimit := by
          simpa [found] using shallow
        exact ⟨tree, rfl, bare, fits, ((parse_of_unlimited _).2 tree found bare).1 fits⟩
  · cases found : parseUpTo none deepOperator with
    | error _ => simp [found] at deep
    | ok tree =>
        obtain ⟨bare, exceeds⟩ : tree.bare = true ∧ nestingLimit < tree.nesting := by
          simpa [found] using deep
        obtain ⟨error, fails, expects⟩ :=
          ((parse_of_unlimited deepOperator).2 tree found bare).2 exceeds
        exact ⟨tree, error, rfl, bare, exceeds, fails, expects⟩
  · cases fails : parseUpTo none "(x" with
    | error error =>
        obtain ⟨_, other, still_fails, reason⟩ := (parse_of_unlimited "(x").1 error fails
        exact ⟨error, other, rfl, still_fails, reason⟩
    | ok _ => simp [fails] at broken

end Curried
