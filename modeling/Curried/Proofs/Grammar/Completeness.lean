import Curried.Proofs.Grammar.Soundness

/-!
# What is derived is taken

The parser of a phrase takes every text that has a derivation with the levels that the nesting
limit leaves.  A rule that is entered once more than the text is long has turns enough.
-/

namespace Curried.Grammar

open Curried.Parser

variable {α : Type} {limit : Option Nat} {turns depth : Nat} {text middle rest : List Glyph}

/-! ### One level deeper -/

theorem room_of_enters {inner : Room} (enters : Enters (roomAt limit depth) inner) :
    inner = roomAt limit (deeper limit depth) := by
  cases limit with
  | none => cases enters; rfl
  | some most =>
      have same : (most - depth) - 1 = most - (depth + 1) := by omega
      generalize levels : most - depth = left at same
      simp only [roomAt, Option.map_some, levels] at enters
      cases enters with
      | level left => simp only [roomAt, deeper, Option.map_some, ← same, Nat.add_sub_cancel]

theorem read_bounded {inner : Room} {parser : Parser α} [Blind parser]
    (enters : Enters (roomAt limit depth) inner) (tokens : List Token) :
    (bounded limit parser).read turns depth tokens =
      parser.read turns (deeper limit depth) tokens := by
  cases limit with
  | none => rfl
  | some most =>
      have left : ¬ most ≤ depth := by
        intro none_left
        have levels : most - depth = 0 := by omega
        simp only [roomAt, Option.map_some, levels] at enters
        cases enters
      exact (read_nested most turns depth tokens).trans (if_neg left)

section
variable {inner : Room} {parser : Parser α} [Blind parser] {value : α}
  (enters : Enters (roomAt limit depth) inner)
include enters

theorem takes_bounded (takes : parser.Takes turns (deeper limit depth) text value rest) :
    (bounded limit parser).Takes turns depth text value rest := by
  intro tokens standard spelt
  rw [read_bounded enters]
  exact takes tokens standard spelt

theorem refuses_bounded (refuses : parser.Refuses turns (deeper limit depth) text) :
    (bounded limit parser).Refuses turns depth text := by
  intro tokens standard spelt
  rw [read_bounded enters]
  exact refuses tokens standard spelt

end

/-! ### Refusals -/

/-- Whether a literal starts with a glyph. -/
def startsLiteral : Glyph → Bool
  | .number (some _) | .string _ => true
  | .word text => ["true", "false", "null"].contains text
  | .mark symbol => symbol == '['
  | _ => false

section
variable {type : Parser TypeExpression} {expression : Parser Expression} [Blind type]
  [Blind expression]

theorem refuses_group (other : ∀ glyph ∈ text.head?, glyph.isMark '(' = false) :
    (groupExpression expression).Refuses turns depth text :=
  ((refuses_symbol other).group.map _).recorded _

theorem refuses_list (other : ∀ glyph ∈ text.head?, glyph.isMark '[' = false) :
    (listLiteral expression).Refuses turns depth text := by
  have opening : ((symbol "[").keepLeft whitespace).Refuses turns depth text :=
    (refuses_symbol (c := '[') other).keepLeft
  exact ((opening.group.map _).map _).recorded _

theorem refuses_literal (other : ∀ glyph ∈ text.head?, startsLiteral glyph = false) :
    (literal expression).Refuses turns depth text := by
  have word (name : String) (among : name ∈ ["true", "false", "null"]) :
      ∀ glyph ∈ text.head?, glyph.isWord name = false := by
    intro glyph member
    have unfit := other glyph member
    cases glyph with
    | word found =>
        refine beq_eq_false_iff_ne.2 ?_
        rintro rfl
        simp [startsLiteral] at unfit
        simp [unfit] at among
    | _ => rfl
  refine .choice_cons (refuses_number ?_) (.choice_cons (refuses_string ?_)
    (.choice_cons (refuses_constant (word "true" (by simp)))
      (.choice_cons (refuses_constant (word "false" (by simp)))
        (.choice_cons (refuses_constant (word "null" (by simp)))
          (.choice_cons (refuses_list ?_) .choice_nil)))))
  · rintro glyph member value rfl
    exact Bool.noConfusion (other _ member)
  · intro glyph member
    cases glyph with
    | string => exact other _ member
    | _ => rfl
  · intro glyph member
    cases glyph with
    | mark => exact other _ member
    | _ => rfl

theorem refuses_let (other : ∀ glyph ∈ text.head?, glyph.isWord "let" = false) :
    (letExpression expression).Refuses turns depth text := by
  have front : (letParts expression).Refuses turns depth text :=
    ((((refuses_keyword other).keepRight.keepLeft).pair).keepLeft).pair
  rw [letExpression_eq]
  exact (front.map _).recorded _

theorem refuses_function (other : ∀ glyph ∈ text.head?, glyph.isMark '\\' = false) :
    (functionExpression type expression).Refuses turns depth text := by
  have front : (head type).Refuses turns depth text :=
    (((refuses_symbol other).keepRight).pair).keepLeft
  rw [functionExpression_eq]
  exact (front.pair.map _).recorded _

theorem refuses_prefixIdentifier
    (other : ∀ glyph ∈ text.head?, glyph.isMark '(' = false ∧
      ∀ name, glyph = .word name → name ∈ keywords) :
    prefixIdentifier.Refuses turns depth text := by
  have name : bareIdentifier.Refuses turns depth text :=
    refuses_bareIdentifier fun glyph member => (other glyph member).2
  have operator : ((group operatorRun (symbol "(") (symbol ")")).map
      Expression.operatorName).Refuses turns depth text :=
    (refuses_symbol (c := '(') fun glyph member => (other glyph member).1).group.map _
  exact (Refuses.choice_cons name (.choice_cons operator .choice_nil)).noted _

/-- Where no atom can start, the atom is refused. -/
theorem refuses_core (ends : startsAtom text = false) :
    (core type expression).Refuses turns depth text := by
  have other : ∀ glyph ∈ text.head?, startsAtom [glyph] = false := by
    intro glyph member
    cases text with
    | nil => cases member
    | cons first others =>
        obtain rfl : first = glyph := by simpa using member
        cases first with
        | number value => cases value <;> exact ends
        | _ => exact ends
  have mark (c : Char) (starts : startsAtom [.mark c] = true) :
      ∀ glyph ∈ text.head?, glyph.isMark c = false := by
    intro glyph member
    cases glyph with
    | mark found =>
        refine beq_eq_false_iff_ne.2 ?_
        rintro rfl
        rw [other _ member] at starts
        cases starts
    | _ => rfl
  refine .choice_cons (refuses_group (mark '(' rfl)) (.choice_cons (refuses_literal ?_)
    (.choice_cons (refuses_let ?_) (.choice_cons (refuses_function (mark '\\' rfl))
      (.choice_cons (Refuses.map (refuses_prefixIdentifier ?_) _) .choice_nil))))
  · intro glyph member
    have unfit := other glyph member
    cases glyph with
    | number value => cases value <;> exact unfit
    | string => exact unfit
    | word found =>
        obtain rfl : found = "in" := by simpa [startsAtom] using unfit
        rfl
    | mark found => exact mark '[' rfl _ member
    | blank => rfl
  · intro glyph member
    have unfit := other glyph member
    cases glyph with
    | word found =>
        obtain rfl : found = "in" := by simpa [startsAtom] using unfit
        rfl
    | _ => rfl
  · intro glyph member
    refine ⟨mark '(' rfl glyph member, ?_⟩
    rintro name rfl
    obtain rfl : name = "in" := by simpa [startsAtom] using other _ member
    decide

theorem refuses_atom (enough : text.length < turns) (ends : startsAtom (skip text) = false) :
    (atom type expression).Refuses turns depth text :=
  refuses_padded enough (refuses_core ends)

/-- Where no atom can start, an expression is refused. -/
theorem refuses_expressionRule (enough : text.length < turns)
    (ends : startsAtom (skip text) = false) :
    (expressionRule type expression).Refuses turns depth text := by
  have shorter : (skip text).length < turns := Nat.lt_of_le_of_lt (length_skip_le text) enough
  have first : (atom type expression).Refuses turns depth (skip text) :=
    refuses_atom shorter (by rw [skip_skip]; exact ends)
  have operand : (application type expression).Refuses turns depth (skip text) := by
    intro tokens standard spelt
    rw [application, read_recordedWhen, read_map, first.pair tokens standard spelt,
      Verdict.map_refused]
  have chain : (operatorChain type expression).Refuses turns depth (skip text) := by
    intro tokens standard spelt
    rw [operatorChain, read_recordedWhen, read_binary, operand tokens standard spelt,
      Verdict.andThen_refused]
  exact (Refuses.keepRight_of_second (passes_whitespace enough) chain).keepLeft

end

/-! ### Atoms -/

section
variable {type : Parser TypeExpression} {expression : Parser Expression} [Blind type]
  [Blind expression] {tree : Expression}

theorem takes_group (inner : expression.Takes turns depth text tree (.mark ')' :: rest)) :
    (core type expression).Takes turns depth (.mark '(' :: text) (.group tree) rest := by
  have grouped := Takes.group (passes_symbol '(' text) inner (passes_symbol ')' rest)
  exact .choice_head ((grouped.map _).recorded _)

/-- A literal is no group. -/
theorem takes_of_literal (other : ∀ glyph ∈ text.head?, glyph.isMark '(' = false)
    (takes : (literal expression).Takes turns depth text tree rest) :
    (core type expression).Takes turns depth text tree rest :=
  .choice_tail (refuses_group other) (.choice_head takes)

theorem takes_number_core (value : Float) (rest : List Glyph) :
    (core type expression).Takes turns depth (.number (some value) :: rest) (.number value) rest :=
  takes_of_literal (by simp [Glyph.isMark]) (.choice_head (takes_number value rest))

theorem takes_string_core (content : String) (rest : List Glyph) :
    (core type expression).Takes turns depth (.string content :: rest) (.string content) rest :=
  takes_of_literal (by simp [Glyph.isMark])
    (.choice_tail (refuses_number (by simp)) (.choice_head (takes_string content rest)))

theorem takes_constant_core {word : String} {value : Expression}
    (member : (word, value) ∈ constants) (rest : List Glyph) :
    (core type expression).Takes turns depth (.word word :: rest) value rest := by
  refine takes_of_literal (by simp [Glyph.isMark]) (.choice_tail (refuses_number (by simp))
    (.choice_tail (refuses_string (by simp [isString])) ?_))
  rcases constant_cases member with ⟨rfl, rfl⟩ | ⟨rfl, rfl⟩ | ⟨rfl, rfl⟩
  · exact .choice_head (takes_constant _ _ rest)
  · refine .choice_tail (refuses_constant ?_) (.choice_head (takes_constant _ _ rest))
    simp [Glyph.isWord]
  · refine .choice_tail (refuses_constant ?_) (.choice_tail (refuses_constant ?_)
      (.choice_head (takes_constant _ _ rest)))
    · simp [Glyph.isWord]
    · simp [Glyph.isWord]

theorem takes_list {trees : List Expression} (enough : text.length < turns)
    (inner : ((interleaved expression (symbol ",") true).map
      (List.filterMap Interleaved.item?)).Takes turns depth (skip text) trees
      (.mark ']' :: rest)) :
    (core type expression).Takes turns depth (.mark '[' :: text) (.list trees) rest := by
  have opens : ((symbol "[").keepLeft whitespace).Passes turns depth (.mark '[' :: text)
      (skip text) :=
    (passes_symbol '[' text).keepLeft (passes_whitespace enough)
  have listed : (listLiteral expression).Takes turns depth (.mark '[' :: text) (.list trees) rest :=
    ((Takes.group_map opens inner (passes_symbol ']' rest)).map Expression.list).recorded _
  refine takes_of_literal (by simp [Glyph.isMark]) (.choice_tail (refuses_number (by simp))
    (.choice_tail (refuses_string (by simp [isString])) ?_))
  refine .choice_tail (refuses_constant ?_) (.choice_tail (refuses_constant ?_)
    (.choice_tail (refuses_constant ?_) (.choice_head listed)))
  all_goals simp [Glyph.isWord]

/-- What is neither a group nor a literal. -/
theorem takes_of_others (group : ∀ glyph ∈ text.head?, glyph.isMark '(' = false)
    (other : ∀ glyph ∈ text.head?, startsLiteral glyph = false)
    (takes : (choice [letExpression expression, functionExpression type expression,
      prefixIdentifier.map .identifier]).Takes turns depth text tree rest) :
    (core type expression).Takes turns depth text tree rest :=
  .choice_tail (refuses_group group) (.choice_tail (refuses_literal other) takes)

theorem takes_let {name : String} {bound body : Expression}
    {afterName afterSign afterBound : List Glyph} (enough : text.length < turns)
    (is_name : IsName name) (named : skip text = .word name :: afterName)
    (equals : skip afterName = .mark '=' :: afterSign)
    (value : expression.Takes turns depth afterSign bound (.word "in" :: afterBound))
    (last : expression.Takes turns depth afterBound body rest) :
    (core type expression).Takes turns depth (.word "let" :: text) (.letIn name bound body)
      rest := by
  have shorter : afterName.length ≤ text.length := Nat.le_of_lt (length_of_skip named)
  have padded_name : (padded bareIdentifier).Takes turns depth text name
      (.mark '=' :: afterSign) := by
    rw [← equals]
    refine takes_padded enough ?_ shorter
    rw [named]
    exact takes_bareIdentifier is_name.2 afterName
  have front : binding.Takes turns depth (.word "let" :: text) name afterSign :=
    (Takes.keepRight (passes_keyword "let" text) padded_name).keepLeft (passes_symbol '=' afterSign)
  have parts : (letParts expression).Takes turns depth (.word "let" :: text)
      ((name, bound), body) rest :=
    ((front.pair value).keepLeft (passes_keyword "in" afterBound)).pair last
  have whole : (letExpression expression).Takes turns depth (.word "let" :: text)
      (.letIn name bound body) rest := by
    rw [letExpression_eq]
    exact (parts.map _).recorded _
  exact takes_of_others (by simp [Glyph.isMark]) (by simp [startsLiteral]) (.choice_head whole)

theorem takes_function {name : String} {declared : Option TypeExpression} {body : Expression}
    {afterName afterArrow : List Glyph} (enough : text.length < turns) (is_name : IsName name)
    (named : skip text = .word name :: afterName)
    (typed : (parameterType type).Takes turns depth (skip afterName) declared
      (.mark '-' :: .mark '>' :: afterArrow))
    (last : expression.Takes turns depth afterArrow body rest) :
    (core type expression).Takes turns depth (.mark '\\' :: text) (.function name declared body)
      rest := by
  have shorter : afterName.length ≤ text.length := Nat.le_of_lt (length_of_skip named)
  have padded_name : (padded bareIdentifier).Takes turns depth text name (skip afterName) := by
    refine takes_padded enough ?_ shorter
    rw [named]
    exact takes_bareIdentifier is_name.2 afterName
  have front : (head type).Takes turns depth (.mark '\\' :: text) (name, declared) afterArrow :=
    ((Takes.keepRight (passes_symbol '\\' text) padded_name).pair typed).keepLeft
      (passes_arrow afterArrow)
  have whole : (functionExpression type expression).Takes turns depth (.mark '\\' :: text)
      (.function name declared body) rest := by
    rw [functionExpression_eq]
    exact ((front.pair last).map _).recorded _
  refine takes_of_others (by simp [Glyph.isMark]) (by simp [startsLiteral])
    (.choice_tail (refuses_let ?_) (.choice_head whole))
  simp [Glyph.isWord]

theorem takes_name {name : String} (is_name : IsName name) (rest : List Glyph) :
    (core type expression).Takes turns depth (.word name :: rest) (.identifier name) rest := by
  have free : name ∉ ["true", "false", "null", "let", "in"] := is_name.2
  simp only [List.mem_cons, List.not_mem_nil, or_false, not_or] at free
  have bare : prefixIdentifier.Takes turns depth (.word name :: rest) name rest :=
    (Takes.choice_head (takes_bareIdentifier is_name.2 rest)).noted _
  refine takes_of_others (by simp [Glyph.isMark]) (by simp [startsLiteral, free])
    (.choice_tail (refuses_let ?_) (.choice_tail (refuses_function ?_) (.choice_head (bare.map _))))
  · simp [Glyph.isWord, free]
  · simp [Glyph.isMark]

/-- An operator in parentheses: the group around it is refused. -/
theorem takes_operatorName {symbol : String} (enough : text.length ≤ turns)
    (run : run? text = some (symbol, .mark ')' :: rest))
    (refuses : expression.Refuses turns depth text) :
    (core type expression).Takes turns depth (.mark '(' :: text)
      (.identifier (Expression.operatorName symbol)) rest := by
  have no_group : (groupExpression expression).Refuses turns depth (.mark '(' :: text) :=
    ((Refuses.keepRight_of_second (passes_symbol '(' text) refuses).keepLeft.map _).recorded _
  have grouped : (group operatorRun (Grammar.symbol "(") (Grammar.symbol ")")).Takes turns depth
      (.mark '(' :: text) symbol rest :=
    .group (passes_symbol '(' text) (takes_operatorRun enough run) (passes_symbol ')' rest)
  have no_word : bareIdentifier.Refuses turns depth (.mark '(' :: text) :=
    refuses_bareIdentifier (by simp)
  have name : prefixIdentifier.Takes turns depth (.mark '(' :: text)
      (Expression.operatorName symbol) rest :=
    (Takes.choice_tail no_word (.choice_head (grouped.map _))).noted _
  refine .choice_tail no_group (.choice_tail (refuses_literal ?_) (.choice_tail (refuses_let ?_)
    (.choice_tail (refuses_function ?_) (.choice_head (name.map _)))))
  · simp [startsLiteral]
  · simp [Glyph.isWord]
  · simp [Glyph.isMark]

end

/-! ### Rules -/

section
variable {type : Parser TypeExpression} {expression : Parser Expression} [Blind type]
  [Blind expression] {tree : Expression}

theorem takes_application {trees : List Expression}
    (first : (atom type expression).Takes turns depth text tree middle)
    (others : (repeated (atom type expression) turns).Takes turns depth middle trees rest) :
    (application type expression).Takes turns depth text (trees.foldl .apply tree) rest := by
  have loop : (atom type expression).many.Takes turns depth middle trees rest := others
  exact ((first.pair loop).map _).recordedWhen _ _

theorem takes_chain {found : List (String × Expression)}
    (first : (application type expression).Takes turns depth text tree middle)
    (others : (links (application type expression) infixOperator turns).Takes turns depth middle
      (found.map Expression.link) rest) :
    (operatorChain type expression).Takes turns depth text (tree.chain found) rest := by
  intro tokens standard spelt
  obtain ⟨between, reads, same⟩ := first tokens standard spelt
  obtain ⟨behind, goes, last⟩ := others between (standard.of_suffix (Blind.suffix reads)) same
  have goes : (links (application type expression)
      (operatorOf ([1, 2, 3, 4].map operatorsOf)) turns).read turns depth between =
        .taken (found.map Expression.link) behind := goes
  refine ⟨behind, ?_, last⟩
  rw [operatorChain, read_recordedWhen, read_binary, reads, Verdict.andThen_taken, goes,
    Verdict.map_taken]
  rfl

theorem takes_expressionRule (enough : text.length < turns)
    (takes : (operatorChain type expression).Takes turns depth (skip text) tree rest)
    (skipped : skip rest = rest) (shorter : rest.length ≤ text.length) :
    (expressionRule type expression).Takes turns depth text tree rest := by
  have whole : (expressionRule type expression).Takes turns depth text tree (skip rest) :=
    takes_padded enough takes shorter
  rwa [skipped] at whole

theorem takes_typeName {name : String} (enough : text.length < turns)
    (named : skip text = .word name :: rest) :
    (typeAtom type).Takes turns depth text (.named name) (skip rest) := by
  refine takes_padded enough ?_ (Nat.le_of_lt (length_of_skip named))
  rw [named]
  exact .choice_head (takes_identifier TypeExpression.named name rest)

theorem takes_typeGroup {inside : List Glyph} {inner : TypeExpression}
    (enough : text.length < turns) (opens : skip text = .mark '(' :: inside)
    (takes : type.Takes turns depth inside inner (.mark ')' :: rest))
    (shorter : rest.length ≤ text.length) :
    (typeAtom type).Takes turns depth text inner (skip rest) := by
  refine takes_padded enough ?_ shorter
  rw [opens]
  have no_name : ((token Kind.identifier).map fun token => TypeExpression.named token.text).Refuses
      turns depth (.mark '(' :: inside) := refuses_identifier _ (by simp [isAnyWord])
  have grouped := Takes.group (passes_symbol '(' inside) takes (passes_symbol ')' rest)
  exact .choice_tail no_name (.choice_head grouped)

theorem takes_type {tree : TypeExpression}
    (takes : (typeAtom type).Takes turns depth text tree (.mark ')' :: rest)) :
    (typeRule type).Takes turns depth text tree (.mark ')' :: rest) := by
  have no_arrow : (arrow.keepRight type).Refuses turns depth (.mark ')' :: rest) :=
    (refuses_arrow (by simp [Glyph.isMark])).keepRight
  exact (takes.pair (.none no_arrow)).map _

theorem takes_arrow {parameter result : TypeExpression} {afterArrow : List Glyph}
    (first : (typeAtom type).Takes turns depth text parameter
      (.mark '-' :: .mark '>' :: afterArrow))
    (second : type.Takes turns depth afterArrow result rest) :
    (typeRule type).Takes turns depth text (.function parameter result) rest :=
  (first.pair (.optional (.keepRight (passes_arrow afterArrow) second))).map _

theorem takes_parameterType {tree : TypeExpression} (enough : rest.length < turns)
    (takes : type.Takes turns depth text tree (.mark ')' :: rest)) :
    (parameterType type).Takes turns depth (.mark '(' :: text) (some tree) (skip rest) := by
  have grouped := Takes.group (passes_symbol '(' text) takes (passes_symbol ')' rest)
  exact .optional (grouped.keepLeft (passes_whitespace enough))

theorem takes_undeclared (rest : List Glyph) :
    (parameterType type).Takes turns depth (.mark '-' :: rest) none (.mark '-' :: rest) :=
  .none ((refuses_symbol (c := '(') (by simp [Glyph.isMark])).group.keepLeft)

end

/-! ### Derivations -/

/-- The rule for expressions inside of another one, entered so often. -/
abbrev inside (limit : Option Nat) (entries : Nat) : Parser Expression :=
  bounded limit (entering (expressionStep limit) entries)

/-- The parser of a phrase takes it, with enough turns.  What extends as far as it can leaves no
white space behind. -/
def Completed (limit : Option Nat) (turns : Nat) (room : Room) (phrase : Phrase)
    (text rest : List Glyph) : Prop :=
  match phrase with
  | .expression tree => ∀ depth entries, room = roomAt limit depth → text.length < turns →
      text.length < entries → skip rest = rest ∧
        (entering (expressionStep limit) entries).Takes turns depth text tree rest
  | .links found => ∀ depth entries more, room = roomAt limit depth → text.length < turns →
      text.length ≤ entries → text.length < more → skip text = text → skip rest = rest ∧
        (links (application (typeUpTo limit) (inside limit entries)) infixOperator more).Takes
          turns depth text (found.map Expression.link) rest
  | .application tree => ∀ depth entries start, room = roomAt limit depth →
      skip start = skip text → start.length < turns → start.length ≤ entries → skip rest = rest ∧
        (application (typeUpTo limit) (inside limit entries)).Takes turns depth start tree rest
  | .atoms trees => ∀ depth entries more, room = roomAt limit depth → text.length < turns →
      text.length ≤ entries → text.length < more → skip text = text → skip rest = rest ∧
        (repeated (atom (typeUpTo limit) (inside limit entries)) more).Takes turns depth text trees
          rest
  | .atom tree => ∀ depth entries start, room = roomAt limit depth → skip start = skip text →
      start.length < turns → start.length ≤ entries → skip rest = rest ∧
        (atom (typeUpTo limit) (inside limit entries)).Takes turns depth start tree rest
  | .core tree => ∀ depth entries, room = roomAt limit depth → text.length < turns →
      text.length ≤ entries →
        (core (typeUpTo limit) (inside limit entries)).Takes turns depth text tree rest
  | .items trees => ∀ depth entries, Enters (roomAt limit depth) room → text.length < turns →
      text.length < entries → ((interleaved (inside limit entries) (symbol ",") true).map
        (List.filterMap Interleaved.item?)).Takes turns depth text trees (.mark ']' :: rest)
  | .others trees => ∀ depth entries more, Enters (roomAt limit depth) room →
      text.length < turns → text.length < entries → text.length < more →
        ((followers (inside limit entries) (symbol ",") more).map
          (List.filterMap Interleaved.item?)).Takes turns depth text trees (.mark ']' :: rest)
  | .parameterType declared => ∀ depth, room = roomAt limit depth → text.length < turns →
      (parameterType (typeUpTo limit)).Takes turns depth text declared rest
  | .type tree => ∀ depth entries, room = roomAt limit depth → text.length < turns →
      text.length < entries →
        (entering (typeStep limit) entries).Takes turns depth text tree rest
  | .typeAtom tree => ∀ depth entries, room = roomAt limit depth → text.length < turns →
      text.length ≤ entries →
        (typeAtom (bounded limit (entering (typeStep limit) entries))).Takes turns depth text tree
          rest

/-- Whatever is derived is taken. -/
theorem completed {room : Room} {phrase : Phrase} (derives : Derives room phrase text rest) :
    Completed limit turns room phrase text rest := by
  induction derives with
  | @expression room first found text middle rest operand others first_ih others_ih =>
      intro depth entries same enough few
      obtain _ | entries := entries
      · omega
      have shorter := operand.length_le
      have last := others.length_le
      have trimmed := length_skip_le text
      obtain ⟨middle_skipped, takes⟩ :=
        first_ih depth entries (skip text) same (skip_skip text) (by omega) (by omega)
      obtain ⟨skipped, takes_others⟩ :=
        others_ih depth entries turns same (by omega) (by omega) (by omega) middle_skipped
      have whole : (expressionStep limit (entering (expressionStep limit) entries)).Takes turns
          depth text (first.chain found) rest :=
        takes_expressionRule enough (takes_chain takes takes_others) skipped (by omega)
      exact ⟨skipped, whole⟩
  | stop none_left =>
      intro depth entries more same enough few turn skipped
      obtain _ | more := more
      · omega
      exact ⟨skipped, .links_nil (refuses_infixOperator (by omega) none_left) more⟩
  | @link room symbol operand found text behind middle rest operator first others first_ih
      others_ih =>
      intro depth entries more same enough few turn skipped
      obtain _ | more := more
      · omega
      have shorter := length_of_operator operator
      have first_shorter := first.length_le
      obtain ⟨middle_skipped, takes⟩ :=
        first_ih depth entries behind same rfl (by omega) (by omega)
      obtain ⟨last, takes_others⟩ :=
        others_ih depth entries more same (by omega) (by omega) (by omega) middle_skipped
      have comes : infixOperator.Takes turns depth text (joint symbol, .operator symbol) behind :=
        takes_infixOperator (by omega) operator
      exact ⟨last, .links_cons comes takes takes_others⟩
  | @application room first trees text middle rest operand others first_ih others_ih =>
      intro depth entries start same skips enough few
      obtain ⟨middle_skipped, takes⟩ := first_ih depth entries start same skips enough few
      have shorter := (Derives.atom_of_skip_eq skips operand).length_le
      obtain ⟨last, takes_others⟩ :=
        others_ih depth entries turns same (by omega) (by omega) (by omega) middle_skipped
      exact ⟨last, takes_application takes takes_others⟩
  | done ends =>
      intro depth entries more same enough few turn skipped
      obtain _ | more := more
      · omega
      exact ⟨skipped, .repeated_nil (refuses_atom enough (by rw [skipped]; exact ends)) more⟩
  | more first others first_ih others_ih =>
      intro depth entries more same enough few turn skipped
      obtain _ | more := more
      · omega
      have shorter := first.length_lt_atom
      obtain ⟨middle_skipped, takes⟩ := first_ih depth entries _ same rfl enough few
      obtain ⟨last, takes_others⟩ :=
        others_ih depth entries more same (by omega) (by omega) (by omega) middle_skipped
      exact ⟨last, .repeated_cons takes shorter takes_others⟩
  | @atom room tree text rest inner ih =>
      intro depth entries start same skips enough few
      have shorter := inner.length_lt_core
      have trimmed := length_skip_le start
      rw [← skips] at ih shorter
      have takes := ih depth entries same (by omega) (by omega)
      exact ⟨skip_skip rest, takes_padded enough takes (by omega)⟩
  | number finite => exact fun _ _ _ _ _ => takes_number_core _ _
  | string free => exact fun _ _ _ _ _ => takes_string_core _ _
  | constant member => exact fun _ _ _ _ _ => takes_constant_core member _
  | name is_name => exact fun _ _ _ _ _ => takes_name is_name _
  | @operatorName room inner symbol text rest enters run =>
      rintro depth entries rfl enough few
      rw [List.length_cons] at enough few
      obtain _ | entries := entries
      · omega
      have ends := startsAtom_of_run run
      have refuses : (expressionStep limit (entering (expressionStep limit) entries)).Refuses turns
          (deeper limit depth) text :=
        refuses_expressionRule (by omega) (by rw [skip_of_run run]; exact ends)
      exact takes_operatorName (by omega) run (refuses_bounded enters refuses)
  | group enters _ ih =>
      rintro depth entries rfl enough few
      rw [List.length_cons] at enough few
      obtain ⟨_, takes⟩ := ih _ entries (room_of_enters enters) (by omega) few
      exact takes_group (takes_bounded enters takes)
  | @list room inner trees text rest enters _ ih =>
      rintro depth entries rfl enough few
      rw [List.length_cons] at enough few
      have trimmed := length_skip_le text
      exact takes_list (by omega) (ih depth entries enters (by omega) (by omega))
  | @noItems room rest =>
      intro depth entries enters enough few
      obtain _ | entries := entries
      · omega
      have refuses : (expressionStep limit (entering (expressionStep limit) entries)).Refuses turns
          (deeper limit depth) (.mark ']' :: rest) := refuses_expressionRule enough rfl
      exact .interleaved_nil (refuses_bounded enters refuses)
  | @items room first trees text middle rest one others first_ih others_ih =>
      intro depth entries enters enough few
      have shorter := one.length_le
      obtain ⟨_, takes⟩ := first_ih _ entries (room_of_enters enters) enough few
      have takes_others := others_ih depth entries turns enters (by omega) (by omega) (by omega)
      exact .interleaved_cons (takes_bounded enters takes) takes_others
  | noOthers =>
      intro depth entries more enters enough few turn
      obtain _ | more := more
      · omega
      exact .followers_nil (refuses_symbol (c := ',') (by simp [Glyph.isMark])) more
  | @others room first trees text middle rest one others first_ih others_ih =>
      intro depth entries more enters enough few turn
      rw [List.length_cons] at enough few turn
      obtain _ | more := more
      · omega
      have shorter := one.length_le
      obtain ⟨_, takes⟩ := first_ih _ entries (room_of_enters enters) (by omega) (by omega)
      have takes_others := others_ih depth entries more enters (by omega) (by omega) (by omega)
      exact .followers_cons (passes_symbol ',' text) (takes_bounded enters takes) takes_others
  | @letIn room inner name bound body text afterName afterSign afterBound rest enters is_name named
      equals value _ bound_ih body_ih =>
      rintro depth entries rfl enough few
      rw [List.length_cons] at enough few
      have name_shorter := length_of_skip named
      have sign_shorter := length_of_skip equals
      have bound_shorter := value.length_le
      rw [List.length_cons] at bound_shorter
      have room_eq := room_of_enters enters
      obtain ⟨_, takes_bound⟩ := bound_ih _ entries room_eq (by omega) (by omega)
      obtain ⟨_, takes_body⟩ := body_ih _ entries room_eq (by omega) (by omega)
      exact takes_let (by omega) is_name named equals (takes_bounded enters takes_bound)
        (takes_bounded enters takes_body)
  | @function room inner name declared body text afterName afterArrow rest enters is_name named
      typed _ type_ih body_ih =>
      rintro depth entries rfl enough few
      rw [List.length_cons] at enough few
      have name_shorter := length_of_skip named
      have trimmed := length_skip_le afterName
      have type_shorter := typed.length_le
      simp only [List.length_cons] at type_shorter
      have takes_type := type_ih depth rfl (by omega)
      obtain ⟨_, takes_body⟩ :=
        body_ih _ entries (room_of_enters enters) (by omega) (by omega)
      exact takes_function (by omega) is_name named takes_type (takes_bounded enters takes_body)
  | undeclared => exact fun _ _ _ => takes_undeclared _
  | @declared room tree text rest inner ih =>
      intro depth same enough
      rw [List.length_cons] at enough
      have shorter := inner.length_le
      rw [List.length_cons] at shorter
      exact takes_parameterType (by omega) (ih depth turns same (by omega) (by omega))
  | type _ ih =>
      intro depth entries same enough few
      obtain _ | entries := entries
      · omega
      have whole := takes_type (ih depth entries same enough (by omega))
      exact whole
  | @arrow room inner parameter result text afterArrow rest enters first _ first_ih result_ih =>
      rintro depth entries rfl enough few
      obtain _ | entries := entries
      · omega
      have shorter := first.length_le
      simp only [List.length_cons] at shorter
      have takes_result := result_ih _ entries (room_of_enters enters) (by omega) (by omega)
      have whole := takes_arrow (first_ih depth entries rfl enough (by omega))
        (takes_bounded enters takes_result)
      exact whole
  | typeName _ named => exact fun _ _ _ enough _ => takes_typeName enough named
  | @typeGroup room inner tree text inside rest enters opens derives ih =>
      rintro depth entries rfl enough few
      have inside_shorter := length_of_skip opens
      have shorter := derives.length_le
      rw [List.length_cons] at shorter
      have takes := ih _ entries (room_of_enters enters) (by omega) (by omega)
      exact takes_typeGroup enough opens (takes_bounded enters takes) (by omega)

theorem passes_endOfInput : endOfInput.Passes turns depth [] [] := by
  intro tokens _ spelt
  obtain rfl : tokens = [] := List.map_eq_nil_iff.1 spelt
  exact ⟨(), [], read_endOfInput turns depth [], rfl⟩

/-- A program that is derived is taken. -/
theorem takes_program {tree : Expression} (derives : Derives limit (.expression tree) text [])
    (enough : text.length < turns) : (programUpTo limit).Takes turns 0 text tree [] := by
  obtain ⟨_, takes⟩ := completed derives 0 turns (roomAt_zero limit).symm enough enough
  have whole : (expressionUpTo limit).Takes turns 0 text tree [] := takes
  exact whole.keepLeft passes_endOfInput

end Curried.Grammar
