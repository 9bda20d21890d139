import Curried.Grammar.Program
import Curried.Proofs.Grammar.Takes

/-!
# What the smallest pieces of the grammar take

White space, symbols, words and runs of operator symbols, each with what it takes, what it refuses
and what it can only have taken.
-/

namespace Curried

/-- A run of operator symbols in front of a text, and what is behind it. -/
def run? (text : List Glyph) : Option (String × List Glyph) :=
  match text.takeWhile Glyph.isOperator with
  | [] => none
  | run => some (String.ofList (run.map Glyph.symbol), text.dropWhile Glyph.isOperator)

/-- An operator between operands in front of a text, and what is behind it. -/
def operator? (text : List Glyph) : Option (String × List Glyph) :=
  (run? text).filter fun (symbol, _) => symbol != "="

/-- How an operator joins its operands. -/
def Grammar.joint (symbol : String) : Joint Expression :=
  ⟨Grammar.operatorPrecedence symbol, Expression.binary⟩

namespace Grammar

open Curried.Parser

variable {α : Type} {turns depth : Nat} {text middle rest : List Glyph} {tokens behind : List Token}

instance (spelling : String) : Blind (symbol spelling) :=
  inferInstanceAs (Blind (Parser.tokenValue _ _))

instance (word : String) : Blind (keyword word) := inferInstanceAs (Blind (Parser.tokenValue _ _))

theorem sees_symbol (c : Char) : (symbol (String.singleton c)).Sees (Glyph.isMark c) :=
  .of_takeNext (read_tokenValue _ _) fun _ standard => standard.mark_test c

theorem sees_keyword (word : String) : (keyword word).Sees (Glyph.isWord word) :=
  .of_takeNext (read_tokenValue _ _) fun _ standard => standard.word_test word

theorem eq_of_isMark {glyph : Glyph} {c : Char} (mark : glyph.isMark c = true) :
    glyph = .mark c := by
  cases glyph with
  | mark other => simpa [Glyph.isMark] using mark
  | _ => simp [Glyph.isMark] at mark

theorem eq_of_isWord {glyph : Glyph} {word : String} (same : glyph.isWord word = true) :
    glyph = .word word := by
  cases glyph with
  | word other => simpa [Glyph.isWord] using same
  | _ => simp [Glyph.isWord] at same

/-! ### Symbols and words -/

theorem passes_symbol (c : Char) (rest : List Glyph) :
    (symbol (String.singleton c)).Passes turns depth (.mark c :: rest) rest :=
  (sees_symbol c).passes (beq_self_eq_true c)

theorem refuses_symbol {c : Char} (other : ∀ glyph ∈ text.head?, glyph.isMark c = false) :
    (symbol (String.singleton c)).Refuses turns depth text :=
  (sees_symbol c).refuses other

theorem spelt_of_symbol {c : Char} {token : Token} (standard : Standard tokens)
    (takes : (symbol (String.singleton c)).read turns depth tokens = .taken token behind) :
    glyphs tokens = .mark c :: glyphs behind := by
  obtain ⟨rfl, mark⟩ := (sees_symbol c).spelt_of_taken standard takes
  rw [glyphs_cons, eq_of_isMark mark]

theorem passes_keyword (word : String) (rest : List Glyph) :
    (keyword word).Passes turns depth (.word word :: rest) rest :=
  (sees_keyword word).passes (beq_self_eq_true word)

theorem refuses_keyword {word : String} (other : ∀ glyph ∈ text.head?, glyph.isWord word = false) :
    (keyword word).Refuses turns depth text :=
  (sees_keyword word).refuses other

theorem spelt_of_keyword {word : String} {token : Token} (standard : Standard tokens)
    (takes : (keyword word).read turns depth tokens = .taken token behind) :
    glyphs tokens = .word word :: glyphs behind := by
  obtain ⟨rfl, same⟩ := (sees_keyword word).spelt_of_taken standard takes
  rw [glyphs_cons, eq_of_isWord same]

/-! ### White space -/

/-- A choice between two tests of the next token is one test. -/
theorem orElse_takeNext (first second : Token → Bool) (tokens : List Token) :
    (takeNext first tokens).orElse (takeNext second tokens) =
      takeNext (fun token => first token || second token) tokens := by
  cases tokens with
  | nil => rfl
  | cons token tokens =>
      cases fits : first token with
      | true => simp [takeNext, fits]
      | false => simp [takeNext, fits]

theorem read_blank (tokens : List Token) :
    (choice [token Kind.space, token Kind.lineEnd, token Kind.otherBlank]).read turns depth tokens =
      takeNext (fun token => token.kind == Kind.space ||
        (token.kind == Kind.lineEnd || token.kind == Kind.otherBlank)) tokens := by
  have last : (takeNext (fun token => token.kind == Kind.otherBlank) tokens).orElse .refused =
      takeNext (fun token => token.kind == Kind.otherBlank) tokens := by
    cases takeNext (fun token => token.kind == Kind.otherBlank) tokens <;> rfl
  rw [read_choice]
  simp only [readFirst_cons, readFirst_nil, read_token]
  rw [last, orElse_takeNext, orElse_takeNext]

instance : Blind whitespace := inferInstanceAs (Blind (Parser.map _ _))

/-- Tokens without white space in front. -/
theorem glyphs_skip (standard : Standard tokens) :
    glyphs (tokens.dropWhile fun token => token.kind == Kind.space ||
      (token.kind == Kind.lineEnd || token.kind == Kind.otherBlank)) = skip (glyphs tokens) :=
  glyphs_dropWhile fun token member => (standard token member).blank_test

theorem passes_whitespace (enough : text.length < turns) :
    whitespace.Passes turns depth text (skip text) := by
  intro tokens standard spelt
  subst spelt
  rw [length_glyphs] at enough
  refine ⟨(), _, ?_, glyphs_skip standard⟩
  rw [whitespace, read_map, read_many, readRepeated_next read_blank enough, Verdict.map_taken]

theorem spelt_of_whitespace {value : Unit} (standard : Standard tokens)
    (takes : whitespace.read turns depth tokens = .taken value behind) :
    glyphs behind = skip (glyphs tokens) := by
  rw [whitespace, read_map, read_many] at takes
  obtain ⟨_, reads, _⟩ := Verdict.taken_of_map takes
  obtain ⟨_, rfl⟩ := eq_of_readRepeated_next read_blank reads
  exact glyphs_skip standard

section
variable {parser : Parser α} [Blind parser] {value : α}

instance : Blind (padded parser) :=
  inferInstanceAs (Blind ((whitespace.keepRight parser).keepLeft whitespace))

theorem takes_padded (enough : text.length < turns)
    (takes : parser.Takes turns depth (skip text) value middle)
    (shorter : middle.length ≤ text.length) :
    (padded parser).Takes turns depth text value (skip middle) :=
  .keepLeft (.keepRight (passes_whitespace enough) takes)
    (passes_whitespace (Nat.lt_of_le_of_lt shorter enough))

theorem refuses_padded (enough : text.length < turns)
    (refuses : parser.Refuses turns depth (skip text)) :
    (padded parser).Refuses turns depth text :=
  .keepLeft (.keepRight_of_second (passes_whitespace enough) refuses)

theorem taken_of_padded (standard : Standard tokens)
    (takes : (padded parser).read turns depth tokens = .taken value behind) :
    ∃ first last, parser.read turns depth first = .taken value last ∧ Standard first ∧
      behind <:+ last ∧ glyphs first = skip (glyphs tokens) ∧
        glyphs behind = skip (glyphs last) := by
  rw [padded, read_keepLeft, read_keepRight] at takes
  obtain ⟨_, last, reads, closes⟩ := Verdict.taken_of_andThen takes
  obtain ⟨_, first, opens, inner⟩ := Verdict.taken_of_andThen reads
  obtain ⟨_, skips, rfl⟩ := Verdict.taken_of_map closes
  have first_standard := standard.of_suffix (Blind.suffix opens)
  have last_standard := first_standard.of_suffix (Blind.suffix inner)
  exact ⟨first, last, inner, first_standard, Blind.suffix skips,
    spelt_of_whitespace standard opens, spelt_of_whitespace last_standard skips⟩

theorem taken_of_group (opening closing : Char) (standard : Standard tokens)
    (takes : (group parser (symbol (String.singleton opening))
      (symbol (String.singleton closing))).read turns depth tokens = .taken value behind) :
    ∃ first last, parser.read turns depth first = .taken value last ∧ Standard first ∧
      glyphs tokens = .mark opening :: glyphs first ∧
        glyphs last = .mark closing :: glyphs behind := by
  rw [read_group] at takes
  obtain ⟨_, first, opens, goes⟩ := Verdict.taken_of_andThen takes
  obtain ⟨_, last, inner, closes⟩ := Verdict.taken_of_andThen goes
  obtain ⟨_, closed, rfl⟩ := Verdict.taken_of_map closes
  have first_standard := standard.of_suffix (Blind.suffix opens)
  have last_standard := first_standard.of_suffix (Blind.suffix inner)
  exact ⟨first, last, inner, first_standard, spelt_of_symbol standard opens,
    spelt_of_symbol last_standard closed⟩

end

/-! ### Names -/

/-- Whether a glyph is a word. -/
def isAnyWord : Glyph → Bool
  | .word _ => true
  | _ => false

theorem sees_identifier : (token Kind.identifier).Sees isAnyWord := by
  refine .of_takeNext (read_token _) fun token standard => ?_
  cases standard with
  | blank kind => rw [Token.glyph_of_blank kind, Token.Standard.kind_of_blank kind (by decide)]; rfl
  | number kind => rw [Token.glyph_of_number kind, kind]; rfl
  | string kind => rw [Token.glyph_of_string kind, kind]; rfl
  | word kind => rw [Token.glyph_of_word kind, kind]; rfl
  | mark symbol kind text => rw [Token.glyph_of_mark kind text, kind]; rfl

/-- What a token with the glyph of a word holds. -/
theorem word_of_glyph {token : Token} (standard : token.Standard) {word : String}
    (glyph : token.glyph = .word word) : token.text = word ∧ IsWord word := by
  cases standard with
  | blank kind => rw [Token.glyph_of_blank kind] at glyph; cases glyph
  | number kind => rw [Token.glyph_of_number kind] at glyph; cases glyph
  | string kind => rw [Token.glyph_of_string kind] at glyph; cases glyph
  | word kind value word => rw [Token.glyph_of_word kind] at glyph; cases glyph; exact ⟨rfl, word⟩
  | mark symbol kind text => rw [Token.glyph_of_mark kind text] at glyph; cases glyph

/-- Any word, with what is made of its text. -/
theorem takes_identifier (f : String → α) (word : String) (rest : List Glyph) :
    ((token Kind.identifier).map fun token => f token.text).Takes turns depth (.word word :: rest)
      (f word) rest := by
  intro tokens standard spelt
  obtain ⟨token, behind, rfl, glyph, rfl⟩ := List.map_eq_cons_iff.1 spelt
  refine ⟨behind, ?_, rfl⟩
  obtain ⟨rfl, _⟩ := word_of_glyph standard.head glyph
  rw [read_map, sees_identifier turns depth _ standard]
  simp [takeNext, glyph, isAnyWord]

theorem spelt_of_identifier {f : String → α} {value : α} (standard : Standard tokens)
    (takes : ((token Kind.identifier).map fun token => f token.text).read turns depth tokens =
      .taken value behind) :
    ∃ word, IsWord word ∧ glyphs tokens = .word word :: glyphs behind ∧ value = f word := by
  rw [read_map] at takes
  obtain ⟨token, reads, rfl⟩ := Verdict.taken_of_map takes
  obtain ⟨rfl, seen⟩ := sees_identifier.spelt_of_taken standard reads
  cases glyph : token.glyph with
  | word word =>
      obtain ⟨rfl, is_word⟩ := word_of_glyph standard.head glyph
      exact ⟨token.text, is_word, by rw [glyphs_cons, glyph], rfl⟩
  | _ => simp [glyph, isAnyWord] at seen

theorem refuses_identifier (f : String → α)
    (other : ∀ glyph ∈ text.head?, isAnyWord glyph = false) :
    ((token Kind.identifier).map fun token => f token.text).Refuses turns depth text :=
  (sees_identifier.refuses other).map _

instance : Blind bareIdentifier := inferInstanceAs (Blind (Parser.verify _ _ _))

theorem takes_bareIdentifier {name : String} (free : name ∉ keywords) (rest : List Glyph) :
    bareIdentifier.Takes turns depth (.word name :: rest) name rest := by
  refine (takes_identifier id name rest).filterMap ?_ Kind.identifier
  simp [free]

theorem refuses_bareIdentifier
    (other : ∀ glyph ∈ text.head?, ∀ name, glyph = .word name → name ∈ keywords) :
    bareIdentifier.Refuses turns depth text := by
  intro tokens standard spelt
  subst spelt
  have whole : ((token Kind.identifier).map Token.text).read turns depth tokens =
    (takeNext (fun token => isAnyWord token.glyph) tokens).map Token.text := by
    rw [read_map, sees_identifier turns depth tokens standard]
  rw [bareIdentifier, read_verify, whole]
  cases tokens with
  | nil => rfl
  | cons token behind =>
      cases glyph : token.glyph with
      | word name =>
          have keyword : name ∈ keywords := other token.glyph rfl name glyph
          obtain ⟨rfl, _⟩ := word_of_glyph standard.head glyph
          simp [takeNext, glyph, isAnyWord, keepSome, keyword]
      | _ => simp [takeNext, glyph, isAnyWord, keepSome]

theorem spelt_of_bareIdentifier {name : String} (standard : Standard tokens)
    (takes : bareIdentifier.read turns depth tokens = .taken name behind) :
    IsName name ∧ glyphs tokens = .word name :: glyphs behind := by
  rw [bareIdentifier, read_verify] at takes
  obtain ⟨inner, reads, kept⟩ := taken_of_keepSome takes
  obtain ⟨word, is_word, spelt, same⟩ : ∃ word, IsWord word ∧
      glyphs tokens = .word word :: glyphs behind ∧ inner = id word :=
    spelt_of_identifier standard reads
  subst same
  split at kept
  · rename_i free
    obtain rfl := Option.some.inj kept
    exact ⟨⟨is_word, by simpa using free⟩, spelt⟩
  · simp at kept

/-! ### Runs of operator symbols -/

/-- The test for one operator symbol. -/
def operatorTest (token : Token) : Bool :=
  token.kind == Kind.symbol && token.text.toList.all operatorSymbols.contains

theorem read_operatorSymbol (tokens : List Token) :
    ((token Kind.symbol).verify (fun token => token.text.toList.all operatorSymbols.contains)
      "operator").read turns depth tokens = takeNext operatorTest tokens := by
  rw [read_verify, read_token]
  cases tokens with
  | nil => rfl
  | cons token tokens =>
      cases kind : token.kind == Kind.symbol with
      | true => simp [takeNext, keepSome, operatorTest, kind]; split <;> simp_all
      | false => simp [takeNext, keepSome, operatorTest, kind]

instance : Blind operatorRun := inferInstanceAs (Blind (Parser.map _ _))

theorem read_operatorRun (enough : tokens.length ≤ turns) :
    operatorRun.read turns depth tokens =
      if tokens.takeWhile operatorTest = [] then .refused
      else .taken (String.join ((tokens.takeWhile operatorTest).map Token.text))
        (tokens.dropWhile operatorTest) := by
  rw [operatorRun, read_map, read_manyOne, read_operatorSymbol]
  cases tokens with
  | nil => rfl
  | cons token tokens =>
      cases fits : operatorTest token with
      | true =>
          simp only [takeNext, fits, if_true, Verdict.andThen_taken, List.length_cons,
            Nat.ne_of_lt (Nat.lt_succ_self _), if_false]
          rw [read_many, readRepeated_next read_operatorSymbol enough]
          simp [fits]
      | false => simp [takeNext, fits]

/-- Whatever the bound on turns, an operator run is what the run of the glyphs says. -/
theorem taken_of_operatorRun {symbol : String}
    (takes : operatorRun.read turns depth tokens = .taken symbol behind) :
    tokens.takeWhile operatorTest ≠ [] ∧
      symbol = String.join ((tokens.takeWhile operatorTest).map Token.text) ∧
        behind = tokens.dropWhile operatorTest := by
  rw [operatorRun, read_map, read_manyOne, read_operatorSymbol] at takes
  cases tokens with
  | nil => simp [takeNext] at takes
  | cons token tokens =>
      cases fits : operatorTest token with
      | true =>
          simp only [takeNext, fits, if_true, Verdict.andThen_taken, List.length_cons,
            Nat.ne_of_lt (Nat.lt_succ_self _), if_false] at takes
          obtain ⟨all, reads, rfl⟩ := Verdict.taken_of_map takes
          obtain ⟨others, reads_others, rfl⟩ := Verdict.taken_of_map reads
          rw [read_many] at reads_others
          obtain ⟨rfl, rfl⟩ := eq_of_readRepeated_next read_operatorSymbol reads_others
          simp [fits]
      | false => simp [takeNext, fits] at takes

/-- The texts of operator symbols are the symbols of their glyphs. -/
theorem join_text (standard : Standard tokens) :
    String.join ((tokens.takeWhile operatorTest).map Token.text) =
      String.ofList (((glyphs tokens).takeWhile Glyph.isOperator).map Glyph.symbol) := by
  induction tokens with
  | nil => rfl
  | cons token tokens ih =>
      have rest := ih standard.tail
      have same : operatorTest token = token.glyph.isOperator := standard.head.operator_test
      cases fits : token.glyph.isOperator with
      | false => simp [same, fits]
      | true =>
          have text : token.text = String.singleton token.glyph.symbol := by
            cases standard.head with
            | blank kind => rw [Token.glyph_of_blank kind] at fits; cases fits
            | number kind => rw [Token.glyph_of_number kind] at fits; cases fits
            | string kind => rw [Token.glyph_of_string kind] at fits; cases fits
            | word kind => rw [Token.glyph_of_word kind] at fits; cases fits
            | mark symbol kind text => rw [Token.glyph_of_mark kind text]; exact text
          simp only [glyphs_cons, List.takeWhile_cons, same, fits, if_true, List.map_cons,
            String.join_cons, rest, text]
          rw [String.singleton_eq_ofList, ← String.ofList_append, List.singleton_append]

theorem run_of_takeWhile (standard : Standard tokens)
    (nonempty : tokens.takeWhile operatorTest ≠ []) :
    run? (glyphs tokens) = some (String.join ((tokens.takeWhile operatorTest).map Token.text),
      glyphs (tokens.dropWhile operatorTest)) := by
  have same : ∀ token ∈ tokens, operatorTest token = token.glyph.isOperator :=
    fun token member => (standard token member).operator_test
  rw [join_text standard, glyphs_dropWhile same, run?]
  have some_left : (glyphs tokens).takeWhile Glyph.isOperator ≠ [] := by
    rw [← glyphs_takeWhile same]
    simpa [glyphs] using nonempty
  split
  · rename_i none_left
    exact absurd none_left some_left
  · rfl

theorem run_eq_none_iff (standard : Standard tokens) :
    run? (glyphs tokens) = none ↔ tokens.takeWhile operatorTest = [] := by
  refine ⟨fun none_left => ?_, fun empty => ?_⟩
  · apply Classical.byContradiction
    intro nonempty
    rw [run_of_takeWhile standard nonempty] at none_left
    cases none_left
  · have same : ∀ token ∈ tokens, operatorTest token = token.glyph.isOperator :=
      fun token member => (standard token member).operator_test
    have none_left : (glyphs tokens).takeWhile Glyph.isOperator = [] := by
      rw [← glyphs_takeWhile same, empty, glyphs_nil]
    rw [run?, none_left]

theorem takes_operatorRun {symbol : String} (enough : text.length ≤ turns)
    (run : run? text = some (symbol, rest)) :
    operatorRun.Takes turns depth text symbol rest := by
  intro tokens standard spelt
  subst spelt
  rw [length_glyphs] at enough
  have nonempty : tokens.takeWhile operatorTest ≠ [] := by
    intro empty
    rw [(run_eq_none_iff standard).2 empty] at run
    cases run
  rw [run_of_takeWhile standard nonempty] at run
  cases run
  exact ⟨_, by rw [read_operatorRun enough, if_neg nonempty], rfl⟩

theorem refuses_operatorRun (enough : text.length ≤ turns) (run : run? text = none) :
    operatorRun.Refuses turns depth text := by
  intro tokens standard spelt
  subst spelt
  rw [length_glyphs] at enough
  rw [read_operatorRun enough, if_pos ((run_eq_none_iff standard).1 run)]

theorem run_of_operatorRun {symbol : String} (standard : Standard tokens)
    (takes : operatorRun.read turns depth tokens = .taken symbol behind) :
    run? (glyphs tokens) = some (symbol, glyphs behind) := by
  obtain ⟨nonempty, rfl, rfl⟩ := taken_of_operatorRun takes
  exact run_of_takeWhile standard nonempty

/-! ### Operators between operands -/

instance (precedence : Nat) : Blind (infixIdentifier precedence) :=
  inferInstanceAs (Blind (Parser.map _ _))

/-- The operators of one precedence, as an alternative of the choice between all. -/
def alternative (precedence : Nat) : Parser (Joint Expression × Expression) :=
  (infixIdentifier precedence).map fun value => ((operatorsOf precedence).toJoint, value)

/-- An operator of any precedence, with the way it joins its operands. -/
def infixOperator : Parser (Joint Expression × Expression) :=
  operatorOf ([1, 2, 3, 4].map operatorsOf)

theorem infixOperator_eq :
    infixOperator = choice [alternative 1, alternative 2, alternative 3, alternative 4] := rfl

instance (precedence : Nat) : Blind (alternative precedence) :=
  inferInstanceAs (Blind (Parser.map _ (infixIdentifier precedence)))

instance : Blind infixOperator :=
  inferInstanceAs (Blind (choice [alternative 1, alternative 2, alternative 3, alternative 4]))

theorem operatorPrecedence_mem (symbol : String) : operatorPrecedence symbol ∈ [1, 2, 3, 4] := by
  unfold operatorPrecedence
  split
  · simp
  · split
    · simp
    · split <;> simp

theorem read_alternative (precedence : Nat) (tokens : List Token) :
    (alternative precedence).read turns depth tokens =
      keepSome (fun symbol =>
        if symbol != "=" && operatorPrecedence symbol == precedence
        then some (joint symbol, .operator symbol) else none)
        (operatorRun.read turns depth tokens) := by
  rw [alternative, read_map, infixIdentifier, read_map, read_noted, read_verify]
  cases operatorRun.read turns depth tokens with
  | taken symbol behind =>
      cases fits : symbol != "=" && operatorPrecedence symbol == precedence with
      | true =>
          have same : operatorPrecedence symbol = precedence := by
            simp only [Bool.and_eq_true, beq_iff_eq] at fits
            exact fits.2
          simp only [keepSome, fits, if_true, Verdict.map_taken]
          subst same
          rfl
      | false => simp only [keepSome, fits, Bool.false_eq_true, if_false, Verdict.map_refused]
  | refused => rfl
  | stopped => rfl

/-- The choice between the precedences decides by the precedence of the run. -/
theorem read_infixOperator (tokens : List Token) :
    infixOperator.read turns depth tokens =
      keepSome (fun symbol => if symbol != "=" then some (joint symbol, .operator symbol) else none)
        (operatorRun.read turns depth tokens) := by
  rw [infixOperator_eq, read_choice]
  simp only [readFirst_cons, readFirst_nil, read_alternative]
  cases operatorRun.read turns depth tokens with
  | taken symbol behind =>
      have among := operatorPrecedence_mem symbol
      simp only [List.mem_cons, List.not_mem_nil, or_false] at among
      cases lone : symbol != "=" with
      | false => simp [keepSome, lone]
      | true => rcases among with same | same | same | same <;> simp [keepSome, lone, same]
  | refused => rfl
  | stopped => rfl

theorem takes_infixOperator {symbol : String} (enough : text.length ≤ turns)
    (operator : operator? text = some (symbol, rest)) :
    infixOperator.Takes turns depth text (joint symbol, .operator symbol) rest := by
  obtain ⟨run, other⟩ := Option.filter_eq_some_iff.1 operator
  intro tokens standard spelt
  obtain ⟨behind, reads, same⟩ := takes_operatorRun enough run tokens standard spelt
  exact ⟨behind, by rw [read_infixOperator, reads, keepSome, if_pos other], same⟩

theorem refuses_infixOperator (enough : text.length ≤ turns) (operator : operator? text = none) :
    infixOperator.Refuses turns depth text := by
  intro tokens standard spelt
  rw [read_infixOperator]
  cases run : run? text with
  | none => rw [refuses_operatorRun enough run tokens standard spelt, keepSome]
  | some found =>
      obtain ⟨symbol, behind⟩ := found
      have takes : operatorRun.Takes turns depth text symbol behind := takes_operatorRun enough run
      obtain ⟨left, reads, _⟩ := takes tokens standard spelt
      have lone : (symbol != "=") = false := by simpa [operator?, run] using operator
      simp only [reads, keepSome, lone, Bool.false_eq_true, if_false]

theorem operator_of_infixOperator {joined : Joint Expression} {sign : Expression}
    (standard : Standard tokens)
    (takes : infixOperator.read turns depth tokens = .taken (joined, sign) behind) :
    ∃ symbol, operator? (glyphs tokens) = some (symbol, glyphs behind) ∧
      joined = joint symbol ∧ sign = .operator symbol := by
  rw [read_infixOperator] at takes
  obtain ⟨symbol, reads, kept⟩ := taken_of_keepSome takes
  have run := run_of_operatorRun standard reads
  split at kept
  · rename_i other
    cases kept
    exact ⟨symbol, Option.filter_eq_some_iff.2 ⟨run, other⟩, rfl, rfl⟩
  · simp at kept

/-- Where no operator is read, there is none. -/
theorem operator_of_refused (standard : Standard tokens)
    (refuses : infixOperator.read turns depth tokens = .refused) :
    operator? (glyphs tokens) = none := by
  rw [read_infixOperator] at refuses
  cases reads : operatorRun.read turns depth tokens with
  | taken symbol behind =>
      have run := run_of_operatorRun standard reads
      cases lone : symbol != "=" with
      | true => simp [reads, keepSome, lone] at refuses
      | false => simpa [operator?, run] using lone
  | refused =>
      have none_left : run? (glyphs tokens) = none := by
        refine (run_eq_none_iff standard).2 ?_
        rw [operatorRun, read_map, read_manyOne, read_operatorSymbol] at reads
        cases tokens with
        | nil => rfl
        | cons first others =>
            cases fits : operatorTest first with
            | false => simp [fits]
            | true =>
                have goes := readRepeated_ne_refused
                  ((token Kind.symbol).verify
                    (fun token => token.text.toList.all operatorSymbols.contains) "operator")
                  turns depth turns others
                simp only [takeNext, fits, if_true, Verdict.andThen_taken, List.length_cons,
                  Nat.ne_of_lt (Nat.lt_succ_self _), if_false, read_many] at reads
                revert reads goes
                cases readRepeated ((token Kind.symbol).verify
                  (fun token => token.text.toList.all operatorSymbols.contains) "operator")
                  turns depth turns others <;> simp
      rw [operator?, none_left, Option.filter_none]
  | stopped => simp [reads, keepSome] at refuses

/-! ### Literals -/

instance : Blind number := inferInstanceAs (Blind (Parser.map _ _))

instance : Blind string := inferInstanceAs (Blind (Parser.map _ _))

instance (word : String) (value : Expression) : Blind (constant word value) :=
  inferInstanceAs (Blind (Parser.map _ _))

/-- What a token with the glyph of a number is. -/
theorem kind_of_number {token : Token} (standard : token.Standard) {value : Option Float}
    (glyph : token.glyph = .number value) :
    token.kind = Kind.number ∧ finiteNumber? token = value := by
  cases standard with
  | blank kind => rw [Token.glyph_of_blank kind] at glyph; cases glyph
  | number kind => rw [Token.glyph_of_number kind] at glyph; cases glyph; exact ⟨kind, rfl⟩
  | string kind => rw [Token.glyph_of_string kind] at glyph; cases glyph
  | word kind => rw [Token.glyph_of_word kind] at glyph; cases glyph
  | mark symbol kind text => rw [Token.glyph_of_mark kind text] at glyph; cases glyph

theorem glyph_of_kind_number {token : Token} (kind : (token.kind == Kind.number) = true) :
    token.glyph = .number (finiteNumber? token) :=
  Token.glyph_of_number (beq_iff_eq.1 kind)

theorem read_number (tokens : List Token) :
    number.read turns depth tokens =
      (keepSome finiteNumber? (takeNext (fun token => token.kind == Kind.number) tokens)).map
        .number := by
  rw [number, read_map, read_noted, read_filterMap, read_token]

theorem takes_number (value : Float) (rest : List Glyph) :
    number.Takes turns depth (.number (some value) :: rest) (.number value) rest := by
  intro tokens standard spelt
  obtain ⟨token, behind, rfl, glyph, rfl⟩ := List.map_eq_cons_iff.1 spelt
  obtain ⟨kind, finite⟩ := kind_of_number standard.head glyph
  refine ⟨behind, ?_, rfl⟩
  rw [read_number]
  simp [takeNext, kind, keepSome, finite]

theorem refuses_number (other : ∀ glyph ∈ text.head?, ∀ value, glyph ≠ .number (some value)) :
    number.Refuses turns depth text := by
  intro tokens standard spelt
  subst spelt
  rw [read_number]
  cases tokens with
  | nil => rfl
  | cons token behind =>
      cases kind : token.kind == Kind.number with
      | false => simp [takeNext, kind, keepSome]
      | true =>
          have glyph := glyph_of_kind_number kind
          cases finite : finiteNumber? token with
          | none => simp [takeNext, kind, keepSome, finite]
          | some value => exact absurd (glyph.trans (by rw [finite])) (other token.glyph rfl value)

theorem spelt_of_number {value : Expression} (standard : Standard tokens)
    (takes : number.read turns depth tokens = .taken value behind) :
    ∃ number, value = .number number ∧ number.isFinite = true ∧
      glyphs tokens = .number (some number) :: glyphs behind := by
  rw [read_number] at takes
  obtain ⟨result, reads, rfl⟩ := Verdict.taken_of_map takes
  obtain ⟨token, next, finite⟩ := taken_of_keepSome reads
  cases tokens with
  | nil => simp [takeNext] at next
  | cons first others =>
      simp only [takeNext] at next
      split at next
      · rename_i kind
        obtain ⟨rfl, rfl⟩ : first = token ∧ others = behind := by simpa using next
        have is_finite : result.isFinite = true := by
          unfold finiteNumber? at finite
          exact (Option.filter_eq_some_iff.1 finite).2
        exact ⟨result, rfl, is_finite, by rw [glyphs_cons, glyph_of_kind_number kind, finite]⟩
      · simp at next

/-- Whether a glyph is a text. -/
def isString : Glyph → Bool
  | .string _ => true
  | _ => false

theorem sees_string : (token Kind.string).Sees isString := by
  refine .of_takeNext (read_token _) fun token standard => ?_
  cases standard with
  | blank kind => rw [Token.glyph_of_blank kind, Token.Standard.kind_of_blank kind (by decide)]; rfl
  | number kind => rw [Token.glyph_of_number kind, kind]; rfl
  | string kind => rw [Token.glyph_of_string kind, kind]; rfl
  | word kind => rw [Token.glyph_of_word kind, kind]; rfl
  | mark symbol kind text => rw [Token.glyph_of_mark kind text, kind]; rfl

theorem text_of_string {token : Token} (standard : token.Standard) {content : String}
    (glyph : token.glyph = .string content) :
    token.text = content ∧ Rule.quote ∉ content.toList := by
  cases standard with
  | blank kind => rw [Token.glyph_of_blank kind] at glyph; cases glyph
  | number kind => rw [Token.glyph_of_number kind] at glyph; cases glyph
  | string kind free => rw [Token.glyph_of_string kind] at glyph; cases glyph; exact ⟨rfl, free⟩
  | word kind => rw [Token.glyph_of_word kind] at glyph; cases glyph
  | mark symbol kind text => rw [Token.glyph_of_mark kind text] at glyph; cases glyph

theorem read_string (tokens : List Token) :
    string.read turns depth tokens =
      ((token Kind.string).read turns depth tokens).map fun token => .string token.text := by
  rw [string, read_map, read_noted, read_map]
  cases (token Kind.string).read turns depth tokens <;> rfl

theorem takes_string (content : String) (rest : List Glyph) :
    string.Takes turns depth (.string content :: rest) (.string content) rest := by
  intro tokens standard spelt
  obtain ⟨token, behind, rfl, glyph, rfl⟩ := List.map_eq_cons_iff.1 spelt
  obtain ⟨text, _⟩ := text_of_string standard.head glyph
  refine ⟨behind, ?_, rfl⟩
  rw [read_string, sees_string turns depth _ standard]
  simp [takeNext, glyph, isString, text]

theorem refuses_string (other : ∀ glyph ∈ text.head?, isString glyph = false) :
    string.Refuses turns depth text := by
  intro tokens standard spelt
  rw [read_string, sees_string.refuses other tokens standard spelt, Verdict.map_refused]

theorem spelt_of_string {value : Expression} (standard : Standard tokens)
    (takes : string.read turns depth tokens = .taken value behind) :
    ∃ content, value = .string content ∧ Rule.quote ∉ content.toList ∧
      glyphs tokens = .string content :: glyphs behind := by
  rw [read_string] at takes
  obtain ⟨token, reads, rfl⟩ := Verdict.taken_of_map takes
  obtain ⟨rfl, seen⟩ := sees_string.spelt_of_taken standard reads
  cases glyph : token.glyph with
  | string content =>
      obtain ⟨rfl, free⟩ := text_of_string standard.head glyph
      exact ⟨token.text, rfl, free, by rw [glyphs_cons, glyph]⟩
  | _ => simp [glyph, isString] at seen

theorem takes_constant (word : String) (value : Expression) (rest : List Glyph) :
    (constant word value).Takes turns depth (.word word :: rest) value rest := by
  intro tokens standard spelt
  obtain ⟨token, behind, reads, same⟩ := passes_keyword word rest tokens standard spelt
  refine ⟨behind, ?_, same⟩
  rw [constant, read_map, read_noted, reads, Verdict.map_taken]

theorem refuses_constant {word : String} {value : Expression}
    (other : ∀ glyph ∈ text.head?, glyph.isWord word = false) :
    (constant word value).Refuses turns depth text :=
  ((refuses_keyword other).noted _).map _

theorem spelt_of_constant {word : String} {constant value : Expression}
    (standard : Standard tokens)
    (takes : (Grammar.constant word constant).read turns depth tokens = .taken value behind) :
    value = constant ∧ glyphs tokens = .word word :: glyphs behind := by
  rw [Grammar.constant, read_map, read_noted] at takes
  obtain ⟨token, reads, rfl⟩ := Verdict.taken_of_map takes
  exact ⟨rfl, spelt_of_keyword standard reads⟩

/-! ### The arrow -/

instance : Blind arrow := inferInstanceAs (Blind (Parser.map _ _))

theorem passes_arrow (rest : List Glyph) :
    arrow.Passes turns depth (.mark '-' :: .mark '>' :: rest) rest :=
  ((passes_symbol '-' _).pair (passes_symbol '>' rest)).map _

theorem refuses_arrow (other : ∀ glyph ∈ text.head?, glyph.isMark '-' = false) :
    arrow.Refuses turns depth text :=
  ((refuses_symbol other).pair).map _

theorem spelt_of_arrow {value : Unit} (standard : Standard tokens)
    (takes : arrow.read turns depth tokens = .taken value behind) :
    glyphs tokens = .mark '-' :: .mark '>' :: glyphs behind := by
  rw [arrow, read_map, read_pair] at takes
  obtain ⟨_, reads, _⟩ := Verdict.taken_of_map takes
  obtain ⟨_, middle, first, second⟩ := Verdict.taken_of_andThen reads
  obtain ⟨_, second, _⟩ := Verdict.taken_of_map second
  have middle_standard := standard.of_suffix (Blind.suffix first)
  rw [spelt_of_symbol (c := '-') standard first, spelt_of_symbol (c := '>') middle_standard second]

end Grammar

end Curried
