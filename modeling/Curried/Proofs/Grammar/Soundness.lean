import Curried.Proofs.Grammar.Derivation
import Curried.Proofs.Grammar.Rules

/-!
# What the grammar takes is derived

Whatever a rule takes off the front of the tokens, with or without a nesting limit, has a
derivation with as many levels as the limit leaves.  The rule has to be followed by something that
cannot start an atom: otherwise it may have turned away from an atom that was broken further on.
-/

namespace Curried.Grammar

open Curried.Parser

variable {α : Type} {limit : Option Nat} {turns depth : Nat} {tokens rest : List Token}

/-- The levels that are left at a depth. -/
def roomAt (limit : Option Nat) (depth : Nat) : Room := limit.map (· - depth)

@[simp]
theorem roomAt_zero (limit : Option Nat) : roomAt limit 0 = limit := by cases limit <;> rfl

/-- The depth of a rule inside of another one. -/
def deeper (limit : Option Nat) (depth : Nat) : Nat :=
  match limit with
  | some _ => depth + 1
  | none => depth

/-- A rule inside of another one opens a level, or there is none left. -/
theorem bounded_cases (parser : Parser α) [Blind parser] (turns depth : Nat)
    (tokens : List Token) :
    (Enters (roomAt limit depth) (roomAt limit (deeper limit depth)) ∧
      (bounded limit parser).read turns depth tokens =
        parser.read turns (deeper limit depth) tokens) ∨
      ∃ most, limit = some most ∧
        (bounded limit parser).read turns depth tokens = .stopped (tooDeep most) := by
  cases limit with
  | none => exact .inl ⟨.unlimited, rfl⟩
  | some most =>
      simp only [bounded, read_nested, deeper]
      split
      · exact .inr ⟨most, rfl, rfl⟩
      · rename_i left
        have same : most - depth = (most - (depth + 1)) + 1 := by omega
        refine .inl ⟨?_, rfl⟩
        simp only [roomAt, Option.map_some, same]
        exact .level _

theorem taken_of_bounded {parser : Parser α} [Blind parser] {value : α}
    (takes : (bounded limit parser).read turns depth tokens = .taken value rest) :
    Enters (roomAt limit depth) (roomAt limit (deeper limit depth)) ∧
      parser.read turns (deeper limit depth) tokens = .taken value rest := by
  rcases bounded_cases parser turns depth tokens with ⟨enters, same⟩ | ⟨most, _, stops⟩
  · exact ⟨enters, same ▸ takes⟩
  · rw [stops] at takes
    cases takes

theorem enters_of_refused {parser : Parser α} [Blind parser]
    (refuses : (bounded limit parser).read turns depth tokens = .refused) :
    Enters (roomAt limit depth) (roomAt limit (deeper limit depth)) := by
  rcases bounded_cases parser turns depth tokens with ⟨enters, _⟩ | ⟨most, _, stops⟩
  · exact enters
  · rw [stops] at refuses
    cases refuses

/-! ### Types -/

/-- What the parser takes up to a closing bracket is a type. -/
def TypeSound (limit : Option Nat) (turns : Nat) (parser : Parser TypeExpression) : Prop :=
  ∀ depth tokens type rest last, Standard tokens →
    parser.read turns depth tokens = .taken type rest → glyphs rest = .mark ')' :: last →
      Derives (roomAt limit depth) (.type type) (glyphs tokens) (glyphs rest)

theorem derives_of_typeAtom {self : Parser TypeExpression} [Blind self]
    (sound : TypeSound limit turns self) {type : TypeExpression} (standard : Standard tokens)
    (takes : (typeAtom (bounded limit self)).read turns depth tokens = .taken type rest) :
    Derives (roomAt limit depth) (.typeAtom type) (glyphs tokens) (glyphs rest) := by
  obtain ⟨first, last, reads, first_standard, _, opens, closes⟩ := taken_of_padded standard takes
  rw [closes]
  rw [read_or] at reads
  rcases Verdict.taken_of_orElse reads with name | ⟨_, inner⟩
  · obtain ⟨word, is_word, spelt, rfl⟩ := spelt_of_identifier first_standard name
    exact .typeName is_word (opens.symm.trans spelt)
  · obtain ⟨inside, behind, reads, inside_standard, spelt, ends⟩ :=
      taken_of_group '(' ')' first_standard inner
    obtain ⟨enters, reads⟩ := taken_of_bounded reads
    have derives := sound _ inside type behind _ inside_standard reads ends
    rw [ends] at derives
    exact .typeGroup enters (opens.symm.trans spelt) derives

theorem typeSound_step {self : Parser TypeExpression} [Blind self]
    (sound : TypeSound limit turns self) : TypeSound limit turns (typeStep limit self) := by
  intro depth tokens type rest last standard takes ends
  rw [typeStep, typeRule, read_map] at takes
  obtain ⟨⟨parameter, result⟩, reads, rfl⟩ := Verdict.taken_of_map takes
  obtain ⟨middle, atom, further⟩ := taken_of_pair reads
  have derives := derives_of_typeAtom sound standard atom
  have middle_standard := standard.of_suffix (Blind.suffix atom)
  rcases taken_of_optional further with ⟨type, rfl, behind⟩ | ⟨rfl, rfl, _⟩
  · obtain ⟨_, inside, arrow, reads⟩ := taken_of_keepRight behind
    obtain ⟨enters, reads⟩ := taken_of_bounded reads
    have inside_standard := middle_standard.of_suffix (Blind.suffix arrow)
    rw [spelt_of_arrow middle_standard arrow] at derives
    exact .arrow enters derives (sound _ inside type rest last inside_standard reads ends)
  · rw [ends] at derives ⊢
    exact .type derives

theorem typeSound_entering (limit : Option Nat) (turns entries : Nat) :
    TypeSound limit turns (entering (typeStep limit) entries) := by
  induction entries with
  | zero =>
      intro depth tokens type rest last _ takes
      cases takes
  | succ entries ih =>
      have inner : Blind (entering (typeStep limit) entries) := inferInstance
      exact @typeSound_step limit turns (entering (typeStep limit) entries) inner ih

theorem typeSound_typeUpTo (limit : Option Nat) (turns : Nat) :
    TypeSound limit turns (typeUpTo limit) := typeSound_entering limit turns turns

/-! ### Expressions -/

/-- How a phrase that extends as far as it can ends: there is no white space and no further
argument behind it, and it has a derivation if no atom can start there. -/
structure Ended (limit : Option Nat) (turns depth : Nat) (handle : Parser Expression)
    (phrase : Phrase) (tokens rest : List Token) : Prop where
  skipped : skip (glyphs rest) = glyphs rest
  refused : (atom (typeUpTo limit) (bounded limit handle)).read turns depth rest = .refused
  derives : startsAtom (glyphs rest) = false →
    Derives (roomAt limit depth) phrase (glyphs tokens) (glyphs rest)

/-- What the parser takes is an expression. -/
def ExpressionSound (limit : Option Nat) (turns : Nat) (self : Parser Expression) : Prop :=
  ∀ depth tokens tree rest, Standard tokens →
    self.read turns depth tokens = .taken tree rest →
      Ended limit turns depth self (.expression tree) tokens rest

/-- An atom that is refused one level deeper is refused. -/
def Lowers (limit : Option Nat) (turns : Nat) (self : Parser Expression) : Prop :=
  ∀ depth tokens,
    (atom (typeUpTo limit) (bounded limit self)).read turns (deeper limit depth) tokens = .refused →
      (atom (typeUpTo limit) (bounded limit self)).read turns depth tokens = .refused

section
variable {self : Parser Expression} [Blind self] {tree : Expression}

/-- An expression inside of another one, in front of something that cannot start an atom. -/
theorem derives_of_inner (sound : ExpressionSound limit turns self) (standard : Standard tokens)
    (takes : (bounded limit self).read turns depth tokens = .taken tree rest)
    (ends : startsAtom (glyphs rest) = false) :
    Enters (roomAt limit depth) (roomAt limit (deeper limit depth)) ∧
      Derives (roomAt limit (deeper limit depth)) (.expression tree) (glyphs tokens)
        (glyphs rest) := by
  obtain ⟨enters, reads⟩ := taken_of_bounded takes
  exact ⟨enters, (sound _ tokens tree rest standard reads).derives ends⟩

theorem derives_of_group (sound : ExpressionSound limit turns self) (standard : Standard tokens)
    (takes : (groupExpression (bounded limit self)).read turns depth tokens = .taken tree rest) :
    Derives (roomAt limit depth) (.core tree) (glyphs tokens) (glyphs rest) := by
  rw [groupExpression, read_recorded, read_map] at takes
  obtain ⟨inner, reads, rfl⟩ := Verdict.taken_of_map takes
  obtain ⟨inside, behind, reads, inside_standard, spelt, ends⟩ :=
    taken_of_group '(' ')' standard reads
  obtain ⟨enters, derives⟩ := derives_of_inner sound inside_standard reads (by rw [ends]; rfl)
  rw [ends] at derives
  rw [spelt]
  exact .group enters derives

/-- The elements behind the first one, up to the closing bracket. -/
theorem derives_of_followers (sound : ExpressionSound limit turns self) (more : Nat)
    {pieces : List (Interleaved Expression Token)} {last : List Glyph}
    (standard : Standard tokens)
    (takes : (followers (bounded limit self) (symbol ",") more).read turns depth tokens =
      .taken pieces rest) (ends : glyphs rest = .mark ']' :: last) :
    startsAtom (glyphs tokens) = false ∧
      Derives (roomAt limit (deeper limit depth)) (.others (pieces.filterMap Interleaved.item?))
        (glyphs tokens) last := by
  induction more generalizing tokens pieces with
  | zero => cases takes
  | succ more ih =>
      rw [read_followers_succ] at takes
      obtain ⟨mark, behind, delimiter, reads⟩ := Verdict.taken_of_andThen takes
      rcases taken_of_orNone delimiter with ⟨comma, rfl, comes⟩ | ⟨rfl, rfl, _⟩
      · have spelt := spelt_of_symbol (c := ',') standard comes
        have behind_standard := standard.of_suffix (Blind.suffix comes)
        rw [follower, read_bind] at reads
        obtain ⟨value, middle, element, reads⟩ := Verdict.taken_of_andThen reads
        rw [read_bind] at reads
        obtain ⟨others, _, again, reads⟩ := Verdict.taken_of_andThen reads
        cases reads
        have middle_standard := behind_standard.of_suffix (Blind.suffix element)
        obtain ⟨starts, derives⟩ := ih middle_standard again
        obtain ⟨_, first⟩ := derives_of_inner sound behind_standard element starts
        rw [spelt]
        exact ⟨rfl, .others first derives⟩
      · cases reads
        rw [ends]
        exact ⟨rfl, .noOthers⟩

theorem derives_of_list (sound : ExpressionSound limit turns self) (standard : Standard tokens)
    (takes : (listLiteral (bounded limit self)).read turns depth tokens = .taken tree rest) :
    Derives (roomAt limit depth) (.core tree) (glyphs tokens) (glyphs rest) := by
  rw [listLiteral, read_recorded, read_map, read_list, read_group] at takes
  obtain ⟨trees, listed, rfl⟩ := Verdict.taken_of_map takes
  obtain ⟨pieces, whole, rfl⟩ := Verdict.taken_of_map listed
  obtain ⟨_, inside, opens, reads⟩ := Verdict.taken_of_andThen whole
  obtain ⟨_, last, elements, closes⟩ := Verdict.taken_of_andThen reads
  obtain ⟨_, closed, rfl⟩ := Verdict.taken_of_map closes
  obtain ⟨_, behind, bracket, skips⟩ := taken_of_keepLeft opens
  have behind_standard := standard.of_suffix (Blind.suffix bracket)
  have inside_standard := behind_standard.of_suffix (Blind.suffix skips)
  have last_standard := inside_standard.of_suffix (Blind.suffix elements)
  have ends := spelt_of_symbol (c := ']') last_standard closed
  rw [spelt_of_symbol (c := '[') standard bracket]
  rw [read_interleaved_true] at elements
  obtain ⟨first, middle, head, tail⟩ := Verdict.taken_of_andThen elements
  rcases taken_of_orNone head with ⟨value, rfl, element⟩ | ⟨rfl, rfl, refuses⟩
  · rw [behindFirst, read_bind, read_withTurns] at tail
    obtain ⟨others, _, again, joined⟩ := Verdict.taken_of_andThen tail
    cases joined
    have middle_standard := inside_standard.of_suffix (Blind.suffix element)
    obtain ⟨starts, derives⟩ := derives_of_followers sound turns middle_standard again ends
    obtain ⟨enters, first⟩ := derives_of_inner sound inside_standard element starts
    refine .list enters ?_
    rw [← spelt_of_whitespace behind_standard skips]
    exact .items first derives
  · cases tail
    refine .list (enters_of_refused refuses) ?_
    rw [← spelt_of_whitespace behind_standard skips, ends]
    exact .noItems

theorem derives_of_literal (sound : ExpressionSound limit turns self) (standard : Standard tokens)
    (takes : (literal (bounded limit self)).read turns depth tokens = .taken tree rest) :
    Derives (roomAt limit depth) (.core tree) (glyphs tokens) (glyphs rest) := by
  have constant_case {word : String} {value : Expression} (member : (word, value) ∈ constants)
      (takes : (constant word value).read turns depth tokens = .taken tree rest) :
      Derives (roomAt limit depth) (.core tree) (glyphs tokens) (glyphs rest) := by
    obtain ⟨rfl, spelt⟩ := spelt_of_constant standard takes
    rw [spelt]
    exact .constant member
  rw [literal, read_choice] at takes
  simp only [readFirst_cons, readFirst_nil] at takes
  rcases Verdict.taken_of_orElse takes with takes | ⟨_, takes⟩
  · obtain ⟨number, rfl, finite, spelt⟩ := spelt_of_number standard takes
    rw [spelt]
    exact .number finite
  rcases Verdict.taken_of_orElse takes with takes | ⟨_, takes⟩
  · obtain ⟨content, rfl, free, spelt⟩ := spelt_of_string standard takes
    rw [spelt]
    exact .string free
  rcases Verdict.taken_of_orElse takes with takes | ⟨_, takes⟩
  · exact constant_case (by simp [constants]) takes
  rcases Verdict.taken_of_orElse takes with takes | ⟨_, takes⟩
  · exact constant_case (by simp [constants]) takes
  rcases Verdict.taken_of_orElse takes with takes | ⟨_, takes⟩
  · exact constant_case (by simp [constants]) takes
  rcases Verdict.taken_of_orElse takes with takes | ⟨_, takes⟩
  · exact derives_of_list sound standard takes
  · cases takes

/-- An opening parenthesis whose group is refused has opened a level. -/
theorem enters_of_group {text : List Glyph} (standard : Standard tokens)
    (spelt : glyphs tokens = .mark '(' :: text)
    (refuses : (groupExpression (bounded limit self)).read turns depth tokens = .refused) :
    Enters (roomAt limit depth) (roomAt limit (deeper limit depth)) := by
  obtain ⟨bracket, behind, reads, _⟩ :
      ∃ value behind, (symbol "(").read turns depth tokens = .taken value behind ∧
        glyphs behind = text := passes_symbol '(' text tokens standard spelt
  rw [groupExpression, read_recorded, read_map, read_group, reads] at refuses
  rcases bounded_cases self turns depth behind with ⟨enters, _⟩ | ⟨most, _, stops⟩
  · exact enters
  · simp [stops] at refuses

theorem derives_of_name (standard : Standard tokens)
    (refuses : (groupExpression (bounded limit self)).read turns depth tokens = .refused)
    (takes : (prefixIdentifier.map Expression.identifier).read turns depth tokens =
      .taken tree rest) :
    Derives (roomAt limit depth) (.core tree) (glyphs tokens) (glyphs rest) := by
  rw [read_map, prefixIdentifier, read_noted, read_or] at takes
  obtain ⟨name, reads, rfl⟩ := Verdict.taken_of_map takes
  rcases Verdict.taken_of_orElse reads with bare | ⟨_, operator⟩
  · obtain ⟨is_name, spelt⟩ := spelt_of_bareIdentifier standard bare
    rw [spelt]
    exact .name is_name
  · rw [read_map] at operator
    obtain ⟨symbol, grouped, rfl⟩ := Verdict.taken_of_map operator
    obtain ⟨inside, last, run, inside_standard, spelt, ends⟩ :=
      taken_of_group '(' ')' standard grouped
    have enters := enters_of_group standard spelt refuses
    have run := run_of_operatorRun inside_standard run
    rw [ends] at run
    rw [spelt]
    exact .operatorName enters run

omit [Blind self] in
/-- The phrase that a local binding or a function makes of the body that it ends with. -/
theorem Ended.of_body {phrase : Phrase} {front : List Token} (lowers : Lowers limit turns self)
    (body : Ended limit turns (deeper limit depth) self (.expression tree) front rest)
    (build : Derives (roomAt limit (deeper limit depth)) (.expression tree) (glyphs front)
      (glyphs rest) → Derives (roomAt limit depth) phrase (glyphs tokens) (glyphs rest)) :
    Ended limit turns depth self phrase tokens rest where
  skipped := body.skipped
  refused := lowers depth rest body.refused
  derives ends := build (body.derives ends)

theorem ended_of_let (sound : ExpressionSound limit turns self) (lowers : Lowers limit turns self)
    (standard : Standard tokens)
    (takes : (letExpression (bounded limit self)).read turns depth tokens = .taken tree rest) :
    Ended limit turns depth self (.core tree) tokens rest := by
  rw [letExpression_eq, read_recorded, read_map] at takes
  obtain ⟨⟨⟨name, bound⟩, body⟩, parts, rfl⟩ := Verdict.taken_of_map takes
  obtain ⟨behindIn, front, last⟩ := taken_of_pair parts
  obtain ⟨_, behindBound, front, sign⟩ := taken_of_keepLeft front
  obtain ⟨behindSign, front, value⟩ := taken_of_pair front
  obtain ⟨_, behindName, front, equals⟩ := taken_of_keepLeft front
  obtain ⟨_, behindLet, opens, named⟩ := taken_of_keepRight front
  have let_standard := standard.of_suffix (Blind.suffix opens)
  have name_standard := let_standard.of_suffix (Blind.suffix named)
  have sign_standard := name_standard.of_suffix (Blind.suffix equals)
  have bound_standard := sign_standard.of_suffix (Blind.suffix value)
  have in_standard := bound_standard.of_suffix (Blind.suffix sign)
  obtain ⟨first, behind, reads, first_standard, _, starts, ends⟩ :=
    taken_of_padded let_standard named
  obtain ⟨is_name, spelt⟩ := spelt_of_bareIdentifier first_standard reads
  have equals := spelt_of_symbol (c := '=') name_standard equals
  have sign := spelt_of_keyword bound_standard sign
  obtain ⟨enters, derives⟩ := derives_of_inner sound sign_standard value (by rw [sign]; rfl)
  rw [sign] at derives
  obtain ⟨_, body_reads⟩ := taken_of_bounded last
  refine .of_body lowers (sound _ _ _ _ in_standard body_reads) fun inner => ?_
  rw [spelt_of_keyword standard opens]
  exact .letIn enters is_name (starts.symm.trans spelt) (ends.symm.trans equals) derives inner

/-- The annotation of a parameter in front of an arrow. -/
theorem derives_of_parameterType {declared : Option TypeExpression} {last : List Glyph}
    (standard : Standard tokens)
    (takes : (parameterType (typeUpTo limit)).read turns depth tokens = .taken declared rest)
    (ends : glyphs rest = .mark '-' :: last) :
    Derives (roomAt limit depth) (.parameterType declared) (glyphs tokens) (glyphs rest) := by
  rcases taken_of_optional takes with ⟨type, rfl, reads⟩ | ⟨rfl, rfl, _⟩
  · obtain ⟨_, behind, grouped, skips⟩ := taken_of_keepLeft reads
    obtain ⟨inside, closing, reads, inside_standard, spelt, closes⟩ :=
      taken_of_group '(' ')' standard grouped
    have behind_standard := standard.of_suffix (Blind.suffix grouped)
    have derives := typeSound_typeUpTo limit turns _ inside type closing _ inside_standard reads
      closes
    rw [closes] at derives
    rw [spelt, spelt_of_whitespace behind_standard skips]
    exact .declared derives
  · rw [ends]
    exact .undeclared

theorem ended_of_function (sound : ExpressionSound limit turns self)
    (lowers : Lowers limit turns self) (standard : Standard tokens)
    (takes : (functionExpression (typeUpTo limit) (bounded limit self)).read turns depth tokens =
      .taken tree rest) :
    Ended limit turns depth self (.core tree) tokens rest := by
  rw [functionExpression_eq, read_recorded, read_map] at takes
  obtain ⟨⟨⟨name, declared⟩, body⟩, parts, rfl⟩ := Verdict.taken_of_map takes
  obtain ⟨behindArrow, front, last⟩ := taken_of_pair parts
  obtain ⟨_, behindType, front, points⟩ := taken_of_keepLeft front
  obtain ⟨behindName, front, typed⟩ := taken_of_pair front
  obtain ⟨_, behindSlash, opens, named⟩ := taken_of_keepRight front
  have slash_standard := standard.of_suffix (Blind.suffix opens)
  have name_standard := slash_standard.of_suffix (Blind.suffix named)
  have type_standard := name_standard.of_suffix (Blind.suffix typed)
  have arrow_standard := type_standard.of_suffix (Blind.suffix points)
  obtain ⟨first, behind, reads, first_standard, _, starts, ends⟩ :=
    taken_of_padded slash_standard named
  obtain ⟨is_name, spelt⟩ := spelt_of_bareIdentifier first_standard reads
  have points := spelt_of_arrow type_standard points
  have declares := derives_of_parameterType name_standard typed points
  rw [points, ends] at declares
  obtain ⟨enters, body_reads⟩ := taken_of_bounded last
  refine .of_body lowers (sound _ _ _ _ arrow_standard body_reads) fun inner => ?_
  rw [spelt_of_symbol (c := '\\') standard opens]
  exact .function enters is_name (starts.symm.trans spelt) declares inner

theorem derives_or_ended_of_core (sound : ExpressionSound limit turns self)
    (lowers : Lowers limit turns self) (standard : Standard tokens)
    (takes : (core (typeUpTo limit) (bounded limit self)).read turns depth tokens =
      .taken tree rest) :
    Derives (roomAt limit depth) (.core tree) (glyphs tokens) (glyphs rest) ∨
      Ended limit turns depth self (.core tree) tokens rest := by
  rw [core, read_choice] at takes
  simp only [readFirst_cons, readFirst_nil] at takes
  rcases Verdict.taken_of_orElse takes with group | ⟨refuses, takes⟩
  · exact .inl (derives_of_group sound standard group)
  rcases Verdict.taken_of_orElse takes with literal | ⟨_, takes⟩
  · exact .inl (derives_of_literal sound standard literal)
  rcases Verdict.taken_of_orElse takes with binding | ⟨_, takes⟩
  · exact .inr (ended_of_let sound lowers standard binding)
  rcases Verdict.taken_of_orElse takes with function | ⟨_, takes⟩
  · exact .inr (ended_of_function sound lowers standard function)
  rcases Verdict.taken_of_orElse takes with name | ⟨_, takes⟩
  · exact .inl (derives_of_name standard refuses name)
  · cases takes

theorem derives_or_ended_of_atom (sound : ExpressionSound limit turns self)
    (lowers : Lowers limit turns self) (standard : Standard tokens)
    (takes : (atom (typeUpTo limit) (bounded limit self)).read turns depth tokens =
      .taken tree rest) :
    skip (glyphs rest) = glyphs rest ∧
      (Derives (roomAt limit depth) (.atom tree) (glyphs tokens) (glyphs rest) ∨
        Ended limit turns depth self (.atom tree) tokens rest) := by
  rw [atom_eq] at takes
  obtain ⟨first, last, reads, first_standard, suffix, opens, closes⟩ :=
    taken_of_padded standard takes
  refine ⟨by rw [closes, skip_skip], ?_⟩
  rcases derives_or_ended_of_core sound lowers first_standard reads with derives | ended
  · rw [opens] at derives
    rw [closes]
    exact .inl (.atom derives)
  · have same : rest = last := by
      refine suffix.eq_of_length ?_
      rw [← length_glyphs, closes, ended.skipped, length_glyphs]
    subst same
    refine .inr ⟨ended.skipped, ended.refused, fun ends => ?_⟩
    have derives := ended.derives ends
    rw [opens] at derives
    exact ended.skipped ▸ .atom derives

/-- An atom takes a token. -/
theorem length_of_atom (sound : ExpressionSound limit turns self)
    (lowers : Lowers limit turns self) (standard : Standard tokens)
    (takes : (atom (typeUpTo limit) (bounded limit self)).read turns depth tokens =
      .taken tree rest) : rest.length < tokens.length := by
  obtain ⟨_, derives | ended⟩ := derives_or_ended_of_atom sound lowers standard takes
  · simpa using derives.length_lt_atom
  · have suffix := Blind.suffix takes
    refine Nat.lt_of_le_of_ne suffix.length_le fun equal => ?_
    have refuses := ended.refused
    rw [suffix.eq_of_length equal, takes] at refuses
    cases refuses

omit [Blind self] in
/-- An atom with a loop behind it: if it is one that extends as far as it can, the loop takes
nothing. -/
theorem derives_of_first {middle : List Token} {others : List Expression} {more : Nat}
    (first : Derives (roomAt limit depth) (.atom tree) (glyphs tokens) (glyphs middle) ∨
      Ended limit turns depth self (.atom tree) tokens middle)
    (again : readRepeated (atom (typeUpTo limit) (bounded limit self)) turns depth more middle =
      .taken others rest) (ends : startsAtom (glyphs rest) = false) :
    Derives (roomAt limit depth) (.atom tree) (glyphs tokens) (glyphs middle) := by
  rcases first with derives | ended
  · exact derives
  · cases more with
    | zero => cases again
    | succ more =>
        simp only [readRepeated, ended.refused, goOn] at again
        cases again
        exact ended.derives ends

theorem ended_of_arguments (sound : ExpressionSound limit turns self)
    (lowers : Lowers limit turns self) (more : Nat) {trees : List Expression}
    (standard : Standard tokens) (skipped : skip (glyphs tokens) = glyphs tokens)
    (takes : readRepeated (atom (typeUpTo limit) (bounded limit self)) turns depth more tokens =
      .taken trees rest) :
    Ended limit turns depth self (.atoms trees) tokens rest := by
  induction more generalizing tokens trees with
  | zero => cases takes
  | succ more ih =>
      rw [readRepeated] at takes
      cases reads : (atom (typeUpTo limit) (bounded limit self)).read turns depth tokens with
      | refused =>
          rw [reads] at takes
          cases takes
          exact ⟨skipped, reads, .done⟩
      | stopped =>
          rw [reads] at takes
          cases takes
      | taken first middle =>
          rw [reads] at takes
          obtain ⟨middle_skipped, settled⟩ := derives_or_ended_of_atom sound lowers standard reads
          have shorter := length_of_atom sound lowers standard reads
          simp only [goOn, if_neg (Nat.ne_of_lt shorter)] at takes
          obtain ⟨others, again, rfl⟩ := Verdict.taken_of_map takes
          have further := ih (standard.of_suffix (Blind.suffix reads)) middle_skipped again
          refine ⟨further.skipped, further.refused, fun ends => ?_⟩
          exact .more (derives_of_first settled again ends) (further.derives ends)

theorem ended_of_application (sound : ExpressionSound limit turns self)
    (lowers : Lowers limit turns self) (standard : Standard tokens)
    (takes : (application (typeUpTo limit) (bounded limit self)).read turns depth tokens =
      .taken tree rest) :
    Ended limit turns depth self (.application tree) tokens rest := by
  rw [application, read_recordedWhen, read_map] at takes
  obtain ⟨⟨first, others⟩, parts, rfl⟩ := Verdict.taken_of_map takes
  obtain ⟨middle, reads, again⟩ := taken_of_pair parts
  rw [read_many] at again
  obtain ⟨middle_skipped, settled⟩ := derives_or_ended_of_atom sound lowers standard reads
  have middle_standard := standard.of_suffix (Blind.suffix reads)
  have further := ended_of_arguments sound lowers turns middle_standard middle_skipped again
  refine ⟨further.skipped, further.refused, fun ends => ?_⟩
  exact .application (derives_of_first settled again ends) (further.derives ends)

theorem ended_of_links (sound : ExpressionSound limit turns self)
    (lowers : Lowers limit turns self) (more : Nat) {pieces : List (Link Expression)}
    (standard : Standard tokens) (skipped : skip (glyphs tokens) = glyphs tokens)
    (refused : (atom (typeUpTo limit) (bounded limit self)).read turns depth tokens = .refused)
    (takes : (links (application (typeUpTo limit) (bounded limit self)) infixOperator more).read
      turns depth tokens = .taken pieces rest) :
    ∃ found : List (String × Expression), pieces = found.map Expression.link ∧
      Ended limit turns depth self (.links found) tokens rest ∧
        (startsAtom (glyphs rest) = false → startsAtom (glyphs tokens) = false) := by
  induction more generalizing tokens pieces with
  | zero => cases takes
  | succ more ih =>
      rw [read_links_succ] at takes
      obtain ⟨sign, behind, operator, goes⟩ := Verdict.taken_of_andThen takes
      rcases taken_of_orNone operator with ⟨⟨joined, value⟩, rfl, comes⟩ | ⟨rfl, rfl, refuses⟩
      · obtain ⟨symbol, spelt, rfl, rfl⟩ := operator_of_infixOperator standard comes
        have behind_standard := standard.of_suffix (Blind.suffix comes)
        rw [linked, read_bind] at goes
        obtain ⟨operand, middle, reads, goes⟩ := Verdict.taken_of_andThen goes
        rw [read_bind] at goes
        obtain ⟨others, _, again, goes⟩ := Verdict.taken_of_andThen goes
        cases goes
        have first := ended_of_application sound lowers behind_standard reads
        have middle_standard := behind_standard.of_suffix (Blind.suffix reads)
        obtain ⟨found, rfl, further, starts⟩ :=
          ih middle_standard first.skipped first.refused again
        refine ⟨(symbol, operand) :: found, rfl, ⟨further.skipped, further.refused, ?_⟩, ?_⟩
        · exact fun ends => .link spelt (first.derives (starts ends)) (further.derives ends)
        · exact fun _ => startsAtom_of_operator spelt
      · cases goes
        have none_left := operator_of_refused standard refuses
        exact ⟨[], rfl, ⟨skipped, refused, fun _ => .stop none_left⟩, id⟩

theorem ended_of_chain (sound : ExpressionSound limit turns self)
    (lowers : Lowers limit turns self) (standard : Standard tokens)
    (takes : (operatorChain (typeUpTo limit) (bounded limit self)).read turns depth tokens =
      .taken tree rest) :
    Ended limit turns depth self (.expression tree) tokens rest := by
  rw [operatorChain, read_recordedWhen, read_binary] at takes
  obtain ⟨first, middle, reads, goes⟩ := Verdict.taken_of_andThen takes
  obtain ⟨pieces, again, rfl⟩ := Verdict.taken_of_map goes
  have operand := ended_of_application sound lowers standard reads
  have middle_standard := standard.of_suffix (Blind.suffix reads)
  obtain ⟨found, rfl, further, starts⟩ :=
    ended_of_links sound lowers turns middle_standard operand.skipped operand.refused again
  refine ⟨further.skipped, further.refused, fun ends => ?_⟩
  exact .expression (operand.derives (starts ends)) (further.derives ends)

/-- White space around a chain is no part of it. -/
theorem ended_of_expressionStep (sound : ExpressionSound limit turns self)
    (lowers : Lowers limit turns self) (standard : Standard tokens)
    (takes : (expressionStep limit self).read turns depth tokens = .taken tree rest) :
    Ended limit turns depth self (.expression tree) tokens rest := by
  rw [expressionStep, expressionRule] at takes
  obtain ⟨_, last, goes, closes⟩ := taken_of_keepLeft takes
  obtain ⟨_, first, opens, reads⟩ := taken_of_keepRight goes
  have first_standard := standard.of_suffix (Blind.suffix opens)
  have last_standard := first_standard.of_suffix (Blind.suffix reads)
  have ended := ended_of_chain sound lowers first_standard reads
  have same : rest = last := by
    refine (Blind.suffix closes).eq_of_length ?_
    rw [← length_glyphs, spelt_of_whitespace last_standard closes, ended.skipped, length_glyphs]
  subst same
  refine ⟨ended.skipped, ended.refused, fun ends => ?_⟩
  have derives := ended.derives ends
  rw [spelt_of_whitespace standard opens] at derives
  exact derives.expression_of_skip

end

/-! ### The rule tied together -/

theorem lowers_entering (limit : Option Nat) (turns entries : Nat) :
    Lowers limit turns (entering (expressionStep limit) entries) := by
  intro depth tokens refuses
  cases limit with
  | none => exact refuses
  | some most =>
      have looser : Looser most (depth + 1) (some most) depth := ⟨rfl, Nat.le_succ depth⟩
      have types : Until (tooDeep most) turns (depth + 1) depth (typeUpTo (some most))
          (typeUpTo (some most)) := until_typeUpTo looser
      have inner : Until (tooDeep most) turns (depth + 1) depth
          (bounded (some most) (entering (expressionStep (some most)) entries))
          (bounded (some most) (entering (expressionStep (some most)) entries)) :=
        until_bounded (fun _ _ => until_expression entries) looser
      have atoms : Until (tooDeep most) turns (depth + 1) depth
          (atom (typeUpTo (some most))
            (bounded (some most) (entering (expressionStep (some most)) entries)))
          (atom (typeUpTo (some most))
            (bounded (some most) (entering (expressionStep (some most)) entries))) := inferInstance
      have agrees := atoms.agrees tokens
      rw [show (atom _ _).read turns (depth + 1) tokens = .refused from refuses] at agrees
      exact agrees.refused

/-- The rule for expressions is sound, however often it can be entered: the induction is on that
number, and the atom behind an expression, which cannot be entered as often, stays refused. -/
theorem expressionSound_entering (limit : Option Nat) (turns entries : Nat) :
    ExpressionSound limit turns (entering (expressionStep limit) entries) := by
  induction entries with
  | zero =>
      intro depth tokens tree rest _ takes
      cases takes
  | succ entries ih =>
      intro depth tokens tree rest standard takes
      have ended : Ended limit turns depth (entering (expressionStep limit) entries)
          (.expression tree) tokens rest :=
        ended_of_expressionStep ih (lowers_entering limit turns entries) standard takes
      have inner := until_bounded_same limit (until_expression_succ limit turns entries) depth
      have atoms : Until .exhausted turns depth depth
          (atom (typeUpTo limit) (bounded limit (entering (expressionStep limit) entries)))
          (atom (typeUpTo limit) (bounded limit (entering (expressionStep limit) (entries + 1)))) :=
        inferInstance
      have agrees := atoms.agrees rest
      rw [ended.refused] at agrees
      exact ⟨ended.skipped, agrees.refused, ended.derives⟩

/-- A program that is taken is derived, and there is nothing behind it. -/
theorem derives_of_program (standard : Standard tokens) {tree : Expression}
    (takes : (programUpTo limit).read turns 0 tokens = .taken tree rest) :
    Derives limit (.expression tree) (glyphs tokens) [] := by
  obtain ⟨_, last, reads, ends⟩ := taken_of_keepLeft takes
  rw [read_endOfInput] at ends
  split at ends
  · rename_i nothing
    subst nothing
    have ended : Ended limit turns 0 (entering (expressionStep limit) turns) (.expression tree)
        tokens [] := expressionSound_entering limit turns turns 0 tokens tree [] standard reads
    have derives := ended.derives rfl
    rwa [roomAt_zero] at derives
  · cases ends

end Curried.Grammar
