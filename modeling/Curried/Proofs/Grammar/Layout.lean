import Curried.Proofs.Grammar.Conservation
import Mathlib.Data.List.DropRight

/-!
# The layout of a source

Of the white space in a source only this counts: whether there is any between two tokens.  What is
derived from some glyphs is derived as well from others that differ from them in the length of their
gaps, and white space at the end is like none.  So sources of the same layout have the same tree, or
both have none.
-/

namespace Curried

open Glyph (blank mark word)

/-! ### Gaps -/

/-- The items with every maximal run of gaps as a single one. -/
def collapsed {α : Type} : List (Option α) → List (Option α)
  | [] => []
  | some item :: rest => some item :: collapsed rest
  | none :: rest => none :: collapsed (rest.dropWhile Option.isNone)
termination_by items => items.length
decreasing_by
  · exact Nat.lt_succ_self _
  · exact Nat.lt_succ_of_le (List.dropWhile_suffix _).length_le

/-- The items without gaps at both ends. -/
def trimmed {α : Type} (items : List (Option α)) : List (Option α) :=
  (items.dropWhile Option.isNone).rdropWhile Option.isNone

deriving instance DecidableEq for TokenValue

namespace Token

/-- The kind, the text and the value of a token that is no white space. -/
def content? (token : Token) : Option (String × String × TokenValue) :=
  if token.isSolid then some (token.kind, token.text, token.value) else none

/-- What tokens say, with a single gap for every run of white space between two of them. -/
def layout (tokens : List Token) : List (Option (String × String × TokenValue)) :=
  trimmed (collapsed (tokens.map content?))

end Token

namespace Glyph

/-- The glyph of a token with the content, and a blank for a gap. -/
def ofContent : Option (String × String × TokenValue) → Glyph
  | some (kind, text, value) => Token.glyph ⟨kind, text, text, value, .start⟩
  | none => blank

theorem ofContent_content {token : Token} (standard : token.Standard) :
    ofContent token.content? = token.glyph := by
  unfold Token.content?
  split
  · rfl
  · rename_i white
    rw [standard.isSolid_eq] at white
    cases sees : token.glyph with
    | blank => rfl
    | _ => simp [sees, isBlank] at white

end Glyph

theorem glyphs_eq_map {tokens : List Token} (standard : Standard tokens) :
    glyphs tokens = (tokens.map Token.content?).map Glyph.ofContent := by
  rw [glyphs, List.map_map]
  exact List.map_congr_left fun token member => (Glyph.ofContent_content (standard token member)).symm

/-! ### Glyphs up to the length of gaps -/

section
variable {text other rest : List Glyph} {glyph : Glyph} {symbol : String}

/-- White space in front of a text whose gaps are single blanks. -/
def gap : List Glyph → List Glyph
  | [] => []
  | .blank :: rest => blank :: rest
  | text => blank :: text

/-- The text with single blanks for gaps, and no white space at its end. -/
def settled : List Glyph → List Glyph
  | [] => []
  | .blank :: rest => gap (settled rest)
  | glyph :: rest => glyph :: settled rest

/-- Texts that differ only in the length of their gaps and in white space at their ends. -/
def Spaced (text other : List Glyph) : Prop := settled text = settled other

theorem settled_cons (visible : glyph.isBlank = false) (rest : List Glyph) :
    settled (glyph :: rest) = glyph :: settled rest := by
  cases glyph with
  | blank => cases visible
  | _ => rfl

/-- More white space adds nothing to a gap. -/
theorem gap_gap (text : List Glyph) : gap (gap text) = gap text := by
  cases text with
  | nil => rfl
  | cons glyph rest => cases glyph <;> rfl

theorem isBlank_of_gap (member : glyph ∈ (gap text).head?) : glyph = blank := by
  cases text with
  | nil => cases member
  | cons first rest => cases first <;> exact (Option.some.inj member).symm

theorem skip_gap (text : List Glyph) : skip (gap text) = skip text := by
  cases text with
  | nil => rfl
  | cons glyph rest => cases glyph <;> rfl

theorem settled_skip (text : List Glyph) : settled (skip text) = skip (settled text) := by
  induction text with
  | nil => rfl
  | cons glyph rest ih =>
      cases glyph with
      | blank => rw [skip_blank, ih, settled, skip_gap]
      | _ => rfl

theorem Spaced.skip (same : Spaced text other) : Spaced (skip text) (skip other) := by
  rw [Spaced, settled_skip, settled_skip, same]

/-- Texts of the same spacing start with the same glyph, if it is no white space. -/
theorem Spaced.of_cons (same : Spaced (glyph :: rest) other) (visible : glyph.isBlank = false) :
    ∃ behind, other = glyph :: behind ∧ Spaced rest behind := by
  rw [Spaced, settled_cons visible] at same
  cases other with
  | nil => cases same
  | cons first behind =>
      cases sees : first.isBlank with
      | true =>
          have starts : glyph ∈ (settled (first :: behind)).head? := by rw [← same]; rfl
          cases first with
          | blank =>
              rw [isBlank_of_gap starts] at visible
              cases visible
          | _ => cases sees
      | false =>
          rw [settled_cons sees] at same
          obtain ⟨rfl, rests⟩ := List.cons.inj same
          exact ⟨behind, rfl, rests⟩

/-! ### What the grammar looks at -/

theorem startsAtom_gap (text : List Glyph) : startsAtom (gap text) = false := by
  cases text with
  | nil => rfl
  | cons glyph rest => cases glyph <;> rfl

theorem startsAtom_settled (text : List Glyph) : startsAtom (settled text) = startsAtom text := by
  cases text with
  | nil => rfl
  | cons glyph rest =>
      cases glyph with
      | blank => exact startsAtom_gap _
      | number value => cases value <;> rfl
      | _ => rfl

theorem Spaced.startsAtom_eq (same : Spaced text other) : startsAtom other = startsAtom text := by
  rw [← startsAtom_settled other, ← same, startsAtom_settled]

theorem takeWhile_gap (text : List Glyph) : (gap text).takeWhile Glyph.isOperator = [] := by
  cases text with
  | nil => rfl
  | cons glyph rest => cases glyph <;> rfl

theorem dropWhile_gap (text : List Glyph) : (gap text).dropWhile Glyph.isOperator = gap text := by
  cases text with
  | nil => rfl
  | cons glyph rest => cases glyph <;> rfl

theorem takeWhile_settled (text : List Glyph) :
    (settled text).takeWhile Glyph.isOperator = text.takeWhile Glyph.isOperator := by
  induction text with
  | nil => rfl
  | cons glyph rest ih =>
      cases glyph with
      | blank => exact takeWhile_gap _
      | mark c => rw [settled_cons rfl, List.takeWhile_cons, List.takeWhile_cons, ih]
      | _ => rfl

theorem dropWhile_settled (text : List Glyph) :
    (settled text).dropWhile Glyph.isOperator = settled (text.dropWhile Glyph.isOperator) := by
  induction text with
  | nil => rfl
  | cons glyph rest ih =>
      cases glyph with
      | blank => exact dropWhile_gap _
      | mark c =>
          rw [settled_cons rfl, List.dropWhile_cons, List.dropWhile_cons, ih]
          split
          · rfl
          · rw [settled_cons rfl]
      | _ => rfl

/-- White space ends a run of operator symbols, however much of it there is. -/
theorem run_settled (text : List Glyph) :
    run? (settled text) = (run? text).map fun (symbol, rest) => (symbol, settled rest) := by
  unfold run?
  rw [takeWhile_settled, dropWhile_settled]
  cases text.takeWhile Glyph.isOperator <;> rfl

theorem Spaced.run (same : Spaced text other) (run : run? text = some (symbol, rest)) :
    ∃ behind, run? other = some (symbol, behind) ∧ Spaced rest behind := by
  have runs := run_settled other
  rw [← same, run_settled, run] at runs
  obtain ⟨⟨_, behind⟩, found, settles⟩ := Option.map_eq_some_iff.1 runs.symm
  obtain ⟨rfl, rests⟩ := Prod.mk.inj settles
  exact ⟨behind, found, rests.symm⟩

theorem Spaced.operator (same : Spaced text other) (operator : operator? text = some (symbol, rest)) :
    ∃ behind, operator? other = some (symbol, behind) ∧ Spaced rest behind := by
  obtain ⟨run, infix_run⟩ := Option.filter_eq_some_iff.1 operator
  obtain ⟨behind, found, rests⟩ := same.run run
  exact ⟨behind, Option.filter_eq_some_iff.2 ⟨found, infix_run⟩, rests⟩

theorem Spaced.operator_eq_none (same : Spaced text other) (ends : operator? text = none) :
    operator? other = none := by
  cases operator : operator? other with
  | none => rfl
  | some found =>
      obtain ⟨_, found_too, _⟩ := Spaced.operator (Eq.symm same) operator
      rw [ends] at found_too
      cases found_too

/-- White space in front of a glyph, and what is behind the glyph. -/
theorem Spaced.skip_cons (same : Spaced text other) (skips : Curried.skip text = glyph :: rest)
    (visible : glyph.isBlank = false) :
    ∃ behind, Curried.skip other = glyph :: behind ∧ Spaced rest behind := by
  have skipped := same.skip
  rw [skips] at skipped
  exact skipped.of_cons visible

end

/-! ### Derivations -/

section
variable {room : Room} {phrase : Phrase} {text other rest : List Glyph}

/-- A phrase is derived from all texts of the same spacing, and what is behind it has the same
spacing again. -/
theorem Derives.of_spaced (derives : Derives room phrase text rest) (same : Spaced text other) :
    ∃ behind, Derives room phrase other behind ∧ Spaced rest behind := by
  -- a rule looks at its text glyph by glyph, or through `skip`, `operator?`, `run?` or `startsAtom`
  induction derives generalizing other with
  | expression _ _ first_ih links_ih =>
      obtain ⟨middle, first, middles⟩ := first_ih same
      obtain ⟨behind, links, rests⟩ := links_ih middles
      exact ⟨behind, .expression first links, rests⟩
  | stop ends => exact ⟨other, .stop (same.operator_eq_none ends), same⟩
  | link operator _ _ operand_ih links_ih =>
      obtain ⟨start, operator, starts⟩ := same.operator operator
      obtain ⟨middle, operand, middles⟩ := operand_ih starts
      obtain ⟨behind, links, rests⟩ := links_ih middles
      exact ⟨behind, .link operator operand links, rests⟩
  | application _ _ first_ih others_ih =>
      obtain ⟨middle, first, middles⟩ := first_ih same
      obtain ⟨behind, others, rests⟩ := others_ih middles
      exact ⟨behind, .application first others, rests⟩
  | done ends => exact ⟨other, .done (same.startsAtom_eq.trans ends), same⟩
  | more _ _ first_ih others_ih =>
      obtain ⟨middle, first, middles⟩ := first_ih same
      obtain ⟨behind, others, rests⟩ := others_ih middles
      exact ⟨behind, .more first others, rests⟩
  | atom _ core_ih =>
      obtain ⟨behind, core, rests⟩ := core_ih same.skip
      exact ⟨skip behind, .atom core, rests.skip⟩
  | number finite =>
      obtain ⟨behind, rfl, rests⟩ := same.of_cons rfl
      exact ⟨behind, .number finite, rests⟩
  | string free =>
      obtain ⟨behind, rfl, rests⟩ := same.of_cons rfl
      exact ⟨behind, .string free, rests⟩
  | constant member =>
      obtain ⟨behind, rfl, rests⟩ := same.of_cons rfl
      exact ⟨behind, .constant member, rests⟩
  | name is_name =>
      obtain ⟨behind, rfl, rests⟩ := same.of_cons rfl
      exact ⟨behind, .name is_name, rests⟩
  | operatorName enters run =>
      obtain ⟨inside, rfl, insides⟩ := same.of_cons rfl
      obtain ⟨closing, run, closings⟩ := insides.run run
      obtain ⟨behind, rfl, rests⟩ := closings.of_cons rfl
      exact ⟨behind, .operatorName enters run, rests⟩
  | group enters _ ih =>
      obtain ⟨inside, rfl, insides⟩ := same.of_cons rfl
      obtain ⟨closing, tree, closings⟩ := ih insides
      obtain ⟨behind, rfl, rests⟩ := closings.of_cons rfl
      exact ⟨behind, .group enters tree, rests⟩
  | list enters _ ih =>
      obtain ⟨inside, rfl, insides⟩ := same.of_cons rfl
      obtain ⟨behind, items, rests⟩ := ih insides.skip
      exact ⟨behind, .list enters items, rests⟩
  | noItems =>
      obtain ⟨behind, rfl, rests⟩ := same.of_cons rfl
      exact ⟨behind, .noItems, rests⟩
  | items _ _ first_ih others_ih =>
      obtain ⟨middle, first, middles⟩ := first_ih same
      obtain ⟨behind, others, rests⟩ := others_ih middles
      exact ⟨behind, .items first others, rests⟩
  | noOthers =>
      obtain ⟨behind, rfl, rests⟩ := same.of_cons rfl
      exact ⟨behind, .noOthers, rests⟩
  | others _ _ first_ih others_ih =>
      obtain ⟨inside, rfl, insides⟩ := same.of_cons rfl
      obtain ⟨middle, first, middles⟩ := first_ih insides
      obtain ⟨behind, others, rests⟩ := others_ih middles
      exact ⟨behind, .others first others, rests⟩
  | letIn enters is_name named equals _ _ bound_ih body_ih =>
      obtain ⟨inside, rfl, insides⟩ := same.of_cons rfl
      obtain ⟨afterName, named, names⟩ := insides.skip_cons named rfl
      obtain ⟨afterSign, equals, signs⟩ := names.skip_cons equals rfl
      obtain ⟨beforeIn, bound, keywords⟩ := bound_ih signs
      obtain ⟨afterBound, rfl, bodies⟩ := keywords.of_cons rfl
      obtain ⟨behind, body, rests⟩ := body_ih bodies
      exact ⟨behind, .letIn enters is_name named equals bound body, rests⟩
  | function enters is_name named _ _ declared_ih body_ih =>
      obtain ⟨inside, rfl, insides⟩ := same.of_cons rfl
      obtain ⟨afterName, named, names⟩ := insides.skip_cons named rfl
      obtain ⟨beforeArrow, declared, arrows⟩ := declared_ih names.skip
      obtain ⟨beforeTip, rfl, tips⟩ := arrows.of_cons rfl
      obtain ⟨afterArrow, rfl, results⟩ := tips.of_cons rfl
      obtain ⟨behind, body, rests⟩ := body_ih results
      exact ⟨behind, .function enters is_name named declared body, rests⟩
  | undeclared =>
      obtain ⟨behind, rfl, _⟩ := same.of_cons rfl
      exact ⟨mark '-' :: behind, .undeclared, same⟩
  | declared _ ih =>
      obtain ⟨inside, rfl, insides⟩ := same.of_cons rfl
      obtain ⟨closing, type, closings⟩ := ih insides
      obtain ⟨behind, rfl, rests⟩ := closings.of_cons rfl
      exact ⟨skip behind, .declared type, rests.skip⟩
  | type _ ih =>
      obtain ⟨closing, atom, closings⟩ := ih same
      obtain ⟨behind, rfl, _⟩ := closings.of_cons rfl
      exact ⟨mark ')' :: behind, .type atom, closings⟩
  | arrow enters _ _ parameter_ih result_ih =>
      obtain ⟨beforeArrow, parameter, arrows⟩ := parameter_ih same
      obtain ⟨beforeTip, rfl, tips⟩ := arrows.of_cons rfl
      obtain ⟨afterArrow, rfl, results⟩ := tips.of_cons rfl
      obtain ⟨behind, result, rests⟩ := result_ih results
      exact ⟨behind, .arrow enters parameter result, rests⟩
  | typeName is_word named =>
      obtain ⟨behind, named, rests⟩ := same.skip_cons named rfl
      exact ⟨skip behind, .typeName is_word named, rests.skip⟩
  | typeGroup enters opens _ ih =>
      obtain ⟨inside, opens, insides⟩ := same.skip_cons opens rfl
      obtain ⟨closing, type, closings⟩ := ih insides
      obtain ⟨behind, rfl, rests⟩ := closings.of_cons rfl
      exact ⟨skip behind, .typeGroup enters opens type, rests.skip⟩

/-- A text without white space in front that has the spacing of nothing is nothing. -/
theorem eq_nil_of_spaced (same : Spaced [] text) (trims : skip text = text) : text = [] := by
  cases text with
  | nil => rfl
  | cons glyph rest =>
      cases sees : glyph.isBlank with
      | true =>
          have shorter : (skip (glyph :: rest)).length ≤ rest.length := by
            rw [skip, List.dropWhile_cons_of_pos sees]
            exact length_skip_le rest
          rw [trims] at shorter
          exact absurd shorter (Nat.not_succ_le_self _)
      | false =>
          obtain ⟨_, none_left, _⟩ := Spaced.of_cons (Eq.symm same) sees
          cases none_left

/-- An expression that takes a text takes every text of the same spacing, white space in front
apart. -/
theorem Derives.whole_of_spaced {tree : Expression}
    (derives : Derives room (.expression tree) text [])
    (same : Spaced (skip text) (skip other)) : Derives room (.expression tree) other [] := by
  obtain ⟨behind, again, rests⟩ := (derives.expression_of_skip_eq (skip_skip text)).of_spaced same
  rw [eq_nil_of_spaced rests again.skip_expression] at again
  exact again.expression_of_skip

end

/-! ### The spacing of a layout -/

section
variable {text other : List Glyph} {items : List (Option (String × String × TokenValue))}

theorem Spaced.cons (same : Spaced text other) (glyph : Glyph) :
    Spaced (glyph :: text) (glyph :: other) := by
  cases glyph with
  | blank => exact congrArg gap same
  | _ => exact congrArg (List.cons _) same

theorem spaced_append_blank (text : List Glyph) : Spaced (text ++ [blank]) text := by
  induction text with
  | nil => rfl
  | cons glyph rest ih => exact ih.cons glyph

theorem spaced_blank_blank (text : List Glyph) : Spaced (blank :: blank :: text) (blank :: text) :=
  gap_gap _

/-- The gaps behind a gap do not count. -/
theorem spaced_dropWhile (items : List (Option (String × String × TokenValue))) :
    Spaced (blank :: (items.dropWhile Option.isNone).map Glyph.ofContent)
      (blank :: items.map Glyph.ofContent) := by
  induction items with
  | nil => rfl
  | cons item rest ih =>
      cases item with
      | some => rfl
      | none => exact ih.trans (spaced_blank_blank _).symm

theorem spaced_collapsed (items : List (Option (String × String × TokenValue))) :
    Spaced ((collapsed items).map Glyph.ofContent) (items.map Glyph.ofContent) := by
  induction items using collapsed.induct with
  | case1 => rw [collapsed]; rfl
  | case2 item rest ih =>
      rw [collapsed]
      exact ih.cons _
  | case3 rest ih =>
      rw [collapsed]
      exact (ih.cons blank).trans (spaced_dropWhile rest)

theorem spaced_rdropWhile (items : List (Option (String × String × TokenValue))) :
    Spaced ((items.rdropWhile Option.isNone).map Glyph.ofContent)
      (items.map Glyph.ofContent) := by
  induction items using List.reverseRecOn with
  | nil => rfl
  | append_singleton items item ih =>
      rw [List.rdropWhile_concat]
      cases item with
      | some => rfl
      | none =>
          rw [List.map_append]
          exact ih.trans (spaced_append_blank _).symm

theorem skip_dropWhile (items : List (Option (String × String × TokenValue))) :
    skip ((items.dropWhile Option.isNone).map Glyph.ofContent) =
      skip (items.map Glyph.ofContent) := by
  induction items with
  | nil => rfl
  | cons item rest ih =>
      cases item with
      | some => rfl
      | none => exact ih

/-- Tokens have the spacing of their layout, white space in front apart. -/
theorem spaced_layout {tokens : List Token} (standard : Standard tokens) :
    Spaced (skip ((Token.layout tokens).map Glyph.ofContent)) (skip (glyphs tokens)) := by
  rw [glyphs_eq_map standard, Token.layout, trimmed]
  refine (spaced_rdropWhile _).skip.trans ?_
  rw [skip_dropWhile]
  exact (spaced_collapsed _).skip

theorem spaced_of_layout_eq {tokens tokens' : List Token} (standard : Standard tokens)
    (standard' : Standard tokens') (same : Token.layout tokens = Token.layout tokens') :
    Spaced (skip (glyphs tokens)) (skip (glyphs tokens')) := by
  have first := spaced_layout standard
  rw [same] at first
  exact first.symm.trans (spaced_layout standard')

end

/-! ### Sources -/

section
variable {source source' : String} {tokens tokens' : List Token} {tree : Expression}

/-- A source with tokens has a tree or a syntax error. -/
theorem tree_or_error_of_lexed (lexed : tokenize Rule.standard source = .ok tokens) :
    (∃ tree, parse source = .ok tree) ∨ ∃ error, parse source = .error (.grammatical error) := by
  rw [parse_eq_parseUpTo]
  by_cases takes : ∃ tree behind, (Grammar.programUpTo (some Grammar.nestingLimit)).read (turnsFor tokens) 0
      tokens = .taken tree behind
  · obtain ⟨tree, behind, takes⟩ := takes
    exact .inl ⟨tree, (parseUpTo_eq_ok_iff lexed).2 ⟨behind, takes⟩⟩
  · obtain ⟨error, fails, _⟩ := error_of_read lexed
      (Grammar.program_decided (some Grammar.nestingLimit) (length_lt_turnsFor tokens))
      fun tree behind found => takes ⟨tree, behind, found⟩
    exact .inr ⟨error, fails⟩

theorem parse_of_spaced (lexed : tokenize Rule.standard source = .ok tokens)
    (lexed' : tokenize Rule.standard source' = .ok tokens')
    (same : Spaced (skip (glyphs tokens)) (skip (glyphs tokens')))
    (parses : parse source = .ok tree) : parse source' = .ok tree := by
  rw [parse_eq_parseUpTo] at parses ⊢
  obtain ⟨_, found, derives⟩ := parseUpTo_iff_derives.1 parses
  rw [lexed] at found
  cases found
  exact parseUpTo_iff_derives.2 ⟨tokens', lexed', derives.whole_of_spaced same⟩

/-- Two sources whose tokens have the same layout have the same tree, or both have a syntax error:
which white space there is between two tokens, and how much of it, never matters, nor does any
before the first token and behind the last one. -/
theorem parse_of_layout_eq (lexed : tokenize Rule.standard source = .ok tokens)
    (lexed' : tokenize Rule.standard source' = .ok tokens')
    (same : Token.layout tokens = Token.layout tokens') :
    (∃ tree, parse source = .ok tree ∧ parse source' = .ok tree) ∨
      ∃ error error', parse source = .error (.grammatical error) ∧
        parse source' = .error (.grammatical error') := by
  have spaced := spaced_of_layout_eq (standard_of_tokenize lexed) (standard_of_tokenize lexed') same
  rcases tree_or_error_of_lexed lexed with ⟨tree, parses⟩ | ⟨error, fails⟩
  · exact .inl ⟨tree, parses, parse_of_spaced lexed lexed' spaced parses⟩
  rcases tree_or_error_of_lexed lexed' with ⟨tree, parses⟩ | ⟨error', fails'⟩
  · rw [parse_of_spaced lexed' lexed (Eq.symm spaced) parses] at fails
    cases fails
  · exact .inr ⟨error, error', fails, fails'⟩

/-- White space of other kinds and lengths, in front and behind as well. -/
theorem parse_of_layout_eq_letIn :
    ∃ tokens tokens', tokenize Rule.standard "let f = (+) a in f  [b , c]" = .ok tokens ∧
      tokenize Rule.standard "\n let\tf\n =   (+)\ta\n\n\tin f\t[b\n, c] \n" = .ok tokens' ∧
      Token.layout tokens = Token.layout tokens' ∧
      ∃ tree, parse "let f = (+) a in f  [b , c]" = .ok tree ∧
        parse "\n let\tf\n =   (+)\ta\n\n\tin f\t[b\n, c] \n" = .ok tree := by
  have checked : (match tokenize Rule.standard "let f = (+) a in f  [b , c]",
      tokenize Rule.standard "\n let\tf\n =   (+)\ta\n\n\tin f\t[b\n, c] \n",
      parse "let f = (+) a in f  [b , c]" with
    | .ok tokens, .ok tokens', .ok _ => decide (Token.layout tokens = Token.layout tokens')
    | _, _, _ => false) = true := by decide +kernel
  split at checked
  · rename_i tokens tokens' tree lexed lexed' parses
    have same := of_decide_eq_true checked
    refine ⟨tokens, tokens', lexed, lexed', same, ?_⟩
    rcases parse_of_layout_eq lexed lexed' same with found | ⟨_, _, fails, _⟩
    · exact found
    · rw [parses] at fails
      cases fails
  · cases checked

end

end Curried
