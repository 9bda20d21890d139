import Mathlib.Data.List.Forall2
import Curried.Proofs.Grammar.Nesting
import Curried.Proofs.Grammar.RoundTrip
import Curried.Proofs.Number.Numeral

/-!
# No token is lost, added or reordered

A tree spells its glyphs from left to right, white space apart: an operator between its operands,
however the chain was folded.  What a phrase is derived from is what its tree spells, so the
tokens of a source and those of the rendered tree both are the tokens that the tree spells.
-/

namespace Curried

open Expression
open Glyph (mark word)

/-! ### Glyphs and what they say -/

namespace Glyph

/-- The kind and the value of a token that is seen as the glyph. -/
def lexeme? : Glyph → Option (String × TokenValue)
  | .blank | .number none => none
  | .number (some value) => some (Kind.number, .number value)
  | .string content => some (Kind.string, .text content)
  | .word text => some (Kind.identifier, .text text)
  | .mark symbol => some (Kind.symbol, .text (String.singleton symbol))

/-- Two glyphs of the same kind with equal values. -/
def Alike (glyph other : Glyph) : Prop :=
  ∃ kind value value', glyph.lexeme? = some (kind, value) ∧ other.lexeme? = some (kind, value') ∧
    (value == value') = true

theorem alike_number {value value' : Float} (same : (value == value') = true) :
    Alike (.number (some value)) (.number (some value')) :=
  ⟨_, _, _, rfl, rfl, same⟩

theorem alike_text {glyph : Glyph} {kind content : String}
    (lexeme : glyph.lexeme? = some (kind, .text content)) : glyph.Alike glyph :=
  ⟨_, _, _, lexeme, lexeme, beq_self_eq_true content⟩

theorem alike_word (text : String) : Alike (.word text) (.word text) := alike_text rfl

theorem alike_mark (symbol : Char) : Alike (.mark symbol) (.mark symbol) := alike_text rfl

theorem alike_string (content : String) : Alike (.string content) (.string content) :=
  alike_text rfl

theorem alike_marks (symbols : List Char) :
    List.Forall₂ Alike (symbols.map mark) (symbols.map mark) := by
  refine List.forall₂_same.2 fun glyph member => ?_
  obtain ⟨symbol, _, rfl⟩ := List.mem_map.1 member
  exact alike_mark symbol

/-- A text without its white space. -/
def solid (text : List Glyph) : List Glyph := text.filter fun glyph => !glyph.isBlank

end Glyph

open Glyph (solid Alike)

section
variable {text behind rest : List Glyph} {symbol : String}

@[simp]
theorem solid_nil : solid [] = [] := rfl

@[simp]
theorem solid_word (name : String) (text : List Glyph) :
    solid (.word name :: text) = .word name :: solid text := rfl

@[simp]
theorem solid_mark (symbol : Char) (text : List Glyph) :
    solid (.mark symbol :: text) = .mark symbol :: solid text := rfl

@[simp]
theorem solid_append (front text : List Glyph) : solid (front ++ text) = solid front ++ solid text :=
  List.filter_append ..

@[simp]
theorem solid_marks (symbols : List Char) : solid (symbols.map mark) = symbols.map mark := by
  induction symbols with
  | nil => rfl
  | cons symbol others ih => rw [List.map_cons, solid_mark, ih]

@[simp]
theorem solid_skip (text : List Glyph) : solid (skip text) = solid text := by
  induction text with
  | nil => rfl
  | cons glyph others ih =>
      cases glyph with
      | blank => exact ih
      | _ => rfl

theorem solid_of_skip (skips : skip text = rest) : solid text = solid rest := by
  rw [← skips, solid_skip]

theorem solid_of_operator (operator : operator? text = some (symbol, behind)) :
    solid text = symbol.toList.map mark ++ solid behind := by
  rw [eq_of_run (Option.filter_eq_some_iff.1 operator).1, solid_append, solid_marks]

end

/-! ### What trees spell -/

namespace Expression

/-- The glyphs of a name, which is a word or an operator in parentheses. -/
def spelledName (name : String) : List Glyph :=
  if isOperatorName name then name.toList.map mark else [word name]

mutual

/-- The glyphs of a tree without annotated types, from left to right. -/
def spelled : Expression → List Glyph
  | .number value => [.number (some value)]
  | .string content => [.string content]
  | .boolean value => [word (if value then "true" else "false")]
  | .null => [word "null"]
  | .list items => mark '[' :: (spelledItems items ++ [mark ']'])
  | .identifier name => spelledName name
  | .operator symbol => symbol.toList.map mark
  | .apply callee argument => callee.spelled ++ argument.spelled
  | .applyInfix sign operand => operand.spelled ++ sign.spelled
  | .letIn name bound body =>
      word "let" :: word name :: mark '=' :: (bound.spelled ++ word "in" :: body.spelled)
  | .function parameter _ body =>
      mark '\\' :: word parameter :: mark '-' :: mark '>' :: body.spelled
  | .group inner => mark '(' :: (inner.spelled ++ [mark ')'])

/-- The glyphs of the items of a list, with commas between them. -/
def spelledItems : List Expression → List Glyph
  | [] => []
  | [item] => item.spelled
  | item :: others => item.spelled ++ mark ',' :: spelledItems others

end

/-- The glyphs of the operators and operands behind the first operand of a chain. -/
def spelledLinks (links : List (String × Expression)) : List Glyph :=
  links.flatMap fun part => part.1.toList.map mark ++ part.2.spelled

/-- The glyphs of the items behind the first item of a list. -/
def spelledOthers (trees : List Expression) : List Glyph :=
  trees.flatMap fun tree => mark ',' :: tree.spelled

variable {first : Expression}

/-- A chain is spelled from left to right, however it is folded. -/
theorem spelled_chain (links : List (String × Expression)) :
    (first.chain links).spelled = first.spelled ++ spelledLinks links := by
  have flat : (first.chain links).spelled = first.spelled ++
      (links.map link).flatMap fun link => link.operator.spelled ++ link.operand.spelled := by
    refine Link.flatten_fold spelled (fun link => link.operator.spelled)
      fun link member left right => ?_
    obtain ⟨part, _, rfl⟩ := List.mem_map.1 member
    simp [Expression.link, Grammar.joint, binary, spelled]
  rw [flat, spelledLinks, List.flatMap_map]
  simp [link, spelled]

theorem spelled_foldl_apply (others : List Expression) :
    (others.foldl .apply first).spelled = first.spelled ++ others.flatMap spelled := by
  induction others generalizing first with
  | nil => simp
  | cons other others ih =>
      rw [List.foldl_cons, ih]
      simp [spelled]

theorem spelledItems_cons (others : List Expression) :
    spelledItems (first :: others) = first.spelled ++ spelledOthers others := by
  induction others generalizing first with
  | nil => simp [spelledItems, spelledOthers]
  | cons other others ih =>
      rw [spelledItems, ih]
      · simp [spelledOthers]
      · simp

theorem spelledName_operatorName (symbol : String) :
    spelledName (operatorName symbol) = mark '(' :: (symbol.toList.map mark ++ [mark ')']) := by
  rw [spelledName, if_pos (isOperatorName_operatorName symbol)]
  simp [operatorName]

/-! ### Equal trees -/

/-- Equal trees have annotated types in the same places. -/
theorem congruence_bare : Congruence (fun again tree => again.bare = tree.bare)
    fun agains trees => bareItems agains = bareItems trees where
  number _ := rfl
  string _ := rfl
  boolean _ := rfl
  null := rfl
  identifier _ := rfl
  operator _ := rfl
  list insides := insides
  apply callees arguments := by rw [bare, bare, callees, arguments]
  applyInfix signs operands := by rw [bare, bare, signs, operands]
  letIn _ _ _ _ _ bounds bodies := by rw [bare, bare, bounds, bodies]
  function _ _ _ _ bodies := by rw [bare, bare, bodies]
  group inners := inners
  noItems := rfl
  items firsts others := by rw [bareItems, bareItems, firsts, others]

/-- Equal trees spell the same, with numbers compared as doubles are. -/
theorem congruence_spelled :
    Congruence (fun again tree => List.Forall₂ Alike again.spelled tree.spelled)
      fun agains trees => List.Forall₂ Alike (spelledItems agains) (spelledItems trees) ∧
        List.Forall₂ Alike (spelledOthers agains) (spelledOthers trees) where
  number same := .cons (Glyph.alike_number same) .nil
  string _ := .cons (Glyph.alike_string _) .nil
  boolean _ := .cons (Glyph.alike_word _) .nil
  null := .cons (Glyph.alike_word _) .nil
  identifier name := by
    rw [spelled, spelledName]
    split
    · exact Glyph.alike_marks _
    · exact .cons (Glyph.alike_word _) .nil
  operator symbol := Glyph.alike_marks symbol.toList
  list insides := .cons (Glyph.alike_mark _)
    (List.rel_append insides.1 (.cons (Glyph.alike_mark _) .nil))
  apply callees arguments := List.rel_append callees arguments
  applyInfix signs operands := List.rel_append operands signs
  letIn _ _ _ _ _ bounds bodies := .cons (Glyph.alike_word _) (.cons (Glyph.alike_word _)
    (.cons (Glyph.alike_mark _) (List.rel_append bounds (.cons (Glyph.alike_word _) bodies))))
  function _ _ _ _ bodies := .cons (Glyph.alike_mark _) (.cons (Glyph.alike_word _)
    (.cons (Glyph.alike_mark _) (.cons (Glyph.alike_mark _) bodies)))
  group inners := .cons (Glyph.alike_mark _)
    (List.rel_append inners (.cons (Glyph.alike_mark _) .nil))
  noItems := ⟨.nil, .nil⟩
  items firsts others := by
    rw [spelledItems_cons, spelledItems_cons]
    exact ⟨List.rel_append firsts others.2,
      .cons (Glyph.alike_mark _) (List.rel_append firsts others.2)⟩

end Expression

/-! ### What phrases are derived from -/

/-- The glyphs of a phrase without annotated types, with the closing bracket of a list. -/
def Phrase.spelled : Phrase → List Glyph
  | .expression tree | .application tree | .atom tree | .core tree => tree.spelled
  | .links found => spelledLinks found
  | .atoms trees => trees.flatMap Expression.spelled
  | .items trees => spelledItems trees ++ [mark ']']
  | .others trees => spelledOthers trees ++ [mark ']']
  | .parameterType _ | .type _ | .typeAtom _ => []

/-- A phrase is derived from what it spells, white space apart. -/
theorem Derives.solid_eq {room : Room} {phrase : Phrase} {text rest : List Glyph}
    (derives : Derives room phrase text rest) (bare : phrase.Bare) :
    solid text = phrase.spelled ++ solid rest := by
  induction derives with
  | expression _ _ first others =>
      obtain ⟨first_bare, others_bare⟩ :=
        (Expression.chain_iff (·.bare = true) bare_binary_iff).1 bare
      rw [first first_bare, others others_bare]
      simp [Phrase.spelled, spelled_chain]
  | stop | done => rfl
  | link operator _ _ operand others =>
      obtain ⟨operand_bare, others_bare⟩ := List.forall_mem_cons.1 bare
      rw [solid_of_operator operator, operand operand_bare, others others_bare]
      simp [Phrase.spelled, spelledLinks]
  | application _ _ first others =>
      obtain ⟨first_bare, others_bare⟩ :=
        (Expression.foldl_apply_iff (·.bare = true) bare_apply_iff).1 bare
      rw [first first_bare, others others_bare]
      simp [Phrase.spelled, spelled_foldl_apply]
  | more _ _ first others =>
      obtain ⟨first_bare, others_bare⟩ := List.forall_mem_cons.1 bare
      rw [first first_bare, others others_bare]
      simp [Phrase.spelled]
  | @atom _ _ text rest _ ih =>
      rw [← solid_skip text, solid_skip rest]
      exact ih bare
  | number | string => rfl
  | constant member =>
      rcases constant_cases member with ⟨rfl, rfl⟩ | ⟨rfl, rfl⟩ | ⟨rfl, rfl⟩
      all_goals rfl
  | name is_name =>
      simp [Phrase.spelled, spelled, spelledName, is_name.1.isOperatorName]
  | operatorName _ run =>
      rw [solid_mark, eq_of_run run, solid_append, solid_marks, solid_mark]
      simp [Phrase.spelled, spelled, spelledName_operatorName]
  | group _ _ ih =>
      rw [solid_mark, ih bare]
      simp [Phrase.spelled, spelled]
  | @list _ _ _ text _ _ _ ih =>
      rw [solid_mark, ← solid_skip text, ih (Expression.bareItems_iff.1 bare)]
      simp [Phrase.spelled, spelled]
  | noItems | noOthers => rfl
  | items _ _ first others =>
      obtain ⟨first_bare, others_bare⟩ := List.forall_mem_cons.1 bare
      rw [first first_bare, others others_bare]
      simp [Phrase.spelled, spelledItems_cons]
  | others _ _ first others =>
      obtain ⟨first_bare, others_bare⟩ := List.forall_mem_cons.1 bare
      rw [solid_mark, first first_bare, others others_bare]
      simp [Phrase.spelled, spelledOthers]
  | letIn _ _ named equals _ _ bound body =>
      obtain ⟨bound_bare, body_bare⟩ := Bool.and_eq_true_iff.1 bare
      rw [solid_word, solid_of_skip named, solid_word, solid_of_skip equals, solid_mark,
        bound bound_bare, solid_word, body body_bare]
      simp [Phrase.spelled, spelled]
  | @function _ _ _ _ _ _ afterName _ _ _ _ named _ _ declared body =>
      obtain ⟨undeclared, body_bare⟩ := Bool.and_eq_true_iff.1 bare
      rw [solid_mark, solid_of_skip named, solid_word, ← solid_skip afterName,
        declared (Option.isNone_iff_eq_none.1 undeclared), solid_mark, solid_mark, body body_bare]
      simp [Phrase.spelled, spelled]
  | undeclared => rfl
  | declared => cases bare
  | type | arrow | typeName | typeGroup => exact bare.elim

/-! ### Tokens -/

namespace Token

/-- A token that is no white space. -/
def isSolid (token : Token) : Bool := !Kind.blanks.contains token.kind

/-- Two tokens of the same kind with equal values. -/
def Alike (token other : Token) : Prop :=
  token.kind = other.kind ∧ (token.value == other.value) = true

variable {token other : Token}

theorem Standard.isSolid_eq (standard : token.Standard) : token.isSolid = !token.glyph.isBlank := by
  rw [← standard.blank_test]
  simp only [isSolid, Kind.blanks, List.contains_cons, List.contains_nil, Bool.or_false]

/-- Only a number has a value that is not its text. -/
theorem value_of_recognise {rule : Rule} (among : rule ∈ Rule.standard) {rest : List Char}
    {span : Span} {place : Place} (kind : (rule.token span rest place).kind ≠ Kind.number) :
    (rule.token span rest place).value = .text (rule.token span rest place).text := by
  simp only [Rule.standard, List.mem_cons, List.not_mem_nil, or_false] at among
  rcases among with rfl | rfl | rfl | rfl | rfl | rfl | rfl
  case inr.inr.inr.inl => exact absurd rfl kind
  all_goals rfl

theorem value_of_tokenize {source : String} {tokens : List Token}
    (found : tokenize Rule.standard source = .ok tokens) :
    ∀ token ∈ tokens, token.kind ≠ Kind.number → token.value = .text token.text :=
  forall_of_tokensFrom (fun _ among _ _ _ _ => value_of_recognise among) found

/-- A token says what its glyph says. -/
theorem Standard.lexeme_eq (standard : token.Standard)
    (plain : token.kind ≠ Kind.number → token.value = .text token.text) {kind : String}
    {value : TokenValue} (lexeme : token.glyph.lexeme? = some (kind, value)) :
    token.kind = kind ∧ token.value = value := by
  cases standard with
  | blank blank_kind =>
      rw [glyph_of_blank blank_kind] at lexeme
      cases lexeme
  | number number_kind =>
      rw [glyph_of_number number_kind] at lexeme
      cases finite : Grammar.finiteNumber? token with
      | none =>
          rw [finite] at lexeme
          cases lexeme
      | some number =>
          rw [finite] at lexeme
          cases lexeme
          refine ⟨number_kind, ?_⟩
          obtain ⟨carries, _⟩ := Option.filter_eq_some_iff.1 finite
          cases carried : token.value with
          | number other =>
              rw [carried] at carries
              cases carries
              rfl
          | text _ =>
              rw [carried] at carries
              cases carries
  | string string_kind _ =>
      rw [glyph_of_string string_kind] at lexeme
      cases lexeme
      exact ⟨string_kind, plain (by rw [string_kind]; decide)⟩
  | word word_kind carried _ =>
      rw [glyph_of_word word_kind] at lexeme
      cases lexeme
      exact ⟨word_kind, carried⟩
  | mark symbol symbol_kind text carried _ =>
      rw [glyph_of_mark symbol_kind text] at lexeme
      cases lexeme
      exact ⟨symbol_kind, carried.trans (by rw [text])⟩

end Token

/-- The glyphs of the tokens that are no white space. -/
theorem solid_glyphs {tokens : List Token} (standard : Standard tokens) :
    solid (glyphs tokens) = (tokens.filter Token.isSolid).map Token.glyph := by
  rw [glyphs, solid, List.filter_map]
  congr 1
  exact List.filter_congr fun token member => (standard token member).isSolid_eq.symm

/-- Tokens of two sources that are seen as like glyphs are alike. -/
theorem alike_of_glyphs {source source' : String} {tokens tokens' : List Token}
    (lexed : tokenize Rule.standard source = .ok tokens)
    (lexed' : tokenize Rule.standard source' = .ok tokens')
    (alike : List.Forall₂ Alike (solid (glyphs tokens)) (solid (glyphs tokens'))) :
    List.Forall₂ Token.Alike (tokens.filter Token.isSolid) (tokens'.filter Token.isSolid) := by
  have standard := standard_of_tokenize lexed
  have standard' := standard_of_tokenize lexed'
  rw [solid_glyphs standard, solid_glyphs standard', List.forall₂_map_left_iff,
    List.forall₂_map_right_iff, List.forall₂_iff_zip] at alike
  obtain ⟨lengths, each⟩ := alike
  refine List.forall₂_iff_zip.2 ⟨lengths, fun pair => ?_⟩
  obtain ⟨kind, value, value', lexeme, lexeme', same⟩ := each pair
  have among := List.mem_of_mem_filter (List.of_mem_zip pair).1
  have among' := List.mem_of_mem_filter (List.of_mem_zip pair).2
  obtain ⟨rfl, rfl⟩ :=
    (standard _ among).lexeme_eq (Token.value_of_tokenize lexed _ among) lexeme
  obtain ⟨kinds, rfl⟩ :=
    (standard' _ among').lexeme_eq (Token.value_of_tokenize lexed' _ among') lexeme'
  exact ⟨kinds.symm, same⟩

/-- White space apart, the tokens of a rendered tree are those of the source that it was parsed
from, with numbers compared as doubles are, if the finite numbers in the tree are read back from
their own texts as equal ones. -/
theorem tokens_of_render {source : String} {tree : Expression} (parses : parse source = .ok tree)
    (bare : tree.bare = true)
    (numbers : ∀ value ∈ tree.numbers, value.isFinite = true →
      ∃ again, Number.read? (Number.format value) = some again ∧ (again == value) = true) :
    ∃ tokens again, tokenize Rule.standard source = .ok tokens ∧
      tokenize Rule.standard tree.render = .ok again ∧
      List.Forall₂ Token.Alike (again.filter Token.isSolid) (tokens.filter Token.isSolid) := by
  rw [parse_eq_parseUpTo] at parses
  obtain ⟨tokens, lexed, derives⟩ := parseUpTo_iff_derives.1 parses
  have reads_back : tree.NumbersReadBack := by
    intro value among finite
    obtain ⟨again, reads, same⟩ := numbers value among finite
    exact ⟨again, Number.numeral_format finite, reads, same⟩
  obtain ⟨read, text, written, reads⟩ := derives.readBack reads_back
  obtain ⟨again, lexed_again, glyphs_eq⟩ := written.writes [] [] separates_nil spells_nil .start
  rw [List.append_nil] at lexed_again
  refine ⟨tokens, again, lexed, lexed_again, alike_of_glyphs lexed_again lexed ?_⟩
  have read_bare : read.bare = true := (congruence_bare.of_same written.same).trans bare
  have rendered : solid (glyphs again) = read.spelled ++ solid [] := by
    rw [glyphs_eq]
    exact (reads [] follows_nil).solid_eq read_bare
  have parsed : solid (glyphs tokens) = tree.spelled ++ solid [] := derives.solid_eq bare
  rw [rendered, parsed, solid_nil, List.append_nil, List.append_nil]
  exact congruence_spelled.of_same written.same

/-- The spaces that are missing in front of a sign and behind commas are all that is added. -/
theorem tokens_of_render_letIn :
    ∃ tree tokens again, parse "let f = \\x -> x 1--2.5*x in [f,`a` ,(+) ]" = .ok tree ∧
      tree.bare = true ∧
      (∀ value ∈ tree.numbers, value.isFinite = true →
        ∃ again, Number.read? (Number.format value) = some again ∧ (again == value) = true) ∧
      tokenize Rule.standard "let f = \\x -> x 1--2.5*x in [f,`a` ,(+) ]" = .ok tokens ∧
      tokenize Rule.standard tree.render = .ok again ∧
      List.Forall₂ Token.Alike (again.filter Token.isSolid) (tokens.filter Token.isSolid) := by
  have checked : (match parse "let f = \\x -> x 1--2.5*x in [f,`a` ,(+) ]" with
    | .ok tree => tree.bare && decide (∀ value ∈ tree.numbers, value.isFinite = true →
        ∃ again, Number.ReadsBack value again)
    | .error _ => false) = true := by decide +kernel
  cases parses : parse "let f = \\x -> x 1--2.5*x in [f,`a` ,(+) ]" with
  | error _ => simp [parses] at checked
  | ok tree =>
      rw [parses, Bool.and_eq_true_iff, decide_eq_true_iff] at checked
      obtain ⟨bare, reads_back⟩ := checked
      have numbers : ∀ value ∈ tree.numbers, value.isFinite = true →
          ∃ again, Number.read? (Number.format value) = some again ∧ (again == value) = true := by
        intro value among finite
        obtain ⟨again, _, reads, same⟩ := reads_back value among finite
        exact ⟨again, reads, same⟩
      obtain ⟨tokens, again, lexed, lexed_again, alike⟩ := tokens_of_render parses bare numbers
      exact ⟨tree, tokens, again, rfl, bare, numbers, lexed, lexed_again, alike⟩

end Curried
