import Curried.Proofs.Grammar.Derivation
import Curried.Proofs.Grammar.Spelling

/-!
# Writing glyphs

Characters write a text if they spell it in front of every character that can come next: a space,
a closing bracket or a comma.  What is written in front of a space is never read together with
what comes behind it, so longer texts are written piece by piece.
-/

namespace Curried

open Glyph (blank mark word)

/-- Characters that go on with nothing. -/
def separators : List Char := [' ', ')', ']', ',']

/-- The characters are at their end or start with a separator. -/
def Separates (tail : List Char) : Prop := ∀ c ∈ tail.head?, c ∈ separators

/-- The characters spell the text in front of whatever separates it from what comes next. -/
def Writes (chars : List Char) (text : List Glyph) : Prop :=
  ∀ tail behind, Separates tail → Spells tail behind → Spells (chars ++ tail) (text ++ behind)

/-- A text that does not start with white space. -/
def Visible (text : List Glyph) : Prop :=
  ∃ glyph others, text = glyph :: others ∧ glyph.isBlank = false

variable {chars chars' tail : List Char} {text text' behind : List Glyph} {c : Char}

/-! ### What separates -/

theorem separates_nil : Separates [] := by
  intro c member
  cases member

theorem separates_cons (member : c ∈ separators) : Separates (c :: tail) := by
  intro d same
  cases same
  exact member

theorem Separates.append (front : Separates chars) (separates : Separates tail) :
    Separates (chars ++ tail) := by
  cases chars with
  | nil => exact separates
  | cons c others => exact separates_cons (front c rfl)

/-- Pieces that all start with a separator. -/
theorem separates_flatMap {α : Type} (member : c ∈ separators) (pieces : α → List Char)
    (parts : List α) : Separates (parts.flatMap fun part => c :: pieces part) := by
  cases parts with
  | nil => exact separates_nil
  | cons part parts => exact separates_cons member

/-- A separator goes on with no word and no number. -/
theorem facts_of_separator (member : c ∈ separators) :
    Rule.continuesWord c = false ∧ c.isDigit = false ∧ c ≠ '.' := by
  have all : separators.all (fun c => !Rule.continuesWord c && !c.isDigit && c != '.') = true := by
    decide
  have facts := List.all_eq_true.1 all c member
  simp only [Bool.and_eq_true, Bool.not_eq_true', bne_iff_ne] at facts
  exact ⟨facts.1.1, facts.1.2, facts.2⟩

theorem Visible.append (visible : Visible text) : Visible (text ++ behind) := by
  obtain ⟨glyph, others, rfl, other⟩ := visible
  exact ⟨glyph, others ++ behind, rfl, other⟩

theorem Visible.skip_eq (visible : Visible text) : skip text = text := by
  obtain ⟨glyph, others, rfl, other⟩ := visible
  simp [skip, other]

theorem visible_of_startsAtom (starts : startsAtom text = true) : Visible text := by
  cases text with
  | nil => cases starts
  | cons glyph others =>
      cases glyph with
      | blank => cases starts
      | _ => exact ⟨_, others, rfl, rfl⟩

/-! ### Pieces -/

theorem writes_word {word : String} (is_word : IsWord word) : Writes word.toList [.word word] := by
  intro tail behind separates spells
  have ends : ∀ d ∈ tail.head?, Rule.continuesWord d = false := fun d member =>
    (facts_of_separator (separates d member)).1
  exact spells_word is_word ends spells

theorem writes_string {content : String} (free : Rule.quote ∉ content.toList) :
    Writes (Expression.quoted content).toList [.string content] := by
  intro tail behind _ spells
  exact spells_string free spells

theorem writes_number {value again : Float} (number : Number.ReadsBack value again)
    (limited : value.isFinite = true) :
    Writes (Number.format value).toList [.number (some again)] := by
  intro tail behind separates spells
  have ends : ∀ d ∈ tail.head?, d.isDigit = false ∧ d ≠ '.' := fun d member =>
    (facts_of_separator (separates d member)).2
  exact spells_number number limited ends spells

theorem isWord_of_keyword {word : String} (member : word ∈ Grammar.keywords) : IsWord word := by
  simp only [Grammar.keywords, List.mem_cons, List.not_mem_nil, or_false] at member
  rcases member with rfl | rfl | rfl | rfl | rfl
  · exact ⟨'t', ['r', 'u', 'e'], by decide, by decide, List.all_eq_true.1 (by decide)⟩
  · exact ⟨'f', ['a', 'l', 's', 'e'], by decide, by decide, List.all_eq_true.1 (by decide)⟩
  · exact ⟨'n', ['u', 'l', 'l'], by decide, by decide, List.all_eq_true.1 (by decide)⟩
  · exact ⟨'l', ['e', 't'], by decide, by decide, List.all_eq_true.1 (by decide)⟩
  · exact ⟨'i', ['n'], by decide, by decide, List.all_eq_true.1 (by decide)⟩

theorem writes_keyword {word : String} (member : word ∈ Grammar.keywords) :
    Writes word.toList [.word word] :=
  writes_word (isWord_of_keyword member)

/-- Symbols in a row, as in an arrow or an operator. -/
theorem writes_marks (symbols : List Char) (all : symbols.all Rule.symbols.contains = true) :
    Writes symbols (symbols.map mark) := by
  intro tail behind separates spells
  induction symbols with
  | nil => exact spells
  | cons c others ih =>
      obtain ⟨first, rest⟩ : c ∈ Rule.symbols ∧ others.all Rule.symbols.contains = true := by
        simpa using all
      refine spells_mark first ?_ (ih rest)
      rintro - d member
      cases others with
      | nil => exact (facts_of_separator (separates d member)).2.1
      | cons e others =>
          obtain rfl : e = d := by simpa using member
          have among : e ∈ Rule.symbols := by
            rw [List.all_cons, Bool.and_eq_true_iff, List.contains_iff_mem] at rest
            exact rest.1
          exact (Rule.facts_of_symbol among).2.1

theorem writes_arrow : Writes ['-', '>'] [mark '-', mark '>'] :=
  writes_marks ['-', '>'] (by decide)

/-! ### Putting pieces together -/

theorem writes_nil : Writes [] [] := fun _ _ _ spells => spells

/-- A piece behind another one, from which it is separated. -/
theorem Writes.append (first : Writes chars text) (second : Writes chars' text')
    (separates : Separates chars') : Writes (chars ++ chars') (text ++ text') := by
  intro tail behind tail_separates spells
  rw [List.append_assoc, List.append_assoc]
  exact first _ _ (separates.append tail_separates) (second _ _ tail_separates spells)

/-- A space in front of a piece. -/
theorem Writes.behind_space (piece : Writes chars text) (visible : Visible text) :
    Writes (' ' :: chars) (blank :: text) := by
  intro tail behind separates spells
  have others := piece tail behind separates spells
  obtain ⟨glyph, glyphs, rfl, other⟩ := visible
  exact spells_blank others other

/-- A symbol other than a minus sign in front of a piece. -/
theorem Writes.behind_mark (piece : Writes chars text) (member : c ∈ Rule.symbols)
    (sign : c ≠ '-') : Writes (c :: chars) (mark c :: text) := by
  intro tail behind separates spells
  exact spells_mark member (fun same => absurd same sign) (piece tail behind separates spells)

/-- A space between two pieces. -/
theorem Writes.spaced (first : Writes chars text) (second : Writes chars' text')
    (visible : Visible text') : Writes (chars ++ ' ' :: chars') (text ++ blank :: text') :=
  first.append (second.behind_space visible) (separates_cons (by decide))

/-- A piece between brackets. -/
theorem Writes.bracketed {opening closing : Char} (piece : Writes chars text)
    (opens : opening ∈ Rule.symbols) (closes : closing ∈ Rule.symbols) (sign : opening ≠ '-')
    (separator : closing ∈ separators) :
    Writes (opening :: (chars ++ [closing])) (mark opening :: (text ++ [mark closing])) := by
  have other : closing ≠ '-' := by
    rintro rfl
    exact absurd separator (by decide)
  have behind : Writes [closing] [mark closing] := writes_nil.behind_mark closes other
  exact (piece.append behind (separates_cons separator)).behind_mark opens sign

theorem Writes.parenthesized (piece : Writes chars text) :
    Writes ('(' :: (chars ++ [')'])) (mark '(' :: (text ++ [mark ')'])) :=
  piece.bracketed (by decide) (by decide) (by decide) (by decide)

/-! ### Operators -/

/-- A run of operator symbols is made of operator symbols. -/
theorem operators_of_run {symbol : String} (run : run? text = some (symbol, behind)) :
    symbol.toList ≠ [] ∧ ∀ c ∈ symbol.toList, Grammar.operatorSymbols.contains c = true := by
  unfold run? at run
  split at run
  · cases run
  · rename_i nonempty
    obtain ⟨rfl, rfl⟩ : _ ∧ _ := by simpa using run
    refine ⟨by simpa using nonempty, fun c member => ?_⟩
    rw [String.toList_ofList] at member
    obtain ⟨glyph, taken, rfl⟩ := List.mem_map.1 member
    have operator := List.all_eq_true.1 List.all_takeWhile glyph taken
    cases glyph with
    | mark c => exact operator
    | _ => cases operator

/-- A run and what is behind it make up the text. -/
theorem eq_of_run {symbol : String} (run : run? text = some (symbol, behind)) :
    text = symbol.toList.map mark ++ behind := by
  unfold run? at run
  split at run
  · cases run
  · obtain ⟨rfl, rfl⟩ : _ ∧ _ := by simpa using run
    have marks : ∀ glyph ∈ text.takeWhile Glyph.isOperator, mark glyph.symbol = glyph := by
      intro glyph member
      have operator := List.all_eq_true.1 List.all_takeWhile glyph member
      cases glyph with
      | mark _ => rfl
      | _ => cases operator
    have taken : (text.takeWhile Glyph.isOperator).map (mark ∘ Glyph.symbol) =
        text.takeWhile Glyph.isOperator :=
      (List.map_congr_left marks).trans (List.map_id _)
    rw [String.toList_ofList, List.map_map, taken, List.takeWhile_append_dropWhile]

theorem isOperator_of_marks {symbols : List Char}
    (all : ∀ c ∈ symbols, Grammar.operatorSymbols.contains c = true) :
    ∀ glyph ∈ symbols.map Glyph.mark, glyph.isOperator = true := by
  intro glyph member
  obtain ⟨c, among, rfl⟩ := List.mem_map.1 member
  exact all c among

/-- Operator symbols are a run, whatever other glyph stands behind them. -/
theorem run_of_operators {symbol : String} (nonempty : symbol.toList ≠ [])
    (all : ∀ c ∈ symbol.toList, Grammar.operatorSymbols.contains c = true) {rest : List Glyph}
    (ends : ∀ glyph ∈ rest.head?, glyph.isOperator = false) :
    run? (symbol.toList.map mark ++ rest) = some (symbol, rest) := by
  have operators := isOperator_of_marks all
  have taken : (symbol.toList.map Glyph.mark ++ rest).takeWhile Glyph.isOperator =
      symbol.toList.map mark :=
    Rule.takeWhile_run operators ends
  have dropped : (symbol.toList.map Glyph.mark ++ rest).dropWhile Glyph.isOperator = rest := by
    have pieces := List.takeWhile_append_dropWhile (p := Glyph.isOperator)
      (l := symbol.toList.map Glyph.mark ++ rest)
    rw [taken] at pieces
    exact List.append_cancel_left pieces
  have back : (symbol.toList.map Glyph.mark).map Glyph.symbol = symbol.toList := by
    simp [Function.comp_def, Glyph.symbol]
  unfold run?
  rw [taken, dropped]
  cases spelt : symbol.toList with
  | nil => exact absurd spelt nonempty
  | cons c others =>
      rw [spelt] at back
      rw [List.map_cons] at back ⊢
      simp only
      rw [back, ← spelt, String.ofList_toList]

/-- The symbols of a run are a run again, whatever other glyph stands behind them. -/
theorem run_append {symbol : String} (run : run? text = some (symbol, behind))
    {rest : List Glyph} (ends : ∀ glyph ∈ rest.head?, glyph.isOperator = false) :
    run? (symbol.toList.map mark ++ rest) = some (symbol, rest) := by
  obtain ⟨nonempty, all⟩ := operators_of_run run
  exact run_of_operators nonempty all ends

/-- Operator symbols are symbols. -/
theorem writes_run {symbol : String} (run : run? text = some (symbol, behind)) :
    Writes symbol.toList (symbol.toList.map mark) := by
  refine writes_marks _ (List.all_eq_true.2 fun c member => ?_)
  have fits := (operators_of_run run).2 c member
  have all : Grammar.operatorSymbols.all Rule.symbols.contains = true := by decide
  exact List.all_eq_true.1 all c (List.contains_iff_mem.1 fits)

theorem visible_of_run {symbol : String} (run : run? text = some (symbol, behind)) :
    Visible (symbol.toList.map mark) := by
  cases spelt : symbol.toList with
  | nil => exact absurd spelt (operators_of_run run).1
  | cons c others => exact ⟨_, _, rfl, rfl⟩

end Curried
