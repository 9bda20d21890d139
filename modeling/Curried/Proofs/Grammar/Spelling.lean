import Curried.Expression
import Curried.Proofs.Grammar.Tokens

/-!
# How glyphs are spelt

Which characters the standard rules turn into which glyphs.  A word, a number or a minus sign is
only spelt by its characters if what is behind them does not go on with it.
-/

namespace Curried

namespace Rule

/-! ### Rules that take nothing -/

section
variable {c : Char} {rest : List Char}

theorem run_eq_none {test : Char → Bool} (unfit : test c = false) :
    run test (c :: rest) = none := by
  simp [run, unfit]

theorem single_eq_none {test : Char → Bool} (unfit : test c = false) :
    single test (c :: rest) = none := by
  simp [single, unfit]

theorem wholeLength_eq_zero (other : ∀ d ∈ rest.head?, d.isDigit = false) :
    wholeLength rest = 0 := by
  cases rest with
  | nil => rfl
  | cons d rest =>
      have no_digit : d.isDigit = false := other d rfl
      have no_zero : d ≠ '0' := by
        rintro rfl
        cases no_digit
      simp [wholeLength, no_digit, no_zero]

theorem numeral_eq_none (sign : c ≠ '-') (digit : c.isDigit = false) :
    numeral (c :: rest) = none := by
  have whole : wholeLength (c :: rest) = 0 := wholeLength_eq_zero (by simpa using digit)
  simp [numeral, sign, whole]

theorem numeral_minus_eq_none (other : ∀ d ∈ rest.head?, d.isDigit = false) :
    numeral ('-' :: rest) = none := by
  simp [numeral, wholeLength_eq_zero other]

theorem quoted_eq_none (other : c ≠ quote) : quoted (c :: rest) = none := by
  simp [quoted, other]

theorem word_eq_none (unfit : startsWord c = false) : word (c :: rest) = none := by
  simp [word, unfit]

end

/-! ### The first rule of a list -/

theorem first?_of_none {rule : Rule} {rules : List Rule} {rest : List Char}
    (nothing : rule.recognise rest = none) : first? (rule :: rules) rest = first? rules rest := by
  simp [first?, piece?, nothing]

theorem first?_of_some {rule : Rule} {rules : List Rule} {rest : List Char} {span : Span}
    (found : rule.recognise rest = some span) (nonempty : 0 < span.length) :
    first? (rule :: rules) rest = some (rule, ⟨span, nonempty⟩) := by
  simp [first?, piece?, found, nonempty]

/-! ### Classes of characters -/

/-- A character that is no white space. -/
structure Plain (c : Char) : Prop where
  space : (c == ' ') = false
  lineEnd : (c == '\n') = false
  blank : Text.isBlank c = false

/-- What can be decided for all of ASCII. -/
theorem ascii_induction (test : Char → Bool) {c : Char} (small : c.toNat < 128)
    (all : (List.range 128).all (fun n => test (Char.ofNat n)) = true) : test c = true := by
  have known := List.all_eq_true.1 all c.toNat (List.mem_range.2 small)
  rwa [Char.ofNat_toNat] at known

theorem toNat_lt_of_isAlphanum {c : Char} (fits : c.isAlphanum = true) : c.toNat < 128 := by
  have below {d : Char} (ascii : d.val.toNat < 128) (le : c.val ≤ d.val) : c.toNat < 128 :=
    Nat.lt_of_le_of_lt (UInt32.le_iff_toNat_le.1 le) ascii
  unfold Char.isAlphanum Char.isAlpha Char.isUpper Char.isLower Char.isDigit at fits
  simp only [Bool.or_eq_true, Bool.and_eq_true, decide_eq_true_eq] at fits
  rcases fits with (⟨_, le⟩ | ⟨_, le⟩) | ⟨_, le⟩
  all_goals exact below (by decide) le

theorem toNat_lt_of_startsWord {c : Char} (starts : startsWord c = true) : c.toNat < 128 := by
  rcases Bool.or_eq_true_iff.1 starts with letter | line
  · exact toNat_lt_of_isAlphanum (by simp [Char.isAlphanum, letter])
  · rw [beq_iff_eq] at line
    subst line
    decide

/-- What the first character of a word is not. -/
theorem facts_of_startsWord {c : Char} (starts : startsWord c = true) :
    Plain c ∧ c ≠ '-' ∧ c.isDigit = false ∧ c ≠ quote := by
  have facts := ascii_induction (fun c => !startsWord c || !(c == ' ' || c == '\n' ||
    Text.isBlank c || c == '-' || c.isDigit || c == quote)) (toNat_lt_of_startsWord starts)
    (by decide)
  simp only [starts, Bool.not_true, Bool.false_or, Bool.not_eq_true', Bool.or_eq_false_iff] at facts
  obtain ⟨⟨⟨⟨⟨space, lineEnd⟩, blank⟩, minus⟩, digit⟩, mark⟩ := facts
  exact ⟨⟨space, lineEnd, blank⟩, beq_eq_false_iff_ne.1 minus, digit, beq_eq_false_iff_ne.1 mark⟩

/-- The first character of a number is no white space. -/
theorem plain_of_isDigit {c : Char} (digit : c.isDigit = true) : Plain c := by
  have fits : c.isAlphanum = true := by simp [Char.isAlphanum, digit]
  have facts := ascii_induction
    (fun c => !c.isDigit || !(c == ' ' || c == '\n' || Text.isBlank c))
    (toNat_lt_of_isAlphanum fits) (by decide)
  simp only [digit, Bool.not_true, Bool.false_or, Bool.not_eq_true', Bool.or_eq_false_iff] at facts
  exact ⟨facts.1.1, facts.1.2, facts.2⟩

/-- What a symbol is not. -/
theorem facts_of_symbol {c : Char} (member : c ∈ symbols) :
    Plain c ∧ c.isDigit = false ∧ c ≠ quote ∧ startsWord c = false := by
  have all : symbols.all (fun c => !(c == ' ' || c == '\n' || Text.isBlank c || c.isDigit ||
    c == quote || startsWord c)) = true := by decide
  have facts := List.all_eq_true.1 all c member
  simp only [Bool.not_eq_true', Bool.or_eq_false_iff] at facts
  obtain ⟨⟨⟨⟨⟨space, lineEnd⟩, blank⟩, digit⟩, mark⟩, starts⟩ := facts
  exact ⟨⟨space, lineEnd, blank⟩, digit, beq_eq_false_iff_ne.1 mark, starts⟩

/-- The rules for white space take nothing off a character that is not white. -/
theorem first?_of_plain {c : Char} {rest : List Char} (plain : Plain c) :
    first? standard (c :: rest) = first? (standard.drop 3) (c :: rest) := by
  have space : run (· == ' ') (c :: rest) = none := run_eq_none plain.space
  have lineEnd : run (· == '\n') (c :: rest) = none := run_eq_none plain.lineEnd
  have blank : single Text.isBlank (c :: rest) = none := single_eq_none plain.blank
  simp only [standard, List.drop_succ_cons, List.drop_zero]
  rw [first?_of_none, first?_of_none, first?_of_none]
  · exact blank
  · exact lineEnd
  · exact space

/-! ### Pieces of a longer text -/

theorem takeWhile_run {α : Type} {test : α → Bool} {front rest : List α}
    (all : ∀ c ∈ front, test c = true) (ends : ∀ c ∈ rest.head?, test c = false) :
    (front ++ rest).takeWhile test = front := by
  rw [List.takeWhile_append_of_pos all]
  cases rest with
  | nil => simp
  | cons c rest => simp [ends c rfl]

/-- The digits at the front of a text do not depend on what is behind it, if that is no digit. -/
theorem takeWhile_digits (front : List Char) {rest : List Char}
    (ends : ∀ c ∈ rest.head?, c.isDigit = false) :
    (front ++ rest).takeWhile Char.isDigit = front.takeWhile Char.isDigit := by
  induction front with
  | nil =>
      cases rest with
      | nil => rfl
      | cons c rest =>
          have unfit : c.isDigit = false := ends c rfl
          simp [unfit]
  | cons c front ih =>
      cases digit : c.isDigit with
      | true => simp [digit, ih]
      | false => simp [digit]

theorem wholeLength_append {front rest : List Char} (nonempty : wholeLength front ≠ 0)
    (ends : ∀ c ∈ rest.head?, c.isDigit = false) :
    wholeLength (front ++ rest) = wholeLength front := by
  cases front with
  | nil => exact absurd rfl nonempty
  | cons c front => simp only [List.cons_append, wholeLength, takeWhile_digits front ends]

theorem wholeLength_le (text : List Char) : wholeLength text ≤ text.length := by
  cases text with
  | nil => exact Nat.le_refl _
  | cons c rest =>
      have shorter := (List.takeWhile_prefix Char.isDigit (l := rest)).length_le
      simp only [wholeLength, List.length_cons]
      split
      · omega
      · split <;> omega

theorem fractionLength_append (front : List Char) {rest : List Char}
    (ends : ∀ c ∈ rest.head?, c.isDigit = false ∧ c ≠ '.') :
    fractionLength (front ++ rest) = fractionLength front := by
  have no_digit : ∀ c ∈ rest.head?, c.isDigit = false := fun c member => (ends c member).1
  cases front with
  | nil =>
      cases rest with
      | nil => rfl
      | cons c rest =>
          have no_point : c ≠ '.' := (ends c rfl).2
          rw [List.nil_append, fractionLength]
          · rfl
          · rintro _ same
            exact no_point (List.cons.inj same).1
  | cons c front =>
      cases point : c == '.' with
      | true =>
          rw [beq_iff_eq] at point
          subst point
          simp only [List.cons_append, fractionLength, takeWhile_digits front no_digit]
      | false =>
          have no_point := beq_eq_false_iff_ne.1 point
          rw [List.cons_append, fractionLength, fractionLength]
          all_goals
            rintro _ same
            exact no_point (List.cons.inj same).1

/-- The whole part and the fraction of a number behind its sign. -/
def unsigned (sign : Nat) (body : List Char) : Option Span :=
  match wholeLength body with
  | 0 => none
  | whole => some ⟨sign + whole + fractionLength (body.drop whole), none⟩

theorem numeral_eq (rest : List Char) :
    numeral rest = unsigned (if rest.head? == some '-' then 1 else 0)
      (rest.drop (if rest.head? == some '-' then 1 else 0)) := rfl

theorem numeral_minus (body : List Char) : numeral ('-' :: body) = unsigned 1 body := rfl

theorem numeral_other {c : Char} (other : c ≠ '-') (rest : List Char) :
    numeral (c :: rest) = unsigned 0 (c :: rest) := by
  have no_sign : (if (c :: rest).head? == some '-' then 1 else 0) = 0 := by simp [other]
  rw [numeral_eq, no_sign, List.drop_zero]

theorem unsigned_append {sign : Nat} {body rest : List Char} {span : Span}
    (found : unsigned sign body = some span)
    (ends : ∀ c ∈ rest.head?, c.isDigit = false ∧ c ≠ '.') :
    unsigned sign (body ++ rest) = some span := by
  have fits := wholeLength_le body
  unfold unsigned at found ⊢
  cases whole : wholeLength body with
  | zero => simp [whole] at found
  | succ more =>
      rw [wholeLength_append (by omega) fun c member => (ends c member).1, whole]
      simp only [whole] at found ⊢
      rw [List.drop_append_of_le_length (by omega), fractionLength_append _ ends]
      exact found

/-- A number is the same one in front of something that goes on with no number. -/
theorem numeral_append {front rest : List Char} {span : Span} (found : numeral front = some span)
    (ends : ∀ c ∈ rest.head?, c.isDigit = false ∧ c ≠ '.') :
    numeral (front ++ rest) = some span := by
  cases front with
  | nil => simp [numeral, wholeLength] at found
  | cons c front =>
      rw [List.cons_append]
      cases sign : c == '-' with
      | true =>
          rw [beq_iff_eq] at sign
          subst sign
          rw [numeral_minus] at found ⊢
          exact unsigned_append found ends
      | false =>
          have other := beq_eq_false_iff_ne.1 sign
          rw [numeral_other other] at found ⊢
          rw [← List.cons_append]
          exact unsigned_append found ends

/-- A number starts with its sign or with a digit. -/
theorem plain_of_numeral {c : Char} {rest : List Char} {span : Span}
    (found : numeral (c :: rest) = some span) : Plain c := by
  cases digit : c.isDigit with
  | true => exact plain_of_isDigit digit
  | false =>
      have sign : c = '-' := by
        apply Classical.byContradiction
        intro other
        rw [numeral_eq_none other digit] at found
        cases found
      subst sign
      exact ⟨rfl, rfl, by decide⟩

end Rule

/-! ### Characters that spell glyphs -/

/-- The characters are split into tokens with these glyphs, wherever they stand. -/
def Spells (chars : List Char) (text : List Glyph) : Prop :=
  ∀ place, ∃ tokens, tokensFrom Rule.standard place chars = .ok tokens ∧ glyphs tokens = text

theorem spells_nil : Spells [] [] := fun place => ⟨[], by rw [tokensFrom], rfl⟩

variable {c : Char} {rest : List Char} {glyph : Glyph} {text : List Glyph}

/-- One token is cut off by the first rule that takes a piece. -/
theorem spells_cons {rule : Rule} {span : Span} {nonempty : 0 < span.length}
    (first : Rule.first? Rule.standard (c :: rest) = some (rule, ⟨span, nonempty⟩))
    (others : Spells ((c :: rest).drop span.length) text)
    (seen : ∀ place, (rule.token span (c :: rest) place).glyph = glyph) :
    Spells (c :: rest) (glyph :: text) := by
  intro place
  obtain ⟨tokens, found, same⟩ := others (place.advance ((c :: rest).take span.length))
  refine ⟨rule.token span (c :: rest) place :: tokens, ?_, ?_⟩
  · rw [tokensFrom, first]
    simp only [found]
  · rw [glyphs_cons, seen, same]

/-- Characters that spell a glyph other than white space do not start with a space. -/
theorem head_ne_space (spells : Spells rest (glyph :: text)) (other : glyph.isBlank = false) :
    ∀ c ∈ rest.head?, c ≠ ' ' := by
  rintro c member rfl
  cases rest with
  | nil => cases member
  | cons d rest =>
      obtain rfl : d = ' ' := by simpa using member
      have first : ∃ piece, Rule.first? Rule.standard (' ' :: rest) =
          some (⟨Kind.space, Rule.run (· == ' '), none⟩, piece) := by
        have found : Rule.run (· == ' ') (' ' :: rest) =
            some ⟨(rest.takeWhile (· == ' ')).length + 1, none⟩ := by
          simp [Rule.run]
        exact ⟨_, Rule.first?_of_some found (Nat.succ_pos _)⟩
      obtain ⟨piece, first⟩ := first
      obtain ⟨tokens, found, same⟩ := spells .start
      cases tokens with
      | nil => cases same
      | cons token others =>
          obtain ⟨rule, other_piece, again, rfl, _⟩ := first_of_tokensFrom found
          rw [first] at again
          cases again
          have blank : (glyph).isBlank = true := by
            rw [glyphs_cons] at same
            rw [← (List.cons.inj same).1]
            rfl
          rw [blank] at other
          cases other

theorem spells_blank (others : Spells rest (glyph :: text)) (other : glyph.isBlank = false) :
    Spells (' ' :: rest) (.blank :: glyph :: text) := by
  have no_space : (rest.takeWhile (· == ' ')).length = 0 := by
    cases rest with
    | nil => rfl
    | cons c rest => simp [head_ne_space others other c rfl]
  have found : Rule.run (· == ' ') (' ' :: rest) = some ⟨1, none⟩ := by
    simp [Rule.run, no_space]
  have first : Rule.first? Rule.standard (' ' :: rest) =
      some (⟨Kind.space, Rule.run (· == ' '), none⟩, ⟨⟨1, none⟩, Nat.one_pos⟩) :=
    Rule.first?_of_some found Nat.one_pos
  exact spells_cons first others fun _ => rfl

/-- A symbol, which is no minus sign in front of a digit. -/
theorem spells_mark (member : c ∈ Rule.symbols)
    (sign : c = '-' → ∀ d ∈ rest.head?, d.isDigit = false) (others : Spells rest text) :
    Spells (c :: rest) (.mark c :: text) := by
  obtain ⟨plain, digit, no_quote, no_word⟩ := Rule.facts_of_symbol member
  have no_number : Rule.numeral (c :: rest) = none := by
    cases minus : c == '-' with
    | true =>
        rw [beq_iff_eq] at minus
        subst minus
        exact Rule.numeral_minus_eq_none (sign rfl)
    | false => exact Rule.numeral_eq_none (beq_eq_false_iff_ne.1 minus) digit
  have found : Rule.single Rule.symbols.contains (c :: rest) = some ⟨1, none⟩ := by
    simp [Rule.single, member]
  have first : Rule.first? Rule.standard (c :: rest) =
      some (⟨Kind.symbol, Rule.single Rule.symbols.contains, none⟩, ⟨⟨1, none⟩, Nat.one_pos⟩) := by
    rw [Rule.first?_of_plain plain]
    refine (Rule.first?_of_none no_number).trans ((Rule.first?_of_none ?_).trans
      ((Rule.first?_of_none ?_).trans (Rule.first?_of_some found Nat.one_pos)))
    · exact Rule.quoted_eq_none no_quote
    · exact Rule.word_eq_none no_word
  exact spells_cons first others fun _ => Token.glyph_of_mark rfl (String.singleton_eq_ofList).symm

/-- A word in front of something that does not go on with it. -/
theorem spells_word {word : String} (is_word : IsWord word)
    (ends : ∀ d ∈ rest.head?, Rule.continuesWord d = false) (others : Spells rest text) :
    Spells (word.toList ++ rest) (.word word :: text) := by
  obtain ⟨c, letters, spelt, starts, goesOn⟩ := is_word
  obtain ⟨plain, sign, digit, no_quote⟩ := Rule.facts_of_startsWord starts
  have taken : (letters ++ rest).takeWhile Rule.continuesWord = letters :=
    Rule.takeWhile_run goesOn ends
  have found : Rule.word (c :: (letters ++ rest)) = some ⟨1 + letters.length, none⟩ := by
    simp [Rule.word, starts, taken]
  have positive : 0 < 1 + letters.length := by omega
  have first : Rule.first? Rule.standard (c :: (letters ++ rest)) =
      some (⟨Kind.identifier, Rule.word, none⟩, ⟨⟨1 + letters.length, none⟩, positive⟩) := by
    rw [Rule.first?_of_plain plain]
    refine (Rule.first?_of_none ?_).trans ((Rule.first?_of_none ?_).trans
      (Rule.first?_of_some found positive))
    · exact Rule.numeral_eq_none sign digit
    · exact Rule.quoted_eq_none no_quote
  rw [spelt, List.cons_append]
  refine spells_cons first ?_ fun place => ?_
  · have dropped : (c :: (letters ++ rest)).drop (1 + letters.length) = rest := by
      rw [Nat.add_comm, List.drop_succ_cons, List.drop_left]
    rw [dropped]
    exact others
  · have raw : (c :: (letters ++ rest)).take (1 + letters.length) = c :: letters := by
      rw [Nat.add_comm, List.take_succ_cons, List.take_left]
    rw [Token.glyph_of_word rfl]
    simp only [Rule.token, Option.getD_none, raw, ← spelt, String.ofList_toList]

/-- A text between quotes. -/
theorem spells_string {content : String} (free : Rule.quote ∉ content.toList)
    (others : Spells rest text) :
    Spells ((Expression.quoted content).toList ++ rest) (.string content :: text) := by
  have chars : (Expression.quoted content).toList ++ rest =
      Rule.quote :: (content.toList ++ Rule.quote :: rest) := by
    simp [Expression.quoted, Rule.quote]
  have taken : (content.toList ++ Rule.quote :: rest).takeWhile (· != Rule.quote) =
      content.toList := by
    refine Rule.takeWhile_run (fun d member => ?_) (by simp)
    rw [bne_iff_ne]
    rintro rfl
    exact free member
  have found : Rule.quoted (Rule.quote :: (content.toList ++ Rule.quote :: rest)) =
      some ⟨content.toList.length + 2, some content.toList⟩ := by
    simp [Rule.quoted, taken]
  have plain : Rule.Plain Rule.quote := ⟨rfl, rfl, by decide⟩
  have first : Rule.first? Rule.standard (Rule.quote :: (content.toList ++ Rule.quote :: rest)) =
      some (⟨Kind.string, Rule.quoted, none⟩,
        ⟨⟨content.toList.length + 2, some content.toList⟩, Nat.succ_pos _⟩) := by
    have no_number : Rule.numeral (Rule.quote :: (content.toList ++ Rule.quote :: rest)) = none :=
      Rule.numeral_eq_none (by decide) rfl
    rw [Rule.first?_of_plain plain]
    exact (Rule.first?_of_none no_number).trans (Rule.first?_of_some found (Nat.succ_pos _))
  rw [chars]
  refine spells_cons first ?_ fun place => ?_
  · have dropped : (Rule.quote :: (content.toList ++ Rule.quote :: rest)).drop
        (content.toList.length + 2) = rest := by
      rw [List.drop_succ_cons, List.drop_append]
      simp
    rw [dropped]
    exact others
  · rw [Token.glyph_of_string rfl]
    simp [Rule.token]

/-- The text of a number is one number of the standard rules, and it reads back as an equal one. -/
structure Number.ReadsBack (value again : Float) : Prop where
  whole : Rule.numeral (Number.format value).toList =
    some ⟨(Number.format value).toList.length, none⟩
  reads : Number.read? (Number.format value) = some again
  same : (again == value) = true

/-- Whether a number reads back from its text can be computed. -/
theorem Number.exists_readsBack_iff (value : Float) :
    (∃ again, ReadsBack value again) ↔
      Rule.numeral (format value).toList = some ⟨(format value).toList.length, none⟩ ∧
        (read? (format value)).any (· == value) = true := by
  constructor
  · rintro ⟨again, whole, reads, same⟩
    exact ⟨whole, by simp [reads, same]⟩
  · rintro ⟨whole, found⟩
    cases reads : read? (format value) with
    | none => simp [reads] at found
    | some again => exact ⟨again, whole, reads, by simpa [reads] using found⟩

instance (value : Float) : Decidable (∃ again, Number.ReadsBack value again) :=
  decidable_of_iff' _ (Number.exists_readsBack_iff value)

/-- What is equal to a finite number is finite. -/
theorem Number.isFinite_of_beq {value again : Float} (same : (again == value) = true)
    (finite : value.isFinite = true) : again.isFinite = true := by
  have equal : (again.toModel.unpack.compare value.toModel.unpack == some .eq) = true := same
  have limited : value.toModel.unpack.isFinite = true := finite
  show again.toModel.unpack.isFinite = true
  revert equal limited
  cases again.toModel.unpack with
  | notANumber => intro equal; cases equal
  | infinity sign =>
      cases value.toModel.unpack with
      | notANumber => intro equal; cases equal
      | infinity _ => intro _ limited; cases limited
      | zero _ => cases sign <;> intro equal <;> cases equal
      | finite _ _ _ _ => cases sign <;> intro equal <;> cases equal
  | zero _ => intros; rfl
  | finite _ _ _ _ => intros; rfl

/-- A number in front of something that does not go on with it. -/
theorem spells_number {value again : Float} (number : Number.ReadsBack value again)
    (limited : value.isFinite = true) (ends : ∀ d ∈ rest.head?, d.isDigit = false ∧ d ≠ '.')
    (others : Spells rest text) :
    Spells ((Number.format value).toList ++ rest) (.number (some again) :: text) := by
  obtain ⟨whole, reads, same⟩ := number
  have finite := Number.isFinite_of_beq same limited
  have found := Rule.numeral_append whole ends
  cases chars : (Number.format value).toList with
  | nil =>
      rw [chars] at whole
      simp [Rule.numeral, Rule.wholeLength] at whole
  | cons c digits =>
      have plain : Rule.Plain c := Rule.plain_of_numeral (by rw [← chars]; exact whole)
      rw [chars, List.cons_append] at found
      have first : Rule.first? Rule.standard (c :: (digits ++ rest)) =
          some (⟨Kind.number, Rule.numeral, some Rule.numberValue⟩,
            ⟨⟨(c :: digits).length, none⟩, Nat.succ_pos _⟩) := by
        rw [Rule.first?_of_plain plain]
        exact Rule.first?_of_some found (Nat.succ_pos _)
      rw [List.cons_append]
      refine spells_cons first ?_ fun place => ?_
      · have dropped : (c :: (digits ++ rest)).drop (c :: digits).length = rest := by
          rw [← List.cons_append, List.drop_left]
        rw [dropped]
        exact others
      · have raw : (c :: (digits ++ rest)).take (c :: digits).length = c :: digits := by
          rw [← List.cons_append, List.take_left]
        have back : String.ofList (c :: digits) = Number.format value := by
          rw [← chars, String.ofList_toList]
        rw [Token.glyph_of_number rfl]
        simp only [Grammar.finiteNumber?, Rule.token, Option.getD_none, raw, back,
          Rule.numberValue, reads, TokenValue.number?]
        simp [finite]

end Curried
