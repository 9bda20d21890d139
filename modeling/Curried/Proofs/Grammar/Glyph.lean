import Curried.Grammar.Literal

/-!
# Glyphs

What the grammar sees of a token: that it is white space, or what kind it has and what it says.
Neither the place nor the sort of white space counts.  The tokens of the standard rules are
`Standard`: their kind, text and value fit together.
-/

namespace Curried

/-- What the grammar sees of a token. -/
inductive Glyph where
  /-- White space. -/
  | blank
  /-- A number, if it is finite. -/
  | number (value : Option Float)
  /-- A text. -/
  | string (content : String)
  /-- A word. -/
  | word (text : String)
  /-- A symbol. -/
  | mark (symbol : Char)

/-- A letter or an underscore, and then letters, digits and underscores. -/
def IsWord (text : String) : Prop :=
  ∃ first others, text.toList = first :: others ∧ Rule.startsWord first = true ∧
    ∀ c ∈ others, Rule.continuesWord c = true

/-- A word that is no keyword. -/
def IsName (text : String) : Prop := IsWord text ∧ text ∉ Grammar.keywords

/-- The kinds of white space. -/
def Kind.blanks : List String := [Kind.space, Kind.lineEnd, Kind.otherBlank]

namespace Token

/-- What the grammar sees of a token. -/
def glyph (token : Token) : Glyph :=
  if token.kind = Kind.number then .number (Grammar.finiteNumber? token)
  else if token.kind = Kind.string then .string token.text
  else if token.kind = Kind.identifier then .word token.text
  else if token.kind = Kind.symbol then .mark (token.text.toList.headD ' ')
  else .blank

/-- A token as the standard rules yield it. -/
inductive Standard (token : Token) : Prop where
  | blank : token.kind ∈ Kind.blanks → Standard token
  | number : token.kind = Kind.number → Standard token
  | string : token.kind = Kind.string → Rule.quote ∉ token.text.toList → Standard token
  | word : token.kind = Kind.identifier → token.value = .text token.text →
      IsWord token.text → Standard token
  | mark (symbol : Char) : token.kind = Kind.symbol → token.text = String.singleton symbol →
      token.value = .text token.text → symbol ∈ Rule.symbols → Standard token

variable {token : Token}

theorem glyph_of_blank (kind : token.kind ∈ Kind.blanks) : token.glyph = .blank := by
  simp only [Kind.blanks, List.mem_cons, List.not_mem_nil, or_false] at kind
  rcases kind with kind | kind | kind <;> simp only [glyph, kind] <;> rfl

theorem glyph_of_number (kind : token.kind = Kind.number) :
    token.glyph = .number (Grammar.finiteNumber? token) := if_pos kind

theorem glyph_of_string (kind : token.kind = Kind.string) : token.glyph = .string token.text := by
  simp only [glyph, kind]
  rfl

theorem glyph_of_word (kind : token.kind = Kind.identifier) : token.glyph = .word token.text := by
  simp only [glyph, kind]
  rfl

theorem glyph_of_mark {symbol : Char} (kind : token.kind = Kind.symbol)
    (text : token.text = String.singleton symbol) : token.glyph = .mark symbol := by
  simp only [glyph, kind, text, String.toList_singleton]
  rfl

end Token

namespace Glyph

/-- Whether the glyph is white space. -/
def isBlank : Glyph → Bool
  | .blank => true
  | _ => false

/-- Whether the glyph is a given symbol. -/
def isMark (symbol : Char) : Glyph → Bool
  | .mark other => other == symbol
  | _ => false

/-- Whether the glyph is a given word. -/
def isWord (text : String) : Glyph → Bool
  | .word other => other == text
  | _ => false

/-- Whether the glyph is a symbol that operators are made of. -/
def isOperator : Glyph → Bool
  | .mark symbol => Grammar.operatorSymbols.contains symbol
  | _ => false

/-- The symbol of a glyph. -/
def symbol : Glyph → Char
  | .mark symbol => symbol
  | _ => ' '

end Glyph

namespace Token.Standard

variable {token : Token}

/-- Only the tokens of the three kinds of white space are blank. -/
theorem blank_test (standard : token.Standard) :
    (token.kind == Kind.space || (token.kind == Kind.lineEnd || token.kind == Kind.otherBlank)) =
      token.glyph.isBlank := by
  cases standard with
  | blank kind =>
      rw [glyph_of_blank kind]
      simp only [Kind.blanks, List.mem_cons, List.not_mem_nil, or_false] at kind
      rcases kind with kind | kind | kind <;> simp [kind, Glyph.isBlank]
  | number kind => rw [glyph_of_number kind, kind]; rfl
  | string kind => rw [glyph_of_string kind, kind]; rfl
  | word kind => rw [glyph_of_word kind, kind]; rfl
  | mark symbol kind text => rw [glyph_of_mark kind text, kind]; rfl

theorem kind_of_blank (kind : token.kind ∈ Kind.blanks) {other : String}
    (distinct : other ∉ Kind.blanks) : (token.kind == other) = false := by
  rw [beq_eq_false_iff_ne]
  rintro rfl
  exact distinct kind

/-- A token of a single symbol. -/
theorem mark_test (standard : token.Standard) (symbol : Char) :
    (token.kind == Kind.symbol && token.value == .text (String.singleton symbol)) =
      token.glyph.isMark symbol := by
  cases standard with
  | blank kind => rw [glyph_of_blank kind, kind_of_blank kind (by decide)]; rfl
  | number kind => rw [glyph_of_number kind, kind]; rfl
  | string kind => rw [glyph_of_string kind, kind]; rfl
  | word kind => rw [glyph_of_word kind, kind]; rfl
  | mark other kind text value =>
      rw [glyph_of_mark kind text, kind, value, text]
      have same : (TokenValue.text (String.singleton other) ==
        TokenValue.text (String.singleton symbol)) = (other == symbol) := by
        show (String.singleton other == String.singleton symbol) = (other == symbol)
        rw [Bool.eq_iff_iff, beq_iff_eq, beq_iff_eq]
        refine ⟨fun equal => ?_, fun equal => by rw [equal]⟩
        have lists := congrArg String.toList equal
        simpa using lists
      rw [same]
      rfl

/-- A token of a given word. -/
theorem word_test (standard : token.Standard) (text : String) :
    (token.kind == Kind.identifier && token.value == .text text) = token.glyph.isWord text := by
  cases standard with
  | blank kind => rw [glyph_of_blank kind, kind_of_blank kind (by decide)]; rfl
  | number kind => rw [glyph_of_number kind, kind]; rfl
  | string kind => rw [glyph_of_string kind, kind]; rfl
  | word kind value => rw [glyph_of_word kind, kind, value]; rfl
  | mark symbol kind spelt => rw [glyph_of_mark kind spelt, kind]; rfl

/-- A token of a symbol that operators are made of. -/
theorem operator_test (standard : token.Standard) :
    (token.kind == Kind.symbol && token.text.toList.all Grammar.operatorSymbols.contains) =
      token.glyph.isOperator := by
  cases standard with
  | blank kind => rw [glyph_of_blank kind, kind_of_blank kind (by decide)]; rfl
  | number kind => rw [glyph_of_number kind, kind]; rfl
  | string kind => rw [glyph_of_string kind, kind]; rfl
  | word kind => rw [glyph_of_word kind, kind]; rfl
  | mark symbol kind text => rw [glyph_of_mark kind text, kind, text]; simp [Glyph.isOperator]

end Token.Standard

end Curried
