import Curried.Proofs.Grammar.Lexeme

/-!
# Derivations

The grammar of the language, over glyphs.  A derivation says which phrase stands in front of a text
and what is behind it.  Phrases extend as far as they can: an application goes on as long as an
atom can start, and a chain as long as there is an operator.  Every bracket, binding and function
opens a level, and a derivation has a number of levels left that it may open.
-/

namespace Curried

/-- How many more levels may be opened; without a number there is no limit. -/
abbrev Room := Option Nat

/-- Opening a level. -/
inductive Enters : Room → Room → Prop where
  | unlimited : Enters none none
  | level (left : Nat) : Enters (some (left + 1)) (some left)

/-- A part of a program, with its tree. -/
inductive Phrase where
  /-- A whole expression. -/
  | expression (tree : Expression)
  /-- The operators and operands behind the first operand of a chain. -/
  | links (links : List (String × Expression))
  /-- An atom with its arguments. -/
  | application (tree : Expression)
  /-- The arguments behind an atom. -/
  | atoms (trees : List Expression)
  /-- An atom with white space around it. -/
  | atom (tree : Expression)
  /-- An atom. -/
  | core (tree : Expression)
  /-- The elements of a list with the closing bracket. -/
  | items (trees : List Expression)
  /-- The elements behind the first one, with the closing bracket. -/
  | others (trees : List Expression)
  /-- The annotation of a parameter, if there is one. -/
  | parameterType (declared : Option TypeExpression)
  /-- A type up to a closing bracket. -/
  | type (tree : TypeExpression)
  /-- A type name or a type in parentheses, with white space around it. -/
  | typeAtom (tree : TypeExpression)

/-- An operator and the operand behind it, as a link of a chain. -/
def Expression.link (part : String × Expression) : Link Expression :=
  ⟨Grammar.joint part.1, .operator part.1, part.2⟩

/-- An operand with the operators and operands behind it, folded into a tree. -/
def Expression.chain (first : Expression) (links : List (String × Expression)) : Expression :=
  Link.fold first (links.map Expression.link)

/-- Whether an atom can start with the first glyph. -/
def startsAtom : List Glyph → Bool
  | .number (some _) :: _ | .string _ :: _ => true
  | .word text :: _ => text != "in"
  | .mark symbol :: _ => symbol == '(' || symbol == '[' || symbol == '\\'
  | _ => false

/-- The words that stand for constants. -/
def constants : List (String × Expression) :=
  [("true", .boolean true), ("false", .boolean false), ("null", .null)]

/-- A phrase in front of a text, and what is behind it. -/
inductive Derives : Room → Phrase → List Glyph → List Glyph → Prop where
  | expression {room : Room} {first : Expression} {links : List (String × Expression)}
      {text middle rest : List Glyph} :
      Derives room (.application first) text middle → Derives room (.links links) middle rest →
        Derives room (.expression (first.chain links)) text rest
  | stop {room : Room} {text : List Glyph} :
      operator? text = none → Derives room (.links []) text text
  | link {room : Room} {symbol : String} {operand : Expression}
      {links : List (String × Expression)} {text behind middle rest : List Glyph} :
      operator? text = some (symbol, behind) → Derives room (.application operand) behind middle →
      Derives room (.links links) middle rest →
        Derives room (.links ((symbol, operand) :: links)) text rest
  | application {room : Room} {first : Expression} {others : List Expression}
      {text middle rest : List Glyph} :
      Derives room (.atom first) text middle → Derives room (.atoms others) middle rest →
        Derives room (.application (others.foldl .apply first)) text rest
  | done {room : Room} {text : List Glyph} :
      startsAtom text = false → Derives room (.atoms []) text text
  | more {room : Room} {first : Expression} {others : List Expression}
      {text middle rest : List Glyph} :
      Derives room (.atom first) text middle → Derives room (.atoms others) middle rest →
        Derives room (.atoms (first :: others)) text rest
  | atom {room : Room} {tree : Expression} {text rest : List Glyph} :
      Derives room (.core tree) (skip text) rest → Derives room (.atom tree) text (skip rest)
  | number {room : Room} {value : Float} {rest : List Glyph} :
      value.isFinite = true →
        Derives room (.core (.number value)) (.number (some value) :: rest) rest
  | string {room : Room} {content : String} {rest : List Glyph} :
      Rule.quote ∉ content.toList →
        Derives room (.core (.string content)) (.string content :: rest) rest
  | constant {room : Room} {word : String} {value : Expression} {rest : List Glyph} :
      (word, value) ∈ constants → Derives room (.core value) (.word word :: rest) rest
  | name {room : Room} {name : String} {rest : List Glyph} :
      IsName name → Derives room (.core (.identifier name)) (.word name :: rest) rest
  | operatorName {room inner : Room} {symbol : String} {text rest : List Glyph} :
      Enters room inner → run? text = some (symbol, .mark ')' :: rest) →
        Derives room (.core (.identifier (Expression.operatorName symbol))) (.mark '(' :: text) rest
  | group {room inner : Room} {tree : Expression} {text rest : List Glyph} :
      Enters room inner → Derives inner (.expression tree) text (.mark ')' :: rest) →
        Derives room (.core (.group tree)) (.mark '(' :: text) rest
  | list {room inner : Room} {trees : List Expression} {text rest : List Glyph} :
      Enters room inner → Derives inner (.items trees) (skip text) rest →
        Derives room (.core (.list trees)) (.mark '[' :: text) rest
  | noItems {room : Room} {rest : List Glyph} :
      Derives room (.items []) (.mark ']' :: rest) rest
  | items {room : Room} {first : Expression} {others : List Expression}
      {text middle rest : List Glyph} :
      Derives room (.expression first) text middle → Derives room (.others others) middle rest →
        Derives room (.items (first :: others)) text rest
  | noOthers {room : Room} {rest : List Glyph} :
      Derives room (.others []) (.mark ']' :: rest) rest
  | others {room : Room} {first : Expression} {others : List Expression}
      {text middle rest : List Glyph} :
      Derives room (.expression first) text middle → Derives room (.others others) middle rest →
        Derives room (.others (first :: others)) (.mark ',' :: text) rest
  | letIn {room inner : Room} {name : String} {bound body : Expression}
      {text afterName afterSign afterBound rest : List Glyph} :
      Enters room inner → IsName name → skip text = .word name :: afterName →
      skip afterName = .mark '=' :: afterSign →
      Derives inner (.expression bound) afterSign (.word "in" :: afterBound) →
      Derives inner (.expression body) afterBound rest →
        Derives room (.core (.letIn name bound body)) (.word "let" :: text) rest
  | function {room inner : Room} {name : String} {declared : Option TypeExpression}
      {body : Expression} {text afterName afterArrow rest : List Glyph} :
      Enters room inner → IsName name → skip text = .word name :: afterName →
      Derives room (.parameterType declared) (skip afterName)
        (.mark '-' :: .mark '>' :: afterArrow) →
      Derives inner (.expression body) afterArrow rest →
        Derives room (.core (.function name declared body)) (.mark '\\' :: text) rest
  | undeclared {room : Room} {rest : List Glyph} :
      Derives room (.parameterType none) (.mark '-' :: rest) (.mark '-' :: rest)
  | declared {room : Room} {type : TypeExpression} {text rest : List Glyph} :
      Derives room (.type type) text (.mark ')' :: rest) →
        Derives room (.parameterType (some type)) (.mark '(' :: text) (skip rest)
  | type {room : Room} {type : TypeExpression} {text rest : List Glyph} :
      Derives room (.typeAtom type) text (.mark ')' :: rest) →
        Derives room (.type type) text (.mark ')' :: rest)
  | arrow {room inner : Room} {parameter result : TypeExpression}
      {text afterArrow rest : List Glyph} :
      Enters room inner →
      Derives room (.typeAtom parameter) text (.mark '-' :: .mark '>' :: afterArrow) →
      Derives inner (.type result) afterArrow rest →
        Derives room (.type (.function parameter result)) text rest
  | typeName {room : Room} {name : String} {text rest : List Glyph} :
      IsWord name → skip text = .word name :: rest →
        Derives room (.typeAtom (.named name)) text (skip rest)
  | typeGroup {room inner : Room} {type : TypeExpression} {text inside rest : List Glyph} :
      Enters room inner → skip text = .mark '(' :: inside →
      Derives inner (.type type) inside (.mark ')' :: rest) →
        Derives room (.typeAtom type) text (skip rest)

/-! ### What can stand in front -/

variable {room : Room} {text rest behind : List Glyph} {symbol : String} {tree : Expression}

/-- A run of operator symbols starts with one. -/
theorem mark_of_run (run : run? text = some (symbol, behind)) :
    ∃ c others, text = .mark c :: others ∧ Grammar.operatorSymbols.contains c = true := by
  cases text with
  | nil => cases run
  | cons first others =>
      cases first with
      | mark c =>
          cases fits : Grammar.operatorSymbols.contains c with
          | true => exact ⟨c, others, rfl, fits⟩
          | false =>
              have unfit : (Glyph.mark c).isOperator = false := fits
              simp [run?, unfit] at run
      | _ => simp [run?, Glyph.isOperator] at run

/-- Where a run of operator symbols starts, no atom can. -/
theorem startsAtom_of_run (run : run? text = some (symbol, behind)) :
    startsAtom text = false := by
  obtain ⟨c, others, rfl, fits⟩ := mark_of_run run
  have other (d : Char) (free : Grammar.operatorSymbols.contains d = false) : (c == d) = false := by
    rw [beq_eq_false_iff_ne]
    rintro rfl
    rw [fits] at free
    cases free
  simp only [startsAtom, other '(' (by decide), other '[' (by decide), other '\\' (by decide),
    Bool.or_self]

theorem skip_of_run (run : run? text = some (symbol, behind)) : skip text = text := by
  obtain ⟨c, others, rfl, _⟩ := mark_of_run run
  rfl

theorem startsAtom_of_operator (operator : operator? text = some (symbol, behind)) :
    startsAtom text = false :=
  startsAtom_of_run (Option.filter_eq_some_iff.1 operator).1

/-- Where an atom can start, no operator can. -/
theorem operator_of_startsAtom (starts : startsAtom text = true) : operator? text = none := by
  cases operator : operator? text with
  | none => rfl
  | some found =>
      rw [startsAtom_of_operator operator] at starts
      cases starts

theorem constant_cases {name : String} {value : Expression} (member : (name, value) ∈ constants) :
    (name = "true" ∧ value = .boolean true) ∨ (name = "false" ∧ value = .boolean false) ∨
      (name = "null" ∧ value = .null) := by
  simpa [constants] using member

theorem startsAtom_constant {name : String} {value : Expression}
    (member : (name, value) ∈ constants) : startsAtom (.word name :: rest) = true := by
  rcases constant_cases member with ⟨rfl, _⟩ | ⟨rfl, _⟩ | ⟨rfl, _⟩ <;> rfl

theorem startsAtom_name {name : String} (other : name ∉ Grammar.keywords) :
    startsAtom (.word name :: rest) = true := by
  have distinct : name ≠ "in" := by
    rintro rfl
    exact other (by decide)
  simpa [startsAtom] using distinct

theorem Derives.startsAtom_core (derives : Derives room (.core tree) text rest) :
    startsAtom text = true := by
  cases derives with
  | constant member => exact startsAtom_constant member
  | name is_name => exact startsAtom_name is_name.2
  | _ => rfl

theorem Derives.startsAtom_atom (derives : Derives room (.atom tree) text rest) :
    startsAtom (skip text) = true := by
  cases derives with
  | atom core => exact core.startsAtom_core

/-- White space in front of an atom does not matter. -/
theorem Derives.atom_of_skip_eq {start : List Glyph} (skips : skip start = skip text)
    (derives : Derives room (.atom tree) text rest) : Derives room (.atom tree) start rest := by
  cases derives with
  | atom core =>
      rw [← skips] at core
      exact .atom core

theorem Derives.application_of_skip_eq {start : List Glyph} (skips : skip start = skip text)
    (derives : Derives room (.application tree) text rest) :
    Derives room (.application tree) start rest := by
  cases derives with
  | application first others => exact .application (first.atom_of_skip_eq skips) others

theorem Derives.expression_of_skip_eq {start : List Glyph} (skips : skip start = skip text)
    (derives : Derives room (.expression tree) text rest) :
    Derives room (.expression tree) start rest := by
  cases derives with
  | expression first links => exact .expression (first.application_of_skip_eq skips) links

theorem Derives.application_of_skip (derives : Derives room (.application tree) (skip text) rest) :
    Derives room (.application tree) text rest :=
  derives.application_of_skip_eq (skip_skip text).symm

theorem Derives.expression_of_skip (derives : Derives room (.expression tree) (skip text) rest) :
    Derives room (.expression tree) text rest :=
  derives.expression_of_skip_eq (skip_skip text).symm

/-! ### Lengths -/

theorem dropWhile_of_run (run : run? text = some (symbol, behind)) :
    text.dropWhile Glyph.isOperator = behind := by
  unfold run? at run
  split at run
  · cases run
  · exact congrArg Prod.snd (Option.some.inj run)

theorem length_of_run (run : run? text = some (symbol, behind)) : behind.length < text.length := by
  obtain ⟨c, others, rfl, fits⟩ := mark_of_run run
  have operator : (Glyph.mark c).isOperator = true := fits
  rw [← dropWhile_of_run run, List.dropWhile_cons_of_pos operator]
  exact Nat.lt_succ_of_le (List.dropWhile_suffix _).length_le

theorem length_of_operator (operator : operator? text = some (symbol, behind)) :
    behind.length < text.length :=
  length_of_run (Option.filter_eq_some_iff.1 operator).1

theorem length_of_skip {glyph : Glyph} (skips : skip text = glyph :: rest) :
    rest.length < text.length := by
  have shorter := length_skip_le text
  rw [skips, List.length_cons] at shorter
  exact shorter

/-- What is behind a phrase is no longer than the text. -/
theorem Derives.length_le {phrase : Phrase} (derives : Derives room phrase text rest) :
    rest.length ≤ text.length := by
  induction derives with
  | expression _ _ first others => omega
  | stop => exact Nat.le_refl _
  | link operator _ _ operand others =>
      have := length_of_operator operator
      omega
  | application _ _ first others => omega
  | done => exact Nat.le_refl _
  | more _ _ first others => omega
  | @atom _ _ text rest _ core =>
      have := length_skip_le text
      have := length_skip_le rest
      omega
  | number | string | constant | name | noItems | noOthers => simp
  | operatorName _ run =>
      have := length_of_run run
      simp only [List.length_cons] at *
      omega
  | group _ _ inner => simp only [List.length_cons] at *; omega
  | @list _ _ _ text _ _ _ inner =>
      have := length_skip_le text
      simp only [List.length_cons] at *
      omega
  | items _ _ first others => omega
  | others _ _ first others => simp only [List.length_cons] at *; omega
  | letIn _ _ name sign _ _ bound body =>
      have := length_of_skip name
      have := length_of_skip sign
      simp only [List.length_cons] at *
      omega
  | @function _ _ _ _ _ _ afterName _ _ _ _ name _ _ declared body =>
      have := length_of_skip name
      have := length_skip_le afterName
      simp only [List.length_cons] at *
      omega
  | undeclared => exact Nat.le_refl _
  | @declared _ _ _ rest _ inner =>
      have := length_skip_le rest
      simp only [List.length_cons] at *
      omega
  | type _ inner => exact inner
  | arrow _ _ _ parameter result => simp only [List.length_cons] at *; omega
  | @typeName _ _ _ rest _ name =>
      have := length_of_skip name
      have := length_skip_le rest
      omega
  | @typeGroup _ _ _ _ _ rest _ opens _ inner =>
      have := length_of_skip opens
      have := length_skip_le rest
      simp only [List.length_cons] at *
      omega

/-- An atom is at least one glyph long. -/
theorem Derives.length_lt_core (derives : Derives room (.core tree) text rest) :
    rest.length < text.length := by
  cases derives with
  | number | string | constant | name => exact Nat.lt_succ_self _
  | operatorName _ run =>
      have := length_of_run run
      simp only [List.length_cons] at *
      omega
  | group _ inner =>
      have := inner.length_le
      simp only [List.length_cons] at *
      omega
  | @list _ _ _ text _ _ items =>
      have := items.length_le
      have := length_skip_le text
      simp only [List.length_cons] at *
      omega
  | letIn _ _ name sign bound body =>
      have := length_of_skip name
      have := length_of_skip sign
      have := bound.length_le
      have := body.length_le
      simp only [List.length_cons] at *
      omega
  | @function _ _ _ _ _ _ afterName _ _ _ _ name declared body =>
      have := length_of_skip name
      have := length_skip_le afterName
      have := declared.length_le
      have := body.length_le
      simp only [List.length_cons] at *
      omega

theorem Derives.length_lt_atom (derives : Derives room (.atom tree) text rest) :
    rest.length < text.length := by
  cases derives with
  | @atom _ _ _ behind core =>
      have := core.length_lt_core
      have := length_skip_le text
      have := length_skip_le behind
      omega

end Curried
