import Curried.Proofs.Grammar.RoundTrip

/-!
# The productions of the language

The grammar as it is written down, over glyphs.  Nothing in it is greedy: white space may be left
to the phrase around, an application may stop in front of an atom, and a body may stop in front of
an operator, so a text can have several derivations.  Which of them is meant is said apart, by how
far bodies and runs of operator symbols extend.
-/

namespace Curried

open Expression
open Glyph (blank mark word)

/-! ### White space and runs of operator symbols -/

/-- Some of the white space in front of a text is left out. -/
inductive Skips : List Glyph → List Glyph → Prop where
  | none {text : List Glyph} : Skips text text
  | one {text rest : List Glyph} : Skips text rest → Skips (blank :: text) rest

/-- Adjacent operator symbols in front of a text, at least one. -/
structure Runs (symbol : String) (text rest : List Glyph) : Prop where
  nonempty : symbol.toList ≠ []
  operators : ∀ c ∈ symbol.toList, Grammar.operatorSymbols.contains c = true
  spelt : text = symbol.toList.map mark ++ rest

/-- Which ends are allowed to a body and to a run of operator symbols in front of a text. -/
structure Ends where
  /-- The body of a binding or of a function ends in front of the second text. -/
  body : List Glyph → List Glyph → Prop
  /-- A run ends in front of the second text. -/
  run : List Glyph → List Glyph → Prop

/-- Bodies and runs end anywhere. -/
def Ends.any : Ends := ⟨fun _ _ => True, fun _ _ => True⟩

/-! ### Productions -/

/-- A phrase in front of a text, and what is behind it, with a number of levels that may be
opened.  Groups, lists, the parts of a binding, the bodies of functions, types in parentheses and
the results of arrows are a level deeper than what they stand in. -/
inductive Produces (ends : Ends) : Room → Phrase → List Glyph → List Glyph → Prop where
  /-- White space, an application with operators and applications behind it, and white space. -/
  | expression {room : Room} {first : Expression} {links : List (String × Expression)}
      {text start middle stop rest : List Glyph} :
      Skips text start → Produces ends room (.application first) start middle →
      Produces ends room (.links links) middle stop → Skips stop rest →
        Produces ends room (.expression (first.chain links)) text rest
  | noLinks {room : Room} {text : List Glyph} : Produces ends room (.links []) text text
  /-- A run other than a lone equals sign, and an application. -/
  | link {room : Room} {symbol : String} {operand : Expression}
      {links : List (String × Expression)} {text behind middle rest : List Glyph} :
      Runs symbol text behind → ends.run text behind → symbol ≠ "=" →
      Produces ends room (.application operand) behind middle →
      Produces ends room (.links links) middle rest →
        Produces ends room (.links ((symbol, operand) :: links)) text rest
  /-- An atom with atoms behind it. -/
  | application {room : Room} {first : Expression} {others : List Expression}
      {text middle rest : List Glyph} :
      Produces ends room (.atom first) text middle → Produces ends room (.atoms others) middle rest →
        Produces ends room (.application (others.foldl .apply first)) text rest
  | noAtoms {room : Room} {text : List Glyph} : Produces ends room (.atoms []) text text
  | atoms {room : Room} {first : Expression} {others : List Expression}
      {text middle rest : List Glyph} :
      Produces ends room (.atom first) text middle → Produces ends room (.atoms others) middle rest →
        Produces ends room (.atoms (first :: others)) text rest
  /-- White space, an atom, and white space. -/
  | atom {room : Room} {tree : Expression} {text start stop rest : List Glyph} :
      Skips text start → Produces ends room (.core tree) start stop → Skips stop rest →
        Produces ends room (.atom tree) text rest
  | number {room : Room} {value : Float} {rest : List Glyph} :
      value.isFinite = true →
        Produces ends room (.core (.number value)) (.number (some value) :: rest) rest
  | string {room : Room} {content : String} {rest : List Glyph} :
      Produces ends room (.core (.string content)) (.string content :: rest) rest
  /-- One of the words `true`, `false` and `null`. -/
  | constant {room : Room} {name : String} {value : Expression} {rest : List Glyph} :
      (name, value) ∈ constants → Produces ends room (.core value) (word name :: rest) rest
  /-- A word that is no keyword. -/
  | name {room : Room} {name : String} {rest : List Glyph} :
      name ∉ Grammar.keywords →
        Produces ends room (.core (.identifier name)) (word name :: rest) rest
  /-- A run between parentheses, without white space. -/
  | operatorName {room : Room} {symbol : String} {text rest : List Glyph} :
      Runs symbol text (mark ')' :: rest) → ends.run text (mark ')' :: rest) →
        Produces ends room (.core (.identifier (operatorName symbol))) (mark '(' :: text) rest
  /-- An expression between parentheses. -/
  | group {room inner : Room} {tree : Expression} {text rest : List Glyph} :
      Enters room inner → Produces ends inner (.expression tree) text (mark ')' :: rest) →
        Produces ends room (.core (.group tree)) (mark '(' :: text) rest
  /-- White space and expressions with commas between them, between brackets. -/
  | list {room inner : Room} {trees : List Expression} {text start rest : List Glyph} :
      Enters room inner → Skips text start → Produces ends inner (.items trees) start rest →
        Produces ends room (.core (.list trees)) (mark '[' :: text) rest
  | noItems {room : Room} {rest : List Glyph} :
      Produces ends room (.items []) (mark ']' :: rest) rest
  | items {room : Room} {first : Expression} {others : List Expression}
      {text middle rest : List Glyph} :
      Produces ends room (.expression first) text middle →
      Produces ends room (.others others) middle rest →
        Produces ends room (.items (first :: others)) text rest
  | noOthers {room : Room} {rest : List Glyph} :
      Produces ends room (.others []) (mark ']' :: rest) rest
  | others {room : Room} {first : Expression} {others : List Expression}
      {text middle rest : List Glyph} :
      Produces ends room (.expression first) text middle →
      Produces ends room (.others others) middle rest →
        Produces ends room (.others (first :: others)) (mark ',' :: text) rest
  /-- `let`, a name with white space around it, `=`, an expression, `in` and an expression. -/
  | letIn {room inner : Room} {name : String} {bound body : Expression}
      {text afterName afterSign afterBound rest : List Glyph} :
      Enters room inner → name ∉ Grammar.keywords → Skips text (word name :: afterName) →
      Skips afterName (mark '=' :: afterSign) →
      Produces ends inner (.expression bound) afterSign (word "in" :: afterBound) →
      Produces ends inner (.expression body) afterBound rest → ends.body afterBound rest →
        Produces ends room (.core (.letIn name bound body)) (word "let" :: text) rest
  /-- A backslash, a name with white space around it, an annotation or none, `->` and an
  expression. -/
  | function {room inner : Room} {name : String} {declared : Option TypeExpression}
      {body : Expression} {text afterName beforeType afterArrow rest : List Glyph} :
      Enters room inner → name ∉ Grammar.keywords → Skips text (word name :: afterName) →
      Skips afterName beforeType →
      Produces ends room (.parameterType declared) beforeType
        (mark '-' :: mark '>' :: afterArrow) →
      Produces ends inner (.expression body) afterArrow rest → ends.body afterArrow rest →
        Produces ends room (.core (.function name declared body)) (mark '\\' :: text) rest
  | undeclared {room : Room} {text : List Glyph} :
      Produces ends room (.parameterType none) text text
  /-- A type between parentheses, and white space. -/
  | declared {room : Room} {type : TypeExpression} {text stop rest : List Glyph} :
      Produces ends room (.type type) text (mark ')' :: stop) → Skips stop rest →
        Produces ends room (.parameterType (some type)) (mark '(' :: text) rest
  | type {room : Room} {type : TypeExpression} {text rest : List Glyph} :
      Produces ends room (.typeAtom type) text rest → Produces ends room (.type type) text rest
  /-- The type of a parameter, `->` and the type of a result. -/
  | arrow {room inner : Room} {parameter result : TypeExpression}
      {text afterArrow rest : List Glyph} :
      Enters room inner →
      Produces ends room (.typeAtom parameter) text (mark '-' :: mark '>' :: afterArrow) →
      Produces ends inner (.type result) afterArrow rest →
        Produces ends room (.type (.function parameter result)) text rest
  /-- Any word, with white space around it. -/
  | typeName {room : Room} {name : String} {text stop rest : List Glyph} :
      Skips text (word name :: stop) → Skips stop rest →
        Produces ends room (.typeAtom (.named name)) text rest
  /-- A type between parentheses, with white space around them. -/
  | typeGroup {room inner : Room} {type : TypeExpression} {text inside stop rest : List Glyph} :
      Enters room inner → Skips text (mark '(' :: inside) →
      Produces ends inner (.type type) inside (mark ')' :: stop) → Skips stop rest →
        Produces ends room (.typeAtom type) text rest

/-- Bodies extend as far as any expression that starts where they start, and runs as far as any
run. -/
def Ends.furthest : Ends where
  body text rest := ∀ tree behind,
    Produces .any none (.expression tree) text behind → rest.length ≤ behind.length
  run text rest := ∀ symbol behind, Runs symbol text behind → rest.length ≤ behind.length

variable {ends : Ends} {room : Room} {phrase : Phrase} {text start middle rest : List Glyph}
  {tree : Expression} {symbol name : String}

/-! ### What is left out -/

theorem Skips.skip_eq (skips : Skips text rest) : skip text = skip rest := by
  induction skips with
  | none => rfl
  | one _ ih => exact ih

theorem Skips.suffix (skips : Skips text rest) : rest <:+ text := by
  induction skips with
  | none => exact List.suffix_rfl
  | one _ ih => exact ih.trans (List.suffix_cons _ _)

theorem skips_skip (text : List Glyph) : Skips text (skip text) := by
  induction text with
  | nil => exact .none
  | cons glyph others ih =>
      cases glyph with
      | blank => exact .one ih
      | _ => exact .none

/-- White space that ends in front of something else is all that there is. -/
theorem Skips.eq_skip {glyph : Glyph} (skips : Skips text (glyph :: rest))
    (visible : glyph.isBlank = false) : skip text = glyph :: rest := by
  rw [skips.skip_eq]
  simp [skip, visible]

theorem Runs.suffix (runs : Runs symbol text rest) : rest <:+ text := by
  rw [runs.spelt]
  exact List.suffix_append _ _

theorem runs_of_run (run : run? text = some (symbol, rest)) : Runs symbol text rest :=
  ⟨(operators_of_run run).1, (operators_of_run run).2, eq_of_run run⟩

/-- A run in front of something that does not go on with it is the one that is found. -/
theorem Runs.run_eq (runs : Runs symbol text rest)
    (ends : ∀ glyph ∈ rest.head?, glyph.isOperator = false) :
    run? text = some (symbol, rest) := by
  rw [runs.spelt]
  exact run_of_operators runs.nonempty runs.operators ends

theorem suffix_of_cons {glyph : Glyph} (suffix : glyph :: rest <:+ text) : rest <:+ text :=
  (List.suffix_cons glyph rest).trans suffix

theorem suffix_cons_of {glyph : Glyph} (suffix : rest <:+ text) : rest <:+ glyph :: text :=
  suffix.trans (List.suffix_cons glyph text)

/-- What is behind a phrase is the end of the text. -/
theorem Produces.suffix (produces : Produces ends room phrase text rest) : rest <:+ text := by
  induction produces with
  | expression front _ _ back first links =>
      exact back.suffix.trans (links.trans (first.trans front.suffix))
  | noLinks | noAtoms | undeclared => exact List.suffix_rfl
  | link runs _ _ _ _ operand links => exact links.trans (operand.trans runs.suffix)
  | application _ _ first others | atoms _ _ first others | items _ _ first others =>
      exact others.trans first
  | atom front _ back core => exact back.suffix.trans (core.trans front.suffix)
  | number | string | constant | name | noItems | noOthers => exact List.suffix_cons _ _
  | operatorName runs _ => exact suffix_cons_of (suffix_of_cons runs.suffix)
  | group _ _ inside => exact suffix_cons_of (suffix_of_cons inside)
  | list _ front _ items => exact suffix_cons_of (items.trans front.suffix)
  | others _ _ first others => exact suffix_cons_of (others.trans first)
  | letIn _ _ named equals _ _ _ bound body =>
      have afterSign := (suffix_of_cons equals.suffix).trans (suffix_of_cons named.suffix)
      exact suffix_cons_of (body.trans ((suffix_of_cons bound).trans afterSign))
  | function _ _ named front _ _ _ declared body =>
      have beforeType := front.suffix.trans (suffix_of_cons named.suffix)
      have afterArrow := (suffix_of_cons (suffix_of_cons declared)).trans beforeType
      exact suffix_cons_of (body.trans afterArrow)
  | declared _ back inside => exact suffix_cons_of (back.suffix.trans (suffix_of_cons inside))
  | type _ inside => exact inside
  | arrow _ _ _ parameter result =>
      exact result.trans (suffix_of_cons (suffix_of_cons parameter))
  | typeName front back => exact back.suffix.trans (suffix_of_cons front.suffix)
  | typeGroup _ front _ back inside =>
      exact back.suffix.trans ((suffix_of_cons inside).trans (suffix_of_cons front.suffix))

/-! ### What can stand in front -/

theorem Produces.startsAtom_core (produces : Produces ends room (.core tree) text rest) :
    startsAtom text = true := by
  cases produces with
  | constant member => exact startsAtom_constant member
  | name other => exact startsAtom_name other
  | letIn => simp [startsAtom]
  | _ => rfl

theorem Produces.startsAtom_atom (produces : Produces ends room (.atom tree) text rest) :
    startsAtom (skip text) = true := by
  cases produces with
  | atom front core _ =>
      have starts := core.startsAtom_core
      rw [front.skip_eq, (visible_of_startsAtom starts).skip_eq]
      exact starts

theorem Produces.startsAtom_application
    (produces : Produces ends room (.application tree) text rest) :
    startsAtom (skip text) = true := by
  cases produces with
  | application first _ => exact first.startsAtom_atom

/-- Where an atom can start behind white space, no operator symbol is in front of it. -/
theorem head_of_startsAtom (starts : startsAtom (skip text) = true) :
    ∀ glyph ∈ text.head?, glyph.isOperator = false := by
  intro glyph member
  cases text with
  | nil => cases member
  | cons first others =>
      obtain rfl : first = glyph := by simpa using member
      cases first with
      | mark c =>
          have opens : startsAtom (mark c :: others) = true := starts
          simp only [startsAtom, Bool.or_eq_true, beq_iff_eq] at opens
          rcases opens with (rfl | rfl) | rfl
          all_goals decide
      | _ => rfl

/-- An operator in front of an operand is the one that is found. -/
theorem Runs.operator_eq (runs : Runs symbol text rest) (lone : symbol ≠ "=")
    (starts : startsAtom (skip rest) = true) : operator? text = some (symbol, rest) := by
  rw [operator?, runs.run_eq (head_of_startsAtom starts)]
  simpa using lone

/-! ### Glyphs of tokens -/

/-- A glyph that a standard token can be seen as. -/
def Glyph.Proper : Glyph → Prop
  | .string content => Rule.quote ∉ content.toList
  | .word text => IsWord text
  | _ => True

/-- A text of glyphs that standard tokens can be seen as. -/
def Proper (text : List Glyph) : Prop := ∀ glyph ∈ text, glyph.Proper

theorem proper_of_standard {tokens : List Token} (standard : Standard tokens) :
    Proper (glyphs tokens) := by
  intro glyph member
  obtain ⟨token, among, rfl⟩ := List.mem_map.1 member
  cases standard token among with
  | blank kind =>
      rw [Token.glyph_of_blank kind]
      trivial
  | number kind =>
      rw [Token.glyph_of_number kind]
      trivial
  | string kind free =>
      rw [Token.glyph_of_string kind]
      exact free
  | word kind _ is_word =>
      rw [Token.glyph_of_word kind]
      exact is_word
  | mark symbol kind spelt =>
      rw [Token.glyph_of_mark kind spelt]
      trivial

theorem Proper.of_suffix (proper : Proper text) (suffix : rest <:+ text) : Proper rest :=
  fun glyph member => proper glyph (suffix.subset member)

theorem Proper.tail {glyph : Glyph} (proper : Proper (glyph :: text)) : Proper text :=
  proper.of_suffix (List.suffix_cons _ _)

theorem Proper.after (proper : Proper text) (produces : Produces ends room phrase text rest) :
    Proper rest :=
  proper.of_suffix produces.suffix

theorem Proper.skipped (proper : Proper text) (skips : Skips text rest) : Proper rest :=
  proper.of_suffix skips.suffix

theorem Proper.isWord (proper : Proper (word name :: text)) : IsWord name :=
  proper _ (.head _)

/-! ### Looser ends and greedy derivations -/

/-- What is produced with some ends and levels is produced with looser ends and any levels. -/
theorem Produces.loosen {looser : Ends}
    (bodies : ∀ text rest, ends.body text rest → looser.body text rest)
    (runs : ∀ text rest, ends.run text rest → looser.run text rest)
    (produces : Produces ends room phrase text rest) : Produces looser none phrase text rest := by
  induction produces with
  | expression front _ _ back first links => exact .expression front first links back
  | noLinks => exact .noLinks
  | link found ended lone _ _ operand links =>
      exact .link found (runs _ _ ended) lone operand links
  | application _ _ first others => exact .application first others
  | noAtoms => exact .noAtoms
  | atoms _ _ first others => exact .atoms first others
  | atom front _ back core => exact .atom front core back
  | number finite => exact .number finite
  | string => exact .string
  | constant member => exact .constant member
  | name other => exact .name other
  | operatorName found ended => exact .operatorName found (runs _ _ ended)
  | group _ _ inside => exact .group .unlimited inside
  | list _ front _ items => exact .list .unlimited front items
  | noItems => exact .noItems
  | items _ _ first others => exact .items first others
  | noOthers => exact .noOthers
  | others _ _ first others => exact .others first others
  | letIn _ other named equals _ _ ended bound body =>
      exact .letIn .unlimited other named equals bound body (bodies _ _ ended)
  | function _ other named front _ _ ended declared body =>
      exact .function .unlimited other named front declared body (bodies _ _ ended)
  | undeclared => exact .undeclared
  | declared _ back inside => exact .declared inside back
  | type _ inside => exact .type inside
  | arrow _ _ _ parameter result => exact .arrow .unlimited parameter result
  | typeName front back => exact .typeName front back
  | typeGroup _ front _ back inside => exact .typeGroup .unlimited front inside back

theorem Produces.any (produces : Produces ends room phrase text rest) :
    Produces .any none phrase text rest :=
  produces.loosen (fun _ _ _ => trivial) (fun _ _ _ => trivial)

theorem Produces.unlimited (produces : Produces ends room phrase text rest) :
    Produces ends none phrase text rest :=
  produces.loosen (fun _ _ => id) (fun _ _ => id)

/-- What is derived is produced, if the ends allow what a derivation takes for a body and for a
run. -/
theorem Derives.produces (derives : Derives room phrase text rest) (proper : Proper text)
    (bodies : ∀ {room tree text rest}, Proper text → Derives room (.expression tree) text rest →
      ends.body text rest)
    (runs : ∀ {symbol text rest}, run? text = some (symbol, rest) → ends.run text rest) :
    Produces ends room phrase text rest := by
  induction derives with
  | expression _ _ first_ih links_ih =>
      have first := first_ih proper
      exact .expression .none first (links_ih (proper.after first)) .none
  | stop => exact .noLinks
  | link operator _ _ operand_ih links_ih =>
      obtain ⟨run, lone⟩ := Option.filter_eq_some_iff.1 operator
      have found := runs_of_run run
      have behind := proper.of_suffix found.suffix
      have operand := operand_ih behind
      exact .link found (runs run) (by simpa using lone) operand (links_ih (behind.after operand))
  | application _ _ first_ih others_ih =>
      have first := first_ih proper
      exact .application first (others_ih (proper.after first))
  | done => exact .noAtoms
  | more _ _ first_ih others_ih =>
      have first := first_ih proper
      exact .atoms first (others_ih (proper.after first))
  | atom _ core_ih =>
      exact .atom (skips_skip _) (core_ih (proper.skipped (skips_skip _))) (skips_skip _)
  | number finite => exact .number finite
  | string => exact .string
  | constant member => exact .constant member
  | name is_name => exact .name is_name.2
  | operatorName _ run => exact .operatorName (runs_of_run run) (runs run)
  | group enters _ inside_ih => exact .group enters (inside_ih proper.tail)
  | list enters _ items_ih =>
      exact .list enters (skips_skip _) (items_ih (proper.tail.skipped (skips_skip _)))
  | noItems => exact .noItems
  | items _ _ first_ih others_ih =>
      have first := first_ih proper
      exact .items first (others_ih (proper.after first))
  | noOthers => exact .noOthers
  | others _ _ first_ih others_ih =>
      have first := first_ih proper.tail
      exact .others first (others_ih (proper.tail.after first))
  | @letIn _ _ _ _ _ text afterName _ _ _ enters is_name named equals _ body bound_ih body_ih =>
      have name := named ▸ skips_skip text
      have sign := equals ▸ skips_skip afterName
      have afterSign := ((proper.tail.skipped name).tail.skipped sign).tail
      have bound := bound_ih afterSign
      have afterBound := (afterSign.after bound).tail
      exact .letIn enters is_name.2 name sign bound (body_ih afterBound) (bodies afterBound body)
  | @function _ _ _ _ _ text _ _ _ enters is_name named _ body declared_ih body_ih =>
      have name := named ▸ skips_skip text
      have beforeType := (proper.tail.skipped name).tail.skipped (skips_skip _)
      have declared := declared_ih beforeType
      have afterArrow := (beforeType.after declared).tail.tail
      exact .function enters is_name.2 name (skips_skip _) declared (body_ih afterArrow)
        (bodies afterArrow body)
  | undeclared => exact .undeclared
  | declared _ inside_ih => exact .declared (inside_ih proper.tail) (skips_skip _)
  | type _ inside_ih => exact .type (inside_ih proper)
  | arrow enters _ _ parameter_ih result_ih =>
      have parameter := parameter_ih proper
      exact .arrow enters parameter (result_ih (proper.after parameter).tail.tail)
  | @typeName _ _ text _ _ named => exact .typeName (named ▸ skips_skip text) (skips_skip _)
  | @typeGroup _ _ _ text _ _ enters opens _ inside_ih =>
      have front := opens ▸ skips_skip text
      exact .typeGroup enters front (inside_ih (proper.skipped front).tail) (skips_skip _)

end Curried
