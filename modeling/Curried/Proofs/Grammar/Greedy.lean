import Curried.Proofs.Grammar.Productions

/-!
# Greedy derivations are enough

Wherever a phrase of some derivation ends, going on greedily from there leads to the same place as
a greedy derivation of the phrase that goes on from its own end: what a body leaves to the phrase
around it, a greedy body takes itself.  So a text with a derivation has a greedy one, and this is
the one whose bodies and runs extend the furthest.
-/

namespace Curried

open Expression
open Glyph (blank mark word)

variable {ends : Ends} {room inner : Room} {phrase : Phrase}
  {text start middle stop rest behind : List Glyph} {tree : Expression} {symbol name : String}

/-! ### Where greedy phrases end -/

/-- A text that continues no expression and has no white space in front. -/
structure Halts (text : List Glyph) : Prop extends Stops text where
  trimmed : skip text = text

/-- No atom is behind the arguments of an application, and nothing that continues an expression is
behind it. -/
def Phrase.Finishes (text rest : List Glyph) : Phrase → Prop
  | .application _ | .atoms _ => startsAtom rest = false
  | .links _ => startsAtom text = false → Stops rest
  | .expression _ => Stops rest
  | _ => True

theorem Derives.finishes (derives : Derives room phrase text rest) : phrase.Finishes text rest := by
  induction derives with
  | expression _ _ first links => exact links first
  | stop ends => exact fun none_starts => ⟨none_starts, ends⟩
  | link _ _ _ operand links => exact fun _ => links operand
  | application _ _ _ others | more _ _ _ others => exact others
  | done ends => exact ends
  | _ => trivial

theorem Derives.halts (derives : Derives room (.expression tree) text rest) : Halts rest :=
  ⟨derives.finishes, derives.skip_expression⟩

theorem halts_mark {c : Char} (member : c ∈ [')', ']', ',']) : Halts (mark c :: rest) :=
  ⟨stops_separator member, rfl⟩

theorem halts_in : Halts (word "in" :: rest) := ⟨stops_in, rfl⟩

theorem halts_nil : Halts [] := ⟨⟨rfl, rfl⟩, rfl⟩

/-! ### Going on greedily -/

/-- Arguments and links are derived up to the second text. -/
def Goes (text rest : List Glyph) : Prop :=
  ∃ trees links middle, Derives none (.atoms trees) text middle ∧
    Derives none (.links links) middle rest

/-- An atom, arguments and links are derived up to the second text. -/
def Opens (text rest : List Glyph) : Prop :=
  ∃ tree middle, Derives none (.core tree) text middle ∧ Goes (skip middle) rest

theorem Goes.length_le (goes : Goes text rest) : rest.length ≤ text.length := by
  obtain ⟨_, _, _, atoms, links⟩ := goes
  exact Nat.le_trans links.length_le atoms.length_le

/-- Nothing goes on where an expression can end. -/
theorem Halts.goes_iff (halts : Halts text) : Goes text rest ↔ rest = text := by
  constructor
  · rintro ⟨_, _, _, atoms, links⟩
    cases atoms with
    | done =>
        cases links with
        | stop => rfl
        | link operator =>
            rw [halts.operator] at operator
            cases operator
    | more first _ =>
        have starts := first.startsAtom_atom
        rw [halts.trimmed, halts.atom] at starts
        cases starts
  · rintro rfl
    exact ⟨[], [], rest, .done halts.atom, .stop halts.operator⟩

/-- Where an atom can start, what goes on starts with an atom. -/
theorem goes_iff_opens (trimmed : skip text = text) (starts : startsAtom text = true) :
    Goes text rest ↔ Opens text rest := by
  constructor
  · rintro ⟨_, links, last, atoms, linked⟩
    cases atoms with
    | done none_starts =>
        rw [starts] at none_starts
        cases none_starts
    | more first others =>
        cases first with
        | atom core =>
            rw [trimmed] at core
            exact ⟨_, _, core, _, _, _, others, linked⟩
  · rintro ⟨_, _, core, _, _, _, others, linked⟩
    rw [← trimmed] at core
    exact ⟨_, _, _, .more (.atom core) others, linked⟩

/-- Where an operator stands, what goes on is its operand. -/
theorem goes_iff_operand (operator : operator? text = some (symbol, behind)) :
    Goes text rest ↔ Opens (skip behind) rest := by
  have none_starts := startsAtom_of_operator operator
  constructor
  · rintro ⟨_, _, _, atoms, links⟩
    cases atoms with
    | more first _ =>
        have starts := first.startsAtom_atom
        rw [skip_of_run (Option.filter_eq_some_iff.1 operator).1, none_starts] at starts
        cases starts
    | done =>
        cases links with
        | stop ends =>
            rw [operator] at ends
            cases ends
        | link found operand links =>
            rw [operator] at found
            cases found
            cases operand with
            | application first others =>
                cases first with
                | atom core => exact ⟨_, _, core, _, _, _, others, links⟩
  · rintro ⟨_, _, core, _, _, _, others, links⟩
    exact ⟨_, _, _, .done none_starts, .link operator (.application (.atom core) others) links⟩

/-- An expression is an atom with what goes on behind it. -/
theorem derives_iff_opens :
    (∃ tree, Derives none (.expression tree) text rest) ↔ Opens (skip text) rest := by
  constructor
  · rintro ⟨_, derives⟩
    cases derives with
    | expression first links =>
        cases first with
        | application first others =>
            cases first with
            | atom core => exact ⟨_, _, core, _, _, _, others, links⟩
  · rintro ⟨_, _, core, _, _, _, others, links⟩
    exact ⟨_, .expression (.application (.atom core) others) links⟩

/-! ### Atoms by their first glyph -/

/-- Nothing else is derived where an atom of one glyph is. -/
theorem core_leaf_iff {glyph : Glyph} (leaf : Derives none (.core tree) (glyph :: text) text)
    (plain : glyph.isWord "let" = false) (marks : ∀ c, glyph ≠ mark c) :
    (∃ tree, Derives none (.core tree) (glyph :: text) rest) ↔ rest = text := by
  constructor
  · rintro ⟨_, derives⟩
    cases derives with
    | number | string | constant | name => rfl
    | operatorName | group | list | function => exact absurd rfl (marks _)
    | letIn => simp [Glyph.isWord] at plain
  · rintro rfl
    exact ⟨_, leaf⟩

theorem core_paren_iff :
    (∃ tree, Derives none (.core tree) (mark '(' :: text) rest) ↔
      (∃ tree, Derives none (.expression tree) text (mark ')' :: rest)) ∨
        ∃ symbol, run? text = some (symbol, mark ')' :: rest) := by
  constructor
  · rintro ⟨_, derives⟩
    cases derives with
    | operatorName enters run => exact .inr ⟨_, run⟩
    | group enters inside =>
        cases enters
        exact .inl ⟨_, inside⟩
  · rintro (⟨_, inside⟩ | ⟨_, run⟩)
    · exact ⟨_, .group .unlimited inside⟩
    · exact ⟨_, .operatorName .unlimited run⟩

theorem core_bracket_iff :
    (∃ tree, Derives none (.core tree) (mark '[' :: text) rest) ↔
      ∃ trees, Derives none (.items trees) (skip text) rest := by
  constructor
  · rintro ⟨_, derives⟩
    cases derives with
    | list enters items =>
        cases enters
        exact ⟨_, items⟩
  · rintro ⟨_, items⟩
    exact ⟨_, .list .unlimited items⟩

theorem core_let_iff (is_name : IsName name) {afterName afterSign : List Glyph}
    (named : skip text = word name :: afterName)
    (equals : skip afterName = mark '=' :: afterSign) :
    (∃ tree, Derives none (.core tree) (word "let" :: text) rest) ↔
      ∃ afterBound, (∃ bound, Derives none (.expression bound) afterSign
        (word "in" :: afterBound)) ∧ ∃ body, Derives none (.expression body) afterBound rest := by
  constructor
  · rintro ⟨_, derives⟩
    cases derives with
    | constant member => simp [constants] at member
    | name keyword => exact absurd (by decide) keyword.2
    | letIn enters _ named' equals' bound body =>
        cases enters
        rw [named] at named'
        cases named'
        rw [equals] at equals'
        cases equals'
        exact ⟨_, ⟨_, bound⟩, _, body⟩
  · rintro ⟨_, ⟨_, bound⟩, _, body⟩
    exact ⟨_, .letIn .unlimited is_name named equals bound body⟩

theorem core_lambda_iff (is_name : IsName name) {afterName : List Glyph}
    (named : skip text = word name :: afterName) :
    (∃ tree, Derives none (.core tree) (mark '\\' :: text) rest) ↔
      ∃ afterArrow, (∃ declared, Derives none (.parameterType declared) (skip afterName)
        (mark '-' :: mark '>' :: afterArrow)) ∧
          ∃ body, Derives none (.expression body) afterArrow rest := by
  constructor
  · rintro ⟨_, derives⟩
    cases derives with
    | function enters _ named' declared body =>
        cases enters
        rw [named] at named'
        cases named'
        exact ⟨_, ⟨_, declared⟩, _, body⟩
  · rintro ⟨_, ⟨_, declared⟩, _, body⟩
    exact ⟨_, .function .unlimited is_name named declared body⟩

/-! ### Types -/

/-- One more level. -/
def roomier (room : Room) : Room := room.map (· + 1)

theorem Enters.roomier (enters : Enters room inner) :
    Enters (Curried.roomier room) (Curried.roomier inner) := by
  cases enters with
  | unlimited => exact .unlimited
  | level left => exact .level (left + 1)

/-- There is a level to be opened. -/
theorem enters_roomier (room : Room) : Enters (roomier room) room := by
  cases room with
  | none => exact .unlimited
  | some left => exact .level left

/-- A type is derived as it was produced, with all of the white space behind it. -/
def Phrase.Typed (room : Room) (text rest : List Glyph) : Phrase → Prop
  | .parameterType declared => ∀ behind, rest = mark '-' :: behind →
      Derives room (.parameterType declared) (skip text) rest
  | .type found => ∀ behind, skip rest = mark ')' :: behind →
      Derives room (.type found) text (skip rest)
  | .typeAtom found => Derives room (.typeAtom found) text (skip rest)
  | _ => True

theorem Produces.typed (produces : Produces ends room phrase text rest) (proper : Proper text) :
    phrase.Typed (roomier room) text rest := by
  induction produces with
  | undeclared =>
      rintro behind rfl
      exact .undeclared
  | declared _ back inside =>
      rintro behind rfl
      have closed := inside proper.tail _ rfl
      have same := back.eq_skip rfl
      rw [← same]
      exact .declared closed
  | type _ inside =>
      intro behind closes
      have atom : Derives _ _ _ (skip _) := inside proper
      rw [closes] at atom ⊢
      exact .type atom
  | arrow enters parameter _ parameter_ih result_ih =>
      intro behind closes
      have result := result_ih (proper.after parameter).tail.tail behind closes
      rw [closes] at result ⊢
      exact .arrow enters.roomier (parameter_ih proper) result
  | typeName front back =>
      have is_word := (proper.skipped front).isWord
      rw [Phrase.Typed, ← back.skip_eq]
      exact .typeName is_word (front.eq_skip rfl)
  | typeGroup enters front _ back inside =>
      have closed := inside (proper.skipped front).tail _ rfl
      rw [Phrase.Typed, ← back.skip_eq]
      exact .typeGroup enters.roomier (front.eq_skip rfl) closed
  | _ => trivial

/-- A type that is derived in the same place ends in the same place. -/
def Phrase.EndsThere (text rest : List Glyph) : Phrase → Prop
  | .parameterType _ => ∀ declared behind,
      Derives none (.parameterType declared) text behind → behind = rest
  | .type _ => ∀ found behind, Derives none (.type found) text behind → behind = rest
  | .typeAtom _ => ∀ found behind, Derives none (.typeAtom found) text behind → behind = rest
  | _ => True

theorem Derives.endsThere (derives : Derives room phrase text rest) :
    phrase.EndsThere text rest := by
  induction derives with
  | undeclared =>
      intro _ _ other
      cases other
      rfl
  | declared _ inside =>
      intro _ _ other
      cases other with
      | declared type =>
          cases inside _ _ type
          rfl
  | type _ inside =>
      intro _ _ other
      cases other with
      | type atom => exact inside _ _ atom
      | arrow _ parameter _ => cases inside _ _ parameter
  | arrow _ _ _ parameter result =>
      intro _ _ other
      cases other with
      | type atom => cases parameter _ _ atom
      | arrow enters other_parameter other_result =>
          cases enters
          cases parameter _ _ other_parameter
          exact result _ _ other_result
  | typeName _ named =>
      intro _ _ other
      cases other with
      | typeName _ other_named =>
          rw [named] at other_named
          cases other_named
          rfl
      | typeGroup _ opens _ =>
          rw [named] at opens
          cases opens
  | typeGroup _ opens _ inside =>
      intro _ _ other
      cases other with
      | typeName _ named =>
          rw [opens] at named
          cases named
      | typeGroup enters other_opens type =>
          cases enters
          rw [opens] at other_opens
          cases other_opens
          cases inside _ _ type
          rfl
  | _ => trivial

/-! ### Going on from what was produced -/

/-- An atom whose end is the same in all derivations. -/
theorem opens_of_closed (trimmed : skip text = text)
    (closed : ∀ stop, (∃ tree, Derives none (.core tree) text stop) ↔ stop = middle) :
    Opens (skip text) rest ↔ Goes (skip middle) rest := by
  rw [trimmed]
  constructor
  · rintro ⟨tree, stop, core, goes⟩
    cases (closed stop).1 ⟨tree, core⟩
    exact goes
  · intro goes
    obtain ⟨tree, core⟩ := (closed middle).2 rfl
    exact ⟨tree, middle, core, goes⟩

/-- An atom that ends with a body takes whatever goes on behind the body. -/
theorem opens_of_body (trimmed : skip text = text)
    (bodies : ∀ stop, (∃ tree, Derives none (.core tree) text stop) ↔
      ∃ body, Derives none (.expression body) start stop)
    (greedy : ∀ rest, Opens (skip start) rest ↔ Goes (skip middle) rest) :
    Opens (skip text) rest ↔ Goes (skip middle) rest := by
  rw [trimmed]
  constructor
  · rintro ⟨tree, stop, core, goes⟩
    obtain ⟨body, derives⟩ := (bodies stop).1 ⟨tree, core⟩
    rw [derives.halts.trimmed, derives.halts.goes_iff] at goes
    subst goes
    exact (greedy rest).1 (derives_iff_opens.1 ⟨body, derives⟩)
  · intro goes
    obtain ⟨body, derives⟩ := derives_iff_opens.2 ((greedy rest).2 goes)
    obtain ⟨tree, core⟩ := (bodies rest).2 ⟨body, derives⟩
    have stays : Goes (skip rest) rest := by
      rw [derives.halts.trimmed]
      exact derives.halts.goes_iff.2 rfl
    exact ⟨tree, rest, core, stays⟩

/-- An expression in front of something that continues none ends there in all derivations. -/
theorem derives_iff_of_halts (greedy : ∀ rest, Opens (skip text) rest ↔ Goes (skip middle) rest)
    (halts : Halts middle) : (∃ tree, Derives none (.expression tree) text rest) ↔ rest = middle := by
  rw [derives_iff_opens, greedy, halts.trimmed, halts.goes_iff]

/-- Going on greedily in front of a phrase leads where going on behind it leads. -/
def Phrase.Greedy (text middle : List Glyph) : Phrase → Prop
  | .expression _ | .application _ | .atom _ | .core _ =>
      ∀ rest, Opens (skip text) rest ↔ Goes (skip middle) rest
  | .links _ | .atoms _ => ∀ rest, Goes (skip text) rest ↔ Goes (skip middle) rest
  | .items _ =>
      ∀ rest, (∃ trees, Derives none (.items trees) (skip text) rest) ↔ rest = middle
  | .others _ => Halts text ∧
      ∀ rest, (∃ trees, Derives none (.others trees) text rest) ↔ rest = middle
  | .parameterType _ | .type _ | .typeAtom _ => True

/-- No expression starts where a run of operator symbols stands. -/
theorem not_derives_of_run (run : run? text = some (symbol, behind)) :
    ¬ ∃ tree, Derives none (.expression tree) text rest := by
  intro derives
  obtain ⟨_, _, core, _⟩ := derives_iff_opens.1 derives
  have starts := core.startsAtom_core
  rw [skip_of_run run, startsAtom_of_run run] at starts
  cases starts

theorem greedy_operatorName (run : run? text = some (symbol, mark ')' :: rest)) :
    (Phrase.core (.identifier (operatorName symbol))).Greedy (mark '(' :: text) rest := by
  refine fun _ => opens_of_closed rfl fun stop => core_paren_iff.trans ⟨?_, ?_⟩
  · rintro (derives | ⟨_, other⟩)
    · exact absurd derives (not_derives_of_run run)
    · rw [run] at other
      cases other
      rfl
  · rintro rfl
    exact .inr ⟨symbol, run⟩

theorem greedy_group (inside : (Phrase.expression tree).Greedy text (mark ')' :: rest))
    (starts : startsAtom (skip text) = true) :
    (Phrase.core (.group tree)).Greedy (mark '(' :: text) rest := by
  refine fun _ => opens_of_closed rfl fun stop => core_paren_iff.trans ?_
  rw [derives_iff_of_halts inside (halts_mark (by decide))]
  constructor
  · rintro (same | ⟨_, run⟩)
    · cases same
      rfl
    · rw [skip_of_run run, startsAtom_of_run run] at starts
      cases starts
  · rintro rfl
    exact .inl rfl

theorem greedy_noItems : (Phrase.items []).Greedy (mark ']' :: rest) rest := by
  refine fun stop => ⟨?_, ?_⟩
  · rintro ⟨_, derives⟩
    cases derives with
    | noItems => rfl
    | items first _ =>
        obtain ⟨_, _, core, _⟩ := derives_iff_opens.1 ⟨_, first⟩
        cases core.startsAtom_core
  · rintro rfl
    exact ⟨[], .noItems⟩

theorem greedy_items {first : Expression} {others : List Expression}
    (item : (Phrase.expression first).Greedy text middle)
    (starts : startsAtom (skip text) = true) (behind : (Phrase.others others).Greedy middle rest) :
    (Phrase.items (first :: others)).Greedy text rest := by
  obtain ⟨halts, closed⟩ := behind
  have ends (stop : List Glyph) :
      (∃ tree, Derives none (.expression tree) (skip text) stop) ↔ stop = middle := by
    refine derives_iff_of_halts (fun rest => ?_) halts
    rw [skip_skip]
    exact item rest
  refine fun stop => ⟨?_, ?_⟩
  · rintro ⟨_, derives⟩
    generalize skip text = front at derives starts ends
    cases derives with
    | noItems => cases starts
    | items first others =>
        cases (ends _).1 ⟨_, first⟩
        exact (closed stop).1 ⟨_, others⟩
  · rintro rfl
    obtain ⟨first, item⟩ := (ends middle).2 rfl
    obtain ⟨others, behind⟩ := (closed stop).2 rfl
    exact ⟨first :: others, .items item behind⟩

theorem greedy_noOthers : (Phrase.others []).Greedy (mark ']' :: rest) rest := by
  refine ⟨halts_mark (by decide), fun stop => ⟨?_, ?_⟩⟩
  · rintro ⟨_, derives⟩
    cases derives
    rfl
  · rintro rfl
    exact ⟨[], .noOthers⟩

theorem greedy_others {first : Expression} {others : List Expression}
    (item : (Phrase.expression first).Greedy text middle)
    (behind : (Phrase.others others).Greedy middle rest) :
    (Phrase.others (first :: others)).Greedy (mark ',' :: text) rest := by
  obtain ⟨halts, closed⟩ := behind
  have ends (stop : List Glyph) :
      (∃ tree, Derives none (.expression tree) text stop) ↔ stop = middle :=
    derives_iff_of_halts item halts
  refine ⟨halts_mark (by decide), fun stop => ⟨?_, ?_⟩⟩
  · rintro ⟨_, derives⟩
    cases derives with
    | others first others =>
        cases (ends _).1 ⟨_, first⟩
        exact (closed stop).1 ⟨_, others⟩
  · rintro rfl
    obtain ⟨first, item⟩ := (ends middle).2 rfl
    obtain ⟨others, behind⟩ := (closed stop).2 rfl
    exact ⟨first :: others, .others item behind⟩

theorem greedy_letIn {bound body : Expression} {afterName afterSign : List Glyph}
    (is_name : IsName name) (named : skip text = word name :: afterName)
    (equals : skip afterName = mark '=' :: afterSign)
    (bound_greedy : (Phrase.expression bound).Greedy afterSign (word "in" :: behind))
    (body_greedy : (Phrase.expression body).Greedy behind rest) :
    (Phrase.core (.letIn name bound body)).Greedy (word "let" :: text) rest := by
  refine fun _ => opens_of_body rfl (fun stop => (core_let_iff is_name named equals).trans ?_)
    body_greedy
  constructor
  · rintro ⟨afterBound, bounds, bodies⟩
    cases (derives_iff_of_halts bound_greedy halts_in).1 bounds
    exact bodies
  · intro bodies
    exact ⟨behind, (derives_iff_of_halts bound_greedy halts_in).2 rfl, bodies⟩

theorem greedy_function {declared : Option TypeExpression} {body : Expression}
    {afterName : List Glyph} (is_name : IsName name)
    (named : skip text = word name :: afterName)
    (typed : Derives none (.parameterType declared) (skip afterName)
      (mark '-' :: mark '>' :: behind))
    (body_greedy : (Phrase.expression body).Greedy behind rest) :
    (Phrase.core (.function name declared body)).Greedy (mark '\\' :: text) rest := by
  refine fun _ => opens_of_body rfl (fun stop => (core_lambda_iff is_name named).trans ?_)
    body_greedy
  constructor
  · rintro ⟨afterArrow, ⟨_, other⟩, bodies⟩
    cases typed.endsThere _ _ other
    exact bodies
  · intro bodies
    exact ⟨behind, ⟨declared, typed⟩, bodies⟩

theorem Produces.startsAtom_expression
    (produces : Produces ends room (.expression tree) text rest) :
    startsAtom (skip text) = true := by
  cases produces with
  | expression front first _ _ =>
      rw [front.skip_eq]
      exact first.startsAtom_application

/-- Whatever phrase is produced, going on greedily in front of it leads where going on behind it
leads. -/
theorem Produces.greedy (produces : Produces ends room phrase text rest) (proper : Proper text) :
    phrase.Greedy text rest := by
  induction produces with
  | expression front first links back first_ih links_ih =>
      have start := proper.skipped front
      intro rest
      rw [front.skip_eq, ← back.skip_eq]
      exact (first_ih start rest).trans (links_ih (start.after first) rest)
  | noLinks | noAtoms => exact fun _ => Iff.rfl
  | link runs _ lone operand _ operand_ih links_ih =>
      have behind := proper.of_suffix runs.suffix
      have operator := runs.operator_eq lone operand.startsAtom_application
      intro rest
      rw [skip_of_run (Option.filter_eq_some_iff.1 operator).1, goes_iff_operand operator]
      exact (operand_ih behind rest).trans (links_ih (behind.after operand) rest)
  | application first _ first_ih others_ih =>
      exact fun rest => (first_ih proper rest).trans (others_ih (proper.after first) rest)
  | @atoms _ _ _ text _ _ first _ first_ih others_ih =>
      intro rest
      rw [goes_iff_opens (skip_skip text) first.startsAtom_atom]
      exact (first_ih proper rest).trans (others_ih (proper.after first) rest)
  | atom front _ back core_ih =>
      intro rest
      rw [front.skip_eq, ← back.skip_eq]
      exact core_ih (proper.skipped front) rest
  | number finite =>
      exact fun _ => opens_of_closed rfl fun _ => core_leaf_iff (.number finite) rfl nofun
  | string =>
      exact fun _ => opens_of_closed rfl fun _ =>
        core_leaf_iff (.string (proper _ (.head _))) rfl nofun
  | constant member =>
      refine fun _ => opens_of_closed rfl fun _ => core_leaf_iff (.constant member) ?_ nofun
      rcases constant_cases member with ⟨rfl, _⟩ | ⟨rfl, _⟩ | ⟨rfl, _⟩
      all_goals rfl
  | name other =>
      refine fun _ => opens_of_closed rfl fun _ =>
        core_leaf_iff (.name ⟨proper.isWord, other⟩) ?_ nofun
      refine beq_eq_false_iff_ne.2 ?_
      rintro rfl
      exact other (by decide)
  | operatorName runs _ =>
      refine greedy_operatorName (runs.run_eq fun glyph member => ?_)
      cases member
      decide
  | group _ inside ih => exact greedy_group (ih proper.tail) inside.startsAtom_expression
  | @list _ _ _ text _ _ _ front _ ih =>
      refine fun _ => opens_of_closed rfl fun stop => core_bracket_iff.trans ?_
      rw [front.skip_eq]
      exact ih (proper.tail.skipped front) stop
  | noItems => exact greedy_noItems
  | items first _ first_ih others_ih =>
      exact greedy_items (first_ih proper) first.startsAtom_expression
        (others_ih (proper.after first))
  | noOthers => exact greedy_noOthers
  | others first _ first_ih others_ih =>
      exact greedy_others (first_ih proper.tail) (others_ih (proper.tail.after first))
  | letIn _ other named equals bound _ _ bound_ih body_ih =>
      have name := proper.tail.skipped named
      have afterSign := (name.tail.skipped equals).tail
      exact greedy_letIn ⟨name.isWord, other⟩ (named.eq_skip rfl) (equals.eq_skip rfl)
        (bound_ih afterSign) (body_ih (afterSign.after bound).tail)
  | function _ other named front declared _ _ _ body_ih =>
      have name := proper.tail.skipped named
      have beforeType := name.tail.skipped front
      have typed := declared.unlimited.typed beforeType _ rfl
      have start := front.skip_eq
      rw [← start] at typed
      exact greedy_function ⟨name.isWord, other⟩ (named.eq_skip rfl) typed
        (body_ih (beforeType.after declared).tail.tail)
  | undeclared | declared | type | arrow | typeName | typeGroup => trivial

end Curried
