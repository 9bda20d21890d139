import Curried.Proofs.Grammar.Greedy

/-!
# The derivation whose bodies and runs extend the furthest

A source with a derivation has exactly one tree that is produced with bodies and runs as long as
they can be, and this is the one that the parser finds.  The parser needs at most one level more
than that derivation has: an operator in parentheses is tried as a group first.
-/

namespace Curried

open Expression Grammar
open Glyph (blank mark word)

variable {room inner : Room} {phrase : Phrase} {text rest behind : List Glyph} {tree : Expression}

/-! ### Greedy bodies extend the furthest -/

theorem Derives.any (derives : Derives room phrase text rest) (proper : Proper text) :
    Produces .any none phrase text rest :=
  Produces.any (derives.produces proper (fun _ _ => trivial) fun _ => trivial : Produces .any _ _ _ _)

/-- No expression that starts where a derived one starts extends further. -/
theorem Derives.length_le_of_produces (derives : Derives room (.expression tree) text rest)
    (proper : Proper text) {other : Expression}
    (produces : Produces .any none (.expression other) text behind) :
    rest.length ≤ behind.length := by
  have stays : Goes (skip rest) rest := by
    rw [derives.halts.trimmed, derives.halts.goes_iff]
  have opens : Opens (skip text) rest := ((derives.any proper).greedy proper rest).2 stays
  have goes : Goes (skip behind) rest := (produces.greedy proper rest).1 opens
  exact Nat.le_trans goes.length_le (length_skip_le behind)

/-- No run that starts where a run was found extends further. -/
theorem length_le_of_run {symbol other : String} (run : run? text = some (symbol, rest))
    (runs : Runs other text behind) : rest.length ≤ behind.length := by
  rw [← dropWhile_of_run run, runs.spelt,
    List.dropWhile_append_of_pos (isOperator_of_marks runs.operators)]
  exact (List.dropWhile_suffix _).length_le

/-- What is derived is produced with bodies and runs that extend the furthest. -/
theorem Derives.furthest (derives : Derives room phrase text rest) (proper : Proper text) :
    Produces .furthest room phrase text rest :=
  derives.produces proper
    (fun proper derives _ _ produces => derives.length_le_of_produces proper produces)
    (fun run _ _ runs => length_le_of_run run runs)

/-! ### What extends the furthest is greedy -/

/-- A body that extends the furthest ends where an expression ends, if anything goes on behind
it. -/
theorem halts_of_furthest {ends : Ends} (produces : Produces ends room (.expression tree) text rest)
    (proper : Proper text) (furthest : Ends.furthest.body text rest)
    (goes : Goes (skip rest) behind) : Halts rest := by
  obtain ⟨other, derives⟩ :=
    derives_iff_opens.2 ((produces.greedy proper behind).2 goes)
  have other_produces := derives.any proper
  have most := furthest other behind other_produces
  have least := Nat.le_trans goes.length_le (length_skip_le rest)
  have same : rest = behind :=
    (List.suffix_of_suffix_length_le produces.suffix other_produces.suffix most).eq_of_length
      (Nat.le_antisymm most least)
  rw [same]
  exact derives.halts

/-- A phrase is derived with the levels it was produced with and one more, if what is behind it
can be gone on with and does not continue it. -/
def Phrase.Settles (room : Room) (text rest : List Glyph) : Phrase → Prop
  | .expression tree => Halts (skip rest) → Derives room (.expression tree) text (skip rest)
  | .links found => Halts (skip rest) →
      startsAtom (skip text) = false ∧ Derives room (.links found) (skip text) (skip rest)
  | .application tree => ∀ behind, Goes (skip rest) behind → startsAtom (skip rest) = false →
      Derives room (.application tree) text (skip rest)
  | .atoms trees => ∀ behind, Goes (skip rest) behind → startsAtom (skip rest) = false →
      Derives room (.atoms trees) (skip text) (skip rest)
  | .atom tree => ∀ behind, Goes (skip rest) behind → Derives room (.atom tree) text (skip rest)
  | .core tree => ∀ behind, Goes (skip rest) behind → Derives room (.core tree) text rest
  | .items trees => Derives room (.items trees) (skip text) rest
  | .others trees => Derives room (.others trees) text rest
  | .parameterType _ | .type _ | .typeAtom _ => True

/-- What is produced with bodies that extend the furthest is derived. -/
theorem Produces.settles (produces : Produces .furthest room phrase text rest)
    (proper : Proper text) : phrase.Settles (roomier room) text rest := by
  induction produces with
  | expression front first links back first_ih links_ih =>
      intro halts
      have start := proper.skipped front
      have middle := start.after first
      rw [← back.skip_eq] at halts ⊢
      obtain ⟨ends, linked⟩ := links_ih middle halts
      have goes := (links.greedy middle _).2 (halts.goes_iff.2 rfl)
      exact .expression ((first_ih start _ goes ends).application_of_skip_eq front.skip_eq) linked
  | noLinks => exact fun halts => ⟨halts.atom, .stop halts.operator⟩
  | link runs _ lone operand links operand_ih links_ih =>
      intro halts
      have behind := proper.of_suffix runs.suffix
      have middle := behind.after operand
      obtain ⟨ends, linked⟩ := links_ih middle halts
      have goes := (links.greedy middle _).2 (halts.goes_iff.2 rfl)
      have operator := runs.operator_eq lone operand.startsAtom_application
      rw [skip_of_run (Option.filter_eq_some_iff.1 operator).1]
      exact ⟨startsAtom_of_operator operator,
        .link operator (operand_ih behind _ goes ends) linked⟩
  | application first others first_ih others_ih =>
      intro behind goes ends
      have middle := proper.after first
      exact .application (first_ih proper behind ((others.greedy middle behind).2 goes))
        (others_ih middle behind goes ends)
  | noAtoms => exact fun _ _ ends => .done ends
  | @atoms _ _ _ text _ _ first others first_ih others_ih =>
      intro behind goes ends
      have middle := proper.after first
      have atom := first_ih proper behind ((others.greedy middle behind).2 goes)
      exact .more (atom.atom_of_skip_eq (skip_skip text)) (others_ih middle behind goes ends)
  | atom front core back core_ih =>
      intro behind goes
      rw [← back.skip_eq] at goes ⊢
      have derives := core_ih (proper.skipped front) behind goes
      have start := front.skip_eq
      rw [(visible_of_startsAtom core.startsAtom_core).skip_eq] at start
      rw [← start] at derives
      exact .atom derives
  | number finite => exact fun _ _ => .number finite
  | string => exact fun _ _ => .string (proper _ (.head _))
  | constant member => exact fun _ _ => .constant member
  | name other => exact fun _ _ => .name ⟨proper.isWord, other⟩
  | operatorName runs _ =>
      intro _ _
      refine .operatorName (enters_roomier _) (runs.run_eq fun glyph member => ?_)
      cases member
      decide
  | group enters _ ih =>
      exact fun _ _ => .group enters.roomier (ih proper.tail (halts_mark (by decide)))
  | @list _ _ _ text _ _ enters front _ ih =>
      intro _ _
      have items := ih (proper.tail.skipped front)
      rw [Phrase.Settles, ← front.skip_eq] at items
      exact .list enters.roomier items
  | noItems => exact .noItems
  | @items _ _ _ text _ _ first others first_ih others_ih =>
      have middle := proper.after first
      have halts : Halts _ := (others.any.greedy middle).1
      have item := first_ih proper
      rw [Phrase.Settles, halts.trimmed] at item
      exact .items ((item halts).expression_of_skip_eq (skip_skip text)) (others_ih middle)
  | noOthers => exact .noOthers
  | others first others first_ih others_ih =>
      have middle := proper.tail.after first
      have halts : Halts _ := (others.any.greedy middle).1
      have item := first_ih proper.tail
      rw [Phrase.Settles, halts.trimmed] at item
      exact .others (item halts) (others_ih middle)
  | letIn enters other named equals bound body furthest bound_ih body_ih =>
      intro behind goes
      have name := proper.tail.skipped named
      have afterSign := (name.tail.skipped equals).tail
      have afterBound := (afterSign.after bound).tail
      have halts := halts_of_furthest body afterBound furthest goes
      have derives := body_ih afterBound
      rw [Phrase.Settles, halts.trimmed] at derives
      exact .letIn enters.roomier ⟨name.isWord, other⟩ (named.eq_skip rfl) (equals.eq_skip rfl)
        (bound_ih afterSign halts_in) (derives halts)
  | function enters other named front declared body furthest _ body_ih =>
      intro behind goes
      have name := proper.tail.skipped named
      have beforeType := name.tail.skipped front
      have afterArrow := (beforeType.after declared).tail.tail
      have halts := halts_of_furthest body afterArrow furthest goes
      have derives := body_ih afterArrow
      rw [Phrase.Settles, halts.trimmed] at derives
      have typed := declared.typed beforeType _ rfl
      rw [← front.skip_eq] at typed
      exact .function enters.roomier ⟨name.isWord, other⟩ (named.eq_skip rfl) typed (derives halts)
  | undeclared | declared | type | arrow | typeName | typeGroup => trivial

/-! ### Programs -/

/-- A program that is produced with bodies and runs that extend the furthest is derived. -/
theorem Produces.derives {tokens : List Token} (standard : Standard tokens)
    (produces : Produces .furthest room (.expression tree) (glyphs tokens) []) :
    Derives (roomier room) (.expression tree) (glyphs tokens) [] :=
  produces.settles (proper_of_standard standard) halts_nil

/-- Some program is derived without a limit where any is produced. -/
theorem exists_derives_of_produces {tokens : List Token} (standard : Standard tokens)
    (produces : Produces .any none (.expression tree) (glyphs tokens) []) :
    ∃ tree, Derives none (.expression tree) (glyphs tokens) [] :=
  derives_iff_opens.2 ((produces.greedy (proper_of_standard standard) []).2
    (halts_nil.goes_iff.2 rfl))

/-- The parser accepts exactly the language of the productions.  A tree that it finds is produced
from all tokens of the source.  A source that has a derivation has exactly one tree with bodies
and runs that extend the furthest, and if that tree is produced with at most 31 levels, the parser
finds it. -/
theorem parse_of_productions (source : String) :
    (∀ tree, parse source = .ok tree → ∃ tokens, tokenize Rule.standard source = .ok tokens ∧
      Produces .any none (.expression tree) (glyphs tokens) []) ∧
    ∀ tokens, tokenize Rule.standard source = .ok tokens →
      (∃ tree, Produces .any none (.expression tree) (glyphs tokens) []) →
        ∃ tree, Produces .furthest none (.expression tree) (glyphs tokens) [] ∧
          (∀ other, Produces .furthest none (.expression other) (glyphs tokens) [] →
            other = tree) ∧
          (Produces .furthest (some 31) (.expression tree) (glyphs tokens) [] →
            parse source = .ok tree) := by
  rw [parse_eq_parseUpTo]
  refine ⟨fun tree parses => ?_, fun tokens lexed produced => ?_⟩
  · obtain ⟨tokens, lexed, derives⟩ := parseUpTo_iff_derives.1 parses
    exact ⟨tokens, lexed, derives.any (proper_of_standard (standard_of_tokenize lexed))⟩
  · have standard := standard_of_tokenize lexed
    obtain ⟨_, produces⟩ := produced
    obtain ⟨tree, derives⟩ := exists_derives_of_produces standard produces
    have found : parseUpTo none source = .ok tree :=
      parseUpTo_iff_derives.2 ⟨tokens, lexed, derives⟩
    refine ⟨tree, derives.furthest (proper_of_standard standard), fun other furthest => ?_,
      fun shallow => parseUpTo_iff_derives.2 ⟨tokens, lexed, shallow.derives standard⟩⟩
    have also_found : parseUpTo none source = .ok other :=
      parseUpTo_iff_derives.2 ⟨tokens, lexed, furthest.derives standard⟩
    rw [found] at also_found
    exact (Except.ok.inj also_found).symm

/-- The body of the last function could end in front of every atom and of the sign, and the body of
the binding as well; both go on to the end. -/
theorem parse_of_productions_letIn :
    ∃ tokens tree, tokenize Rule.standard
        "let f = \\x (number -> number) -> x 1 in f \\y -> (+) y 2 - 3" = .ok tokens ∧
      Produces .furthest (some 31) (.expression tree) (glyphs tokens) [] ∧
      parse "let f = \\x (number -> number) -> x 1 in f \\y -> (+) y 2 - 3" = .ok tree ∧
      Produces .any none (.expression tree) (glyphs tokens) [] := by
  have checked : (match parseUpTo (some 31)
      "let f = \\x (number -> number) -> x 1 in f \\y -> (+) y 2 - 3" with
    | .ok _ => true
    | .error _ => false) = true := by decide +kernel
  cases found : parseUpTo (some 31)
      "let f = \\x (number -> number) -> x 1 in f \\y -> (+) y 2 - 3" with
  | error _ => simp [found] at checked
  | ok tree =>
      obtain ⟨tokens, lexed, derives⟩ := parseUpTo_iff_derives.1 found
      have furthest := derives.furthest (proper_of_standard (standard_of_tokenize lexed))
      obtain ⟨_, _, unique, parses⟩ :=
        (parse_of_productions _).2 tokens lexed ⟨tree, furthest.any⟩
      cases unique tree furthest.unlimited
      obtain ⟨_, again, produces⟩ := (parse_of_productions _).1 tree (parses furthest)
      rw [lexed] at again
      cases again
      exact ⟨tokens, tree, lexed, furthest, parses furthest, produces⟩

end Curried
