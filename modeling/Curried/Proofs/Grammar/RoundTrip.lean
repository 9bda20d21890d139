import Curried.Proofs.Grammar.Rendering
import Curried.Proofs.Grammar.Sources
import Curried.Proofs.Grammar.TypeRendering

/-!
# Trees read back

The text of a parsed tree is parsed to the same tree.  Each phrase of a derivation is rendered to a
text that derives it again, as long as nothing behind the text continues a phrase that ended there
at first.
-/

namespace Curried

open Expression
open Glyph (blank mark word)

/-- A text that a tree is rendered to, and the equal tree that will be read from it. -/
structure Written (tree again : Expression) (text : List Glyph) : Prop where
  writes : Writes tree.render.toList text
  starts : startsAtom text = true
  same : again.same tree = true

/-- What stands behind a text the second time continues nothing that ended there at first. -/
structure Follows (rest tail : List Glyph) : Prop where
  atom : startsAtom rest = false → startsAtom tail = false
  operator : operator? rest = none → operator? tail = none

/-- A text that continues no expression. -/
structure Stops (text : List Glyph) : Prop where
  atom : startsAtom text = false
  operator : operator? text = none

/-- A tree is rendered to a text that derives an equal one. -/
def Expression.ReadBack (tree : Expression) (room : Room) (phrase : Expression → Phrase)
    (rest : List Glyph) : Prop :=
  ∃ again text, Written tree again text ∧
    ∀ tail, Follows rest (skip tail) → Derives room (phrase again) (text ++ tail) (skip tail)

/-- The text of the type of a parameter. -/
def renderDeclared : Option TypeExpression → List Char
  | some type => ' ' :: '(' :: (type.render.toList ++ [')'])
  | none => []

/-- The trees of a phrase are rendered to a text that derives equal ones.  What continues a phrase
comes behind a space, so it is read back from behind it. -/
def Phrase.ReadBack (room : Room) (text rest : List Glyph) : Phrase → Prop
  | .expression tree => tree.ReadBack room .expression rest
  | .links found =>
      ∃ (parts : Parts) (front : List Glyph),
        found = parts.map (fun part => (part.1, part.2.1)) ∧
        (∀ part ∈ parts, part.2.2.same part.2.1 = true) ∧ Writes (renderLinks found) front ∧
        ∀ tail, Follows rest (skip tail) → Follows text (skip (front ++ tail)) ∧
          Derives room (.links (parts.map fun part => (part.1, part.2.2))) (skip (front ++ tail))
            (skip tail)
  | .application tree => tree.ReadBack room .application rest
  | .atoms trees => skip text = text → ∃ agains front, sameItems agains trees = true ∧
      Writes (renderArguments trees) front ∧
      ∀ tail, Follows rest (skip tail) → Follows text (skip (front ++ tail)) ∧
        Derives room (.atoms agains) (skip (front ++ tail)) (skip tail)
  | .atom tree => tree.ReadBack room .atom rest
  | .core tree => tree.ReadBack room .atom (skip rest)
  | .items trees => ∃ agains front, sameItems agains trees = true ∧
      Writes (renderItems trees).toList front ∧
      ∀ tail, Derives room (.items agains) (skip (front ++ mark ']' :: tail)) tail
  | .others trees => ∃ agains front, sameItems agains trees = true ∧
      Writes (renderOthers trees) front ∧
      ∀ tail, Stops (skip (front ++ mark ']' :: tail)) ∧
        Derives room (.others agains) (skip (front ++ mark ']' :: tail)) tail
  | .parameterType declared => ∃ front, Writes (renderDeclared declared) front ∧
      ∀ tail, Derives room (.parameterType declared)
        (skip (front ++ blank :: mark '-' :: mark '>' :: tail)) (mark '-' :: mark '>' :: tail)
  | .type _ | .typeAtom _ => True

variable {room inner : Room} {text middle rest behind tail : List Glyph}
  {tree again first : Expression} {symbol : String}

/-! ### What comes behind -/

theorem Stops.follows (stops : Stops tail) : Follows rest tail :=
  ⟨fun _ => stops.atom, fun _ => stops.operator⟩

theorem follows_nil : Follows rest [] := ⟨fun _ => rfl, fun _ => rfl⟩

theorem stops_separator {c : Char} (member : c ∈ [')', ']', ',']) : Stops (mark c :: tail) := by
  simp only [List.mem_cons, List.not_mem_nil, or_false] at member
  rcases member with rfl | rfl | rfl
  all_goals exact ⟨rfl, rfl⟩

theorem stops_in : Stops (word "in" :: tail) := ⟨by simp [startsAtom], rfl⟩

/-- An atom where there was one. -/
theorem follows_of_startsAtom (started : startsAtom text = true) (starts : startsAtom tail = true) :
    Follows text tail := by
  refine ⟨fun none_started => ?_, fun _ => operator_of_startsAtom starts⟩
  rw [started] at none_started
  cases none_started

/-- An operator where there was one. -/
theorem follows_of_operator (operator : operator? text = some (symbol, behind))
    (again : operator? tail = some (symbol, rest)) : Follows text tail := by
  refine ⟨fun _ => startsAtom_of_operator again, fun none_left => ?_⟩
  rw [operator] at none_left
  cases none_left

theorem startsAtom_append (starts : startsAtom text = true) : startsAtom (text ++ tail) = true := by
  cases text with
  | nil => cases starts
  | cons glyph others =>
      cases glyph with
      | number value =>
          cases value with
          | none => cases starts
          | some _ => rfl
      | _ => exact starts

theorem Written.skip_eq (written : Written tree again text) (tail : List Glyph) :
    skip (text ++ tail) = text ++ tail :=
  (visible_of_startsAtom written.starts).append.skip_eq

theorem Written.visible (written : Written tree again text) : Visible text :=
  visible_of_startsAtom written.starts

/-- A space in front of an expression does not matter. -/
theorem Written.behind_blank (written : Written tree again text)
    (derives : Derives room (.expression again) (text ++ tail) rest) :
    Derives room (.expression again) (blank :: (text ++ tail)) rest := by
  apply Derives.expression_of_skip
  rw [skip_blank, written.skip_eq]
  exact derives

/-! ### Where a phrase ends -/

/-- No white space is behind a phrase, or none that was not in front of it. -/
def Phrase.Trims (text rest : List Glyph) : Phrase → Prop
  | .expression _ | .application _ | .atom _ => skip rest = rest
  | .links _ | .atoms _ => skip text = text → skip rest = rest
  | _ => True

theorem Derives.trims {phrase : Phrase} (derives : Derives room phrase text rest) :
    phrase.Trims text rest := by
  induction derives with
  | expression _ _ first others => exact others first
  | stop | done => exact id
  | link _ _ _ operand others => exact fun _ => others operand
  | application _ _ first others => exact others first
  | more _ _ first others => exact fun _ => others first
  | atom => exact skip_skip _
  | _ => trivial

theorem Derives.skip_atom (derives : Derives room (.atom tree) text rest) : skip rest = rest :=
  derives.trims

theorem Derives.skip_expression (derives : Derives room (.expression tree) text rest) :
    skip rest = rest :=
  derives.trims

/-! ### Atoms -/

theorem readBack_of_core (written : Written tree again text)
    (core : ∀ tail, Follows (skip rest) (skip tail) → ∃ middle,
      Derives room (.core again) (text ++ tail) middle ∧ skip middle = skip tail) :
    tree.ReadBack room .atom (skip rest) := by
  refine ⟨again, text, written, fun tail follows => ?_⟩
  obtain ⟨middle, derives, same⟩ := core tail follows
  rw [← written.skip_eq tail] at derives
  have atom := Derives.atom derives
  rw [same] at atom
  exact atom

/-- An atom that ends with its text, whatever is behind it. -/
theorem readBack_of_closed (written : Written tree again text)
    (core : ∀ tail, Derives room (.core again) (text ++ tail) tail) :
    tree.ReadBack room .atom (skip rest) :=
  readBack_of_core written fun tail _ => ⟨tail, core tail, rfl⟩

theorem readBack_number {value : Float} (finite : value.isFinite = true)
    (reads : (Expression.number value).NumbersReadBack) :
    (Expression.number value).ReadBack room .atom (skip rest) := by
  obtain ⟨again, reading⟩ := reads value (.head _) finite
  have written : Written (.number value) (.number again) [.number (some again)] :=
    ⟨writes_number reading finite, rfl, reading.same⟩
  exact readBack_of_closed written fun _ => .number (Number.isFinite_of_beq reading.same finite)

theorem readBack_string {content : String} (free : Rule.quote ∉ content.toList) :
    (Expression.string content).ReadBack room .atom (skip rest) := by
  have written : Written (.string content) (.string content) [.string content] :=
    ⟨writes_string free, rfl, by simp [same]⟩
  exact readBack_of_closed written fun _ => .string free

theorem readBack_constant {word : String} {value : Expression}
    (member : (word, value) ∈ constants) : value.ReadBack room .atom (skip rest) := by
  have written : Written value value [.word word] := by
    rcases constant_cases member with ⟨rfl, rfl⟩ | ⟨rfl, rfl⟩ | ⟨rfl, rfl⟩
    all_goals exact ⟨writes_keyword (by decide), rfl, rfl⟩
  exact readBack_of_closed written fun _ => .constant member

theorem readBack_name {name : String} (is_name : IsName name) :
    (Expression.identifier name).ReadBack room .atom (skip rest) := by
  have derives (tail : List Glyph) :
      Derives room (.core (.identifier name)) ([word name] ++ tail) tail := .name is_name
  have written : Written (.identifier name) (.identifier name) [word name] :=
    ⟨writes_word is_name.1, (derives []).startsAtom_core, by simp [same]⟩
  exact readBack_of_closed written derives

theorem readBack_operatorName (enters : Enters room inner)
    (run : run? text = some (symbol, behind)) :
    (Expression.identifier (operatorName symbol)).ReadBack room .atom (skip rest) := by
  have written : Written (.identifier (operatorName symbol)) (.identifier (operatorName symbol))
      (mark '(' :: (symbol.toList.map mark ++ [mark ')'])) := by
    refine ⟨?_, rfl, by simp [same]⟩
    simpa [render, operatorName] using (writes_run run).parenthesized
  refine readBack_of_closed written fun tail => ?_
  have again : run? (symbol.toList.map mark ++ mark ')' :: tail) =
      some (symbol, mark ')' :: tail) := by
    refine run_append run fun glyph member => ?_
    cases member
    decide
  simpa using Derives.operatorName enters again

theorem readBack_group (enters : Enters room inner)
    (inside : tree.ReadBack inner .expression (mark ')' :: rest)) :
    (Expression.group tree).ReadBack room .atom (skip rest) := by
  obtain ⟨again, text, written, reads⟩ := inside
  have whole : Written (.group tree) (.group again) (mark '(' :: (text ++ [mark ')'])) := by
    refine ⟨?_, rfl, written.same⟩
    simpa [render] using written.writes.parenthesized
  refine readBack_of_closed whole fun tail => ?_
  have body := reads (mark ')' :: tail) (stops_separator (by decide)).follows
  simpa using Derives.group enters body

theorem readBack_list {trees : List Expression} (enters : Enters room inner)
    (inside : (Phrase.items trees).ReadBack inner (skip text) rest) :
    (Expression.list trees).ReadBack room .atom (skip rest) := by
  obtain ⟨agains, front, sames, writes, reads⟩ := inside
  have whole : Written (.list trees) (.list agains) (mark '[' :: (front ++ [mark ']'])) := by
    have bracketed : Writes ('[' :: ((renderItems trees).toList ++ [']']))
        (mark '[' :: (front ++ [mark ']'])) :=
      writes.bracketed (by decide) (by decide) (by decide) (by decide)
    refine ⟨?_, rfl, sames⟩
    simpa [render] using bracketed
  refine readBack_of_closed whole fun tail => ?_
  simpa using Derives.list enters (reads tail)

/-! ### Bindings and functions -/

theorem readBack_letIn {name : String} {bound body : Expression} (enters : Enters room inner)
    (is_name : IsName name)
    (bound_read : bound.ReadBack inner .expression (word "in" :: behind))
    (body_read : body.ReadBack inner .expression rest) (trimmed : skip rest = rest) :
    (Expression.letIn name bound body).ReadBack room .atom (skip rest) := by
  obtain ⟨bound_again, bound_text, bound_written, bound_reads⟩ := bound_read
  obtain ⟨body_again, body_text, body_written, body_reads⟩ := body_read
  have written : Written (.letIn name bound body) (.letIn name bound_again body_again)
      ([word "let"] ++ blank :: ([word name] ++ blank :: ([mark '='] ++ blank ::
        (bound_text ++ blank :: ([word "in"] ++ blank :: body_text))))) := by
    refine ⟨?_, by simp [startsAtom], ?_⟩
    · have keyword : Writes "let".toList [word "let"] := writes_keyword (by decide)
      have ending : Writes "in".toList [word "in"] := writes_keyword (by decide)
      have sign : Writes ['='] [mark '='] := writes_marks ['='] (by decide)
      have after_bound := bound_written.writes.spaced
        (ending.spaced body_written.writes body_written.visible) ⟨_, _, rfl, rfl⟩
      have after_name := (writes_word is_name.1).spaced
        (sign.spaced after_bound bound_written.visible.append) ⟨_, _, rfl, rfl⟩
      have whole := keyword.spaced after_name ⟨_, _, rfl, rfl⟩
      simpa [render] using whole
    · simp [same, bound_written.same, body_written.same]
  refine readBack_of_core written fun tail follows => ⟨skip tail, ?_, skip_skip tail⟩
  rw [trimmed] at follows
  have bound_derives := bound_reads (blank :: word "in" :: blank :: (body_text ++ tail))
    stops_in.follows
  have body_derives := body_reads tail follows
  have named : skip (blank :: word name :: blank :: mark '=' :: blank :: (bound_text ++
      blank :: word "in" :: blank :: (body_text ++ tail))) = word name :: blank :: mark '=' ::
        blank :: (bound_text ++ blank :: word "in" :: blank :: (body_text ++ tail)) := rfl
  have whole := Derives.letIn enters is_name named rfl (bound_written.behind_blank bound_derives)
    (body_written.behind_blank body_derives)
  simpa using whole

theorem separates_renderDeclared (declared : Option TypeExpression) :
    Separates (renderDeclared declared) := by
  cases declared with
  | none => exact separates_nil
  | some type => exact separates_cons (by decide)

theorem readBack_undeclared : (Phrase.parameterType none).ReadBack room text rest :=
  ⟨[], writes_nil, fun _ => .undeclared⟩

theorem readBack_declared {type : TypeExpression} (fits : type.Fits room) :
    (Phrase.parameterType (some type)).ReadBack room text rest := by
  obtain ⟨front, rendered⟩ := fits.rendered
  refine ⟨blank :: mark '(' :: (front ++ [mark ')']), ?_, fun tail => ?_⟩
  · exact rendered.writes.parenthesized.behind_space ⟨_, _, rfl, rfl⟩
  · have declared := Derives.declared
      (rendered.reads (blank :: mark '-' :: mark '>' :: tail))
    rw [List.cons_append, List.cons_append, List.append_assoc]
    exact declared

theorem readBack_function {name : String} {declared : Option TypeExpression} {body : Expression}
    (enters : Enters room inner) (is_name : IsName name)
    (declared_read : (Phrase.parameterType declared).ReadBack room text middle)
    (body_read : body.ReadBack inner .expression rest) (trimmed : skip rest = rest) :
    (Expression.function name declared body).ReadBack room .atom (skip rest) := by
  obtain ⟨front, declared_writes, declared_reads⟩ := declared_read
  obtain ⟨again, body_text, body_written, body_reads⟩ := body_read
  have written : Written (.function name declared body) (.function name declared again)
      (mark '\\' :: ([word name] ++ (front ++ blank :: ([mark '-', mark '>'] ++
        blank :: body_text)))) := by
    refine ⟨?_, rfl, by simp [same, body_written.same]⟩
    have after_declared := declared_writes.spaced
      (writes_arrow.spaced body_written.writes body_written.visible) ⟨_, _, rfl, rfl⟩
    have parts := (writes_word is_name.1).append after_declared
      ((separates_renderDeclared declared).append (separates_cons (by decide)))
    have whole : Writes ('\\' :: _) (mark '\\' :: _) :=
      parts.behind_mark (by decide) (by decide)
    cases declared <;> simpa [render, renderDeclared] using whole
  refine readBack_of_core written fun tail follows => ⟨skip tail, ?_, skip_skip tail⟩
  rw [trimmed] at follows
  have named : skip (word name :: (front ++ blank :: mark '-' :: mark '>' ::
      blank :: (body_text ++ tail))) = word name :: (front ++ blank :: mark '-' ::
        mark '>' :: blank :: (body_text ++ tail)) := rfl
  have whole := Derives.function enters is_name named (declared_reads _)
    (body_written.behind_blank (body_reads tail follows))
  simpa using whole

/-! ### Chains and applications -/

theorem readBack_stop (stops : operator? text = none) :
    (Phrase.links []).ReadBack room text text := by
  refine ⟨[], [], rfl, by simp, writes_nil, fun tail follows => ⟨follows, ?_⟩⟩
  exact .stop (follows.operator stops)

theorem readBack_link {found : List (String × Expression)}
    (operator : operator? text = some (symbol, behind))
    (operand : tree.ReadBack room .application middle)
    (others : (Phrase.links found).ReadBack room middle rest) :
    (Phrase.links ((symbol, tree) :: found)).ReadBack room text rest := by
  obtain ⟨again, operand_text, written, reads⟩ := operand
  obtain ⟨parts, front, rfl, sames, writes, others_read⟩ := others
  have run : run? text = some (symbol, behind) := (Option.filter_eq_some_iff.1 operator).1
  have lone : (symbol != "=") = true := (Option.filter_eq_some_iff.1 operator).2
  refine ⟨(symbol, tree, again) :: parts,
    blank :: (symbol.toList.map mark ++ blank :: operand_text) ++ front, rfl, ?_, ?_, ?_⟩
  · exact List.forall_mem_cons.2 ⟨written.same, sames⟩
  · have link := ((writes_run run).spaced written.writes written.visible).behind_space
      (visible_of_run run).append
    exact link.append writes (separates_flatMap (by decide) _ _)
  · intro tail follows
    obtain ⟨middle_follows, links⟩ := others_read tail follows
    have operand_derives := reads (front ++ tail) middle_follows
    have again_run : run? (symbol.toList.map mark ++ blank :: (operand_text ++ (front ++ tail))) =
        some (symbol, blank :: (operand_text ++ (front ++ tail))) := by
      refine run_append run fun glyph member => ?_
      cases member
      rfl
    have again_operator : operator? (symbol.toList.map mark ++ blank ::
        (operand_text ++ (front ++ tail))) =
          some (symbol, blank :: (operand_text ++ (front ++ tail))) :=
      Option.filter_eq_some_iff.2 ⟨again_run, lone⟩
    have start : skip (blank :: (symbol.toList.map mark ++ blank :: operand_text) ++ front ++
        tail) = symbol.toList.map mark ++ blank :: (operand_text ++ (front ++ tail)) := by
      have visible : Visible (symbol.toList.map mark ++ blank ::
          (operand_text ++ (front ++ tail))) := (visible_of_run run).append
      simpa using visible.skip_eq
    have spaced : Derives room (.application again) (blank :: (operand_text ++ (front ++ tail)))
        (skip (front ++ tail)) := by
      apply Derives.application_of_skip
      rw [skip_blank, written.skip_eq]
      exact operand_derives
    rw [start]
    exact ⟨follows_of_operator operator again_operator, .link again_operator spaced links⟩

theorem readBack_chain {found : List (String × Expression)}
    (operand : first.ReadBack room .application middle)
    (others : (Phrase.links found).ReadBack room middle rest) :
    (first.chain found).ReadBack room .expression rest := by
  obtain ⟨again, text, written, reads⟩ := operand
  obtain ⟨parts, front, rfl, sames, writes, others_read⟩ := others
  refine ⟨_, text ++ front, ⟨?_, startsAtom_append written.starts,
    same_chain parts written.same sames⟩, fun tail follows => ?_⟩
  · rw [render_chain]
    exact written.writes.append writes (separates_flatMap (by decide) _ _)
  · obtain ⟨middle_follows, links⟩ := others_read tail follows
    rw [List.append_assoc]
    exact .expression (reads _ middle_follows) links

theorem readBack_done (ends : startsAtom text = false) :
    (Phrase.atoms []).ReadBack room text text := by
  refine fun _ => ⟨[], [], rfl, writes_nil, fun tail follows => ⟨follows, ?_⟩⟩
  exact .done (follows.atom ends)

theorem readBack_more {trees : List Expression} (started : startsAtom (skip text) = true)
    (argument : tree.ReadBack room .atom middle) (trimmed : skip middle = middle)
    (others : (Phrase.atoms trees).ReadBack room middle rest) :
    (Phrase.atoms (tree :: trees)).ReadBack room text rest := by
  intro start
  rw [start] at started
  obtain ⟨again, text', written, reads⟩ := argument
  obtain ⟨agains, front, sames, writes, others_read⟩ := others trimmed
  refine ⟨again :: agains, blank :: text' ++ front, ?_, ?_, fun tail follows => ?_⟩
  · simp [sameItems, written.same, sames]
  · exact (written.writes.behind_space written.visible).append writes
      (separates_flatMap (by decide) _ _)
  · obtain ⟨middle_follows, atoms⟩ := others_read tail follows
    have skips : skip (blank :: text' ++ front ++ tail) = text' ++ (front ++ tail) := by
      rw [List.append_assoc, List.cons_append, skip_blank, written.skip_eq]
    rw [skips]
    exact ⟨follows_of_startsAtom started (startsAtom_append written.starts),
      .more (reads _ middle_follows) atoms⟩

theorem readBack_application {trees : List Expression}
    (atom : first.ReadBack room .atom middle) (trimmed : skip middle = middle)
    (others : (Phrase.atoms trees).ReadBack room middle rest) :
    (trees.foldl .apply first).ReadBack room .application rest := by
  obtain ⟨again, text, written, reads⟩ := atom
  obtain ⟨agains, front, sames, writes, others_read⟩ := others trimmed
  refine ⟨_, text ++ front, ⟨?_, startsAtom_append written.starts,
    same_foldl_apply written.same sames⟩, fun tail follows => ?_⟩
  · rw [render_foldl_apply]
    exact written.writes.append writes (separates_flatMap (by decide) _ _)
  · obtain ⟨middle_follows, atoms⟩ := others_read tail follows
    rw [List.append_assoc]
    exact .application (reads _ middle_follows) atoms

/-! ### Lists -/

theorem readBack_noItems : (Phrase.items []).ReadBack room text rest :=
  ⟨[], [], rfl, writes_nil, fun _ => .noItems⟩

theorem readBack_noOthers : (Phrase.others []).ReadBack room text rest :=
  ⟨[], [], rfl, writes_nil, fun _ => ⟨stops_separator (by decide), .noOthers⟩⟩

theorem readBack_items {trees : List Expression} (item : first.ReadBack room .expression middle)
    (others : (Phrase.others trees).ReadBack room middle rest) :
    (Phrase.items (first :: trees)).ReadBack room text rest := by
  obtain ⟨again, text', written, reads⟩ := item
  obtain ⟨agains, front, sames, writes, others_read⟩ := others
  refine ⟨again :: agains, text' ++ front, ?_, ?_, fun tail => ?_⟩
  · simp [sameItems, written.same, sames]
  · rw [renderItems_cons]
    exact written.writes.append writes (separates_flatMap (by decide) _ _)
  · obtain ⟨stops, derives⟩ := others_read tail
    rw [List.append_assoc, written.skip_eq]
    exact .items (reads _ stops.follows) derives

theorem readBack_others {trees : List Expression} (item : first.ReadBack room .expression middle)
    (others : (Phrase.others trees).ReadBack room middle rest) :
    (Phrase.others (first :: trees)).ReadBack room text rest := by
  obtain ⟨again, text', written, reads⟩ := item
  obtain ⟨agains, front, sames, writes, others_read⟩ := others
  refine ⟨again :: agains, mark ',' :: blank :: text' ++ front, ?_, ?_, fun tail => ?_⟩
  · simp [sameItems, written.same, sames]
  · have item_writes : Writes (',' :: ' ' :: first.render.toList) (mark ',' :: blank :: text') :=
      (written.writes.behind_space written.visible).behind_mark (by decide) (by decide)
    exact item_writes.append writes (separates_flatMap (by decide) _ _)
  · obtain ⟨stops, derives⟩ := others_read tail
    have item_derives := written.behind_blank (reads _ stops.follows)
    rw [List.append_assoc]
    exact ⟨stops_separator (by decide), .others item_derives derives⟩

/-! ### Trees and programs -/

/-- Whatever phrase is derived is rendered to a text that derives an equal one. -/
theorem Derives.readBack {phrase : Phrase} (derives : Derives room phrase text rest)
    (numbers : phrase.Forall NumbersReadBack) : phrase.ReadBack room text rest := by
  induction derives with
  | expression _ _ operand others =>
      obtain ⟨first_numbers, other_numbers⟩ :=
        (chain_iff NumbersReadBack numbersReadBack_binary_iff).1 numbers
      exact readBack_chain (operand first_numbers) (others other_numbers)
  | stop ends => exact readBack_stop ends
  | link operator _ _ operand others =>
      obtain ⟨first_numbers, other_numbers⟩ := List.forall_mem_cons.1 numbers
      exact readBack_link operator (operand first_numbers) (others other_numbers)
  | application first _ atom others =>
      obtain ⟨first_numbers, other_numbers⟩ :=
        (foldl_apply_iff NumbersReadBack numbersReadBack_apply_iff).1 numbers
      exact readBack_application (atom first_numbers) first.skip_atom (others other_numbers)
  | done ends => exact readBack_done ends
  | more first _ atom others =>
      obtain ⟨first_numbers, other_numbers⟩ := List.forall_mem_cons.1 numbers
      exact readBack_more first.startsAtom_atom (atom first_numbers) first.skip_atom
        (others other_numbers)
  | atom _ core => exact core numbers
  | number finite => exact readBack_number finite numbers
  | string free => exact readBack_string free
  | constant member => exact readBack_constant member
  | name is_name => exact readBack_name is_name
  | operatorName enters run => exact readBack_operatorName enters run
  | group enters _ inside => exact readBack_group enters (inside numbers)
  | list enters _ inside =>
      exact readBack_list enters (inside (numbersReadBack_list_iff.1 numbers))
  | noItems => exact readBack_noItems
  | items _ _ item others =>
      obtain ⟨first_numbers, other_numbers⟩ := List.forall_mem_cons.1 numbers
      exact readBack_items (item first_numbers) (others other_numbers)
  | noOthers => exact readBack_noOthers
  | others _ _ item others =>
      obtain ⟨first_numbers, other_numbers⟩ := List.forall_mem_cons.1 numbers
      exact readBack_others (item first_numbers) (others other_numbers)
  | letIn enters is_name _ _ _ body bound_ih body_ih =>
      obtain ⟨bound_numbers, body_numbers⟩ := numbersReadBack_letIn_iff.1 numbers
      exact readBack_letIn enters is_name (bound_ih bound_numbers) (body_ih body_numbers)
        body.skip_expression
  | function enters is_name _ _ body declared_ih body_ih =>
      exact readBack_function enters is_name (declared_ih trivial) (body_ih numbers)
        body.skip_expression
  | undeclared => exact readBack_undeclared
  | declared type => exact readBack_declared type.fits
  | type | arrow | typeName | typeGroup => trivial

/-- The text of a parsed tree is parsed to the same tree, with numbers compared as doubles are, if
the finite numbers in the tree read back from their own texts. -/
theorem parse_render {source : String} (parses : parse source = .ok tree)
    (numbers : ∀ value ∈ tree.numbers, value.isFinite = true →
      ∃ again, Number.ReadsBack value again) :
    ∃ again, parse tree.render = .ok again ∧ again.same tree = true := by
  rw [parse_eq_parseUpTo] at parses
  obtain ⟨_, _, derives⟩ := parseUpTo_iff_derives.1 parses
  obtain ⟨again, text, written, reads⟩ := derives.readBack numbers
  obtain ⟨tokens, lexed, glyphs_eq⟩ := written.writes [] [] separates_nil spells_nil .start
  have derives_again :
      Derives (some Grammar.nestingLimit) (.expression again) (glyphs tokens) [] := by
    rw [glyphs_eq]
    exact reads [] follows_nil
  rw [List.append_nil] at lexed
  refine ⟨again, ?_, written.same⟩
  rw [parse_eq_parseUpTo]
  exact parseUpTo_iff_derives.2 ⟨tokens, lexed, derives_again⟩

/-- Parentheses that a type does not need, a space that is missing in front of a sign and one that
is missing behind a comma are not kept; the tree is. -/
theorem parse_render_function :
    ∃ tree again, parse "let f = \\x (number -> (number)) -> x 1--2.5 in [f,`a` ,(+) ]" = .ok tree ∧
      tree.render = "let f = \\x (number -> number) -> x 1 - -2.5 in [f, `a`, (+)]" ∧
      (∀ value ∈ tree.numbers, value.isFinite = true →
        ∃ again, Number.ReadsBack value again) ∧
      parse tree.render = .ok again ∧ again.same tree = true := by
  have checked : (match parse "let f = \\x (number -> (number)) -> x 1--2.5 in [f,`a` ,(+) ]" with
    | .ok tree => tree.render == "let f = \\x (number -> number) -> x 1 - -2.5 in [f, `a`, (+)]" &&
        decide (∀ value ∈ tree.numbers, value.isFinite = true →
          ∃ again, Number.ReadsBack value again)
    | .error _ => false) = true := by decide +kernel
  cases parses : parse "let f = \\x (number -> (number)) -> x 1--2.5 in [f,`a` ,(+) ]" with
  | error _ => simp [parses] at checked
  | ok tree =>
      rw [parses, Bool.and_eq_true_iff, beq_iff_eq, decide_eq_true_iff] at checked
      obtain ⟨text, numbers⟩ := checked
      obtain ⟨again, parses_again, same⟩ := parse_render parses numbers
      exact ⟨tree, again, rfl, text, numbers, parses_again, same⟩

end Curried
