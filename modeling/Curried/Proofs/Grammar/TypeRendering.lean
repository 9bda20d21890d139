import Curried.Proofs.Grammar.Writing

/-!
# Types read back

A type is rendered with parentheses around the parameters that are functions and around nothing
else.  Reading it back opens no more levels than reading the annotated type did: an arrow opens one
for its result, and the parentheses of its parameter open no more than that.
-/

namespace Curried

open Glyph (blank mark word)

variable {room inner : Room} {type : TypeExpression} {text rest : List Glyph}

theorem Enters.unique {other : Room} (enters : Enters room inner) (again : Enters room other) :
    inner = other := by
  cases enters <;> cases again <;> rfl

/-- The types that can be annotated: names, and functions with a level for each arrow. -/
inductive TypeExpression.Fits : Room → TypeExpression → Prop where
  | named {room : Room} {name : String} : IsWord name → Fits room (.named name)
  | function {room inner : Room} {parameter result : TypeExpression} : Enters room inner →
      Fits inner parameter → Fits inner result → Fits room (.function parameter result)

theorem TypeExpression.Fits.outside (fits : type.Fits inner) (enters : Enters room inner) :
    type.Fits room := by
  induction fits generalizing room with
  | named is_word => exact .named is_word
  | function deeper _ _ parameter result =>
      exact .function enters (parameter deeper) (result deeper)

/-- What a derivation of a type says about its levels. -/
def Phrase.TypeFits (room : Room) : Phrase → Prop
  | .type type => type.Fits room
  | .typeAtom type => type.Fits room ∧ ∀ inner, Enters room inner → type.Fits inner
  | _ => True

theorem Derives.typeFits {phrase : Phrase} (derives : Derives room phrase text rest) :
    phrase.TypeFits room := by
  induction derives with
  | type _ parameter => exact parameter.1
  | arrow enters _ _ parameter result => exact .function enters (parameter.2 _ enters) result
  | typeName is_word => exact ⟨.named is_word, fun _ _ => .named is_word⟩
  | typeGroup enters _ _ inside =>
      refine ⟨inside.outside enters, fun other again => ?_⟩
      rw [← enters.unique again]
      exact inside
  | _ => trivial

theorem Derives.fits (derives : Derives room (.type type) text rest) : type.Fits room :=
  derives.typeFits

theorem Derives.typeAtom_of_skip (derives : Derives room (.typeAtom type) (skip text) rest) :
    Derives room (.typeAtom type) text rest := by
  generalize start : skip text = front at derives
  cases derives with
  | typeName is_word named =>
      rw [← start, skip_skip] at named
      exact .typeName is_word named
  | typeGroup enters opens inside =>
      rw [← start, skip_skip] at opens
      exact .typeGroup enters opens inside

theorem Derives.type_of_skip (derives : Derives room (.type type) (skip text) rest) :
    Derives room (.type type) text rest := by
  cases derives with
  | type parameter => exact .type parameter.typeAtom_of_skip
  | arrow enters parameter result => exact .arrow enters parameter.typeAtom_of_skip result

namespace TypeExpression

/-- A text that a type is rendered to, and that is read back in front of a closing bracket. -/
structure Rendered (room : Room) (type : TypeExpression) (text : List Glyph) : Prop where
  writes : Writes type.render.toList text
  visible : Visible text
  reads : ∀ rest, Derives room (.type type) (text ++ mark ')' :: rest) (mark ')' :: rest)

/-- The text of a type in front of an arrow. -/
def renderParameter (type : TypeExpression) : String :=
  if type.isFunction then "(" ++ type.render ++ ")" else type.render

/-- A parameter of a function type, in parentheses if it is a function itself. -/
theorem Fits.rendered_parameter (fits : type.Fits inner) (enters : Enters room inner)
    (rendered : type.Rendered inner text) :
    ∃ front, Writes type.renderParameter.toList front ∧ Visible front ∧
      ∀ rest, Derives room (.typeAtom type) (front ++ rest) (skip rest) := by
  cases fits with
  | @named _ name is_word =>
      exact ⟨[word name], writes_word is_word, ⟨_, _, rfl, rfl⟩, fun _ => .typeName is_word rfl⟩
  | function =>
      refine ⟨.mark '(' :: (text ++ [mark ')']), ?_, ⟨_, _, rfl, rfl⟩, fun rest => ?_⟩
      · simpa [renderParameter, isFunction] using rendered.writes.parenthesized
      · have inside := rendered.reads rest
        rw [List.cons_append, List.append_assoc]
        exact .typeGroup enters rfl inside

/-- A type is read back from its text. -/
theorem Fits.rendered (fits : type.Fits room) : ∃ text, type.Rendered room text := by
  induction fits with
  | @named room name is_word =>
      refine ⟨[word name], writes_word is_word, ⟨_, _, rfl, rfl⟩, fun rest => .type ?_⟩
      have read : Derives room (.typeAtom (.named name)) (word name :: mark ')' :: rest)
          (skip (mark ')' :: rest)) :=
        .typeName is_word rfl
      exact read
  | @function room inner parameter result enters fits _ parameter_ih result_ih =>
      obtain ⟨behind, result_rendered⟩ := result_ih
      obtain ⟨_, parameter_rendered⟩ := parameter_ih
      obtain ⟨front, writes, visible, reads⟩ := fits.rendered_parameter enters parameter_rendered
      refine ⟨front ++ blank :: ([mark '-', mark '>'] ++ blank :: behind), ?_,
        visible.append, fun rest => ?_⟩
      · have behind_arrow := writes_arrow.spaced result_rendered.writes result_rendered.visible
        have whole := writes.spaced behind_arrow ⟨_, _, rfl, rfl⟩
        simpa [render, renderParameter] using whole
      · have start := reads
          (blank :: mark '-' :: mark '>' :: blank :: (behind ++ mark ')' :: rest))
        have body : Derives inner (.type result) (blank :: (behind ++ mark ')' :: rest))
            (mark ')' :: rest) := by
          apply Derives.type_of_skip
          rw [skip_blank, result_rendered.visible.append.skip_eq]
          exact result_rendered.reads rest
        simpa using Derives.arrow enters start body

end TypeExpression

end Curried
