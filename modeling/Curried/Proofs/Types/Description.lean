import Curried.Proofs.Grammar.TypeRendering
import Curried.Proofs.Types.Application

/-!
# How types are described

A function type keeps its parameter evaluated and its result unevaluated.  Its description puts the
description of the one in front of the text of the other, without brackets.  An annotation has
brackets around a parameter that is a function, so the description is the text of the annotation
only if the parameter is none.  Otherwise it is the text of another type, the one whose parameter
has lost its brackets, and a type that was expected can have the same text as the one that came
instead.
-/

namespace Curried

namespace TypeExpression

/-- Put together from names and from functions without labels, as annotations are. -/
inductive Written (names : String → Prop) : TypeExpression → Prop where
  | named {name : String} : names name → Written names (.named name)
  | function {parameter result : TypeExpression} :
      Written names parameter → Written names result → Written names (.function parameter result)

/-- The type with one more arrow behind its last result. -/
def followedBy : TypeExpression → TypeExpression → TypeExpression
  | .function parameter result, last => .function parameter (result.followedBy last)
  | other, last => .function other last

/-- The type without the brackets around its parameter, around the parameter of that, and so on:
the arrows inside of the parameter come before the arrow behind it. -/
def unbracketed : TypeExpression → TypeExpression
  | .function parameter result => parameter.unbracketed.followedBy result
  | other => other

variable {names : String → Prop} {type other last : TypeExpression} {name : String}
  {rest behind : List Char}

namespace Written

theorem followedBy (written : type.Written names) (behind : last.Written names) :
    (type.followedBy last).Written names := by
  induction written with
  | named known => exact .function (.named known) behind
  | function parameter _ _ result => exact .function parameter result

theorem unbracketed (written : type.Written names) : type.unbracketed.Written names := by
  induction written with
  | named known => exact .named known
  | function _ result parameter _ => exact parameter.followedBy result

end Written

theorem render_function (parameter result : TypeExpression) :
    (function parameter result).render = parameter.renderParameter ++ (" -> " ++ result.render) := by
  rw [render, renderParameter, String.append_assoc]

theorem render_followedBy (written : type.Written names) (last : TypeExpression) :
    (type.followedBy last).render = type.render ++ (" -> " ++ last.render) := by
  induction written with
  | named => exact render_function _ last
  | function _ _ _ ih =>
      rw [followedBy, render_function, ih, render_function]
      simp only [String.append_assoc]

/-! ### When nothing is lost -/

theorem length_renderParameter (type : TypeExpression) :
    type.renderParameter.length = type.render.length + if type.isFunction then 2 else 0 := by
  rw [renderParameter]
  split
  · have brackets : "(".length = 1 ∧ ")".length = 1 := ⟨rfl, rfl⟩
    simp only [String.length_append, brackets.1, brackets.2]
    omega
  · rfl

theorem length_unbracketed_le (written : type.Written names) :
    type.unbracketed.render.length ≤ type.render.length := by
  induction written with
  | named => exact Nat.le_refl _
  | function written _ shorter _ =>
      rw [unbracketed, render_followedBy written.unbracketed, render_function]
      simp only [String.length_append, length_renderParameter]
      omega

/-- The text of a type is the same without brackets only if its parameter is no function. -/
theorem render_unbracketed_eq_iff (written : type.Written names) :
    type.unbracketed.render = type.render ↔
      ∀ parameter result, type = .function parameter result → parameter.isFunction = false := by
  cases written with
  | named => exact iff_of_true rfl fun _ _ => nofun
  | @function parameter result written _ =>
      constructor
      · intro same _ _ whole
        obtain ⟨rfl, rfl⟩ := function.inj whole
        have shorter := length_unbracketed_le written
        have lengths := congrArg String.length same
        rw [unbracketed, render_followedBy written.unbracketed, render_function] at lengths
        simp only [String.length_append, length_renderParameter] at lengths
        by_contra bracketed
        rw [if_pos (Bool.eq_true_of_not_eq_false bracketed)] at lengths
        omega
      · intro plain
        have no_function := plain parameter result rfl
        cases written with
        | named => rfl
        | function => cases no_function

/-! ### The text determines the type -/

/-- The characters are at their end or start with a closing bracket. -/
def Closes (tail : List Char) : Prop := ∀ c ∈ tail.head?, c = ')'

theorem continuesWord_of_mem (is_word : IsWord name) {c : Char} (member : c ∈ name.toList) :
    Rule.continuesWord c = true := by
  obtain ⟨first, others, spelt, starts, goesOn⟩ := is_word
  rw [spelt] at member
  rcases List.mem_cons.1 member with rfl | member
  · rcases Bool.or_eq_true_iff.1 starts with letter | line
    · simp [Rule.continuesWord, Char.isAlphanum, letter]
    · simp [Rule.continuesWord, line]
  · exact goesOn c member

/-- A word ends where a character stands that does not go on with it. -/
theorem eq_of_words {name' : String} (is_word : IsWord name) (is_word' : IsWord name')
    (ends : ∀ c ∈ rest.head?, Rule.continuesWord c = false)
    (ends' : ∀ c ∈ behind.head?, Rule.continuesWord c = false)
    (same : name.toList ++ rest = name'.toList ++ behind) : name = name' ∧ rest = behind := by
  have letters : name.toList = name'.toList := by
    rw [← Rule.takeWhile_run (fun _ => continuesWord_of_mem is_word) ends, same,
      Rule.takeWhile_run (fun _ => continuesWord_of_mem is_word') ends']
  refine ⟨String.toList_injective letters, ?_⟩
  rw [letters] at same
  exact List.append_cancel_left same

theorem toList_render_function (parameter result : TypeExpression) (tail : List Char) :
    (function parameter result).render.toList ++ tail =
      parameter.renderParameter.toList ++
        ' ' :: '-' :: '>' :: ' ' :: (result.render.toList ++ tail) := by
  rw [render_function]
  simp

theorem toList_renderParameter_function (parameter result : TypeExpression) (tail : List Char) :
    (function parameter result).renderParameter.toList ++ tail =
      '(' :: ((function parameter result).render.toList ++ ')' :: tail) := by
  simp [renderParameter, isFunction]

/-- No word goes on with a blank or a bracket. -/
theorem continuesWord_blank : ∀ c ∈ (' ' :: rest).head?, Rule.continuesWord c = false := by
  rintro c ⟨⟩
  decide

theorem continuesWord_closes (closes : Closes rest) :
    ∀ c ∈ rest.head?, Rule.continuesWord c = false := by
  intro c first
  rw [closes c first]
  decide

theorem not_mem_word (is_word : IsWord name) {c : Char} (other : Rule.continuesWord c = false) :
    c ∉ name.toList := by
  intro member
  rw [continuesWord_of_mem is_word member] at other
  cases other

/-- A word is not the parameter of a function in brackets. -/
theorem word_ne_bracket (is_word : IsWord name) :
    name.toList ++ rest ≠ '(' :: behind := by
  intro same
  obtain ⟨first, others, spelt, _⟩ := id is_word
  refine not_mem_word is_word (c := '(') (by decide) ?_
  rw [spelt, List.cons_append] at same
  rw [spelt, (List.cons.inj same).1]
  exact .head _

/-- Parameters with the same text in front of a blank are the same. -/
theorem eq_of_parameters {parameter parameter' : TypeExpression} (written : parameter.Written IsWord)
    (written' : parameter'.Written IsWord)
    (inside : ∀ rest behind : List Char, Closes rest → Closes behind →
      parameter.render.toList ++ rest = parameter'.render.toList ++ behind →
        parameter = parameter' ∧ rest = behind)
    (same : parameter.renderParameter.toList ++ ' ' :: rest =
      parameter'.renderParameter.toList ++ ' ' :: behind) :
    parameter = parameter' ∧ rest = behind := by
  cases written with
  | named is_word =>
      cases written' with
      | named is_word' =>
          obtain ⟨rfl, tails⟩ :=
            eq_of_words is_word is_word' continuesWord_blank continuesWord_blank same
          exact ⟨rfl, (List.cons.inj tails).2⟩
      | function =>
          rw [toList_renderParameter_function] at same
          exact (word_ne_bracket is_word same).elim
  | function =>
      cases written' with
      | named is_word' =>
          rw [toList_renderParameter_function] at same
          exact (word_ne_bracket is_word' same.symm).elim
      | function =>
          rw [toList_renderParameter_function, toList_renderParameter_function] at same
          have closes (tail : List Char) : Closes (')' :: tail) := by
            rintro c ⟨⟩
            rfl
          obtain ⟨same, tails⟩ := inside _ _ (closes _) (closes _) (List.cons.inj same).2
          exact ⟨same, (List.cons.inj (List.cons.inj tails).2).2⟩

/-- The text of a function type is no word. -/
theorem word_ne_function {parameter result : TypeExpression} (is_word : IsWord name)
    (closes : Closes rest) (written : parameter.Written IsWord) :
    name.toList ++ rest ≠ (function parameter result).render.toList ++ behind := by
  intro same
  rw [toList_render_function] at same
  cases written with
  | named is_word' =>
      obtain ⟨_, rfl⟩ :=
        eq_of_words is_word is_word' (continuesWord_closes closes) continuesWord_blank same
      exact absurd (closes ' ' rfl) (by decide)
  | function =>
      rw [toList_renderParameter_function] at same
      exact word_ne_bracket is_word same

/-- A type ends where a closing bracket stands behind it, and its text determines it. -/
theorem eq_of_render_append (written : type.Written IsWord) (written' : other.Written IsWord)
    (closes : Closes rest) (closes' : Closes behind)
    (same : type.render.toList ++ rest = other.render.toList ++ behind) :
    type = other ∧ rest = behind := by
  induction written generalizing other rest behind with
  | named is_word =>
      cases written' with
      | named is_word' =>
          obtain ⟨rfl, tails⟩ := eq_of_words is_word is_word' (continuesWord_closes closes)
            (continuesWord_closes closes') same
          exact ⟨rfl, tails⟩
      | function written' _ => exact (word_ne_function is_word closes written' same).elim
  | @function parameter result written _ inside results =>
      cases written' with
      | named is_word => exact (word_ne_function is_word closes' written same.symm).elim
      | @function parameter' result' written' result_written =>
          rw [toList_render_function, toList_render_function] at same
          obtain ⟨rfl, tails⟩ := eq_of_parameters written written'
            (fun _ _ ends ends' => inside written' ends ends') same
          obtain ⟨rfl, ends⟩ := results result_written closes closes' (by simpa using tails)
          exact ⟨rfl, ends⟩

/-- Types with the same text are the same. -/
theorem eq_of_render_eq (written : type.Written IsWord) (written' : other.Written IsWord)
    (same : type.render = other.render) : type = other := by
  have nothing : Closes [] := nofun
  exact (eq_of_render_append written written' nothing nothing (by rw [same])).1

end TypeExpression

/-! ### Descriptions -/

namespace TypeScope

variable {environment : TypeEnvironment} {expression : TypeExpression} {type : Ty} {budget : Nat}
  {names : String → Prop}

/-- A type is described without brackets. -/
theorem describe_of_evaluateWithin (written : expression.Written names)
    (evaluates : environment.evaluateWithin budget expression = .ok type) :
    environment.describe type = expression.unbracketed.render := by
  induction written generalizing budget type with
  | @named name =>
      cases budget with
      | zero => cases evaluates
      | succ budget =>
          rw [evaluateWithin, named] at evaluates
          cases found : environment.registry.lookup name with
          | none => simp [found] at evaluates
          | some id =>
              obtain rfl : Ty.named id = type := by simpa [found] using evaluates
              exact (Registry.name_of_lookup found).1
  | @function parameter result written _ parameter_ih _ =>
      obtain ⟨_, accepted, accepts, rfl⟩ := eq_of_evaluateWithin_function evaluates
      have described : environment.describe accepted = parameter.unbracketed.render :=
        parameter_ih accepts
      rw [TypeExpression.unbracketed, TypeExpression.render_followedBy written.unbracketed,
        ← described, ← String.append_assoc]
      rfl

/-- A type that is put together from names of the registry exists, unless the depth runs out. -/
theorem exists_of_written
    (written : expression.Written fun name => (environment.registry.lookup name).isSome)
    (within : environment.evaluateWithin budget expression ≠ .error .depthExceeded) :
    ∃ type, environment.evaluateWithin budget expression = .ok type := by
  induction written generalizing budget with
  | @named name known =>
      cases budget with
      | zero => exact (within rfl).elim
      | succ budget =>
          obtain ⟨id, found⟩ := Option.isSome_iff_exists.1 known
          exact ⟨.named id, by rw [evaluateWithin, named, found]⟩
  | @function parameter result _ _ parameter_ih _ =>
      cases budget with
      | zero => exact (within rfl).elim
      | succ budget =>
          rw [evaluateWithin] at within ⊢
          obtain ⟨accepted, evaluates⟩ : ∃ accepted,
              environment.evaluateWithin budget parameter = .ok accepted :=
            parameter_ih fun exceeds => within (by rw [exceeds]; rfl)
          exact ⟨.function none accepted result environment, by rw [evaluates]; rfl⟩

/-- A type that is put together from names of the registry is described by the text of the type
without brackets.  This is its own text exactly if its parameter is no function; and two types whose
names are words have one description, which a mismatch then shows for both, exactly if without
brackets they are the same. -/
theorem description_of_written {expected actual : TypeExpression} {budget budget' : Nat}
    (written : expected.Written fun name => (environment.registry.lookup name).isSome)
    (written' : actual.Written fun name => (environment.registry.lookup name).isSome)
    (within : environment.evaluateWithin budget expected ≠ .error .depthExceeded)
    (within' : environment.evaluateWithin budget' actual ≠ .error .depthExceeded) :
    ∃ first second, environment.evaluateWithin budget expected = .ok first ∧
      environment.evaluateWithin budget' actual = .ok second ∧
      environment.describe first = expected.unbracketed.render ∧
      (environment.describe first = expected.render ↔
        ∀ parameter result, expected = .function parameter result →
          parameter.isFunction = false) ∧
      (expected.Written IsWord → actual.Written IsWord →
        (environment.describe first = environment.describe second ↔
          expected.unbracketed = actual.unbracketed)) ∧
      ∀ error, environment.registry.reduce first second = .error error →
        error = .mismatch (environment.describe first) (environment.describe second) := by
  obtain ⟨first, evaluates⟩ := exists_of_written written within
  obtain ⟨second, evaluates'⟩ := exists_of_written written' within'
  have described := describe_of_evaluateWithin written evaluates
  have described' := describe_of_evaluateWithin written' evaluates'
  refine ⟨first, second, evaluates, evaluates', described, ?_, ?_, ?_⟩
  · rw [described]
    exact TypeExpression.render_unbracketed_eq_iff written
  · intro words words'
    rw [described, described']
    refine ⟨TypeExpression.eq_of_render_eq words.unbracketed words'.unbracketed, fun same => ?_⟩
    rw [same]
  · intro error fails
    rw [Registry.reduce] at fails
    split at fails
    · cases fails
    · exact (Except.error.inj fails).symm

/-- A function that takes a function, and a function of two arguments: the description of the first
one leaves out its brackets, so a mismatch shows the same text twice. -/
theorem description_of_written_brackets :
    let environment := TypeScope.ofRegistry .standard
    let number := TypeExpression.named "number"
    let expected := TypeExpression.function (.function number number) number
    let actual := TypeExpression.function number (.function number number)
    expected.render = "(number -> number) -> number" ∧
      ∃ first second, environment.evaluate expected = .ok first ∧
        environment.evaluate actual = .ok second ∧
        environment.describe first = "number -> number -> number" ∧
        environment.registry.reduce first second =
          .error (.mismatch "number -> number -> number" "number -> number -> number") := by
  intro environment number expected actual
  have known : (environment.registry.lookup "number").isSome := by decide
  have word : IsWord "number" :=
    ⟨'n', ['u', 'm', 'b', 'e', 'r'], by decide, by decide, List.all_eq_true.1 (by decide)⟩
  have written (names : String → Prop) (named : names "number") :
      expected.Written names ∧ actual.Written names :=
    ⟨.function (.function (.named named) (.named named)) (.named named),
      .function (.named named) (.function (.named named) (.named named))⟩
  have within : environment.evaluateWithin depthLimit expected ≠ .error .depthExceeded := nofun
  have within' : environment.evaluateWithin depthLimit actual ≠ .error .depthExceeded := nofun
  obtain ⟨first, second, evaluates, evaluates', described, _, alike, mismatch⟩ :=
    description_of_written (written _ known).1 (written _ known).2 within within'
  have same := (alike (written _ word).1 (written _ word).2).2 rfl
  have text : environment.describe first = "number -> number -> number" := described
  refine ⟨rfl, first, second, evaluates, evaluates', text, ?_⟩
  cases reduced : environment.registry.reduce first second with
  | ok type =>
      obtain rfl := Except.ok.inj evaluates
      obtain rfl := Except.ok.inj evaluates'
      cases reduced
  | error error => rw [mismatch error reduced, ← same, text]

end TypeScope

end Curried
