import Curried.Native
import Curried.Proofs.Grammar.RoundTrip
import Curried.Proofs.Number.Numeral

/-!
# Data is read back

The text of a value that is data is a program: a literal.  Evaluated in any environment, it yields an
equal value, as long as its lists do not nest deeper than a program may.
-/

namespace Curried

open Expression (NumbersReadBack numbersReadBack_list_iff)

/-- An atom that stands alone is an expression. -/
theorem readBack_of_atom {room : Room} {tree : Expression}
    (atom : tree.ReadBack room .atom (skip [])) : tree.ReadBack room .expression [] := by
  have application : tree.ReadBack room .application [] :=
    readBack_application atom rfl (readBack_done rfl)
  have chain : (tree.chain []).ReadBack room .expression [] :=
    readBack_chain application (readBack_stop rfl)
  rwa [Expression.chain, List.map_nil, Link.fold_nil] at chain

/-- What is read back in the levels of a program is parsed. -/
theorem parse_of_readBack {tree : Expression}
    (reads_back : tree.ReadBack (some Grammar.nestingLimit) .expression []) :
    ∃ again, parse tree.render = .ok again ∧ again.same tree = true := by
  obtain ⟨again, text, written, reads⟩ := reads_back
  obtain ⟨tokens, lexed, glyphs_eq⟩ := written.writes [] [] separates_nil spells_nil .start
  rw [List.append_nil] at lexed
  have derives : Derives (some Grammar.nestingLimit) (.expression again) (glyphs tokens) [] := by
    rw [glyphs_eq]
    exact reads [] follows_nil
  refine ⟨again, ?_, written.same⟩
  rw [parse_eq_parseUpTo]
  exact parseUpTo_iff_derives.2 ⟨tokens, lexed, derives⟩

namespace Value

/-! ### Data and how it is written -/

mutual

/-- The expression that a value is written as. -/
def literal : Value → Expression
  | .undefined => .identifier "undefined"
  | .null => .null
  | .boolean value => .boolean value
  | .number value => .number value
  | .string content => .string content
  | .list items => .list (literals items)
  | .closure parameter body _ => .function parameter none body
  | .builtin native _ => .identifier native.name

/-- The expressions that the items of a list are written as. -/
def literals : List Value → List Expression
  | [] => []
  | item :: others => item.literal :: literals others

end

/-- Constants, finite numbers, strings without a quote, and lists of data, which nest at most a
number of levels deep. -/
inductive IsData : Nat → Value → Prop where
  | null {levels : Nat} : IsData levels .null
  | boolean {levels : Nat} (value : Bool) : IsData levels (.boolean value)
  | number {levels : Nat} {value : Float} : value.isFinite = true → IsData levels (.number value)
  | string {levels : Nat} {content : String} :
      Rule.quote ∉ content.toList → IsData levels (.string content)
  | list {levels : Nat} {items : List Value} :
      (∀ item ∈ items, IsData levels item) → IsData (levels + 1) (.list items)

variable {levels budget : Nat} {value : Value} {items : List Value}

/-- An empty list in as many others as leave room for it. -/
theorem isData_nested (levels : Nat) :
    IsData (levels + 1) (Nat.repeat (fun inner => .list [inner]) levels (.list [])) := by
  induction levels with
  | zero => exact .list nofun
  | succ levels ih => exact .list (List.forall_mem_singleton.2 ih)

mutual

/-- The text of a value is the text of its literal. -/
theorem display_eq_render : ∀ value : Value, value.display = value.literal.render
  | .undefined | .null | .boolean _ | .number _ | .string _ => rfl
  | .list items => by
      rw [display, literal, Expression.render, displayItems_eq_renderItems items]
  | .closure _ _ _ | .builtin _ _ => rfl

theorem displayItems_eq_renderItems :
    ∀ items : List Value, displayItems items = Expression.renderItems (literals items)
  | [] => rfl
  | [item] => display_eq_render item
  | item :: next :: others => by
      show item.display ++ ", " ++ displayItems (next :: others) =
        item.literal.render ++ ", " ++ Expression.renderItems (literals (next :: others))
      rw [display_eq_render item, displayItems_eq_renderItems (next :: others)]

end

theorem literals_eq_map (items : List Value) : literals items = items.map literal := by
  induction items with
  | nil => rfl
  | cons item others ih => rw [literals, ih, List.map_cons]

/-! ### Data is parsed -/

theorem readBack_literals {room : Room}
    (each : ∀ item ∈ items, item.literal.ReadBack room .expression []) :
    (Phrase.others (literals items)).ReadBack room [] [] ∧
      (Phrase.items (literals items)).ReadBack room [] [] := by
  induction items with
  | nil => exact ⟨readBack_noOthers, readBack_noItems⟩
  | cons item others ih =>
      obtain ⟨here, later⟩ := List.forall_mem_cons.1 each
      exact ⟨readBack_others here (ih later).1, readBack_items here (ih later).1⟩

/-- Data is read back where as many levels are left as its lists need. -/
theorem IsData.readBack (data : value.IsData levels) (numbers : value.literal.NumbersReadBack) :
    value.literal.ReadBack (some levels) .expression [] := by
  induction data with
  | null =>
      have member : ("null", Expression.null) ∈ constants := by simp [constants]
      exact readBack_of_atom (readBack_constant member)
  | boolean value =>
      have member : (if value then "true" else "false", Expression.boolean value) ∈ constants := by
        cases value <;> simp [constants]
      exact readBack_of_atom (readBack_constant member)
  | number finite => exact readBack_of_atom (readBack_number finite numbers)
  | string free => exact readBack_of_atom (readBack_string free)
  | list _ ih =>
      rename_i levels items _
      have each : ∀ item ∈ items, item.literal.ReadBack (some levels) .expression [] := by
        intro item member
        have among : item.literal ∈ literals items := by
          rw [literals_eq_map]
          exact List.mem_map_of_mem member
        exact ih item member (numbersReadBack_list_iff.1 numbers _ among)
      have inside : (Phrase.items (literals items)).ReadBack (some levels) (skip []) [] :=
        (readBack_literals each).2
      exact readBack_of_atom (readBack_list (.level levels) inside)

/-! ### Literals yield data -/

/-- Trees that are equal to the literals of values yield equal values, if each of them does. -/
theorem sameItems_of_mapM {evaluate : Expression → Except EvaluationError Value}
    (each : ∀ item ∈ items, ∀ tree : Expression, tree.same item.literal = true →
      ∃ again, evaluate tree = .ok again ∧ again.same item = true) {trees : List Expression}
    (same : Expression.sameItems trees (literals items) = true) :
    ∃ agains, trees.mapM evaluate = .ok agains ∧ sameItems agains items = true := by
  induction items generalizing trees with
  | nil =>
      cases trees with
      | nil => exact ⟨[], rfl, rfl⟩
      | cons => cases same
  | cons item others ih =>
      obtain ⟨here, later⟩ := List.forall_mem_cons.1 each
      cases trees with
      | nil => cases same
      | cons tree trees =>
          obtain ⟨firsts, rest⟩ := Bool.and_eq_true_iff.1 same
          obtain ⟨again, yields, equal⟩ := here tree firsts
          obtain ⟨agains, traverses, equals⟩ := ih later rest
          refine ⟨again :: agains, ?_, ?_⟩
          · rw [List.mapM_cons, yields, traverses]
            rfl
          · rw [sameItems, equal, equals]
            rfl

/-- Data is the value of its literal, in any environment. -/
theorem IsData.exists_same (data : value.IsData levels) (within : levels < budget)
    (environment : Environment) {tree : Expression} (same : tree.same value.literal = true) :
    ∃ again, tree.evaluateWithin budget environment = .ok again ∧ again.same value = true := by
  induction data generalizing budget tree with
  | list _ ih =>
      rename_i levels items _
      obtain ⟨budget, rfl⟩ : ∃ rest, budget = rest + 1 := ⟨budget - 1, by omega⟩
      cases tree with
      | list trees =>
          have each : ∀ item ∈ items, ∀ tree : Expression, tree.same item.literal = true →
              ∃ again, tree.evaluateWithin budget environment = .ok again ∧
                again.same item = true :=
            fun item member tree same => ih item member (by omega) same
          obtain ⟨agains, traverses, sames⟩ := sameItems_of_mapM each same
          exact ⟨.list agains, by rw [Expression.evaluateWithin, traverses]; rfl, sames⟩
      | _ => cases same
  | _ =>
      obtain ⟨budget, rfl⟩ : ∃ rest, budget = rest + 1 := ⟨budget - 1, by omega⟩
      cases tree with
      | null | boolean | number | string => exact ⟨_, rfl, same⟩
      | _ => cases same

end Value

/-- The text of data, in lists at most as deep as a program may nest, is a program that yields equal
data in every environment, if its numbers read back from their texts. -/
theorem evaluateSource_display {value : Value} (data : value.IsData 32)
    (numbers : ∀ number ∈ value.literal.numbers, number.isFinite = true →
      ∃ again, Number.read? (Number.format number) = some again ∧ (again == number) = true)
    (environment : Environment) :
    ∃ again, evaluateSource value.display environment = .ok again ∧ (again == value) = true := by
  have reads_back : value.literal.NumbersReadBack := by
    intro number among finite
    obtain ⟨again, reads, same⟩ := numbers number among finite
    exact ⟨again, Number.numeral_format finite, reads, same⟩
  obtain ⟨tree, parses, literal⟩ := parse_of_readBack (data.readBack reads_back)
  have within : 32 < depthLimit := by decide
  obtain ⟨again, yields, same⟩ := data.exists_same within environment literal
  refine ⟨again, ?_, same⟩
  unfold evaluateSource
  rw [value.display_eq_render, parses]
  simp only [bind, Except.bind, Expression.evaluate, yields]
  rfl

/-- An empty list on the deepest level that there is, beside a string of two lines, a number below
zero and a list. -/
theorem evaluateSource_display_nested :
    let value : Value := .list [Nat.repeat (fun inner => .list [inner]) 30 (.list []),
      .string "one\ntwo", .number (-1.5), .list [.boolean true, .null]]
    value.IsData 32 ∧
    (∀ number ∈ value.literal.numbers, number.isFinite = true →
      ∃ again, Number.read? (Number.format number) = some again ∧ (again == number) = true) ∧
    ∃ again, evaluateSource value.display Native.environment = .ok again ∧
      (again == value) = true := by
  intro value
  have data : value.IsData 32 := by
    refine .list fun item member => ?_
    simp only [List.mem_cons, List.not_mem_nil, or_false] at member
    rcases member with rfl | rfl | rfl | rfl
    · exact Value.isData_nested 30
    · exact .string (by decide)
    · exact .number (by decide +kernel)
    · refine .list fun item member => ?_
      simp only [List.mem_cons, List.not_mem_nil, or_false] at member
      rcases member with rfl | rfl
      · exact .boolean true
      · exact .null
  have numbers : ∀ number ∈ value.literal.numbers, number.isFinite = true →
      ∃ again, Number.read? (Number.format number) = some again ∧ (again == number) = true := by
    have only : value.literal.numbers = [-1.5] := rfl
    have reads_back : ∃ again, Number.ReadsBack (-1.5) again := by decide +kernel
    obtain ⟨again, _, reads, same⟩ := reads_back
    rw [only]
    exact List.forall_mem_singleton.2 fun _ => ⟨again, reads, same⟩
  exact ⟨data, numbers, evaluateSource_display data numbers _⟩

end Curried
