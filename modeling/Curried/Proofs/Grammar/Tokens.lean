import Curried.Proofs.Grammar.Takes

/-!
# The tokens of the standard rules

The kind, the text and the value of a token that a standard rule cuts off fit together.
-/

namespace Curried

namespace Rule

theorem eq_of_single {test : Char → Bool} {rest : List Char} {span : Span}
    (found : single test rest = some span) :
    ∃ c others, rest = c :: others ∧ test c = true ∧ span = ⟨1, none⟩ := by
  cases rest with
  | nil => simp [single] at found
  | cons c others =>
      simp only [single] at found
      split at found
      · rename_i fits
        exact ⟨c, others, rfl, fits, (Option.some.inj found).symm⟩
      · cases found

theorem eq_of_quoted {rest : List Char} {span : Span} (found : quoted rest = some span) :
    ∃ content : List Char, quote ∉ content ∧ span.capture = some content := by
  cases rest with
  | nil => simp [quoted] at found
  | cons c others =>
      simp only [quoted] at found
      split at found
      · refine ⟨others.takeWhile (· != quote), ?_, (Option.some.inj found) ▸ rfl⟩
        intro member
        have other := List.all_eq_true.1 List.all_takeWhile quote member
        simp at other
      · cases found

theorem eq_of_word {rest : List Char} {span : Span} (found : word rest = some span) :
    ∃ c others, rest = c :: others ∧ startsWord c = true ∧
      span = ⟨1 + (others.takeWhile continuesWord).length, none⟩ := by
  cases rest with
  | nil => simp [word] at found
  | cons c others =>
      simp only [word] at found
      split at found
      · rename_i starts
        exact ⟨c, others, rfl, starts, (Option.some.inj found).symm⟩
      · cases found

theorem take_takeWhile_length (test : Char → Bool) (text : List Char) :
    text.take (text.takeWhile test).length = text.takeWhile test :=
  (List.prefix_iff_eq_take.1 (List.takeWhile_prefix test)).symm

/-- A token of a standard rule is standard. -/
theorem standard_of_recognise {rule : Rule} (among : rule ∈ standard) {rest : List Char}
    {span : Span} (found : rule.recognise rest = some span) (place : Place) :
    (rule.token span rest place).Standard := by
  simp only [standard, List.mem_cons, List.not_mem_nil, or_false] at among
  rcases among with rfl | rfl | rfl | rfl | rfl | rfl | rfl
  · exact .blank (.head _)
  · exact .blank (.tail _ (.head _))
  · exact .blank (.tail _ (.tail _ (.head _)))
  · exact .number rfl
  · obtain ⟨content, free, capture⟩ := eq_of_quoted found
    refine .string rfl ?_
    simpa [token, capture] using free
  · obtain ⟨c, others, rfl, starts, rfl⟩ := eq_of_word found
    have raw : (c :: others).take (1 + (others.takeWhile continuesWord).length) =
        c :: others.takeWhile continuesWord := by
      rw [Nat.add_comm, List.take_succ_cons, take_takeWhile_length]
    refine .word rfl rfl ⟨c, others.takeWhile continuesWord, ?_, starts, ?_⟩
    · simp only [token, Option.getD_none, raw, String.toList_ofList]
    · exact fun d member => List.all_eq_true.1 List.all_takeWhile d member
  · obtain ⟨c, others, rfl, fits, rfl⟩ := eq_of_single found
    refine .mark c rfl ?_ rfl (by simpa using fits)
    rw [String.singleton_eq_ofList]
    rfl

/-- The rule of a token is one of the list, and it takes the piece of the token. -/
theorem recognise_of_first {rules : List Rule} {rest : List Char} {rule : Rule}
    {piece : { span : Span // 0 < span.length }}
    (found : first? rules rest = some (rule, piece)) :
    rule ∈ rules ∧ rule.recognise rest = some piece.val := by
  obtain ⟨other, among, same⟩ := List.exists_of_findSome?_eq_some found
  obtain ⟨inner, taken, pair⟩ := Option.map_eq_some_iff.1 same
  obtain ⟨rfl, rfl⟩ : other = rule ∧ inner = piece := by simpa using pair
  refine ⟨among, ?_⟩
  obtain ⟨span, recognised, kept⟩ := Option.bind_eq_some_iff.1 taken
  split at kept
  · obtain rfl := Option.some.inj kept
    exact recognised
  · cases kept

end Rule

/-- The first token comes from the first rule that takes a piece, and the others from the rest. -/
theorem first_of_tokensFrom {rules : List Rule} {place : Place} {rest : List Char} {token : Token}
    {others : List Token} (found : tokensFrom rules place rest = .ok (token :: others)) :
    ∃ rule piece, Rule.first? rules rest = some (rule, piece) ∧
      token = rule.token piece.val rest place ∧
        tokensFrom rules (place.advance (rest.take piece.val.length))
          (rest.drop piece.val.length) = .ok others := by
  cases rest with
  | nil =>
      rw [tokensFrom] at found
      cases found
  | cons c cs =>
      rw [tokensFrom] at found
      split at found
      · cases found
      · rename_i rule span nonempty first
        simp only at found
        split at found
        · rename_i behind goes
          cases found
          exact ⟨rule, ⟨span, nonempty⟩, first, rfl, goes⟩
        · cases found

/-- What holds of every token of a single rule holds of all tokens of a text. -/
theorem forall_of_tokensFrom {rules : List Rule} {holds : Token → Prop}
    (each : ∀ rule ∈ rules, ∀ rest span place, rule.recognise rest = some span →
      holds (rule.token span rest place))
    {place : Place} {rest : List Char} {tokens : List Token}
    (found : tokensFrom rules place rest = .ok tokens) : ∀ token ∈ tokens, holds token := by
  induction tokens generalizing place rest with
  | nil => exact fun _ member => absurd member List.not_mem_nil
  | cons token others ih =>
      obtain ⟨rule, piece, first, rfl, goes⟩ := first_of_tokensFrom found
      obtain ⟨among, recognised⟩ := Rule.recognise_of_first first
      exact List.forall_mem_cons.2 ⟨each rule among rest piece.val place recognised, ih goes⟩

theorem standard_of_tokensFrom {place : Place} {rest : List Char} {tokens : List Token}
    (found : tokensFrom Rule.standard place rest = .ok tokens) : Standard tokens :=
  forall_of_tokensFrom (fun _ among _ _ place recognised =>
    Rule.standard_of_recognise among recognised place) found

/-- Whatever the standard rules yield is standard. -/
theorem standard_of_tokenize {source : String} {tokens : List Token}
    (found : tokenize Rule.standard source = .ok tokens) : Standard tokens :=
  standard_of_tokensFrom found

end Curried
