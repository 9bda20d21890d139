import Curried.Lexer
import Mathlib.Data.List.DropRight

/-!
# Tokens cover the source

Splitting a source into tokens loses nothing: the raw texts of the tokens make up the source again,
or, if there is an error, the part of it in front of the error.  Each token comes from the first rule
with a non-empty match, and its place is counted from the beginning of the source, although it is
computed from the place of the token before.
-/

namespace Curried

/-! ### Places -/

namespace Place

/-- Behind a piece of text without a line end the line is the same; otherwise it is the one behind
the last line end. -/
theorem advance_eq (place : Place) (text : List Char) :
    place.advance text =
      if text.count '\n' = 0 then ⟨place.line, place.column + text.length⟩
      else ⟨place.line + text.count '\n', (text.rtakeWhile (· != '\n')).length + 1⟩ := by
  induction text using List.reverseRecOn with
  | nil => rfl
  | append_singleton text c ih =>
      rw [advance_append, ih, List.rtakeWhile_concat, List.count_append]
      by_cases line_end : c = '\n'
      · subst line_end
        by_cases none_before : text.count '\n' = 0
        · simp [advance, step, none_before]
        · simp [advance, step, none_before, Nat.add_assoc]
      · have no_line_end : [c].count '\n' = 0 := by simpa [List.count_eq_zero] using Ne.symm line_end
        by_cases none_before : text.count '\n' = 0
        · simp [advance, step, line_end, none_before, no_line_end, Nat.add_assoc]
        · simp [advance, step, line_end, none_before, no_line_end]

/-- The place behind a text that a source begins with: lines are counted by their ends, and columns
from behind the last of them. -/
def behind (text : List Char) : Place :=
  ⟨1 + text.count '\n', 1 + (text.rtakeWhile (· != '\n')).length⟩

theorem start_advance (text : List Char) : start.advance text = behind text := by
  rw [advance_eq, behind, start]
  by_cases one_line : text.count '\n' = 0
  · have whole : text.rtakeWhile (· != '\n') = text := by
      rw [List.rtakeWhile_eq_self_iff]
      intro c member
      have differs : c ≠ '\n' := fun same => List.count_eq_zero.1 one_line (same ▸ member)
      simpa using differs
    rw [if_pos one_line, one_line, whole]
  · rw [if_neg one_line, Nat.add_comm _ 1]

end Place

namespace Token

@[simp]
theorem toList_source_nil : (source []).toList = [] := by
  simp [source]

@[simp]
theorem toList_source_cons (token : Token) (others : List Token) :
    (source (token :: others)).toList = token.raw.toList ++ (source others).toList := by
  simp [source, String.toList_join]

end Token

/-! ### The first rule that matches -/

namespace Rule

variable {rules : List Rule} {rule : Rule} {ahead : List Char} {span : Span}

/-- The rule has no match in front of the text, or an empty one. -/
def Idle (rule : Rule) (ahead : List Char) : Prop :=
  ∀ span, rule.recognise ahead = some span → span.length = 0

/-- The rule is the first of the list with a non-empty match in front of the text. -/
structure IsFirst (rules : List Rule) (ahead : List Char) (rule : Rule) (span : Span) : Prop where
  listed : ∃ skipped others, rules = skipped ++ rule :: others ∧ ∀ other ∈ skipped, other.Idle ahead
  matched : rule.recognise ahead = some span
  nonempty : 0 < span.length

theorem piece?_eq_none_iff : rule.piece? ahead = none ↔ rule.Idle ahead := by
  unfold piece? Idle
  cases rule.recognise ahead with
  | none => simp
  | some span => simp

theorem recognise_of_piece? {piece : { span : Span // 0 < span.length }}
    (found : rule.piece? ahead = some piece) : rule.recognise ahead = some piece.val := by
  obtain ⟨span, matched, kept⟩ := Option.bind_eq_some_iff.1 found
  split at kept
  · obtain rfl := Option.some.inj kept
    exact matched
  · cases kept

theorem first?_eq_none_iff : first? rules ahead = none ↔ ∀ rule ∈ rules, rule.Idle ahead := by
  unfold first?
  rw [List.findSome?_eq_none_iff]
  refine forall₂_congr fun rule _ => ?_
  rw [Option.map_eq_none_iff, piece?_eq_none_iff]

theorem isFirst_of_first? {piece : { span : Span // 0 < span.length }}
    (found : first? rules ahead = some (rule, piece)) : IsFirst rules ahead rule piece.val := by
  obtain ⟨skipped, other, others, rfl, taken, idle⟩ := List.findSome?_eq_some_iff.1 found
  obtain ⟨inner, matched, same⟩ := Option.map_eq_some_iff.1 taken
  obtain ⟨rfl, rfl⟩ : other = rule ∧ inner = piece := by simpa using same
  refine ⟨⟨skipped, others, rfl, fun rule member => ?_⟩, recognise_of_piece? matched, inner.property⟩
  exact piece?_eq_none_iff.1 (Option.map_eq_none_iff.1 (idle rule member))

end Rule

/-! ### Tokens one behind the other -/

/-- From a place on, the tokens are cut off the text ahead one behind the other, each by the first
rule that matches there; some text may be left. -/
inductive Cuts (rules : List Rule) : Place → List Char → List Token → List Char → Prop where
  | done (place : Place) (left : List Char) : Cuts rules place left [] left
  | next {place : Place} {ahead left : List Char} {rule : Rule} {span : Span}
      {tokens : List Token} :
      ahead ≠ [] → Rule.IsFirst rules ahead rule span →
        Cuts rules (place.advance (ahead.take span.length)) (ahead.drop span.length) tokens left →
          Cuts rules place ahead (rule.token span ahead place :: tokens) left

namespace Cuts

variable {rules : List Rule} {place : Place} {ahead left : List Char} {tokens : List Token}

/-- The tokens make up the text in front of what is left. -/
theorem source_append (cuts : Cuts rules place ahead tokens left) :
    (Token.source tokens).toList ++ left = ahead := by
  induction cuts with
  | done place left => simp
  | next _ _ _ ih =>
      rw [Token.toList_source_cons, List.append_assoc, ih]
      simp [Rule.token]

/-- Each token takes a character at least. -/
theorem length_le (cuts : Cuts rules place ahead tokens left) :
    tokens.length + left.length ≤ ahead.length := by
  induction cuts with
  | done place left => simp
  | next some_ahead first _ ih =>
      have positive := first.nonempty
      have some_length := List.length_pos_of_ne_nil some_ahead
      simp only [List.length_cons, List.length_drop] at ih ⊢
      omega

/-- Where every token is cut off. -/
theorem of_split {earlier later : List Token} {token : Token}
    (cuts : Cuts rules place ahead (earlier ++ token :: later) left) :
    ∃ rule span behind, behind ≠ [] ∧ (Token.source earlier).toList ++ behind = ahead ∧
      Rule.IsFirst rules behind rule span ∧
      token = rule.token span behind (place.advance (Token.source earlier).toList) := by
  induction earlier generalizing place ahead with
  | nil =>
      cases cuts with
      | next some_ahead first _ => exact ⟨_, _, ahead, some_ahead, by simp, first, by simp⟩
  | cons front earlier ih =>
      cases cuts with
      | @next _ _ _ rule span _ _ _ rest =>
          obtain ⟨rule', span', behind, some_behind, covers, first, same⟩ := ih rest
          refine ⟨rule', span', behind, some_behind, ?_, first, ?_⟩
          · rw [Token.toList_source_cons, List.append_assoc, covers]
            simp [Rule.token]
          · rw [same, ← Place.advance_append, Token.toList_source_cons]
            simp [Rule.token]

end Cuts

/-- The tokens of a text are cut off one behind the other, until no text is left or no rule has a
non-empty match. -/
theorem exists_cuts (rules : List Rule) (place : Place) (ahead : List Char) :
    ∃ tokens left, Cuts rules place ahead tokens left ∧
      (left = [] ∧ tokensFrom rules place ahead = .ok tokens ∨
        left ≠ [] ∧ (∀ rule ∈ rules, rule.Idle left) ∧
          tokensFrom rules place ahead =
            .error (.unknownAt left (place.advance (Token.source tokens).toList))) := by
  induction place, ahead using tokensFrom.induct rules with
  | case1 place => exact ⟨[], [], .done place [], .inl ⟨rfl, by rw [tokensFrom]⟩⟩
  | case2 place c cs none_found =>
      refine ⟨[], c :: cs, .done place _, .inr ⟨by simp, Rule.first?_eq_none_iff.1 none_found, ?_⟩⟩
      rw [tokensFrom, none_found]
      simp
  | case3 place c cs rule span nonempty found raw tokens ended ih =>
      obtain ⟨others, left, cuts, ⟨none_left, ok⟩ | ⟨_, _, failed⟩⟩ := ih
      · obtain rfl : others = tokens := Except.ok.inj (ok.symm.trans ended)
        refine ⟨rule.token span (c :: cs) place :: others, left,
          .next (by simp) (Rule.isFirst_of_first? found) cuts, .inl ⟨none_left, ?_⟩⟩
        rw [tokensFrom, found]
        simp only [ended, raw]
      · cases failed.symm.trans ended
  | case4 place c cs rule span nonempty found raw error ended ih =>
      obtain ⟨others, left, cuts, ⟨_, ok⟩ | ⟨some_left, idle, failed⟩⟩ := ih
      · cases ok.symm.trans ended
      · refine ⟨rule.token span (c :: cs) place :: others, left,
          .next (by simp) (Rule.isFirst_of_first? found) cuts, .inr ⟨some_left, idle, ?_⟩⟩
        obtain rfl := Except.error.inj (failed.symm.trans ended)
        rw [tokensFrom, found, Token.toList_source_cons, Place.advance_append]
        simp only [ended, raw, Rule.token, String.toList_ofList]

/-- How a token stands between the part of the source before it and the part that begins with
it. -/
structure Token.StandsAt (token : Token) (rules : List Rule) (before ahead : List Char) : Prop where
  nonempty : token.raw ≠ ""
  first : ∃ rule span, Rule.IsFirst rules ahead rule span ∧ token.kind = rule.kind ∧
    token.raw = String.ofList (ahead.take span.length)
  line : token.place.line = 1 + before.count '\n'
  column : token.place.column = 1 + (before.rtakeWhile (· != '\n')).length

theorem Rule.IsFirst.standsAt {rules : List Rule} {ahead : List Char} {rule : Rule} {span : Span}
    (first : Rule.IsFirst rules ahead rule span) (some_ahead : ahead ≠ []) (before : List Char) :
    (rule.token span ahead (Place.behind before)).StandsAt rules before ahead := by
  refine ⟨fun empty => ?_, ⟨rule, span, first, rfl, rfl⟩, rfl, rfl⟩
  have taken : ahead.take span.length = [] := by
    simpa [Rule.token] using congrArg String.toList empty
  rcases List.take_eq_nil_iff.1 taken with none_taken | none_ahead
  · exact Nat.ne_of_gt first.nonempty none_taken
  · exact some_ahead none_ahead

/-- Splitting any source by any rules comes to an end, with at most as many tokens as the source has
characters.  The tokens cover the source up to what is left of it; every one of them is non-empty,
comes from the first rule with a non-empty match where it begins, and has the line and the column of
that place.  If nothing is left, these tokens are the result.  Otherwise no rule has a non-empty match
in front of what is left, and the result is an error with the line and the column of that place and
with the rest of the line, cut at fifty characters. -/
theorem tokenize_lossless (rules : List Rule) (source : String) :
    ∃ (tokens : List Token) (left : List Char),
      Token.source tokens ++ String.ofList left = source ∧
      tokens.length ≤ source.length ∧
      (∀ earlier token later, tokens = earlier ++ token :: later →
        token.StandsAt rules (Token.source earlier).toList
          ((Token.source (token :: later)).toList ++ left)) ∧
      (left = [] ∧ tokenize rules source = .ok tokens ∨
        left ≠ [] ∧ (∀ rule ∈ rules, rule.Idle left) ∧
          tokenize rules source = .error (.unknownToken
            (String.ofList ((left.takeWhile (· != '\n')).take 50))
            ⟨1 + (Token.source tokens).toList.count '\n',
              1 + ((Token.source tokens).toList.rtakeWhile (· != '\n')).length⟩)) := by
  obtain ⟨tokens, left, cuts, ended⟩ := exists_cuts rules .start source.toList
  have covers := cuts.source_append
  refine ⟨tokens, left, String.toList_injective (by simpa using covers), ?_, ?_, ?_⟩
  · have bounded := cuts.length_le
    rw [String.length_toList] at bounded
    omega
  · rintro earlier token later rfl
    obtain ⟨rule, span, ahead, some_ahead, behind, first, same⟩ := cuts.of_split
    obtain rfl : (Token.source (token :: later)).toList ++ left = ahead := by
      refine List.append_cancel_left ((?_ : _ = source.toList).trans behind.symm)
      rw [← covers]
      simp [Token.source, String.toList_join]
    have stands := first.standsAt some_ahead (Token.source earlier).toList
    rwa [← Place.start_advance, ← same] at stands
  · rw [Place.start_advance] at ended
    exact ended

end Curried
