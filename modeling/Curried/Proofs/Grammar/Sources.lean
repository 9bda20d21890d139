import Curried.Program
import Curried.Proofs.Grammar.Completeness
import Curried.Proofs.Grammar.Soundness
import Curried.Proofs.Grammar.Tokens

/-!
# Sources and their trees

A source text has a tree under a nesting limit exactly if the grammar derives the tree from the
glyphs of its tokens.
-/

namespace Curried

open Curried.Parser Grammar

/-- Parse a source text under a nesting limit, or without one. -/
def parseUpTo (limit : Option Nat) (source : String) : Except ProgramError Expression :=
  match tokenize Rule.standard source with
  | .ok tokens => ((programUpTo limit).parseTokens (turnsFor tokens) tokens).map Prod.fst
  | .error error => .error (.lexical error)

theorem parse_eq_parseUpTo (source : String) :
    parse source = parseUpTo (some nestingLimit) source := by
  unfold parse parseWithHistory parseUpTo
  rw [programUpTo_nestingLimit]
  cases tokenize Rule.standard source <;> rfl

variable {limit : Option Nat} {source : String} {tokens : List Token} {tree : Expression}

theorem parseUpTo_of_lexed (lexed : tokenize Rule.standard source = .ok tokens) :
    parseUpTo limit source =
      match (programUpTo limit).run (turnsFor tokens) (.start tokens) with
      | .ok tree _ => .ok tree
      | .error failure _ => .error (.grammatical failure.report)
      | .exhausted => .error .exhausted := by
  unfold parseUpTo parseTokens
  rw [lexed]
  simp only
  split <;> rename_i run <;> rw [run] <;> rfl

/-- A source has a tree if its tokens are taken. -/
theorem parseUpTo_eq_ok_iff (lexed : tokenize Rule.standard source = .ok tokens) :
    parseUpTo limit source = .ok tree ↔
      ∃ behind, (programUpTo limit).read (turnsFor tokens) 0 tokens = .taken tree behind := by
  have same : (programUpTo limit).read (turnsFor tokens) 0 tokens =
    ((programUpTo limit).run (turnsFor tokens) (.start tokens)).verdict := rfl
  rw [parseUpTo_of_lexed lexed, same]
  cases (programUpTo limit).run (turnsFor tokens) (.start tokens) with
  | ok other after => simp [Outcome.verdict]
  | error failure after =>
      simp only [Outcome.verdict]
      split <;> simp
  | exhausted => simp [Outcome.verdict]

theorem length_lt_turnsFor (tokens : List Token) : tokens.length < turnsFor tokens := by
  unfold turnsFor
  omega

/-- The parser finds the trees that the grammar derives, and no others. -/
theorem parseUpTo_iff_derives :
    parseUpTo limit source = .ok tree ↔ ∃ tokens, tokenize Rule.standard source = .ok tokens ∧
      Derives limit (.expression tree) (glyphs tokens) [] := by
  cases lexed : tokenize Rule.standard source with
  | error error => simp [parseUpTo, lexed]
  | ok tokens =>
      have standard := standard_of_tokenize lexed
      rw [parseUpTo_eq_ok_iff lexed]
      constructor
      · rintro ⟨behind, takes⟩
        exact ⟨tokens, rfl, derives_of_program standard takes⟩
      · rintro ⟨_, same, derives⟩
        cases same
        have enough : (glyphs tokens).length < turnsFor tokens := by
          rw [length_glyphs]
          exact length_lt_turnsFor tokens
        obtain ⟨behind, takes, _⟩ := takes_program derives enough tokens standard rfl
        exact ⟨behind, takes⟩

end Curried
