import Curried.Number.Text
import Mathlib

/-!
# Equality of doubles

Doubles are compared by what they stand for: the two zeros are equal, though only one of them is
written with a sign, and what is no number is equal to nothing.  The laws of this equality are
library lemmas that no part of Mathlib brings along, only the whole.
-/

namespace Curried.Number

/-- A double is equal to itself unless it is no number. -/
theorem beq_self_iff {value : Float} : (value == value) = true ↔ value.isNaN = false := by
  rw [Float.beq_self_iff, Float.isNaN_eq_decide_eq_nan, decide_eq_false_iff_not]

theorem format_zero : format 0 = "0" := by decide +kernel

theorem format_negative_zero : format (-0) = "-0" := by decide +kernel

/-- Equal doubles have the same text, but for the sign of a zero. -/
theorem format_of_beq {left right : Float} (equal : (left == right) = true) :
    format left = format right ∨ (format left = "0" ∧ format right = "-0") ∨
      (format left = "-0" ∧ format right = "0") := by
  obtain ⟨_, _, rfl | ⟨rfl, rfl⟩ | ⟨rfl, rfl⟩⟩ := Float.beq_iff_ne_nan_and_eq.1 equal
  · exact .inl rfl
  · exact .inr (.inl ⟨format_zero, format_negative_zero⟩)
  · exact .inr (.inr ⟨format_negative_zero, format_zero⟩)

end Curried.Number
