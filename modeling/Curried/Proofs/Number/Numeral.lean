import Curried.Number.Text
import Curried.Proofs.Grammar.Spelling

/-!
# Numbers are numerals

The text of a finite number is a numeral of the language, from its first character to its last: a
sign or none, a whole part without needless zeros, and a point with digits behind it or neither.
-/

namespace Curried

/-! ### Digits -/

theorem digits_of_toDigits (n : Nat) : ∀ c ∈ Nat.toDigits 10 n, c.isDigit = true :=
  fun _ member => Nat.isDigit_of_mem_toDigits (by decide) (by decide) member

/-- The digits of a number other than zero start with no zero. -/
theorem head_toDigits {n : Nat} (positive : 0 < n) :
    ∃ c others, Nat.toDigits 10 n = c :: others ∧ c ≠ '0' := by
  induction n using Nat.strongRecOn with
  | ind n ih =>
      rw [Nat.toDigits_eq_if (by decide)]
      split
      · rename_i small
        refine ⟨n.digitChar, [], rfl, ?_⟩
        have digits : ∀ d, d < 10 → 0 < d → d.digitChar ≠ '0' := by decide
        exact digits n small positive
      · obtain ⟨c, others, same, other⟩ := ih (n / 10) (by omega) (by omega)
        exact ⟨c, others ++ [(n % 10).digitChar], by rw [same]; rfl, other⟩

namespace Rule

theorem takeWhile_all {digits : List Char} (all : ∀ c ∈ digits, c.isDigit = true) :
    digits.takeWhile Char.isDigit = digits := by
  have whole : (digits ++ []).takeWhile Char.isDigit = digits := takeWhile_run all (by simp)
  rwa [List.append_nil] at whole

theorem wholeLength_toDigits (n : Nat) :
    wholeLength (Nat.toDigits 10 n) = (Nat.toDigits 10 n).length := by
  cases n with
  | zero => rfl
  | succ n =>
      obtain ⟨c, others, same, other⟩ := head_toDigits (Nat.succ_pos n)
      have all := digits_of_toDigits (n + 1)
      rw [same] at all ⊢
      have digit : c.isDigit = true := all c (.head _)
      simp only [wholeLength, if_neg other, digit, if_true, List.length_cons,
        takeWhile_all fun d member => all d (.tail _ member)]
      omega

theorem fractionLength_point {digits : List Char} (all : ∀ c ∈ digits, c.isDigit = true)
    (nonempty : digits ≠ []) : fractionLength ('.' :: digits) = digits.length + 1 := by
  have some_left : digits.length ≠ 0 := fun none_left => nonempty (List.length_eq_zero_iff.1 none_left)
  simp only [fractionLength, takeWhile_all all]
  omega

/-- Digits without a point are a number. -/
theorem unsigned_toDigits (sign n : Nat) :
    unsigned sign (Nat.toDigits 10 n) = some ⟨sign + (Nat.toDigits 10 n).length, none⟩ := by
  have positive : 0 < (Nat.toDigits 10 n).length := Nat.length_toDigits_pos
  unfold unsigned
  rw [wholeLength_toDigits]
  split
  · omega
  · simp [fractionLength]

/-- Digits with a point and more digits are a number. -/
theorem unsigned_fraction (sign n : Nat) {digits : List Char}
    (all : ∀ c ∈ digits, c.isDigit = true) (nonempty : digits ≠ []) :
    unsigned sign (Nat.toDigits 10 n ++ '.' :: digits) =
      some ⟨sign + (Nat.toDigits 10 n ++ '.' :: digits).length, none⟩ := by
  have positive : 0 < (Nat.toDigits 10 n).length := Nat.length_toDigits_pos
  have whole : wholeLength (Nat.toDigits 10 n ++ '.' :: digits) = (Nat.toDigits 10 n).length := by
    rw [wholeLength_append, wholeLength_toDigits]
    · rw [wholeLength_toDigits]
      omega
    · rintro c same
      cases same
      rfl
  unfold unsigned
  rw [whole]
  split
  · omega
  · rw [List.drop_left, fractionLength_point all nonempty]
    simp [Nat.add_assoc]

end Rule

namespace Number

theorem digits_of_padded (width n : Nat) : ∀ c ∈ padded width n, c.isDigit = true := by
  intro c member
  simp only [padded, List.mem_append, List.mem_replicate] at member
  rcases member with ⟨_, rfl⟩ | member
  · rfl
  · exact digits_of_toDigits n c member

theorem padded_ne_nil (width n : Nat) : padded width n ≠ [] := by
  simp [padded]

theorem unsigned_positional (sign : Nat) (decimal : Decimal) :
    Rule.unsigned sign decimal.positional = some ⟨sign + decimal.positional.length, none⟩ := by
  unfold Decimal.positional
  split
  · exact Rule.unsigned_toDigits sign _
  · exact Rule.unsigned_fraction sign _ (digits_of_padded _ _) (padded_ne_nil _ _)

/-- Positional notation starts with a digit. -/
theorem head_positional (decimal : Decimal) :
    ∃ c others, decimal.positional = c :: others ∧ c.isDigit = true := by
  have starts (n : Nat) (behind : List Char) :
      ∃ c others, Nat.toDigits 10 n ++ behind = c :: others ∧ c.isDigit = true := by
    cases digits : Nat.toDigits 10 n with
    | nil => simp at digits
    | cons c others =>
        exact ⟨c, others ++ behind, rfl, digits_of_toDigits n c (by rw [digits]; exact .head _)⟩
  unfold Decimal.positional
  split
  · rw [← List.append_nil (Nat.toDigits 10 _)]
    exact starts _ []
  · exact starts _ _

/-- Eleven exponent bits that are all set stand for no finite number. -/
theorem isFinite_of_exponent {value : Float}
    (full : value.toBits.toNat / Binary.leastNormal % 2048 = 2047) : value.isFinite = false := by
  have bits : @Float.Model.UnpackedFloat.unpackExponent .binary64 value.toModel.toBits.toBitVec =
      -1#11 := by
    apply BitVec.eq_of_toNat_eq
    have shifted : value.toModel.toBits.toNat / 2 ^ 52 % 2 ^ 11 = 2047 := full
    simpa [Float.Model.UnpackedFloat.unpackExponent, Nat.shiftRight_eq_div_pow] using shifted
  show value.toModel.unpack.isFinite = false
  unfold Float.Model.unpack Float.Model.UnpackedFloat.unpack
  rw [if_pos bits]
  split <;> rfl

/-- A finite number has a finite magnitude. -/
theorem decode_of_isFinite {value : Float} (finite : value.isFinite = true) :
    ∃ negative magnitude, decode value = .finite negative magnitude := by
  have free : value.toBits.toNat / Binary.leastNormal % 2048 ≠ 2047 := by
    intro full
    rw [isFinite_of_exponent full] at finite
    cases finite
  unfold decode
  simp only [if_neg free]
  split
  · exact ⟨_, _, rfl⟩
  · exact ⟨_, _, rfl⟩

/-- The text of a finite number is one numeral. -/
theorem numeral_format {value : Float} (finite : value.isFinite = true) :
    Rule.numeral (format value).toList = some ⟨(format value).toList.length, none⟩ := by
  obtain ⟨negative, magnitude, decoded⟩ := decode_of_isFinite finite
  have text : (format value).toList = signed negative magnitude.shortest.positional := by
    simp [format, finite, display, decoded]
  rw [text]
  cases negative with
  | true =>
      have unsigned := unsigned_positional 1 magnitude.shortest
      simp only [signed, if_true, Rule.numeral_minus, unsigned, List.length_cons]
      rw [Nat.add_comm]
  | false =>
      obtain ⟨c, others, same, digit⟩ := head_positional magnitude.shortest
      have other : c ≠ '-' := by
        rintro rfl
        cases digit
      have unsigned := unsigned_positional 0 magnitude.shortest
      rw [Nat.zero_add, same] at unsigned
      simp only [signed, Bool.false_eq_true, if_false, same, Rule.numeral_other other, unsigned]

end Number

end Curried
