/-!
# Doubles as exact fractions

A finite double is a natural significand times a power of two.  Decoding its bits gives that
pair, together with the sign, so that printing can work in exact natural arithmetic.
-/

namespace Curried.Number

/-- The magnitude `significand * 2 ^ exponent` of a finite double. -/
structure Binary where
  /-- Integer part of the fraction, below `2 ^ 53`. -/
  significand : Nat
  /-- Power of two that scales it. -/
  exponent : Int
deriving DecidableEq

/-- What the bits of a double stand for. -/
inductive Decoded where
  /-- Not a number. -/
  | undefined
  /-- One of the two infinities. -/
  | infinite (negative : Bool)
  /-- A signed finite magnitude, zero included. -/
  | finite (negative : Bool) (magnitude : Binary)
deriving DecidableEq

namespace Binary

/-- The least significand of a normal double, `2 ^ 52`.  Its top bit is not stored. -/
def leastNormal : Nat := 0x10000000000000

/-- Exponent of the subnormal range. -/
def leastExponent : Int := -1074

/-- Whether the next double below is half as far away as the next one above: the significand
is the least normal one and the exponent can still go down. -/
def narrowBelow (magnitude : Binary) : Bool :=
  magnitude.significand == leastNormal && decide (leastExponent < magnitude.exponent)

end Binary

/-- Read the three fields of the bit pattern: a sign, eleven bits of exponent and fifty-two bits
of fraction.  The two extreme exponents are those of subnormal numbers and of no numbers. -/
def decode (number : Float) : Decoded :=
  let bits : Nat := number.toBits.toNat
  let fraction : Nat := bits % Binary.leastNormal
  let biased : Nat := bits / Binary.leastNormal % 2048
  let negative := bits / Binary.leastNormal / 2048 == 1
  if biased = 2047 then
    if fraction = 0 then .infinite negative else .undefined
  else if biased = 0 then
    .finite negative ⟨fraction, Binary.leastExponent⟩
  else
    .finite negative ⟨Binary.leastNormal + fraction, Binary.leastExponent + (biased - 1 : Nat)⟩

end Curried.Number
