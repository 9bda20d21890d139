import Curried.Number.Binary

/-!
# Shortest decimals

The reals that round to a given double form an interval around it.  Among the decimal grids
`… 100, 10, 1, 0.1 …` the coarsest one with a point in that interval gives the fewest digits that
read back.  Only the two grid points next to the value have to be looked at: if any grid point
lies in the interval, one of these does.
-/

namespace Curried.Number

/-- The decimal fraction `digits * 10 ^ exponent`. -/
structure Decimal where
  /-- The digits, read as one natural number. -/
  digits : Nat
  /-- Power of ten that scales them. -/
  exponent : Int
deriving DecidableEq

/-- The interval of reals that round to a double, in units of `2 ^ exponent`. -/
structure RoundingInterval where
  /-- Lower end. -/
  lower : Nat
  /-- The double itself. -/
  value : Nat
  /-- Upper end. -/
  upper : Nat
  /-- Power of two of the common unit. -/
  exponent : Int
  /-- Whether the two ends belong to the interval. -/
  closed : Bool

/-- The rounding interval of a positive magnitude.  Quarter units make both midpoints integers;
the ends belong to it when the significand is even, since ties round to even. -/
def Binary.interval (magnitude : Binary) : RoundingInterval where
  lower := 4 * magnitude.significand - if magnitude.narrowBelow then 1 else 2
  value := 4 * magnitude.significand
  upper := 4 * magnitude.significand + 2
  exponent := magnitude.exponent - 2
  closed := magnitude.significand % 2 == 0

namespace RoundingInterval

/-- Numerator of one unit measured in steps of `10 ^ power`. -/
def unitNumerator (interval : RoundingInterval) (power : Int) : Nat :=
  Nat.pow 2 interval.exponent.toNat * Nat.pow 10 (-power).toNat

/-- Denominator of one unit measured in steps of `10 ^ power`. -/
def unitDenominator (interval : RoundingInterval) (power : Int) : Nat :=
  Nat.pow 2 (-interval.exponent).toNat * Nat.pow 10 power.toNat

/-- Whether `digits * 10 ^ power` lies in the interval. -/
def contains (interval : RoundingInterval) (power : Int) (digits : Nat) : Bool :=
  let point := digits * interval.unitDenominator power
  let lower := interval.lower * interval.unitNumerator power
  let upper := interval.upper * interval.unitNumerator power
  if interval.closed then decide (lower ≤ point) && decide (point ≤ upper)
  else decide (lower < point) && decide (point < upper)

/-- Digits of the last grid point at or below the value. -/
def gridFloor (interval : RoundingInterval) (power : Int) : Nat :=
  interval.value * interval.unitNumerator power / interval.unitDenominator power

/-- The point of the grid `10 ^ power` that stands for the interval: the neighbour of the value
inside it, the nearer one if both are, and the upper one on a tie. -/
def gridPoint? (interval : RoundingInterval) (power : Int) : Option Nat :=
  let floor := interval.gridFloor power
  let value := interval.value * interval.unitNumerator power
  let below := value - floor * interval.unitDenominator power
  let above := (floor + 1) * interval.unitDenominator power - value
  if interval.contains power floor then
    if interval.contains power (floor + 1) && decide (above ≤ below) then some (floor + 1)
    else some floor
  else if interval.contains power (floor + 1) then some (floor + 1)
  else none

/-- Walk from the grid `10 ^ power` to finer ones until a grid point stands for the interval. -/
def coarsest (interval : RoundingInterval) : Nat → Int → Decimal
  | 0, power => ⟨interval.gridFloor power, power⟩
  | grids + 1, power =>
      match interval.gridPoint? power with
      | some digits => ⟨digits, power⟩
      | none => coarsest interval grids (power - 1)

/-- A power of ten that is greater than the value and at most a hundred times as large. -/
def coveringPower (interval : RoundingInterval) : Int :=
  let numerator := interval.value * interval.unitNumerator 0
  let denominator := interval.unitDenominator 0
  let width (n : Nat) : Int := (Nat.toDigits 10 n).length
  if denominator ≤ numerator then width (numerator / denominator)
  else 2 - width (denominator / numerator)

end RoundingInterval

/-- The fewest decimal digits that read back as the magnitude, and of those the nearest.
Seventeen significant digits always suffice, so twenty grids below the covering power do. -/
def Binary.shortest (magnitude : Binary) : Decimal :=
  if magnitude.significand = 0 then ⟨0, 0⟩
  else magnitude.interval.coarsest 20 magnitude.interval.coveringPower

end Curried.Number
