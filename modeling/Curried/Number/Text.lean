import Curried.Number.Shortest

/-!
# Numbers as text

A number is written with the fewest digits that read back, always in positional notation: no
exponent, no fraction on whole numbers, a minus sign also on negative zero.
-/

namespace Curried.Number

/-- The digits of `number`, with zeros in front up to `width`. -/
def padded (width number : Nat) : List Char :=
  let digits := Nat.toDigits 10 number
  List.replicate (width - digits.length) '0' ++ digits

/-- Positional notation: zeros fill up a whole number, a point splits any other one. -/
def Decimal.positional (decimal : Decimal) : List Char :=
  if 0 ≤ decimal.exponent then
    Nat.toDigits 10 (decimal.digits * Nat.pow 10 decimal.exponent.toNat)
  else
    let places := (-decimal.exponent).toNat
    Nat.toDigits 10 (decimal.digits / Nat.pow 10 places) ++
      '.' :: padded places (decimal.digits % Nat.pow 10 places)

/-- A leading minus for the negative sign. -/
def signed (negative : Bool) (text : List Char) : List Char :=
  if negative then '-' :: text else text

/-- The text of a number: its shortest digits in positional notation, or the name of a value
that has none. -/
def display (number : Float) : String :=
  String.ofList <|
    match decode number with
    | .undefined => "NaN".toList
    | .infinite negative => signed negative "inf".toList
    | .finite negative magnitude => signed negative magnitude.shortest.positional

/-- The text of a number inside the language, where every number without digits is `null`. -/
def format (number : Float) : String :=
  if number.isFinite then display number else "null"

end Curried.Number
