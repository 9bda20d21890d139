/-!
# Reading numbers

A numeral is an optional sign, then digits with at most one point among or around them, then an
optional exponent.  `inf`, `infinity` and `nan` in any case are numerals too.  The value is the
double nearest to the decimal fraction.
-/

namespace Curried.Number

/-- The natural number that a list of digits spells. -/
def ofDigits (digits : List Char) : Nat :=
  digits.foldl (fun value digit => 10 * value + (digit.toNat - '0'.toNat)) 0

/-- Take a sign off the front; `true` stands for minus. -/
def splitSign : List Char → Bool × List Char
  | '-' :: rest => (true, rest)
  | '+' :: rest => (false, rest)
  | rest => (false, rest)

/-- The exponent part that ends a numeral: nothing, or `e` and a signed whole number. -/
def readExponent : List Char → Option Int
  | [] => some 0
  | mark :: rest =>
      let (negative, digits) := splitSign rest
      if (mark == 'e' || mark == 'E') && !digits.isEmpty && digits.all Char.isDigit then
        some (if negative then -(ofDigits digits : Int) else ofDigits digits)
      else none

/-- Positive infinity. -/
def infinity : Float := 1.0 / 0.0

/-- The double nearest to `digits * 10 ^ exponent`.  Magnitudes far outside the range of doubles
are settled by the place of their leading digit alone. -/
def nearest (digits : Nat) (exponent : Int) : Float :=
  let leading := (Nat.toDigits 10 digits).length + exponent
  if digits = 0 then 0.0
  else if 400 < leading then infinity
  else if leading < -400 then 0.0
  else if 0 ≤ exponent then Float.ofScientific digits false exponent.toNat
  else Float.ofScientific digits true (-exponent).toNat

/-- Read an unsigned numeral made of digits, point and exponent. -/
def readMagnitude (text : List Char) : Option Float :=
  let whole := text.takeWhile Char.isDigit
  let afterWhole := text.dropWhile Char.isDigit
  let afterPoint := if afterWhole.head? == some '.' then afterWhole.tail else []
  let fraction := afterPoint.takeWhile Char.isDigit
  let afterFraction :=
    if afterWhole.head? == some '.' then afterPoint.dropWhile Char.isDigit else afterWhole
  if whole.isEmpty && fraction.isEmpty then none
  else
    (readExponent afterFraction).map fun exponent =>
      nearest (ofDigits (whole ++ fraction)) (exponent - fraction.length)

/-- Read a numeral; `none` if the text is not one. -/
def read? (text : String) : Option Float :=
  let (negative, rest) := splitSign text.toList
  let name := String.ofList (rest.map Char.toLower)
  let magnitude :=
    if name = "inf" || name = "infinity" then some infinity
    else if name = "nan" then some (0.0 / 0.0)
    else readMagnitude rest
  magnitude.map fun number => if negative then -number else number

end Curried.Number
