import Curried.Text.CaseFolding

/-!
# Classes of characters

A set of characters is a list of ranges of code points that ascend and keep a gap between each
other, so equal sets are equal lists.
-/

namespace Curried

/-- A set of characters. -/
structure CharClass where
  /-- First and last code point of each range, in ascending order and with gaps in between. -/
  ranges : List (Nat × Nat)
deriving DecidableEq

namespace CharClass

/-- Put one more range among ascending ones.  Ranges that overlap or touch become one. -/
def insertRange (first last : Nat) : List (Nat × Nat) → List (Nat × Nat)
  | [] => [(first, last)]
  | (low, high) :: rest =>
      if last + 1 < low then (first, last) :: (low, high) :: rest
      else if high + 1 < first then (low, high) :: insertRange first last rest
      else insertRange (min first low) (max last high) rest

/-- The set of all characters in some ranges, which may overlap and come in any order. -/
def ofRanges (ranges : List (Nat × Nat)) : CharClass :=
  ⟨ranges.foldr (fun (first, last) => insertRange first last) []⟩

/-- The set of the listed characters. -/
def ofChars (chars : List Char) : CharClass := ofRanges (chars.map fun c => (c.toNat, c.toNat))

/-- The characters of at least one of the sets. -/
def union (sets : List CharClass) : CharClass := ofRanges (sets.flatMap ranges)

/-- Whether one of the ranges holds a code point. -/
def covers (set : CharClass) (point : Nat) : Bool :=
  set.ranges.any fun (first, last) => decide (first ≤ point) && decide (point ≤ last)

/-- Membership in the set. -/
def contains (set : CharClass) (c : Char) : Bool := set.covers c.toNat

/-- The only character of the set, if there is just one. -/
def only? (set : CharClass) : Option Char :=
  match set.ranges with
  | [(first, last)] => if first = last then some (Char.ofNat first) else none
  | _ => none

/-- The last code point. -/
def lastPoint : Nat := 0x10FFFF

/-- The ranges between ascending ranges, from `start` on. -/
def gaps (start : Nat) : List (Nat × Nat) → List (Nat × Nat)
  | [] => if start ≤ lastPoint then [(start, lastPoint)] else []
  | (low, high) :: rest =>
      if start < low then (start, low - 1) :: gaps (high + 1) rest else gaps (high + 1) rest

/-- The characters outside the set. -/
def complement (set : CharClass) : CharClass := ⟨gaps 0 set.ranges⟩

/-- The set with every character that differs in case only from one of its own. -/
def foldCase (set : CharClass) : CharClass :=
  let forms := (Text.foldPairs.filter fun (c, form) => set.covers c || set.covers form).map (·.2)
  let others := Text.foldPairs.filter fun (_, form) => forms.contains form
  ofRanges (others.flatMap (fun (c, form) => [(c, c), (form, form)]) ++ set.ranges)

end CharClass

end Curried
