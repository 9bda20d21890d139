import Curried.CharClass

/-!
# Patterns

A small regular expression language for token rules: words and classes, sequence, choice,
repetition, groups and the two anchors.  Patterns are put together by `concat`, `anyOf` and
`repeated`, which keep them in a normal form: sequences and choices are flat lists that lean to
the right, words that meet are one word, a choice between characters is a class, and what all
branches of a choice begin with stands in front of the choice.
-/

namespace Curried

/-- A regular expression. -/
inductive Pattern where
  /-- Matches the empty text. -/
  | empty
  /-- Matches these characters. -/
  | word (chars : List Char)
  /-- Matches one character of a class. -/
  | one (set : CharClass)
  /-- Matches before the first character. -/
  | atStart
  /-- Matches behind the last character. -/
  | atEnd
  /-- Matches what the body matches and captures it. -/
  | group (number : Nat) (body : Pattern)
  /-- Matches one text after the other. -/
  | sequence (first second : Pattern)
  /-- Matches either text, the first one by preference. -/
  | either (first second : Pattern)
  /-- Matches the body at least `least` and at most `most` times: as often as possible when
  `greedy`, as seldom as possible otherwise. -/
  | repetition (body : Pattern) (least : Nat) (most : Option Nat) (greedy : Bool)
deriving DecidableEq

namespace Pattern

/-- Whether the pattern can match the empty text. -/
def matchesEmpty : Pattern → Bool
  | .empty | .atStart | .atEnd => true
  | .word _ | .one _ => false
  | .group _ body => body.matchesEmpty
  | .sequence first second => first.matchesEmpty && second.matchesEmpty
  | .either first second => first.matchesEmpty || second.matchesEmpty
  | .repetition body least _ _ => decide (least = 0) || body.matchesEmpty

/-- Whether the pattern takes no character in any way to match. -/
def takesNothing : Pattern → Bool
  | .empty | .atStart | .atEnd => true
  | .word _ | .one _ => false
  | .group _ body => body.takesNothing
  | .sequence first second => first.takesNothing && second.takesNothing
  | .either first second => first.takesNothing && second.takesNothing
  | .repetition body _ _ _ => body.takesNothing

/-- One character of a set.  The only character of a set is a word. -/
def ofSet (set : CharClass) : Pattern :=
  match set.only? with
  | some c => .word [c]
  | none => .one set

/-! ## Sequences -/

/-- The parts of a sequence, in order. -/
def parts : Pattern → List Pattern
  | .empty => []
  | .sequence first second => first :: second.parts
  | part => [part]

/-- Put a part before others.  Two words that meet become one. -/
def consPart : Pattern → List Pattern → List Pattern
  | .word front, .word back :: rest => .word (front ++ back) :: rest
  | part, rest => part :: rest

/-- The sequence with the given parts. -/
def ofParts : List Pattern → Pattern
  | [] => .empty
  | [part] => part
  | part :: rest => .sequence part (ofParts rest)

/-- The patterns one after the other. -/
def concat (patterns : List Pattern) : Pattern :=
  ofParts ((patterns.flatMap parts).foldr consPart [])

/-! ## Choices -/

/-- The branches of a choice, in order of preference. -/
def branches : Pattern → List Pattern
  | .either first second => first :: second.branches
  | branch => [branch]

/-- The choice between the given branches. -/
def ofBranches : List Pattern → Pattern
  | [] => .empty
  | [branch] => branch
  | branch :: rest => .either branch (ofBranches rest)

/-- The character of a word that has just one. -/
def char? : Pattern → Option Char
  | .word [c] => some c
  | _ => none

/-- The set of a class. -/
def set? : Pattern → Option CharClass
  | .one set => some set
  | _ => none

/-- Branches as one class: if all of them are single characters, or all of them are classes. -/
def merged? (branches : List Pattern) : Option CharClass :=
  match branches.mapM char? with
  | some chars => some (.ofChars chars)
  | none => (branches.mapM set?).map .union

/-- The first of the patterns that matches, as a class if possible. -/
def choice (patterns : List Pattern) : Pattern :=
  let all := patterns.flatMap branches
  match merged? all with
  | some set => ofSet set
  | none => ofBranches all

/-- What two lists both begin with. -/
def sharedFront : List Pattern → List Pattern → List Pattern
  | first :: rest, other :: others =>
      if first = other then first :: sharedFront rest others else []
  | _, _ => []

/-- What all lists begin with. -/
def commonFront : List (List Pattern) → List Pattern
  | [] => []
  | [list] => list
  | list :: others => sharedFront list (commonFront others)

/-- Whether the pattern is a sequence of at least two parts. -/
def isSequence : Pattern → Bool
  | .sequence _ _ => true
  | _ => false

/-- The first of the patterns that matches.  If all branches are sequences, what they all begin
with is matched once, before the choice is made. -/
def anyOf (patterns : List Pattern) : Pattern :=
  let all := patterns.flatMap branches
  let front := if all.all isSequence then commonFront (all.map parts) else []
  if front.isEmpty then choice patterns
  else concat (front ++ [choice (all.map fun branch => concat (branch.parts.drop front.length))])

/-! ## Repetitions -/

/-- The pattern repeated.  A second round of what takes no character changes nothing, so such a
pattern is matched at most once. -/
def repeated (body : Pattern) (least : Nat) (most : Option Nat) (greedy : Bool) : Pattern :=
  let least := if body.takesNothing then min least 1 else least
  let most := if body.takesNothing then some (min (most.getD 1) 1) else most
  if most = some 0 then .empty
  else if least = 1 ∧ most = some 1 then body
  else .repetition body least most greedy

end Pattern

end Curried
