import Curried.Number.Reader
import Curried.Pattern.Matcher
import Curried.Text.Blank

/-!
# Reading patterns

A pattern text is first cut into pieces, then the pieces are put together.  An open group is a
frame that collects the branches and the sequence read so far; its closing piece turns the frame
into one item of the frame around it.
-/

namespace Curried.Pattern

/-- A piece of a pattern text. -/
inductive Piece where
  /-- One character in the ranges of code points, or one outside them if `negated`, written at
  this depth of nesting. -/
  | set (ranges : List (Nat × Nat)) (negated : Bool) (depth : Nat)
  /-- The anchor at the start. -/
  | atStart
  /-- The anchor at the end. -/
  | atEnd
  /-- The opening of a group. -/
  | opening (captures : Bool)
  /-- The end of a group. -/
  | closing
  /-- The mark between two branches. -/
  | branch
  /-- A repetition of the item before it. -/
  | repetition (least : Nat) (most : Option Nat) (greedy : Bool)
  /-- From here on letters stand for their other case too. -/
  | foldCase

/-- The piece for a single character. -/
def Piece.char (c : Char) : Piece := .set [(c.toNat, c.toNat)] false 0

/-- The character that a backslash and `c` stand for. -/
def unescape (c : Char) : Option Char :=
  if c = 'n' then some '\n'
  else if c = 'r' then some '\r'
  else if c = 't' then some '\t'
  else if c = 'a' then some '\x07'
  else if c = 'v' then some '\x0b'
  else if c = 'f' then some '\x0c'
  else if c.isAlphanum || c == '<' || c == '>' || decide (128 ≤ c.toNat) then none
  else some c

/-! ## Classes -/

/-- One character inside a class, escaped or not. -/
def classChar : List Char → Option (Char × List Char)
  | '\\' :: c :: rest => (unescape c).map (·, rest)
  | '\\' :: [] => none
  | c :: rest => some (c, rest)
  | [] => none

/-- The last character of the range that begins with `first`.  Without a minus behind it, or with
one directly before the closing bracket or another minus, `first` stands alone. -/
def rangeEnd (first : Char) : List Char → Option (Char × List Char)
  | '-' :: ']' :: rest => some (first, '-' :: ']' :: rest)
  | '-' :: '-' :: rest => some (first, '-' :: '-' :: rest)
  | '-' :: rest => classChar rest
  | rest => some (first, rest)

/-- The ranges of a class up to its closing bracket.  Classes inside it and operations on classes
are not part of the language. -/
def classRanges : Nat → List Char → Option (List (Nat × Nat) × List Char)
  | 0, _ => none
  | _, ']' :: rest => some ([], rest)
  | _, '[' :: _ | _, '&' :: '&' :: _ | _, '-' :: '-' :: _ | _, '~' :: '~' :: _ => none
  | fuel + 1, text => do
      let (first, rest) ← classChar text
      let (last, rest) ← rangeEnd first rest
      if last < first then none
      else
        let (ranges, rest) ← classRanges fuel rest
        some ((first.toNat, last.toNat) :: ranges, rest)

/-- The class behind an opening bracket.  Minuses directly behind the opening stand for themselves,
and so does a closing bracket there. -/
def classPiece (text : List Char) : Option (Piece × List Char) :=
  let negated := text.head? == some '^'
  let body := if negated then text.tail else text
  let dashes := body.takeWhile (· == '-')
  let (front, rest) := match body with
    | ']' :: rest => ([']'], rest)
    | _ => (dashes, body.drop dashes.length)
  (classRanges (rest.length + 1) rest).map fun (ranges, rest) =>
    let ranges := front.map (fun c => (c.toNat, c.toNat)) ++ ranges
    (.set ranges negated (if ranges.length = 1 then 1 else 2), rest)

/-! ## Repetitions -/

/-- Largest count of a repetition. -/
def countLimit : Nat := 0xFFFFFFFF

/-- A count at the front of a text, with white space around it. -/
def count? (text : List Char) : Option (Nat × List Char) :=
  let text := text.dropWhile Text.isBlank
  let digits := text.takeWhile Char.isDigit
  let count := Number.ofDigits digits
  if digits.isEmpty || decide (countLimit < count) then none
  else some (count, (text.drop digits.length).dropWhile Text.isBlank)

/-- The bounds behind an opening brace: `m`, `m,` or `m,n`. -/
def bounds (text : List Char) : Option ((Nat × Option Nat) × List Char) := do
  let (least, rest) ← count? text
  match rest with
  | '\x7d' :: rest => some ((least, some least), rest)
  | ',' :: '\x7d' :: rest => some ((least, none), rest)
  | ',' :: rest =>
      let (most, rest) ← count? rest
      match rest with
      | '\x7d' :: rest => if most < least then none else some ((least, some most), rest)
      | _ => none
  | _ => none

/-- A repetition and the rest of the text: a question mark behind it makes it lazy. -/
def repetitionPiece (least : Nat) (most : Option Nat) (rest : List Char) : Piece × List Char :=
  match rest with
  | '?' :: rest => (.repetition least most false, rest)
  | rest => (.repetition least most true, rest)

/-! ## The whole pattern -/

/-- The first piece of a pattern text. -/
def piece : List Char → Option (Piece × List Char)
  | [] => none
  | '^' :: rest => some (.atStart, rest)
  | '$' :: rest => some (.atEnd, rest)
  | '(' :: '?' :: ':' :: rest => some (.opening false, rest)
  | '(' :: '?' :: 'i' :: ')' :: rest => some (.foldCase, rest)
  | '(' :: '?' :: _ => none
  | '(' :: rest => some (.opening true, rest)
  | ')' :: rest => some (.closing, rest)
  | '|' :: rest => some (.branch, rest)
  | '*' :: rest => some (repetitionPiece 0 none rest)
  | '+' :: rest => some (repetitionPiece 1 none rest)
  | '?' :: rest => some (repetitionPiece 0 (some 1) rest)
  | '\x7b' :: rest => (bounds rest).map fun ((least, most), rest) => repetitionPiece least most rest
  | '.' :: rest => some (.set [('\n'.toNat, '\n'.toNat)] true 0, rest)
  | '[' :: rest => classPiece rest
  | '\\' :: c :: rest => (unescape c).map fun c => (.char c, rest)
  | '\\' :: [] => none
  | c :: rest => some (.char c, rest)

/-- All pieces of a pattern text; each takes at least one character. -/
def pieces : Nat → List Char → Option (List Piece)
  | _, [] => some []
  | 0, _ :: _ => none
  | fuel + 1, text => do
      let (first, rest) ← piece text
      let others ← pieces fuel rest
      some (first :: others)

/-- The pattern for one character. -/
def character (ranges : List (Nat × Nat)) (foldsCase negated : Bool) : Pattern :=
  let set := CharClass.ofRanges ranges
  let set := if foldsCase then set.foldCase else set
  ofSet (if negated then set.complement else set)

/-- A part of a pattern that has been read. -/
structure Item where
  /-- The pattern of the part.  A change of case folding has none: it cannot be repeated. -/
  pattern : Option Pattern
  /-- How many levels are nested inside the part. -/
  depth : Nat

/-- The depth of what is made of parts.  A single part is not nested any deeper. -/
def Item.depthOfAll : List Item → Nat
  | [] => 0
  | [item] => item.depth
  | items => (items.map depth).foldl max 0 + 1

/-- A group that is being read. -/
structure Frame where
  /-- Number of the group, if it captures. -/
  number : Option Nat
  /-- Whether letters stand for their other case too. -/
  foldsCase : Bool
  /-- The finished branches, the last one first. -/
  branches : List Item
  /-- The items of the current branch, the last one first. -/
  items : List Item

namespace Frame

/-- A frame without content. -/
def opened (number : Option Nat) (foldsCase : Bool) : Frame := ⟨number, foldsCase, [], []⟩

/-- Add an item to the current branch. -/
def push (frame : Frame) (pattern : Option Pattern) (depth : Nat) : Frame :=
  { frame with items := ⟨pattern, depth⟩ :: frame.items }

/-- The branches with the current one, the last one first. -/
def allBranches (frame : Frame) : List Item :=
  ⟨some (concat (frame.items.reverse.filterMap Item.pattern)), Item.depthOfAll frame.items⟩ ::
    frame.branches

/-- Everything read in the frame as one pattern. -/
def pattern (frame : Frame) : Pattern :=
  match frame.allBranches.filterMap Item.pattern with
  | [branch] => branch
  | branches => anyOf branches.reverse

/-- The depth of everything read in the frame. -/
def depth (frame : Frame) : Nat := Item.depthOfAll frame.allBranches

/-- The group that the frame is when it ends. -/
def closed (frame : Frame) : Pattern :=
  match frame.number with
  | some number => .group number frame.pattern
  | none => frame.pattern

end Frame

/-- Largest depth of nesting in a pattern. -/
def depthLimit : Nat := 250

/-- Put pieces together: `outer` holds the frames around `frame`, and `groups` is the number of
the last capturing group. -/
def assemble : List Piece → Frame → List Frame → Nat → Option Pattern
  | [], frame, [], _ => if frame.depth ≤ depthLimit then some frame.pattern else none
  | [], _, _ :: _, _ => none
  | .set ranges negated depth :: rest, frame, outer, groups =>
      assemble rest (frame.push (character ranges frame.foldsCase negated) depth) outer groups
  | .atStart :: rest, frame, outer, groups =>
      assemble rest (frame.push (some .atStart) 0) outer groups
  | .atEnd :: rest, frame, outer, groups =>
      assemble rest (frame.push (some .atEnd) 0) outer groups
  | .foldCase :: rest, frame, outer, groups =>
      assemble rest ({ frame with foldsCase := true }.push none 0) outer groups
  | .opening captures :: rest, frame, outer, groups =>
      let number := if captures then some (groups + 1) else none
      assemble rest (.opened number frame.foldsCase) (frame :: outer)
        (if captures then groups + 1 else groups)
  | .closing :: _, _, [], _ => none
  | .closing :: rest, frame, parent :: outer, groups =>
      assemble rest (parent.push frame.closed (frame.depth + 1)) outer groups
  | .branch :: rest, frame, outer, groups =>
      assemble rest { frame with branches := frame.allBranches, items := [] } outer groups
  | .repetition least most greedy :: rest, frame, outer, groups =>
      match frame.items with
      | ⟨some item, depth⟩ :: items =>
          assemble rest
            ({ frame with items := items }.push (item.repeated least most greedy) (depth + 1))
            outer groups
      | _ => none

/-- Read a pattern.  The text stands in a group of its own behind an anchor, so every match
begins at the front. -/
def read? (text : String) : Option Pattern := do
  let anchored := "^(?:".toList ++ text.toList ++ [')']
  let pieces ← pieces anchored.length anchored
  assemble pieces (.opened none false) [] 0

end Curried.Pattern

namespace Curried.Rule

/-- The rule of a pattern text; the error names the rule. -/
def ofPattern (kind pattern : String) (coerce : Option (String → TokenValue)) :
    Except LexError Rule :=
  match (Pattern.read? pattern).bind Automaton.ofPattern? with
  | some automaton => .ok ⟨kind, automaton.recognise, coerce⟩
  | none => .error (.invalidRule kind)

end Curried.Rule
