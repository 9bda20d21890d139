import Curried.Pattern

/-!
# Automata of patterns

A pattern becomes a list of numbered nodes.  Threads walk along the nodes: a node lets a thread
pass without a character, waits for a character, or accepts.  A fork puts the two ways to go on
into an order of preference.

A fragment is the part of an automaton that belongs to a part of the pattern.  Its first node is
where it is entered; where it leads in the end is known only when it is laid.
-/

namespace Curried

/-- A node of an automaton; the numbers in it are those of the nodes to go to. -/
inductive Node where
  /-- The end of a match. -/
  | accept
  /-- Takes one character of the set. -/
  | take (set : CharClass) (next : Nat)
  /-- Passes on. -/
  | pass (next : Nat)
  /-- Passes on to both nodes, the first one by preference. -/
  | fork (first second : Nat)
  /-- Passes on before the first character. -/
  | atStart (next : Nat)
  /-- Passes on behind the last character. -/
  | atEnd (next : Nat)
  /-- Passes on and marks where a captured text begins. -/
  | opening (next : Nat)
  /-- Passes on and captures the text since the mark. -/
  | closing (next : Nat)

/-- The fork between a round of a repetition and what follows: the round comes first when
`greedy`. -/
def Node.round (greedy : Bool) (inside outside : Nat) : Node :=
  if greedy then .fork inside outside else .fork outside inside

/-- A part of an automaton. -/
structure Fragment where
  /-- Number of nodes. -/
  size : Nat
  /-- The nodes, if the first one has the number `start` and what follows begins at `next`. -/
  nodes (start next : Nat) : List Node
  /-- The size does not depend on the place. -/
  length_nodes (start next : Nat) : (nodes start next).length = size

namespace Fragment

/-- A single node. -/
def single (node : Nat → Node) : Fragment where
  size := 1
  nodes _ next := [node next]
  length_nodes _ _ := rfl

/-- One fragment after the other. -/
def append (first second : Fragment) : Fragment where
  size := first.size + second.size
  nodes start next :=
    first.nodes start (start + first.size) ++ second.nodes (start + first.size) next
  length_nodes start next := by simp [first.length_nodes, second.length_nodes]

instance : Append Fragment := ⟨append⟩

/-- Either fragment, the first one by preference. -/
def either (first second : Fragment) : Fragment where
  size := first.size + second.size + 1
  nodes start next :=
    .fork (start + 1) (start + 1 + first.size) ::
      (first.nodes (start + 1) next ++ second.nodes (start + 1 + first.size) next)
  length_nodes start next := by simp [first.length_nodes, second.length_nodes]

/-- The fragment once or not at all. -/
def optional (greedy : Bool) (body : Fragment) : Fragment where
  size := body.size + 1
  nodes start next := .round greedy (start + 1) next :: body.nodes (start + 1) next
  length_nodes start next := by simp [body.length_nodes]

/-- The fragment once or more. -/
def oneOrMore (greedy : Bool) (body : Fragment) : Fragment where
  size := body.size + 1
  nodes start next :=
    body.nodes start (start + body.size) ++ [.round greedy start next]
  length_nodes start next := by simp [body.length_nodes]

/-- A fragment that takes at least one character, any number of times. -/
def zeroOrMore (greedy : Bool) (body : Fragment) : Fragment where
  size := body.size + 1
  nodes start next := .round greedy (start + 1) next :: body.nodes (start + 1) start
  length_nodes start next := by simp [body.length_nodes]

/-- The nodes of a fragment laid `count` times, one behind the other. -/
def copies (body : Fragment) : Nat → Nat → List Node
  | 0, _ => []
  | count + 1, start =>
      body.nodes start (start + body.size) ++ copies body count (start + body.size)

theorem length_copies (body : Fragment) (count start : Nat) :
    (body.copies count start).length = count * body.size := by
  induction count generalizing start with
  | zero => simp [copies]
  | succ count rest => simp [copies, rest, body.length_nodes, Nat.succ_mul, Nat.add_comm]

/-- The fragment exactly `count` times. -/
def times (body : Fragment) (count : Nat) : Fragment where
  size := count * body.size + 1
  nodes start next := body.copies count start ++ [.pass next]
  length_nodes start next := by simp [body.length_copies]

/-- The nodes of a fragment laid `count` times, each time behind a fork that may end the rounds. -/
def optionalCopies (greedy : Bool) (body : Fragment) (next : Nat) : Nat → Nat → List Node
  | 0, _ => []
  | count + 1, start =>
      .round greedy (start + 1) next ::
        (body.nodes (start + 1) (start + 1 + body.size) ++
          optionalCopies greedy body next count (start + 1 + body.size))

theorem length_optionalCopies (greedy : Bool) (body : Fragment) (next count start : Nat) :
    (body.optionalCopies greedy next count start).length = count * (body.size + 1) := by
  induction count generalizing start with
  | zero => simp [optionalCopies]
  | succ count rest =>
      simp only [optionalCopies, List.length_cons, List.length_append, rest, body.length_nodes,
        Nat.succ_mul]
      omega

/-- The fragment up to `count` times. -/
def upTo (greedy : Bool) (body : Fragment) (count : Nat) : Fragment where
  size := count * (body.size + 1) + 1
  nodes start next := body.optionalCopies greedy next count start ++ [.pass next]
  length_nodes start next := by simp [body.length_optionalCopies]

/-- The characters of a word, one by one. -/
def word : List Char → Fragment
  | [] => single .pass
  | [c] => single (.take (.ofChars [c]))
  | c :: rest => single (.take (.ofChars [c])) ++ word rest

end Fragment

namespace Pattern

/-- The fragment of a repetition.  A body that can match the empty text is entered through a loop
of its own, so that the first round comes before the choice to stop. -/
def repetitionFragment (body : Fragment) (matchesEmpty greedy : Bool) :
    Nat → Option Nat → Fragment
  | 0, none =>
      if matchesEmpty then .optional greedy (.oneOrMore greedy body) else .zeroOrMore greedy body
  | 0, some most => .upTo greedy body most
  | 1, none => .oneOrMore greedy body
  | least + 2, none => body.times (least + 1) ++ .oneOrMore greedy body
  | least + 1, some most =>
      if most = least + 1 then body.times most
      else body.times (least + 1) ++ .upTo greedy body (most - (least + 1))

/-- The fragment of a pattern.  Only the first group is captured. -/
def fragment : Pattern → Fragment
  | .empty => .single .pass
  | .word chars => .word chars
  | .one set => .single (.take set)
  | .atStart => .single .atStart
  | .atEnd => .single .atEnd
  | .group number body =>
      if number = 1 then .single .opening ++ body.fragment ++ .single .closing else body.fragment
  | .sequence first second => first.fragment ++ second.fragment
  | .either first second => .either first.fragment second.fragment
  | .repetition body least most greedy =>
      repetitionFragment body.fragment body.matchesEmpty greedy least most

end Pattern

/-- An automaton: its nodes by number, beginning with the one where a match starts. -/
structure Automaton where
  /-- The nodes. -/
  nodes : Array Node

namespace Automaton

/-- Largest number of nodes of an automaton. -/
def sizeLimit : Nat := 327680

/-- The automaton of a pattern, if it is not too large. -/
def ofPattern? (pattern : Pattern) : Option Automaton :=
  let fragment := pattern.fragment
  if fragment.size < sizeLimit then
    some ⟨(fragment.nodes 0 fragment.size ++ [Node.accept]).toArray⟩
  else none

end Automaton

end Curried
