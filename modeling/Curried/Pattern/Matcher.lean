import Curried.Lexer
import Curried.Pattern.Automaton

/-!
# Matching a pattern at the front of a text

The threads of an automaton read a text together, one character after the other.  They stand in
order of preference, and a node that two threads reach at the same place is left to the first of
them, so no more threads are kept than there are nodes.  A thread that reaches the end of the
pattern is a match; the threads behind it, which are less preferred, go no further.
-/

namespace Curried

/-- A way through an automaton. -/
structure Thread where
  /-- Number of the node that is reached. -/
  node : Nat
  /-- Where the captured text begins, if its group is being matched. -/
  mark : Nat
  /-- Start and end of the part that was captured last. -/
  capture : Option (Nat × Nat)

/-- A match: the number of characters and the captured part. -/
structure Match where
  /-- Number of characters. -/
  length : Nat
  /-- Start and end of the captured part. -/
  capture : Option (Nat × Nat)

namespace Node

/-- Where the node lets a thread go without a character, in order of preference, with `consumed`
characters behind it and perhaps none ahead. -/
def passed (thread : Thread) (consumed : Nat) (atEnd : Bool) : Node → List Thread
  | .accept | .take _ _ => []
  | .pass next => [{ thread with node := next }]
  | .fork first second => [{ thread with node := first }, { thread with node := second }]
  | .atStart next => if consumed = 0 then [{ thread with node := next }] else []
  | .atEnd next => if atEnd then [{ thread with node := next }] else []
  | .opening next => [{ thread with node := next, mark := consumed }]
  | .closing next => [{ thread with node := next, capture := some (thread.mark, consumed) }]

/-- Whether the node accepts. -/
def accepts : Node → Bool
  | .accept => true
  | _ => false

/-- Where the node lets a thread go with the character `c`. -/
def taken? (thread : Thread) (c : Char) : Node → Option Thread
  | .take set next => if set.contains c then some { thread with node := next } else none
  | _ => none

end Node

namespace Automaton

/-- A node that is reached is no longer among those still to reach. -/
theorem count_fresh_lt {fresh : Array Bool} {number : Nat}
    (unreached : fresh[number]? = some true) :
    (fresh.setIfInBounds number false).count true < fresh.count true := by
  obtain ⟨inside, value⟩ := Array.getElem?_eq_some_iff.mp unreached
  have some_left : 0 < fresh.count true :=
    Array.count_pos_iff.mpr (value ▸ Array.getElem_mem inside)
  rw [Array.setIfInBounds_def, dif_pos inside, Array.count_set, value]
  exact Nat.sub_lt some_left Nat.one_pos

/-- The threads that go no further without a character, after all others have gone as far as they
can.  The nodes marked in `fresh` have not been reached yet, and each of them is left once. -/
def settle (automaton : Automaton) (consumed : Nat) (atEnd : Bool) (fresh : Array Bool)
    (settled : List (Thread × Node)) : List Thread → List (Thread × Node)
  | [] => settled.reverse
  | thread :: pending =>
      if _ : fresh[thread.node]? = some true then
        let others := fresh.setIfInBounds thread.node false
        match automaton.nodes[thread.node]? with
        | none => automaton.settle consumed atEnd others settled pending
        | some node =>
            match node.passed thread consumed atEnd with
            | [] => automaton.settle consumed atEnd others ((thread, node) :: settled) pending
            | further => automaton.settle consumed atEnd others settled (further ++ pending)
      else automaton.settle consumed atEnd fresh settled pending
termination_by pending => (fresh.count true, pending.length)
decreasing_by
  all_goals first
    | exact Prod.Lex.left _ _ (count_fresh_lt ‹_›)
    | exact Prod.Lex.right _ (Nat.lt_succ_self _)

/-- The best match after `consumed` characters have been read: one that is found later comes from
a thread that is preferred to the one found before. -/
def scan (automaton : Automaton) : List Char → Nat → List Thread → Option Match → Option Match
  | text, consumed, threads, best =>
      let fresh := Array.replicate automaton.nodes.size true
      let settled := automaton.settle consumed text.isEmpty fresh [] threads
      let ahead := settled.takeWhile fun (_, node) => !node.accepts
      let best := match settled.find? fun (_, node) => node.accepts with
        | some (thread, _) => some ⟨consumed, thread.capture⟩
        | none => best
      match text with
      | [] => best
      | c :: rest =>
          match ahead.filterMap fun (thread, node) => node.taken? thread c with
          | [] => best
          | threads => automaton.scan rest (consumed + 1) threads best

/-- Match the pattern of the automaton at the front of a text. -/
def recognise (automaton : Automaton) (text : List Char) : Option Span :=
  (automaton.scan text 0 [⟨0, 0, none⟩] none).map fun found =>
    { length := found.length
      capture := found.capture.map fun (first, stop) => (text.drop first).take (stop - first) }

end Automaton

end Curried
