/-!
# Parse histories

A history is the tree of the grammar rules that a parse went through.  While a parse runs, the
nodes on the way to the current rule are still open; they form a trail from the current rule out
to the root.  A history only reports: no parser looks at it.
-/

namespace Curried

/-- A labelled tree. -/
inductive History where
  /-- A rule and the rules it went through, in order. -/
  | node (label : String) (children : List History)
deriving Inhabited

namespace History

/-- A node without children. -/
def leaf (label : String) : History := .node label []

/-- The label at the root of the tree. -/
def label : History → String
  | .node label _ => label

/-- The subtrees below the root. -/
def children : History → List History
  | .node _ children => children

/-- Add one more subtree behind the others. -/
def attach : History → History → History
  | .node label children, child => .node label (children ++ [child])

/-! ### Rendering -/

mutual

/-- The tree on one line: `label(child,child(grandchild))`. -/
def flat : History → String
  | .node label [] => label
  | .node label (child :: others) => label ++ "(" ++ child.flat ++ flatOthers others ++ ")"

/-- The flat forms of further children, each behind a comma. -/
def flatOthers : List History → String
  | [] => ""
  | child :: others => "," ++ child.flat ++ flatOthers others

end

/-- Children with a longer flat form, in bytes, are spread over lines of their own. -/
def inlineLimit : Nat := 10

/-- The blanks in front of a line at a given depth. -/
def indentation (depth : Nat) : String := String.ofList (List.replicate (2 * depth) ' ')

mutual

/-- The tree over several lines, its root at the given depth. -/
def renderAt : History → Nat → String
  | .node label [], depth => indentation depth ++ label
  | .node label (child :: others), depth =>
      indentation depth ++ label ++ "(\n" ++
        (if child.flat.utf8ByteSize ≤ inlineLimit then indentation (depth + 1) ++ child.flat
          else child.renderAt (depth + 1)) ++
        renderOthers others (depth + 1) ++ "\n" ++ indentation depth ++ ")"

/-- The renderings of further children, each behind a comma and a line end. -/
def renderOthers : List History → Nat → String
  | [], _ => ""
  | child :: others, depth =>
      ",\n" ++
        (if child.flat.utf8ByteSize ≤ inlineLimit then indentation depth ++ child.flat
          else child.renderAt depth) ++
        renderOthers others depth

end

/-- The tree over several lines, two blanks deeper at each level. -/
def render (history : History) : String := history.renderAt 0

end History

/-- The open nodes on the way from the current rule out to the root; there is always one. -/
structure Trail where
  /-- The node of the current rule. -/
  current : History
  /-- The open nodes around it, from the inside out. -/
  enclosing : List History
deriving Inhabited

namespace Trail

/-- The trail at the start of a parse: only the root is open. -/
def root : Trail := ⟨.leaf "root", []⟩

/-- Open a node inside the current one. -/
def enter (trail : Trail) (label : String) : Trail :=
  ⟨.leaf label, trail.current :: trail.enclosing⟩

/-- Close the current node and attach it to the one around it.  The root stays open. -/
def leave : Trail → Trail
  | ⟨current, parent :: outer⟩ => ⟨parent.attach current, outer⟩
  | trail => trail

/-- Close the current node and hand its children to the one around it.  The root stays open. -/
def leaveSpliced : Trail → Trail
  | ⟨current, parent :: outer⟩ => ⟨current.children.foldl History.attach parent, outer⟩
  | trail => trail

/-- Record a leaf under the current node. -/
def note (trail : Trail) (label : String) : Trail :=
  { trail with current := trail.current.attach (.leaf label) }

/-- The whole tree, as if every open node were closed now. -/
def history (trail : Trail) : History :=
  trail.enclosing.foldl (fun child parent => parent.attach child) trail.current

end Trail

end Curried
