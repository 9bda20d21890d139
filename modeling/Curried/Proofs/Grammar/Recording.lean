import Curried.Program
import Curried.Proofs.Grammar.Rules
import Curried.Proofs.Grammar.Trees
import Curried.Proofs.Number.Equality
import Curried.Proofs.Parser.Trace

/-!
# The history of a parse

The history of a parse is an image of the tree that it yields: literals and names are leaves, lists,
groups, bindings and functions are nodes over the histories of their parts, and an application or a
chain of operators is one flat node, however it is folded.  So it says nothing about alternatives
that were tried and given up, and sources with equal trees have equal histories, but for the signs of
zeros: numbers in trees are compared as doubles, and in histories as texts.
-/

namespace Curried

/-- Histories that differ at most in the signs of zeros. -/
inductive History.Agrees : History → History → Prop where
  | node (label : String) {children others : List History} :
      List.Forall₂ Agrees children others → Agrees (.node label children) (.node label others)
  | zero : Agrees (.leaf "number 0") (.leaf "number -0")
  | negativeZero : Agrees (.leaf "number -0") (.leaf "number 0")

namespace Expression

/-- What a part adds to a node: its own node, or the children of that if it is spread. -/
def spread (inside : Bool) (history : History) : List History :=
  if inside then history.children else [history]

mutual

/-- The history of an expression.  An application inside of the function of another one and a chain
inside of another one hand their children to it. -/
def history : Expression → History
  | .number value => .leaf ("number " ++ Number.format value)
  | .string content => .leaf ("string " ++ content)
  | .boolean true => .leaf "keyword true"
  | .boolean false => .leaf "keyword false"
  | .null => .leaf "keyword null"
  | .identifier name => .leaf ("identifier-prefix " ++ name)
  | .operator symbol => .leaf ("identifier-infix " ++ symbol)
  | .list items => .node "list" (histories items)
  | .group inner => .node "group" [inner.history]
  | .letIn _ bound body => .node "let" [bound.history, body.history]
  | .function _ _ body => .node "function" [body.history]
  | .apply (.applyInfix sign left) right =>
      .node "apply-infix"
        (spread left.isBinary left.history ++ sign.history :: spread right.isBinary right.history)
  | .apply callee argument =>
      .node "apply" (spread callee.isApplication callee.history ++ [argument.history])
  | .applyInfix sign operand => .node "apply-infix" [operand.history, sign.history]

/-- The histories of several expressions. -/
def histories : List Expression → List History
  | [] => []
  | item :: items => item.history :: histories items

end

/-- Spreading a node and closing it again under its label gives the node back. -/
theorem node_of_spread {inside : Bool} {history : History} {label : String}
    (labelled : inside = true → history.label = label) :
    (if inside then [.node label (spread inside history)] else spread inside history) =
      [history] := by
  cases inside with
  | false => rfl
  | true =>
      cases history with
      | node text children =>
          obtain rfl : text = label := labelled rfl
          rfl

variable {tree first : Expression}

theorem isBinary_of_single (single : tree.isApplication = false) : tree.isBinary = false := by
  cases tree with
  | apply => cases single
  | _ => rfl

/-! ### Applications -/

/-- Whether an expression is no operator with its left operand. -/
def isWhole : Expression → Bool
  | .applyInfix _ _ => false
  | _ => true

theorem history_apply (whole : first.isWhole = true) (argument : Expression) :
    (apply first argument).history =
      .node "apply" (spread first.isApplication first.history ++ [argument.history]) := by
  cases first with
  | applyInfix => cases whole
  | _ => rfl

/-- Only an operator with its left operand becomes a chain when it is applied. -/
theorem isBinary_apply (callee argument : Expression) :
    (apply callee argument).isBinary = !callee.isWhole := by
  cases callee <;> rfl

/-- An application hands on the nodes of its atoms, from left to right, and it is no chain. -/
theorem spread_foldl_apply (whole : first.isWhole = true) (single : first.isBinary = false)
    (others : List Expression) :
    spread (others.foldl .apply first).isApplication (others.foldl .apply first).history =
        spread first.isApplication first.history ++ others.map history ∧
      (others.foldl .apply first).isBinary = false := by
  induction others generalizing first with
  | nil => exact ⟨(List.append_nil _).symm, single⟩
  | cons other others ih =>
      have unchained : (apply first other).isBinary = false := by rw [isBinary_apply, whole]; rfl
      obtain ⟨spreads, still_single⟩ : _ ∧ _ := @ih (.apply first other) rfl unchained
      refine ⟨?_, still_single⟩
      rw [List.foldl_cons, spreads, history_apply whole]
      simp [spread, isApplication, History.children]

theorem label_of_isApplication (application : tree.isApplication = true)
    (single : tree.isBinary = false) : tree.history.label = "apply" := by
  cases tree with
  | apply callee argument =>
      cases callee with
      | applyInfix => cases single
      | _ => rfl
  | _ => cases application

/-! ### Chains of operators -/

theorem label_of_isBinary (chained : tree.isBinary = true) :
    tree.history.label = "apply-infix" := by
  cases tree with
  | apply callee argument =>
      cases callee with
      | applyInfix => rfl
      | _ => cases chained
  | _ => cases chained

/-- A chain hands on the nodes of its operands and operators, from left to right. -/
theorem spread_fold {links : List (Link Expression)}
    (joins : ∀ link ∈ links, link.joint.build = binary) :
    spread (Link.fold first links).isBinary (Link.fold first links).history =
      spread first.isBinary first.history ++ links.flatMap fun link =>
        [link.operator.history] ++ spread link.operand.isBinary link.operand.history := by
  refine Link.flatten_fold (fun tree : Expression => spread tree.isBinary tree.history)
    (fun link => [link.operator.history]) fun link member left right => ?_
  rw [joins link member]
  simp [binary, isBinary, history, spread, History.children]

/-! ### Histories of equal trees -/

/-- The histories agree, also where the trees are parts of larger ones. -/
structure AgreesWith (tree other : Expression) : Prop where
  history : tree.history.Agrees other.history
  whole : tree.isWhole = other.isWhole
  binary : tree.isBinary = other.isBinary
  /-- Applied to an argument the trees become chains, if they are operators with operands. -/
  applied : ∀ {right right'}, right.history.Agrees right'.history →
    right.isBinary = right'.isBinary →
      (apply tree right).history.Agrees (apply other right').history

theorem agrees_leaf (label : String) : (History.leaf label).Agrees (.leaf label) := .node label .nil

theorem agrees_spread (inside : Bool) {history again : History} (agrees : history.Agrees again) :
    List.Forall₂ History.Agrees (spread inside history) (spread inside again) := by
  cases inside with
  | false => exact .cons agrees .nil
  | true =>
      cases agrees with
      | node _ children => exact children
      | zero => exact .nil
      | negativeZero => exact .nil

variable {other : Expression}

theorem AgreesWith.of_whole (agrees : tree.history.Agrees other.history)
    (whole : tree.isWhole = true) (other_whole : other.isWhole = true)
    (binary : tree.isBinary = other.isBinary)
    (application : tree.isApplication = other.isApplication) : tree.AgreesWith other where
  history := agrees
  whole := whole.trans other_whole.symm
  binary := binary
  applied := by
    intro right right' behind _
    rw [history_apply whole, history_apply other_whole, application]
    exact .node "apply" (List.rel_append (agrees_spread _ agrees) (.cons behind .nil))

/-- All forms of trees hand on what their parts have in common. -/
theorem agreesWith_congruence : Congruence AgreesWith fun items others =>
    List.Forall₂ History.Agrees (histories items) (histories others) where
  number := by
    intro left right equal
    refine .of_whole ?_ rfl rfl rfl rfl
    rw [history, history]
    rcases Number.format_of_beq equal with same | ⟨front, behind⟩ | ⟨front, behind⟩
    · rw [same]
      exact agrees_leaf _
    · rw [front, behind]
      exact .zero
    · rw [front, behind]
      exact .negativeZero
  string _ := .of_whole (agrees_leaf _) rfl rfl rfl rfl
  boolean value := .of_whole (by cases value <;> exact agrees_leaf _) rfl rfl rfl rfl
  null := .of_whole (agrees_leaf _) rfl rfl rfl rfl
  identifier _ := .of_whole (agrees_leaf _) rfl rfl rfl rfl
  operator _ := .of_whole (agrees_leaf _) rfl rfl rfl rfl
  list items := .of_whole (.node "list" items) rfl rfl rfl rfl
  apply callees arguments := .of_whole (callees.applied arguments.history arguments.binary) rfl rfl
    (by rw [isBinary_apply, isBinary_apply, callees.whole]) rfl
  applyInfix := by
    intro sign sign' operand operand' signs operands
    refine ⟨.node "apply-infix" (.cons operands.history (.cons signs.history .nil)), rfl, rfl,
      fun {right right'} behind binary => ?_⟩
    rw [history, history, operands.binary, binary]
    exact .node "apply-infix" (List.rel_append (agrees_spread _ operands.history)
      (.cons signs.history (agrees_spread _ behind)))
  letIn _ _ _ _ _ bounds bodies :=
    .of_whole (.node "let" (.cons bounds.history (.cons bodies.history .nil))) rfl rfl rfl rfl
  function _ _ _ _ bodies := .of_whole (.node "function" (.cons bodies.history .nil)) rfl rfl rfl rfl
  group inners := .of_whole (.node "group" (.cons inners.history .nil)) rfl rfl rfl rfl
  noItems := .nil
  items items others := .cons items.history others

/-- Equal trees have histories that agree. -/
theorem agrees_of_same (same : tree.same other = true) : tree.history.Agrees other.history :=
  (agreesWith_congruence.of_same same).history

end Expression

/-! ### What the rules record -/

namespace Grammar

open Curried.Parser

/-- An expression comes with its history. -/
def Recorded (tree : Expression) (nodes : List History) : Prop := nodes = [tree.history]

/-- An atom comes with its history, and it is neither an application nor a part of a chain. -/
structure RecordedAtom (tree : Expression) (nodes : List History) : Prop where
  nodes : nodes = [tree.history]
  single : tree.isApplication = false
  whole : tree.isWhole = true

/-- An operand comes with its history, and it is no chain. -/
structure RecordedOperand (tree : Expression) (nodes : List History) : Prop where
  nodes : nodes = [tree.history]
  single : tree.isBinary = false

variable {type : Parser TypeExpression} {expression : Parser Expression}

instance (spelling : String) : Silent (symbol spelling) := by unfold symbol; infer_instance

instance (word : String) : Silent (keyword word) := by unfold keyword; infer_instance

instance : Silent whitespace := by
  have blanks : ∀ parser ∈ [token Kind.space, token Kind.lineEnd, token Kind.otherBlank],
      Silent parser := by
    simp only [List.forall_mem_cons]
    exact ⟨inferInstance, inferInstance, inferInstance, by simp⟩
  have any : Silent (choice [token Kind.space, token Kind.lineEnd, token Kind.otherBlank]) :=
    .choice blanks
  unfold whitespace
  infer_instance

instance {α : Type} {parser : Parser α} [Silent parser] : Silent (padded parser) := by
  unfold padded; infer_instance

instance : Silent arrow := by unfold arrow; infer_instance

instance : Silent bareIdentifier := by unfold bareIdentifier; infer_instance

instance : Silent operatorRun := by unfold operatorRun; infer_instance

instance (limit : Option Nat) {α : Type} {parser : Parser α} [Silent parser] :
    Silent (bounded limit parser) := by
  cases limit with
  | none => exact (inferInstance : Silent parser)
  | some limit => exact (inferInstance : Silent (nested limit parser))

instance [Silent type] : Silent (typeAtom type) := by unfold typeAtom; infer_instance

instance [Silent type] : Silent (typeRule type) := by unfold typeRule; infer_instance

/-- Annotations leave no trace. -/
instance (limit : Option Nat) : Silent (typeUpTo limit) :=
  ⟨.recursive fun self leaves =>
    have : Silent self := ⟨leaves⟩
    (inferInstance : Silent (typeRule (bounded limit self))).silent⟩

instance : Silent binding := by unfold binding; infer_instance

instance [Silent type] : Silent (parameterType type) := by unfold parameterType; infer_instance

instance [Silent type] : Silent (head type) := by unfold head; infer_instance

theorem leaves_padded {α : Type} {parser : Parser α} {shows : α → List History → Prop}
    (leaves : Leaves parser shows) : Leaves (padded parser) shows :=
  leaves.keepRight.keepLeft

/-- What is noted about a value is its whole trace if the parser leaves none. -/
theorem leaves_noted {α : Type} {parser : Parser α} [quiet : Silent parser]
    (describe : α → String) :
    Leaves (parser.noted describe) fun value nodes => nodes = [.leaf (describe value)] :=
  (quiet.silent.noted describe).imp fun _ _ ⟨_, nothing, nodes⟩ => by
    rw [nodes, nothing, List.nil_append]

theorem histories_of_showAll {trees : List Expression} {nodes : List History}
    (all : showAll Recorded trees nodes) : nodes = Expression.histories trees := by
  induction trees generalizing nodes with
  | nil => exact all
  | cons tree trees ih =>
      obtain ⟨front, behind, shown, rest, rfl⟩ := all
      rw [ih rest, shown]
      rfl

theorem leaves_number : Leaves number RecordedAtom := by
  have quiet : Silent ((token Kind.number).filterMap finiteNumber? "finite number") :=
    ⟨.filterMap _ ((Leaves.satisfy _ _).imp fun _ _ nothing _ _ => nothing)⟩
  exact .map ((leaves_noted _).imp fun _ _ nodes => ⟨nodes, rfl, rfl⟩)

theorem leaves_string : Leaves string RecordedAtom :=
  .map ((leaves_noted _).imp fun _ _ nodes => ⟨nodes, rfl, rfl⟩)

theorem leaves_constant {word : String} {value : Expression}
    (leaf : RecordedAtom value [.leaf ("keyword " ++ word)]) :
    Leaves (constant word value) RecordedAtom :=
  .map ((leaves_noted _).imp fun _ _ nodes => nodes ▸ leaf)

/-- A node that is opened around the parts of a tree. -/
theorem leaves_recorded {α : Type} {parser : Parser α} {build : α → Expression} {label : String}
    (leaves : Leaves parser fun parts nodes => RecordedAtom (build parts) [.node label nodes]) :
    Leaves (recorded label (parser.map build)) RecordedAtom := by
  have trees : Leaves (parser.map build) fun tree nodes =>
      RecordedAtom tree [.node label nodes] := .map leaves
  refine (trees.recorded label).imp ?_
  rintro tree _ ⟨nodes, shown, rfl⟩
  exact shown

theorem leaves_list (leaves : Leaves expression Recorded) :
    Leaves (listLiteral expression) RecordedAtom := by
  refine leaves_recorded (leaves.list.imp fun trees nodes all => ?_)
  rw [histories_of_showAll all]
  exact ⟨rfl, rfl, rfl⟩

theorem leaves_literal (leaves : Leaves expression Recorded) :
    Leaves (literal expression) RecordedAtom := by
  refine .choice ?_
  simp only [List.forall_mem_cons]
  exact ⟨leaves_number, leaves_string, leaves_constant ⟨rfl, rfl, rfl⟩,
    leaves_constant ⟨rfl, rfl, rfl⟩, leaves_constant ⟨rfl, rfl, rfl⟩, leaves_list leaves, by simp⟩

theorem leaves_group (leaves : Leaves expression Recorded) :
    Leaves (groupExpression expression) RecordedAtom := by
  refine leaves_recorded (leaves.group.imp fun inner nodes shown => ?_)
  rw [shown]
  exact ⟨rfl, rfl, rfl⟩

theorem leaves_let (leaves : Leaves expression Recorded) :
    Leaves (letExpression expression) RecordedAtom := by
  have silent : Silent binding := inferInstance
  have bound : Leaves (binding.pair expression) fun part nodes => nodes = [part.2.history] := by
    refine (silent.silent.pair leaves).imp ?_
    rintro part _ ⟨_, _, rfl, rfl, rfl⟩
    rfl
  have parts : Leaves (letParts expression) fun parts nodes =>
      nodes = [parts.1.2.history, parts.2.history] := by
    refine (bound.keepLeft.pair leaves).imp ?_
    rintro parts _ ⟨_, _, rfl, rfl, rfl⟩
    rfl
  rw [letExpression_eq]
  exact leaves_recorded (parts.imp fun _ _ nodes => nodes ▸ ⟨rfl, rfl, rfl⟩)

theorem leaves_function [Silent type] (leaves : Leaves expression Recorded) :
    Leaves (functionExpression type expression) RecordedAtom := by
  have silent : Silent (head type) := inferInstance
  have parts : Leaves ((head type).pair expression) fun parts nodes =>
      nodes = [parts.2.history] := by
    refine (silent.silent.pair leaves).imp ?_
    rintro parts _ ⟨_, _, rfl, rfl, rfl⟩
    rfl
  rw [functionExpression_eq]
  exact leaves_recorded (parts.imp fun _ _ nodes => nodes ▸ ⟨rfl, rfl, rfl⟩)

theorem leaves_core [Silent type] (leaves : Leaves expression Recorded) :
    Leaves (core type expression) RecordedAtom := by
  have name : Leaves (prefixIdentifier.map Expression.identifier) RecordedAtom :=
    .map ((leaves_noted _).imp fun _ _ nodes => ⟨nodes, rfl, rfl⟩)
  refine .choice ?_
  simp only [List.forall_mem_cons]
  exact ⟨leaves_group leaves, leaves_literal leaves, leaves_let leaves, leaves_function leaves,
    name, by simp⟩

theorem leaves_atom [Silent type] (leaves : Leaves expression Recorded) :
    Leaves (atom type expression) RecordedAtom :=
  leaves_padded (leaves_core leaves)

theorem histories_of_atoms {trees : List Expression} {nodes : List History}
    (all : showAll RecordedAtom trees nodes) : nodes = trees.map Expression.history := by
  induction trees generalizing nodes with
  | nil => exact all
  | cons tree trees ih =>
      obtain ⟨front, behind, shown, rest, rfl⟩ := all
      rw [ih rest, shown.nodes]
      rfl

theorem leaves_application [Silent type] (leaves : Leaves expression Recorded) :
    Leaves (application type expression) RecordedOperand := by
  have atoms : Leaves (((atom type expression).pair (atom type expression).many).map
      fun parts => parts.2.foldl Expression.apply parts.1) fun tree nodes =>
      nodes = Expression.spread tree.isApplication tree.history ∧ tree.isBinary = false := by
    refine .map (((leaves_atom leaves).pair (leaves_atom leaves).many).imp ?_)
    rintro ⟨first, rest⟩ _ ⟨_, behind, ⟨rfl, single, whole⟩, all, rfl⟩
    obtain ⟨spreads, unchained⟩ :=
      Expression.spread_foldl_apply whole (Expression.isBinary_of_single single) rest
    refine ⟨?_, unchained⟩
    rw [spreads, single, histories_of_atoms all]
    rfl
  refine (atoms.recordedWhen "apply" Expression.isApplication).imp ?_
  rintro tree _ ⟨_, ⟨rfl, unchained⟩, rfl⟩
  exact ⟨Expression.node_of_spread fun application =>
    Expression.label_of_isApplication application unchained, unchained⟩

/-- An operator comes with its leaf. -/
def RecordedOperator (part : Joint Expression × Expression) (nodes : List History) : Prop :=
  part.1.build = Expression.binary ∧ nodes = [part.2.history]

theorem leaves_operator : Leaves (operatorOf ([1, 2, 3, 4].map operatorsOf)) RecordedOperator := by
  refine .choice fun parser member => ?_
  rw [List.map_map] at member
  obtain ⟨precedence, _, rfl⟩ := List.mem_map.1 member
  exact .map (.map ((leaves_noted _).imp fun _ _ nodes => ⟨rfl, nodes⟩))

theorem nodes_of_links {links : List (Link Expression)} {nodes : List History}
    (all : showAll (fun link nodes => ∃ sign operand,
      RecordedOperator (link.joint, link.operator) sign ∧ RecordedOperand link.operand operand ∧
        nodes = sign ++ operand) links nodes) :
    (∀ link ∈ links, link.joint.build = Expression.binary) ∧
      nodes = links.flatMap fun link =>
        [link.operator.history] ++ Expression.spread link.operand.isBinary link.operand.history := by
  induction links generalizing nodes with
  | nil => exact ⟨by simp, all⟩
  | cons link links ih =>
      obtain ⟨_, behind, ⟨_, _, ⟨builds, rfl⟩, ⟨rfl, single⟩, rfl⟩, rest, rfl⟩ := all
      obtain ⟨others, rfl⟩ := ih rest
      refine ⟨List.forall_mem_cons.2 ⟨builds, others⟩, ?_⟩
      rw [List.flatMap_cons, single]
      rfl

theorem leaves_chain [Silent type] (leaves : Leaves expression Recorded) :
    Leaves (operatorChain type expression) Recorded := by
  have chain : Leaves (binary (application type expression) ([1, 2, 3, 4].map operatorsOf))
      fun tree nodes => nodes = Expression.spread tree.isBinary tree.history := by
    refine ((leaves_application leaves).binary leaves_operator).imp ?_
    rintro _ _ ⟨first, links, _, behind, rfl, ⟨rfl, single⟩, all, rfl⟩
    obtain ⟨joins, rfl⟩ := nodes_of_links all
    rw [Expression.spread_fold joins, single]
    rfl
  refine (chain.recordedWhen "apply-infix" Expression.isBinary).imp ?_
  rintro tree _ ⟨_, rfl, rfl⟩
  exact Expression.node_of_spread Expression.label_of_isBinary

theorem leaves_expression (limit : Option Nat) : Leaves (expressionUpTo limit) Recorded := by
  refine .recursive fun self leaves => ?_
  have inner : Leaves (bounded limit self) Recorded := by
    cases limit with
    | none => exact leaves
    | some limit => exact leaves.nested limit
  exact (leaves_chain inner).keepRight.keepLeft

theorem leaves_program (limit : Option Nat) : Leaves (programUpTo limit) Recorded :=
  (leaves_expression limit).keepLeft

end Grammar

/-- Only the root is open when a parse ends, and it holds what the parser left. -/
theorem Parser.Leaves.history {α : Type} {parser : Parser α} {shows : α → List History → Prop}
    {turns : Nat} {tokens : List Token} {value : α} {history : History}
    (leaves : Leaves parser shows)
    (parses : parser.parseTokens turns tokens = .ok (value, history)) :
    ∃ nodes, shows value nodes ∧ history = .node "root" nodes := by
  obtain ⟨after, run, rfl⟩ := parseTokens_eq_ok_iff.1 parses
  have ends := leaves turns (.start tokens)
  rw [run] at ends
  obtain ⟨nodes, shown, same⟩ := ends
  refine ⟨nodes, shown, ?_⟩
  rw [same]
  exact Trail.foldl_attach "root" nodes []

/-- The history of a parse is the root over the history of the tree, so every source with an equal
tree has the same history, but for the signs of zeros. -/
theorem history_of_parse {source : String} {tree : Expression} {history : History}
    (parses : parseWithHistory source = .ok (tree, history)) :
    history = .node "root" [tree.history] ∧
      ∀ other tree' again, parseWithHistory other = .ok (tree', again) →
        (tree == tree') = true → history.Agrees again := by
  have image {source : String} {tree : Expression} {history : History}
      (parses : parseWithHistory source = .ok (tree, history)) :
      history = .node "root" [tree.history] := by
    obtain ⟨_, _, parses⟩ := parseWithHistory_eq_ok_iff.1 parses
    obtain ⟨_, rfl, root⟩ := (Grammar.leaves_program (some Grammar.nestingLimit)).history parses
    exact root
  refine ⟨image parses, fun other tree' again parses' equal => ?_⟩
  rw [image parses, image parses']
  exact .node "root" (.cons (Expression.agrees_of_same equal) .nil)

/-- A zero and a negative zero are equal, but the sign of the latter stays in the history. -/
theorem history_ne_of_zeros :
    ¬ ∀ (source other : String) (tree tree' : Expression) (history again : History),
      parseWithHistory source = .ok (tree, history) →
      parseWithHistory other = .ok (tree', again) → (tree == tree') = true → history = again := by
  intro preserves
  have differ : (match parseWithHistory "0", parseWithHistory "-0" with
    | .ok (tree, history), .ok (tree', again) => tree == tree' && history.flat != again.flat
    | _, _ => false) = true := by decide +kernel
  split at differ
  · rename_i tree history tree' again parses parses'
    obtain ⟨equal, different⟩ := Bool.and_eq_true_iff.1 differ
    rw [preserves _ _ _ _ _ _ parses parses' equal] at different
    simp at different
  · cases differ

/-- A chain of an application and a binding, with another chain in a group: white space, alternatives
that were tried and the folding of the chains leave no trace, and neither do longer spellings of
numbers. -/
theorem history_of_parse_chain :
    ∃ tree history tree' again,
      parseWithHistory "f (1*2 + 3)- let x = [] in \\y -> (*) x" = .ok (tree, history) ∧
      parseWithHistory "f(1.0 * 2+3) - let x=[] in\\y->(*) x" = .ok (tree', again) ∧
      history.flat = "root(apply-infix(apply(identifier-prefix f,group(apply-infix(number 1," ++
        "identifier-infix *,number 2,identifier-infix +,number 3))),identifier-infix -,let(list," ++
        "function(apply(identifier-prefix (*),identifier-prefix x)))))" ∧
      history = .node "root" [tree.history] ∧ (tree == tree') = true ∧ history.Agrees again := by
  have checked : (match parseWithHistory "f (1*2 + 3)- let x = [] in \\y -> (*) x",
      parseWithHistory "f(1.0 * 2+3) - let x=[] in\\y->(*) x" with
    | .ok (tree, history), .ok (tree', _) => tree == tree' && history.flat ==
        "root(apply-infix(apply(identifier-prefix f,group(apply-infix(number 1," ++
        "identifier-infix *,number 2,identifier-infix +,number 3))),identifier-infix -,let(list," ++
        "function(apply(identifier-prefix (*),identifier-prefix x)))))"
    | _, _ => false) = true := by decide +kernel
  split at checked
  · rename_i tree history tree' again parses parses'
    obtain ⟨equal, flat⟩ := Bool.and_eq_true_iff.1 checked
    obtain ⟨image, others⟩ := history_of_parse parses
    exact ⟨tree, history, tree', again, parses, parses', beq_iff_eq.1 flat, image, equal,
      others _ _ _ parses' equal⟩
  · cases checked

end Curried
