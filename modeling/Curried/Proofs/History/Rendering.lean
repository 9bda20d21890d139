import Curried.History

/-!
# Histories on one line and on several

A history that is rendered over several lines is its flat form with line ends put in, and blanks
behind each of them.  Whether a child is kept on one line or spread over several makes no
difference: joined again, both are its flat form.
-/

namespace Curried

variable {text tail : List Char}

/-! ### Joining lines -/

/-- Characters without line ends and without the blanks that directly follow one. -/
def joined : List Char → List Char
  | [] => []
  | c :: rest =>
      if c = '\n' then joined (rest.dropWhile (· == ' ')) else c :: joined rest
termination_by text => text.length
decreasing_by
  · exact Nat.lt_succ_of_le (List.dropWhile_suffix _).length_le
  · exact Nat.lt_succ_self _

/-- A text without its line ends and the blanks that directly follow one. -/
def joinLines (text : String) : String := String.ofList (joined text.toList)

/-- The characters do not start with a blank. -/
def Flush (text : List Char) : Prop := text.head? ≠ some ' '

instance (text : List Char) : Decidable (Flush text) :=
  inferInstanceAs (Decidable (text.head? ≠ some ' '))

theorem flush_nil : Flush [] := nofun

theorem flush_cons {c : Char} (visible : c ≠ ' ') : Flush (c :: text) :=
  fun starts => visible (Option.some.inj starts)

theorem Flush.append (front : Flush text) (behind : Flush tail) : Flush (text ++ tail) := by
  cases text with
  | nil => exact behind
  | cons => exact front

theorem Flush.dropWhile_eq (flush : Flush text) : text.dropWhile (· == ' ') = text := by
  cases text with
  | nil => rfl
  | cons c rest =>
      refine List.dropWhile_cons_of_neg fun blank => flush ?_
      rw [List.head?_cons, beq_iff_eq.1 blank]

theorem joined_nil : joined [] = [] := by rw [joined]

/-- A line end goes, with the indentation of the line behind it. -/
theorem joined_indentation (flush : Flush text) (depth : Nat) :
    joined ('\n' :: ((History.indentation depth).toList ++ text)) = joined text := by
  have blanks : ∀ c ∈ List.replicate (2 * depth) ' ', (c == ' ') = true :=
    fun c member => beq_iff_eq.2 (List.eq_of_mem_replicate member)
  rw [joined, if_pos rfl, History.indentation, String.toList_ofList,
    List.dropWhile_append_of_pos blanks, flush.dropWhile_eq]

/-- A text without line ends stays as it is. -/
theorem joined_append (single : '\n' ∉ text) (tail : List Char) :
    joined (text ++ tail) = text ++ joined tail := by
  induction text with
  | nil => rfl
  | cons c rest ih =>
      rw [List.mem_cons, not_or] at single
      rw [List.cons_append, joined, if_neg (Ne.symm single.1), ih single.2, List.cons_append]

theorem joined_cons {c : Char} (visible : c ≠ '\n') (tail : List Char) :
    joined (c :: tail) = c :: joined tail := by
  rw [joined, if_neg visible]

namespace History

variable {label : String} {children others : List History} {history child : History}

/-! ### Labels on one line -/

/-- No label of the tree holds a line end or starts with a blank. -/
inductive Plain : History → Prop where
  | node {label : String} {children : List History} :
      '\n' ∉ label.toList → Flush label.toList → (∀ child ∈ children, child.Plain) →
        Plain (.node label children)

theorem toList_flat_cons (label : String) (child : History) (others : List History) :
    (node label (child :: others)).flat.toList =
      label.toList ++ '(' :: (child.flat.toList ++ ((flatOthers others).toList ++ [')'])) := by
  rw [flat]
  simp

theorem toList_flatOthers_cons (child : History) (others : List History) :
    (flatOthers (child :: others)).toList =
      ',' :: (child.flat.toList ++ (flatOthers others).toList) := by
  rw [flatOthers]
  simp

theorem single_flatOthers (single : ∀ child ∈ others, '\n' ∉ child.flat.toList) :
    '\n' ∉ (flatOthers others).toList := by
  induction others with
  | nil => exact List.not_mem_nil
  | cons child others ih =>
      obtain ⟨first, rest⟩ := List.forall_mem_cons.1 single
      rw [toList_flatOthers_cons, List.mem_cons, List.mem_append]
      rintro (comma | member | member)
      · cases comma
      · exact first member
      · exact ih rest member

/-- The flat form has no line ends. -/
theorem Plain.single (plain : history.Plain) : '\n' ∉ history.flat.toList := by
  induction plain with
  | @node label children single _ _ ih =>
      cases children with
      | nil => exact single
      | cons child others =>
          obtain ⟨first, rest⟩ := List.forall_mem_cons.1 ih
          have behind := single_flatOthers rest
          rw [toList_flat_cons]
          simp [single, first, behind]

theorem Plain.flush (plain : history.Plain) : Flush history.flat.toList := by
  cases plain with
  | @node label children _ flush _ =>
      cases children with
      | nil => exact flush
      | cons child others =>
          rw [toList_flat_cons]
          exact flush.append (flush_cons (by decide))

/-! ### Children on one line and on several -/

/-- The lines of a child: its flat form, if that is short. -/
def entry (child : History) (depth : Nat) : String :=
  if child.flat.utf8ByteSize ≤ inlineLimit then indentation depth ++ child.flat
  else child.renderAt depth

theorem toList_renderAt_nil (label : String) (depth : Nat) :
    (renderAt (.node label []) depth).toList = (indentation depth).toList ++ label.toList := by
  rw [renderAt, String.toList_append]

theorem toList_renderAt_cons (label : String) (child : History) (others : List History)
    (depth : Nat) :
    (renderAt (.node label (child :: others)) depth).toList =
      (indentation depth).toList ++ (label.toList ++ '(' :: '\n' ::
        ((child.entry (depth + 1)).toList ++ ((renderOthers others (depth + 1)).toList ++
          '\n' :: ((indentation depth).toList ++ [')'])))) := by
  rw [renderAt, ← entry]
  simp

theorem toList_renderOthers_cons (child : History) (others : List History) (depth : Nat) :
    (renderOthers (child :: others) depth).toList =
      ',' :: '\n' :: ((child.entry depth).toList ++ (renderOthers others depth).toList) := by
  rw [renderOthers, ← entry]
  simp

theorem flush_renderOthers (depth : Nat) (flush : Flush tail) :
    Flush ((renderOthers others depth).toList ++ tail) := by
  cases others with
  | nil => exact flush
  | cons child others =>
      rw [toList_renderOthers_cons]
      exact flush_cons (by decide)

/-- On a line of its own, and joined to the line before, the tree is its flat form. -/
def Joins (history : History) : Prop :=
  ∀ depth tail, Flush tail →
    joined ('\n' :: ((history.renderAt depth).toList ++ tail)) = history.flat.toList ++ joined tail

/-- The same holds of a child, whether it is spread over several lines or not. -/
theorem joined_entry (plain : child.Plain) (joins : child.Joins) (depth : Nat)
    (flush : Flush tail) :
    joined ('\n' :: ((child.entry depth).toList ++ tail)) = child.flat.toList ++ joined tail := by
  rw [entry]
  split
  · rw [String.toList_append, List.append_assoc, joined_indentation (plain.flush.append flush),
      joined_append plain.single]
  · exact joins depth tail flush

theorem joined_renderOthers (plain : ∀ child ∈ others, child.Plain)
    (joins : ∀ child ∈ others, child.Joins) (depth : Nat) (flush : Flush tail) :
    joined ((renderOthers others depth).toList ++ tail) =
      (flatOthers others).toList ++ joined tail := by
  induction others with
  | nil => rfl
  | cons child others ih =>
      obtain ⟨first_plain, plain⟩ := List.forall_mem_cons.1 plain
      obtain ⟨first_joins, joins⟩ := List.forall_mem_cons.1 joins
      rw [toList_renderOthers_cons, toList_flatOthers_cons, List.cons_append, List.cons_append,
        List.append_assoc, joined_cons (by decide),
        joined_entry first_plain first_joins depth (flush_renderOthers depth flush),
        ih plain joins]
      simp

theorem Plain.joins (plain : history.Plain) : history.Joins := by
  induction plain with
  | @node label children single flush plain ih =>
      intro depth tail behind
      cases children with
      | nil =>
          rw [toList_renderAt_nil, List.append_assoc, joined_indentation (flush.append behind),
            joined_append single, flat]
      | cons child others =>
          obtain ⟨first_plain, plain⟩ := List.forall_mem_cons.1 plain
          obtain ⟨first_joins, joins⟩ := List.forall_mem_cons.1 ih
          have opens : Flush (label.toList ++ '(' :: '\n' :: ((child.entry (depth + 1)).toList ++
              ((renderOthers others (depth + 1)).toList ++
                '\n' :: ((indentation depth).toList ++ ')' :: tail)))) :=
            flush.append (flush_cons (by decide))
          have closes : Flush ('\n' :: ((indentation depth).toList ++ ')' :: tail)) :=
            flush_cons (by decide)
          have closed : joined ('\n' :: ((indentation depth).toList ++ ')' :: tail)) =
              ')' :: joined tail := by
            rw [joined_indentation (flush_cons (by decide)), joined_cons (by decide)]
          rw [toList_renderAt_cons, toList_flat_cons]
          simp only [List.append_assoc, List.cons_append, List.nil_append]
          rw [joined_indentation opens, joined_append single, joined_cons (by decide),
            joined_entry first_plain first_joins _ (flush_renderOthers _ closes),
            joined_renderOthers plain joins _ closes, closed]

/-- Without its line ends and the blanks behind them, the rendering of a history whose labels hold
no line end and start with no blank is the flat form. -/
theorem joinLines_render (plain : history.Plain) : joinLines history.render = history.flat := by
  have flush : Flush (history.renderAt 0).toList := by
    cases plain with
    | @node label children _ flush _ =>
        cases children with
        | nil => exact flush
        | cons child others =>
            rw [toList_renderAt_cons]
            exact flush.append (flush_cons (by decide))
  have behind_line : joined ('\n' :: (history.renderAt 0).toList) =
      joined (history.renderAt 0).toList := joined_indentation flush 0
  have joins := plain.joins 0 [] flush_nil
  rw [List.append_nil, joined_nil, List.append_nil, behind_line] at joins
  rw [joinLines, render, joins, String.ofList_toList]

/-- One child stays on its line, the other one is spread over several. -/
theorem joinLines_render_apply :
    let tree := node "root" [leaf "x", node "apply" [leaf "identifier-prefix f", leaf "number 1"]]
    tree.Plain ∧
      tree.render = "root(\n  x,\n  apply(\n    identifier-prefix f,\n    number 1\n  )\n)" ∧
      joinLines tree.render = "root(x,apply(identifier-prefix f,number 1))" := by
  intro tree
  have leaf_plain (label : String) (single : '\n' ∉ label.toList) (flush : Flush label.toList) :
      (leaf label).Plain := .node single flush nofun
  have plain : tree.Plain := by
    refine .node (by decide) (by decide) (List.forall_mem_cons.2 ⟨?_, ?_⟩)
    · exact leaf_plain "x" (by decide) (by decide)
    · refine List.forall_mem_singleton.2 (.node (by decide) (by decide) ?_)
      refine List.forall_mem_cons.2 ⟨leaf_plain _ (by decide) (by decide), ?_⟩
      exact List.forall_mem_singleton.2 (leaf_plain _ (by decide) (by decide))
  have flattened : tree.flat = "root(x,apply(identifier-prefix f,number 1))" := by decide +kernel
  exact ⟨plain, by decide +kernel, (joinLines_render plain).trans flattened⟩

end History

end Curried
