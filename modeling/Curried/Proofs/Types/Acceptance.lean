import Curried.Types.Registry
import Mathlib.Data.Finset.Card
import Mathlib.Logic.Relation

/-!
# Acceptance is reachability

A named type accepts what it can reach through declared children.  The search for it passes over
every type that was entered before, also over those whose children are still being searched.  That
hides nothing: once the search has failed, the entered types are closed under children, and none of
them passes the test.
-/

namespace Curried.Registry

variable {registry : Registry} {test : TypeId → Bool}
  {search : List TypeId → TypeId → Option Search}
  {entered starts : List TypeId} {id other : TypeId} {result : Search} {depth : Nat}

/-- One type is a declared child of another. -/
def HasChild (registry : Registry) (parent child : TypeId) : Prop :=
  ∃ definition, registry.get? parent = some definition ∧ child ∈ definition.children

theorem mem_children_iff : other ∈ registry.children id ↔ registry.HasChild id other := by
  unfold children HasChild
  cases registry.get? id <;> simp

/-- A chain of declared children leads from a type to one that passes a test. -/
def Leads (registry : Registry) (test : TypeId → Bool) (start : TypeId) : Prop :=
  ∃ id, Relation.ReflTransGen registry.HasChild start id ∧ test id = true

/-! ### What a search finds -/

/-- What a search from several types has found out, when it leaves more types entered than there
were before. -/
structure Search.Explores (result : Search) (registry : Registry) (test : TypeId → Bool)
    (entered starts : List TypeId) : Prop where
  kept : entered ⊆ result.entered
  success : result.found = true → ∃ start ∈ starts, registry.Leads test start
  covered : result.found = false → starts ⊆ result.entered
  closed : result.found = false → ∀ id ∈ result.entered, id ∉ entered →
    test id = false ∧ ∀ child ∈ registry.children id, child ∈ result.entered

theorem explores_searchEach
    (explores : ∀ {entered id result}, search entered id = some result →
      result.Explores registry test entered [id])
    (ended : searchEach search entered starts = some result) :
    result.Explores registry test entered starts := by
  induction starts generalizing entered with
  | nil =>
      cases ended
      exact ⟨List.Subset.refl _, nofun, fun _ => List.nil_subset _,
        fun _ id member fresh => (fresh member).elim⟩
  | cons start others ih =>
      rw [searchEach] at ended
      split at ended
      · cases ended
      · rename_i first searched
        have explored := explores searched
        split at ended
        · rename_i found
          cases ended
          obtain ⟨other, among, leads⟩ := explored.success found
          obtain rfl := List.mem_singleton.1 among
          exact ⟨explored.kept, fun _ => ⟨other, .head _, leads⟩, by simp [found], by simp [found]⟩
        · rename_i none_yet
          rw [Bool.not_eq_true] at none_yet
          have rest := ih ended
          refine ⟨List.Subset.trans explored.kept rest.kept, fun found => ?_, fun none_found => ?_,
            fun none_found id member fresh => ?_⟩
          · obtain ⟨other, among, leads⟩ := rest.success found
            exact ⟨other, .tail _ among, leads⟩
          · have start_entered := rest.kept (explored.covered none_yet (.head _))
            exact List.cons_subset.2 ⟨start_entered, rest.covered none_found⟩
          · by_cases early : id ∈ first.entered
            · obtain ⟨fails, children⟩ := explored.closed none_yet id early fresh
              exact ⟨fails, fun child among => rest.kept (children child among)⟩
            · exact rest.closed none_found id member early

theorem explores_searchFrom (ended : registry.searchFrom test depth entered id = some result) :
    result.Explores registry test entered [id] := by
  induction depth generalizing entered id result with
  | zero => cases ended
  | succ depth ih =>
      rw [searchFrom] at ended
      split at ended
      · rename_i again
        cases ended
        rw [List.contains_iff_mem] at again
        exact ⟨List.Subset.refl _, nofun, fun _ => List.cons_subset.2 ⟨again, List.nil_subset _⟩,
          fun _ id member fresh => (fresh member).elim⟩
      · split at ended
        · rename_i passes
          cases ended
          exact ⟨List.subset_cons_self _ _, fun _ => ⟨id, .head _, id, .refl, passes⟩, nofun, nofun⟩
        · rename_i fails
          have inner := explores_searchEach ih ended
          rw [Bool.not_eq_true] at fails
          have kept := List.Subset.trans (List.subset_cons_self _ _) inner.kept
          refine ⟨kept, fun found => ?_, fun _ => ?_, fun none_found other member fresh => ?_⟩
          · obtain ⟨child, among, last, reaches, passes⟩ := inner.success found
            exact ⟨id, .head _, last, .head (mem_children_iff.1 among) reaches, passes⟩
          · exact List.cons_subset.2 ⟨inner.kept (.head _), List.nil_subset _⟩
          · by_cases here : other = id
            · subst here
              exact ⟨fails, inner.covered none_found⟩
            · exact inner.closed none_found other member (by simp [here, fresh])

/-- Types that are closed under children contain everything they lead to. -/
theorem mem_of_reaches {types : List TypeId} (inside : id ∈ types)
    (closed : ∀ id ∈ types, ∀ child ∈ registry.children id, child ∈ types)
    (reaches : Relation.ReflTransGen registry.HasChild id other) : other ∈ types := by
  induction reaches with
  | refl => exact inside
  | tail _ step ih => exact closed _ ih _ (mem_children_iff.2 step)

/-- A search that starts with no type entered finds exactly what a chain of children leads to. -/
theorem found_iff_leads (ended : registry.searchFrom test depth [] id = some result) :
    result.found = true ↔ registry.Leads test id := by
  have explores := explores_searchFrom ended
  constructor
  · intro found
    obtain ⟨start, among, leads⟩ := explores.success found
    obtain rfl := List.mem_singleton.1 among
    exact leads
  · rintro ⟨last, reaches, passes⟩
    refine Bool.of_not_eq_false fun none_found => ?_
    have closed := fun other member => explores.closed none_found other member List.not_mem_nil
    have inside := mem_of_reaches (explores.covered none_found (.head _))
      (fun other member => (closed other member).2) reaches
    rw [(closed last inside).1] at passes
    cases passes

/-! ### How deep a search goes -/

/-- Number of definitions that a search can still enter. -/
def unentered (registry : Registry) (entered : List TypeId) : Nat :=
  ((Finset.range registry.definitions.length).filter (· ∉ entered)).card

theorem unentered_le {later : List TypeId} (kept : entered ⊆ later) :
    registry.unentered later ≤ registry.unentered entered :=
  Finset.card_le_card (Finset.monotone_filter_right _ fun _ _ fresh member => fresh (kept member))

theorem unentered_lt (parent : registry.HasChild id other) (fresh : id ∉ entered) :
    registry.unentered (id :: entered) < registry.unentered entered := by
  obtain ⟨definition, defined, _⟩ := parent
  have bounded : id < registry.definitions.length := (List.getElem?_eq_some_iff.1 defined).1
  refine Finset.card_lt_card ⟨?_, fun subset => ?_⟩
  · exact Finset.monotone_filter_right _ fun _ _ later member => later (.tail _ member)
  · have member := subset (Finset.mem_filter.2 ⟨Finset.mem_range.2 bounded, fresh⟩)
    exact (Finset.mem_filter.1 member).2 (.head _)

theorem searchEach_ends
    (ends : ∀ later id, entered ⊆ later →
      ∃ result, search later id = some result ∧ later ⊆ result.entered) :
    ∃ result, searchEach search entered starts = some result := by
  induction starts generalizing entered with
  | nil => exact ⟨_, rfl⟩
  | cons start others ih =>
      obtain ⟨first, searched, kept⟩ := ends entered start (List.Subset.refl _)
      rw [searchEach, searched]
      simp only
      split
      · exact ⟨first, rfl⟩
      · exact ih fun later id more => ends later id (List.Subset.trans kept more)

/-- A search ends before it is nested deeper than there are definitions left to enter. -/
theorem searchFrom_ends (enough : registry.unentered entered < depth) :
    ∃ result, registry.searchFrom test depth entered id = some result := by
  induction depth generalizing entered id with
  | zero => omega
  | succ depth ih =>
      rw [searchFrom]
      split
      · exact ⟨_, rfl⟩
      · rename_i fresh
        rw [List.contains_iff_mem] at fresh
        split
        · exact ⟨_, rfl⟩
        · cases children : registry.children id with
          | nil => exact ⟨_, rfl⟩
          | cons child others =>
              have parent : registry.HasChild id child :=
                mem_children_iff.1 (children ▸ .head _)
              have fewer := unentered_lt parent fresh
              refine searchEach_ends fun later next kept => ?_
              have left : registry.unentered later ≤ registry.unentered (id :: entered) :=
                unentered_le kept
              obtain ⟨result, searched⟩ := @ih later next (by omega)
              exact ⟨result, searched, (explores_searchFrom searched).kept⟩

/-- However many levels more a search may go down, it ends, and it finds exactly what a chain of
children leads to. -/
theorem searchFrom_eq_some (registry : Registry) (expected : TypeId) (test : TypeId → Bool)
    (more : Nat) : ∃ result,
      registry.searchFrom test (registry.definitions.length + 1 + more) [] expected = some result ∧
        (result.found = true ↔ registry.Leads test expected) := by
  have bounded : registry.unentered [] ≤ registry.definitions.length :=
    (Finset.card_filter_le _ _).trans_eq (Finset.card_range _)
  have enough : registry.unentered [] < registry.definitions.length + 1 + more := by omega
  obtain ⟨result, ended⟩ := searchFrom_ends enough
  exact ⟨result, ended, found_iff_leads ended⟩

/-- A named type accepts what a chain of children leads to. -/
theorem accepts_iff_leads (registry : Registry) (expected : TypeId) (actual : Outline) :
    registry.accepts expected actual = true ↔
      registry.Leads (registry.acceptsHere actual) expected := by
  obtain ⟨result, ended, found⟩ :=
    searchFrom_eq_some registry expected (registry.acceptsHere actual) 0
  rw [accepts, ended]
  exact found

theorem acceptsHere_iff {actual : Outline} : registry.acceptsHere actual id = true ↔
    actual = .named id ∨
      ∃ definition, registry.get? id = some definition ∧ definition.matches actual = true := by
  unfold acceptsHere
  cases registry.get? id <;> simp

/-- A type without children accepts only what it accepts by itself. -/
theorem accepts_of_no_children {actual : Outline} (childless : registry.children id = []) :
    registry.accepts id actual = registry.acceptsHere actual id := by
  cases here : registry.acceptsHere actual id <;>
    simp [accepts, searchFrom, searchEach, childless, here]

/-- A named type accepts a type exactly if a chain of declared children leads from it to the type
itself or to one whose matcher accepts the type.  The search for it comes to an end; so it does
whatever the types on the way are tested for, and however many more levels it may go down. -/
theorem accepts_iff_exists_chain (registry : Registry) (expected : TypeId) :
    (∀ actual : Outline,
      (∃ entered, registry.searchFrom (registry.acceptsHere actual)
        (registry.definitions.length + 1) [] expected =
          some ⟨registry.accepts expected actual, entered⟩) ∧
      (registry.accepts expected actual = true ↔
        ∃ id, Relation.ReflTransGen registry.HasChild expected id ∧
          (actual = .named id ∨
            ∃ definition, registry.get? id = some definition ∧
              definition.matches actual = true))) ∧
    ∀ (test : TypeId → Bool) (more : Nat), ∃ result,
      registry.searchFrom test (registry.definitions.length + 1 + more) [] expected = some result ∧
        (result.found = true ↔
          ∃ id, Relation.ReflTransGen registry.HasChild expected id ∧ test id = true) := by
  refine ⟨fun actual => ⟨?_, ?_⟩, searchFrom_eq_some registry expected⟩
  · obtain ⟨⟨found, entered⟩, ended, _⟩ :=
      searchFrom_eq_some registry expected (registry.acceptsHere actual) 0
    rw [Nat.add_zero] at ended
    exact ⟨entered, by simp [accepts, ended]⟩
  · rw [accepts_iff_leads]
    exact exists_congr fun id => and_congr_right fun _ => acceptsHere_iff

/-- Two types that list each other as children accept each other, and no third one. -/
example :
    let registry := ((((empty.define "a" none).define "b" none).define "c" none).addChild 0 1
      ).addChild 1 0
    registry.accepts 0 (.named 1) = true ∧ registry.accepts 1 (.named 0) = true ∧
      registry.accepts 0 (.named 2) = false := by
  decide

end Curried.Registry
