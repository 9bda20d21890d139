/-!
# Bindings

A finite map from names, in which a later binding of a name replaces an earlier one.
-/

namespace Curried

/-- Names bound to values of type `α`; each name is bound at most once. -/
structure Bindings (α : Type) where
  /-- The bound names with their values, the latest one first. -/
  entries : List (String × α)

namespace Bindings

variable {α : Type}

/-- No bindings. -/
def empty : Bindings α := ⟨[]⟩

/-- The value bound to a name. -/
def lookup (bindings : Bindings α) (name : String) : Option α := bindings.entries.lookup name

/-- Bind a name, in place of its earlier binding if there is one. -/
def bind (bindings : Bindings α) (name : String) (value : α) : Bindings α :=
  ⟨(name, value) :: bindings.entries.filter fun entry => entry.1 != name⟩

/-- Whether a name is bound. -/
def contains (bindings : Bindings α) (name : String) : Bool := (bindings.lookup name).isSome

/-- Number of bound names. -/
def size (bindings : Bindings α) : Nat := bindings.entries.length

/-- Whether no name is bound. -/
def isEmpty (bindings : Bindings α) : Bool := bindings.entries.isEmpty

@[simp]
theorem lookup_empty (name : String) : (empty : Bindings α).lookup name = none := rfl

@[simp]
theorem lookup_bind_self (bindings : Bindings α) (name : String) (value : α) :
    (bindings.bind name value).lookup name = some value := by
  simp [lookup, bind]

theorem lookup_bind_of_ne (bindings : Bindings α) {name other : String} (value : α)
    (distinct : other ≠ name) :
    (bindings.bind name value).lookup other = bindings.lookup other := by
  obtain ⟨entries⟩ := bindings
  have differs : (other == name) = false := beq_eq_false_iff_ne.2 distinct
  simp only [lookup, bind, List.lookup_cons, differs]
  induction entries with
  | nil => rfl
  | cons entry entries ih =>
      obtain ⟨key, held⟩ := entry
      by_cases replaced : key = name
      · subst replaced
        simp [List.lookup_cons, ih, differs]
      · simp [replaced, List.lookup_cons, ih]

end Bindings

end Curried
