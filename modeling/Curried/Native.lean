import Curried.Value

/-!
# The native library

The functions that every program starts with: arithmetic, comparison and branching.  All of them
take their arguments one at a time, and none converts between types.
-/

namespace Curried

namespace Native

/-- A native function as a value, without arguments. -/
def value (native : Native) : Value := .builtin native []

/-- The native library in order. -/
def library : List Native :=
  [ ⟨"(+)", 2, .add⟩,
    ⟨"(-)", 2, .subtract⟩,
    ⟨"(*)", 2, .multiply⟩,
    ⟨"(/)", 2, .divide⟩,
    ⟨"(==)", 2, .equal⟩,
    ⟨"(!=)", 2, .different⟩,
    ⟨"(<)", 2, .less⟩,
    ⟨"(<=)", 2, .lessOrEqual⟩,
    ⟨"(>)", 2, .greater⟩,
    ⟨"(>=)", 2, .greaterOrEqual⟩,
    ⟨"if", 3, .branch⟩ ]

/-- The environment that binds the native library under its own names. -/
def environment : Environment :=
  library.foldl (fun bindings native => bindings.bind native.name native.value) .empty

end Native

end Curried
