import EntityQuery.Scalar.Basic

/-!
# Registered functions

The functions of the store that an application may call by name in its queries.
-/

namespace EntityQuery

/-- A function of the store. -/
structure FunctionEntry where
  /-- The name in queries. -/
  name : String
  /-- The name in statements. -/
  storeName : String
  /-- The number of arguments, unless any number will do. -/
  arity : Option Nat
  returnType : ScalarType
deriving DecidableEq, Repr

/-- The functions that queries may call. -/
structure FunctionTable where
  entries : List FunctionEntry
deriving Repr

namespace FunctionTable

/-- The table without functions. -/
def empty : FunctionTable := ⟨[]⟩

/-- Registers a function in the place of an earlier one of its name. -/
def register (t : FunctionTable) (f : FunctionEntry) : FunctionTable :=
  ⟨t.entries.filter (fun old => old.name != f.name) ++ [f]⟩

/-- The function of a name. -/
def find? (t : FunctionTable) (name : String) : Option FunctionEntry :=
  t.entries.find? fun f => f.name == name

/-- The number of functions. -/
def size (t : FunctionTable) : Nat := t.entries.length

/-- The functions that every store has beside the built-in ones. -/
def standard : FunctionTable :=
  [⟨"reverse", "REVERSE", some 1, .string⟩, ⟨"replace", "REPLACE", some 3, .string⟩,
    ⟨"array_length", "ARRAY_LENGTH", some 1, .int64⟩,
    ⟨"array_contains", "ARRAY_CONTAINS", some 2, .bool⟩, ⟨"power", "POWER", some 2, .float64⟩,
    ⟨"sqrt", "SQRT", some 1, .float64⟩].foldl register empty

end FunctionTable
end EntityQuery
