import EntityQuery.Document.Description
import EntityQuery.Scalar.Basic

/-!
# Descriptions of scalar types

A built-in type is described by its name, and a type of the application by an object that holds its
name.
-/

namespace EntityQuery

/-- Whether nothing belongs to an alternative. -/
def isUnit : Option Written → Bool
  | none => true
  | some .null => true
  | some _ => false

/-- Reads the description of a type. -/
def ScalarType.ofWritten? (w : Written) : Option ScalarType := do
  match ← w.variant? with
  | ("custom", some name) => name.text?.map .custom
  | (tag, rest) =>
    if isUnit rest then ScalarType.builtin.find? fun t => t.tag? == some tag else none

end EntityQuery
