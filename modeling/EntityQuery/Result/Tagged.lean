import EntityQuery.Result.Materialized
import EntityQuery.Scalar.Tagged

/-!
# Results with their types

The tagged document of a result tells an entity from a record, keeps the order of their fields, and
tells the types of the scalars.
-/

namespace EntityQuery

namespace Materialized

/-- A name with what belongs to it. -/
def pair (name : String) (d : Document) : Document := .array [.string name, d]

mutual

/-- The document of a result with the types of its parts. -/
def tagged : Materialized → Document
  | .null => .null
  | .scalar v => .object [("scalar", v.tagged)]
  | .entity name fields =>
    .ofFields [("entity", .string name), ("fields", .array (taggedFields fields))]
  | .list items => .object [("list", .array (taggedItems items))]
  | .record fields => .object [("record", .array (taggedFields fields))]

/-- The documents of fields with the types of their parts. -/
def taggedFields : List (String × Materialized) → List Document
  | [] => []
  | field :: fields => taggedField field :: taggedFields fields

/-- The document of a field with the types of its parts. -/
def taggedField : String × Materialized → Document
  | (name, m) => pair name m.tagged

/-- The documents of items with the types of their parts. -/
def taggedItems : List Materialized → List Document
  | [] => []
  | m :: ms => m.tagged :: taggedItems ms

end

end Materialized
end EntityQuery
