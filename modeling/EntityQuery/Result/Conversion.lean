import EntityQuery.Result.Materialized

/-!
# Conversion of results

An application may ask for the items of results as values of a simple type.  The plain document of
an item has to be such a value then.
-/

namespace EntityQuery

/-- A type that an application asks for. -/
inductive PlainType where
  | int32
  | float64
  | string
  | bool
deriving DecidableEq, Repr

namespace PlainType

/-- The name of a type in messages. -/
def name : PlainType → String
  | .int32 => "an integer of 32 bits"
  | .float64 => "a number"
  | .string => "a string"
  | .bool => "a boolean"

/-- The value of a type that a document is.  An integer is also a double. -/
def read? : PlainType → Document → Option Document
  | .int32, .number (.int n) => if fitsInt32 n then some (.ofInt n) else none
  | .float64, .number n => some (.number (.float n.toFloat))
  | .string, .string s => some (.string s)
  | .bool, .bool b => some (.bool b)
  | _, _ => none

end PlainType

/-- The item of a result as a value of a type. -/
def Materialized.convert (t : PlainType) (m : Materialized) :
    Except MaterializationError Document :=
  match t.read? m.toDocument with
  | some d => .ok d
  | none => .error (.convert "$" ("expected " ++ t.name))

end EntityQuery
