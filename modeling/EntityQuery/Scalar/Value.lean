import EntityQuery.Calendar.Instant
import EntityQuery.Document.Text
import EntityQuery.Scalar.Basic
import EntityQuery.Uuid

/-!
# Scalar values

The values that constants, parameters and materialized properties hold.

* `Value.scalarType?` is the type of a value; null has none.
* `Value.plain` is the plain document that shows a value to an application.
* `Value.message` is the text of a value in messages.
-/

namespace EntityQuery

/-- A scalar value of an application. -/
inductive Value where
  | null
  | bool (b : Bool)
  | int32 (n : Int32)
  | int64 (n : Int64)
  | float64 (x : Float)
  | string (s : String)
  | uuid (u : Uuid)
  | dateTime (i : Instant)
  | date (d : Date)
  | bytes (bs : List UInt8)
  | json (d : Document)

namespace Value

/-- The type of a value. -/
def scalarType? : Value → Option ScalarType
  | .null => none
  | .bool _ => some .bool
  | .int32 _ => some .int32
  | .int64 _ => some .int64
  | .float64 _ => some .float64
  | .string _ => some .string
  | .uuid _ => some .uuid
  | .dateTime _ => some .dateTime
  | .date _ => some .date
  | .bytes _ => some .bytes
  | .json _ => some .json

/-- Whether the value is null. -/
def isNull : Value → Bool
  | .null => true
  | _ => false

/-- The text of a string. -/
def string? : Value → Option String
  | .string s => some s
  | _ => none

/-- The integer of a value of an integer type. -/
def int? : Value → Option Int
  | .int32 n => some n.toInt
  | .int64 n => some n.toInt
  | _ => none

/-- The double of a value of a numeric type. -/
def float? : Value → Option Float
  | .int32 n => some (.ofInt n.toInt)
  | .int64 n => some (.ofInt n.toInt)
  | .float64 x => some x
  | _ => none

/-- The truth value of a value. -/
def bool? : Value → Option Bool
  | .bool b => some b
  | _ => none

/-- The plain document of a value.  Times are texts and bytes an array of numbers. -/
def plain : Value → Document
  | .null => .null
  | .bool b => .bool b
  | .int32 n => .ofInt n.toInt
  | .int64 n => .ofInt n.toInt
  | .float64 x => .ofFloat x
  | .string s => .string s
  | .uuid u => .string u.text
  | .dateTime i => .string i.text
  | .date d => .string d.text
  | .bytes bs => .array (bs.map fun b => .ofInt b.toNat)
  | .json d => d

/-- The text of a value in messages. -/
def message : Value → String
  | .null => "null"
  | .bool b => if b then "true" else "false"
  | .int32 n => toString n.toInt
  | .int64 n => toString n.toInt
  | .float64 x => DecimalLayout.message.text x
  | .string s => quoted s
  | .uuid u => u.text
  | .dateTime i => i.message
  | .date d => d.text
  | .bytes bs => "<" ++ toString bs.length ++ " bytes>"
  | .json d => d.text

end Value
end EntityQuery
