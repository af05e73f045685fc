import EntityQuery.Document.Basic

/-!
# Scalar types

The types of the scalar values that an application works with.  An application may add types of its
own under a name; their representation in documents is whatever it registers for them.

* `ScalarType.promote` is the type of an arithmetic result.
* `ScalarType.comparable` says which values the store can compare.
-/

namespace EntityQuery

/-- A type of scalar values. -/
inductive ScalarType where
  | bool
  | int32
  | int64
  | float64
  | string
  | uuid
  | dateTime
  | date
  | bytes
  | json
  /-- A type that the application names. -/
  | custom (name : String)
deriving DecidableEq, Repr

namespace ScalarType

/-- The name of a type in messages. -/
def name : ScalarType → String
  | .bool => "bool"
  | .int32 => "int32"
  | .int64 => "int64"
  | .float64 => "float64"
  | .string => "string"
  | .uuid => "uuid"
  | .dateTime => "datetime"
  | .date => "date"
  | .bytes => "bytes"
  | .json => "json"
  | .custom name => name

/-- Whether values of the type are numbers. -/
def isNumeric : ScalarType → Bool
  | .int32 | .int64 | .float64 => true
  | _ => false

/-- Whether values of the type are integers. -/
def isInteger : ScalarType → Bool
  | .int32 | .int64 => true
  | _ => false

/-- The type of an arithmetic operation on two numeric types: the wider one. -/
def promote : ScalarType → ScalarType → Option ScalarType
  | .float64, b => if b.isNumeric then some .float64 else none
  | a, .float64 => if a.isNumeric then some .float64 else none
  | .int64, b => if b.isInteger then some .int64 else none
  | a, .int64 => if a.isInteger then some .int64 else none
  | .int32, .int32 => some .int32
  | _, _ => none

theorem promote_comm (a b : ScalarType) : a.promote b = b.promote a := by
  cases a <;> cases b <;> rfl

/-- Whether the store can compare values of two types. -/
def comparable (a b : ScalarType) : Bool := a == b || (a.isNumeric && b.isNumeric)

theorem comparable_comm (a b : ScalarType) : a.comparable b = b.comparable a := by
  rw [comparable, comparable, BEq.comm, Bool.and_comm]

/-- The kind of document that values of the type have unless the application says otherwise. -/
def defaultKind : ScalarType → DocumentKind
  | .bool => .boolean
  | .int32 | .int64 | .float64 => .number
  | .string | .uuid | .dateTime | .date | .bytes => .string
  | .json | .custom _ => .any

/-- The name of a type in descriptions, if it is not one of the application's own. -/
def tag? : ScalarType → Option String
  | .bool => some "bool"
  | .int32 => some "int32"
  | .int64 => some "int64"
  | .float64 => some "float64"
  | .string => some "string"
  | .uuid => some "uuid"
  | .dateTime => some "date_time"
  | .date => some "date"
  | .bytes => some "bytes"
  | .json => some "json"
  | .custom _ => none

/-- The built-in types in order. -/
def builtin : List ScalarType :=
  [.bool, .int32, .int64, .float64, .string, .uuid, .dateTime, .date, .bytes, .json]

/-- The description of a type. -/
def toDocument : ScalarType → Document
  | .custom name => .ofFields [("custom", .string name)]
  | t => .string (t.tag?.getD t.name)

/-- The place of a type in lists: the built-in types in order, then the application's own. -/
def place (t : ScalarType) : Nat := (builtin.findIdx? (· == t)).getD builtin.length

/-- The order of types in lists; the application's own are ordered by name. -/
def inOrder (a b : ScalarType) : Bool :=
  if a.place = b.place then decide (a.name ≤ b.name) else decide (a.place < b.place)

end ScalarType
end EntityQuery
