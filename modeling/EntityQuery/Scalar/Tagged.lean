import EntityQuery.Document.Basic
import EntityQuery.Scalar.Value

/-!
# Documents with tags

The text of a document can be read by a program that knows one kind of number only.  In a tagged
document a double cannot be taken for an integer: it is an object that holds its digits.

The plain document of a value does not tell its type: a date is a text there, and so is a string.
The tagged document does; it is an object whose one field has the name of the type.

* `Document.tagged` tags the doubles of a document.
* `Value.tagged` writes the tagged document of a value, and `Value.ofTagged?` reads it.
-/

namespace EntityQuery

/-! ## Doubles -/

/-- A double as an object that holds its digits. -/
def taggedFloat (x : Float) : Document :=
  .object [("$f", .string (DecimalLayout.document.text x))]

namespace Document

mutual

/-- The document with its doubles tagged. -/
def tagged : Document → Document
  | .null => .null
  | .bool b => .bool b
  | .number (.int n) => .ofInt n
  | .number (.float x) => taggedFloat x
  | .string s => .string s
  | .array items => .array (taggedItems items)
  | .object fields => .object (taggedFields fields)

/-- The items of an array with their doubles tagged. -/
def taggedItems : List Document → List Document
  | [] => []
  | item :: items => item.tagged :: taggedItems items

/-- The fields of an object with their doubles tagged. -/
def taggedFields : List (String × Document) → List (String × Document)
  | [] => []
  | field :: fields => taggedField field :: taggedFields fields

/-- A field with its doubles tagged. -/
def taggedField : String × Document → String × Document
  | (name, value) => (name, value.tagged)

end

end Document

/-! ## Values with their types -/

namespace Value

/-- The document of a value with its type. -/
def tagged : Value → Document
  | .null => .null
  | .bool b => .object [("bool", .bool b)]
  | .int32 n => .object [("int32", .ofInt n.toInt)]
  | .int64 n => .object [("int64", .ofInt n.toInt)]
  | .float64 x => .object [("float64", taggedFloat x)]
  | .string s => .object [("string", .string s)]
  | .uuid u => .object [("uuid", .string u.text)]
  | .dateTime i => .object [("datetime", .array [.ofInt i.seconds, .ofInt i.nanos])]
  | .date d => .object [("date", .array [.ofInt d.year, .ofInt d.month, .ofInt d.day])]
  | .bytes bs => .object [("bytes", .array (bs.map fun b => .ofInt b.toNat))]
  | .json d => .object [("json", d.tagged)]

/-- A double by its number, or by its name if no document holds it. -/
def taggedFloat? : Document → Option Float
  | .string "NaN" => some (0.0 / 0.0)
  | .string "inf" => some (1.0 / 0.0)
  | .string "-inf" => some (-1.0 / 0.0)
  | .number n => some n.toFloat
  | _ => none

/-- A natural number. -/
def natural? (d : Document) : Option Nat := do
  let n ← d.int?
  if 0 ≤ n then some n.toNat else none

/-- The value of a type that a document holds. -/
def ofTag? : String → Document → Option Value
  | "bool", d => d.bool?.map .bool
  | "int32", d => d.int?.map fun n => .int32 (.ofInt n)
  | "int64", d => d.int?.map fun n => .int64 (.ofInt n)
  | "float64", d => (taggedFloat? d).map .float64
  | "string", d => d.string?.map .string
  | "uuid", d => (d.string?.bind Uuid.ofText?).map .uuid
  | "datetime", .array [seconds, nanos] => do
    (Instant.ofParts? (← seconds.int?) (← natural? nanos)).map .dateTime
  | "date", .array [year, month, day] => do
    (Date.ofParts? (← year.int?) (← natural? month) (← natural? day)).map .date
  | "bytes", .array items => (items.mapM natural?).map fun ns => .bytes (ns.map UInt8.ofNat)
  | "json", d => some (.json d)
  | _, _ => none

/-- Reads the document of a value with its type. -/
def ofTagged? : Document → Option Value
  | .null => some .null
  | .object [(tag, d)] => ofTag? tag d
  | _ => none

end Value

end EntityQuery
