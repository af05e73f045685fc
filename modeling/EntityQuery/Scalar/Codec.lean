import EntityQuery.Scalar.Value
import EntityQuery.Text.Base64

/-!
# Codecs

A codec is the representation of one scalar type in documents.  Null is represented by null for
every type, so the functions of a codec only see values other than null.

* `Codec.encode` and `Codec.decode` are the two directions.
* `Codec.builtin` holds the codecs of the built-in types.
* `CodecError` is the reason why a value or a document is refused.
-/

namespace EntityQuery

/-- Why a codec refuses a value or a document. -/
inductive CodecError where
  /-- The document is of another kind than the codec reads. -/
  | kindMismatch (scalarType : ScalarType) (expected actual : DocumentKind)
  /-- The document is of the right kind but denotes no value of the type. -/
  | malformed (scalarType : ScalarType) (reason : String)
  /-- The codec was given a value of another type. -/
  | codec (scalarType : ScalarType) (reason : String)
deriving DecidableEq, Repr

namespace CodecError

/-- The code of an error. -/
def code : CodecError → String
  | .kindMismatch .. => "MAPPING_KIND_MISMATCH"
  | .malformed .. => "MAPPING_MALFORMED_VALUE"
  | .codec .. => "MAPPING_CODEC_FAILED"

/-- The text of an error. -/
def message : CodecError → String
  | .kindMismatch t expected actual =>
    "expected a " ++ expected.name ++ " document value for '" ++ t.name ++ "', found " ++
      actual.name
  | .malformed t reason => "malformed '" ++ t.name ++ "' document value: " ++ reason
  | .codec t reason => "codec for '" ++ t.name ++ "' failed: " ++ reason

/-- A failure of the codec itself is no fault of the document. -/
def isFatal : CodecError → Bool
  | .codec .. => true
  | _ => false

end CodecError

/-- The representation of a scalar type in documents.  The two functions are never given null. -/
structure Codec where
  scalarType : ScalarType
  kind : DocumentKind
  encodeValue : Value → Except CodecError Document
  decodeDocument : Document → Except CodecError Value

namespace Codec

/-- The document of a value; null stands for null. -/
def encode (c : Codec) : Value → Except CodecError Document
  | .null => .ok .null
  | v => c.encodeValue v

/-- The value of a document; null stands for null. -/
def decode (c : Codec) : Document → Except CodecError Value
  | .null => .ok .null
  | d => c.decodeDocument d

/-- The refusal of a value of another type. -/
def wrongValue (t : ScalarType) (v : Value) : CodecError :=
  .codec t ("cannot encode application value " ++ v.message)

/-- The refusal of a document of another kind. -/
def wrongKind (t : ScalarType) (expected : DocumentKind) (d : Document) : CodecError :=
  .kindMismatch t expected (.ofDocument d)

/-- The text of a document that has to be a string. -/
def expectString (t : ScalarType) : Document → Except CodecError String
  | .string s => .ok s
  | d => .error (wrongKind t .string d)

/-- Truth values. -/
def bool : Codec where
  scalarType := .bool
  kind := .boolean
  encodeValue
    | .bool b => .ok (.bool b)
    | v => .error (wrongValue .bool v)
  decodeDocument
    | .bool b => .ok (.bool b)
    | d => .error (wrongKind .bool .boolean d)

/-- The integer that a number denotes.  A double between the ends of the 64-bit range, both
included, counts if it has no fraction, and is clamped to the range. -/
def integral (t : ScalarType) : Document → Except CodecError Int
  | .number n =>
    match n.toInt64? with
    | some i => .ok i
    | none =>
      match (Binary64.ofFloat n.toFloat).toInt? with
      | some i =>
        if int64Min ≤ i && i ≤ int64Max + 1 then .ok (min i int64Max)
        else .error (.malformed t (n.text ++ " is not an integral value"))
      | none => .error (.malformed t (n.text ++ " is not an integral value"))
  | d => .error (wrongKind t .number d)

/-- Integers of 32 bits. -/
def int32 : Codec where
  scalarType := .int32
  kind := .number
  encodeValue
    | .int32 n => .ok (.ofInt n.toInt)
    | v => .error (wrongValue .int32 v)
  decodeDocument d := do
    let wide ← integral .int32 d
    if fitsInt32 wide then .ok (.int32 (.ofInt wide))
    else .error (.malformed .int32 (toString wide ++ " is out of range"))

/-- Integers of 64 bits. -/
def int64 : Codec where
  scalarType := .int64
  kind := .number
  encodeValue
    | .int64 n => .ok (.ofInt n.toInt)
    | .int32 n => .ok (.ofInt n.toInt)
    | v => .error (wrongValue .int64 v)
  decodeDocument d := (integral .int64 d).map fun n => .int64 (.ofInt n)

/-- Doubles.  The values that a number of a document cannot have are written as strings. -/
def float64 : Codec where
  scalarType := .float64
  kind := .number
  encodeValue
    | .float64 x =>
      match Binary64.ofFloat x with
      | .nan => .ok (.string "NaN")
      | .infinite negative => .ok (.string (if negative then "-Infinity" else "Infinity"))
      | .finite .. => .ok (.number (.float x))
    | v => .error (wrongValue .float64 v)
  decodeDocument
    | .number n => .ok (.float64 n.toFloat)
    | .string s =>
      if s = "NaN" then .ok (.float64 (0.0 / 0.0))
      else if s = "Infinity" then .ok (.float64 (1.0 / 0.0))
      else if s = "-Infinity" then .ok (.float64 (-1.0 / 0.0))
      else .error (.malformed .float64 ("'" ++ s ++ "' is not a number"))
    | d => .error (wrongKind .float64 .number d)

/-- Strings. -/
def string : Codec where
  scalarType := .string
  kind := .string
  encodeValue
    | .string s => .ok (.string s)
    | v => .error (wrongValue .string v)
  decodeDocument d := (expectString .string d).map .string

/-- The value that a text denotes, or the refusal of the text. -/
def readText (t : ScalarType) (read : String → Option Value) (reason : String) (d : Document) :
    Except CodecError Value := do
  let s ← expectString t d
  match read s with
  | some v => .ok v
  | none => .error (.malformed t reason)

/-- Identifiers. -/
def uuid : Codec where
  scalarType := .uuid
  kind := .string
  encodeValue
    | .uuid u => .ok (.string u.text)
    | v => .error (wrongValue .uuid v)
  decodeDocument := readText .uuid (fun s => (Uuid.ofText? s).map .uuid) "not an identifier"

/-- Instants. -/
def dateTime : Codec where
  scalarType := .dateTime
  kind := .string
  encodeValue
    | .dateTime i => .ok (.string i.text)
    | v => .error (wrongValue .dateTime v)
  decodeDocument :=
    readText .dateTime (fun s => (Instant.ofText? s).map .dateTime) "not a date and time"

/-- Dates. -/
def date : Codec where
  scalarType := .date
  kind := .string
  encodeValue
    | .date d => .ok (.string d.text)
    | v => .error (wrongValue .date v)
  decodeDocument := readText .date (fun s => (Date.ofText? s).map .date) "not a date"

/-- Bytes. -/
def bytes : Codec where
  scalarType := .bytes
  kind := .string
  encodeValue
    | .bytes bs => .ok (.string (.ofList (Base64.encode bs)))
    | v => .error (wrongValue .bytes v)
  decodeDocument :=
    readText .bytes (fun s => (Base64.decode? s.toList).map .bytes) "not a base64 text"

/-- Documents, verbatim. -/
def json : Codec where
  scalarType := .json
  kind := .any
  encodeValue
    | .json d => .ok d
    | v => .error (wrongValue .json v)
  decodeDocument d := .ok (.json d)

/-- The codecs of the built-in types. -/
def builtin : List Codec :=
  [bool, int32, int64, float64, string, uuid, dateTime, date, bytes, json]

end Codec
end EntityQuery
