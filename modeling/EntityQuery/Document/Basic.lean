import EntityQuery.Number.Basic

/-!
# Documents

The values that a store keeps and returns: null, truth values, numbers, strings, arrays and
objects.  The fields of an object are kept in the order of their names, and a name occurs once.

* `Document.ofFields` builds an object; of two fields of one name the later one stays.
* `Document.field?` reads a field.
* `Fields.get?_put`: putting a field changes what is under its name and nothing else.
* `DocumentKind` is the kind of a document, as messages name it.
-/

namespace EntityQuery

/-- A document. -/
inductive Document where
  | null
  | bool (b : Bool)
  | number (n : Number)
  | string (s : String)
  | array (items : List Document)
  | object (fields : List (String × Document))
deriving Repr, Inhabited

/-- The fields of an object. -/
abbrev Fields := List (String × Document)

namespace Fields

/-- The value of the field of a given name. -/
def get? (name : String) : Fields → Option Document
  | [] => none
  | (key, value) :: fields => if key = name then some value else get? name fields

/-- Puts a field in its place in the order of names, over a field of the same name. -/
def put (name : String) (value : Document) : Fields → Fields
  | [] => [(name, value)]
  | (key, old) :: fields =>
    if name < key then (name, value) :: (key, old) :: fields
    else if name = key then (name, value) :: fields
    else (key, old) :: put name value fields

/-- The fields in the order of their names; of two fields of one name the later one stays. -/
def ofList (fields : List (String × Document)) : Fields :=
  fields.foldl (fun acc (name, value) => put name value acc) []

/-- The names of the fields. -/
def names (fields : Fields) : List String := fields.map Prod.fst

/-- Putting a field changes what is under its name and nothing else. -/
theorem get?_put (name other : String) (value : Document) (fields : Fields) :
    get? other (put name value fields) =
      if name = other then some value else get? other fields := by
  induction fields with
  | nil => rfl
  | cons field fields ih => grind [get?, put]

end Fields

namespace Document

/-- An object with the given fields. -/
def ofFields (fields : List (String × Document)) : Document := .object (Fields.ofList fields)

/-- An integer of a document. -/
def ofInt (n : Int) : Document := .number (.int n)

/-- A double as a document; a document holds no infinity and nothing that is not a number. -/
def ofFloat (x : Float) : Document :=
  if Number.isFinite x then .number (.float x) else .null

/-- Whether the document is null. -/
def isNull : Document → Bool
  | .null => true
  | _ => false

/-- The text of a string. -/
def string? : Document → Option String
  | .string s => some s
  | _ => none

/-- The value of a truth value. -/
def bool? : Document → Option Bool
  | .bool b => some b
  | _ => none

/-- The items of an array. -/
def items? : Document → Option (List Document)
  | .array items => some items
  | _ => none

/-- The fields of an object. -/
def fields? : Document → Option Fields
  | .object fields => some fields
  | _ => none

/-- The integer of a number that was written as one and fits 64 signed bits. -/
def int? : Document → Option Int
  | .number n => n.toInt64?
  | _ => none

/-- The field of an object. -/
def field? (name : String) : Document → Option Document
  | .object fields => Fields.get? name fields
  | _ => none

mutual

/-- The number of levels of a document. -/
def depth : Document → Nat
  | .array items => depthOf items + 1
  | .object fields => fieldsDepth fields + 1
  | _ => 1

/-- The number of levels of the deepest item. -/
def depthOf : List Document → Nat
  | [] => 0
  | item :: items => max item.depth (depthOf items)

/-- The number of levels of the deepest field. -/
def fieldsDepth : List (String × Document) → Nat
  | [] => 0
  | field :: fields => max (fieldDepth field) (fieldsDepth fields)

/-- The number of levels of a field. -/
def fieldDepth : String × Document → Nat
  | (_, value) => value.depth

end

end Document

/-- The kinds of documents, and the kind that a verbatim mapping accepts. -/
inductive DocumentKind where
  | null
  | boolean
  | number
  | string
  | array
  | object
  /-- Every kind. -/
  | any
deriving DecidableEq, Repr

namespace DocumentKind

/-- The kind of a document. -/
def ofDocument : Document → DocumentKind
  | .null => .null
  | .bool _ => .boolean
  | .number _ => .number
  | .string _ => .string
  | .array _ => .array
  | .object _ => .object

/-- The name of a kind. -/
def name : DocumentKind → String
  | .null => "null"
  | .boolean => "boolean"
  | .number => "number"
  | .string => "string"
  | .array => "array"
  | .object => "object"
  | .any => "any"

end DocumentKind

end EntityQuery
