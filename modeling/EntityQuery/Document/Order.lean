import EntityQuery.Document.Text

/-!
# Order and equality of stored values

* `Document.same` is equality of documents in every detail: the integer `1` and the double `1.0`
  differ.
* `Document.equal` is the equality of the statement language, which compares two numbers by value
  and everything else in every detail.
* `Document.collate` is the order of the statement language: kinds come in a fixed order, and
  values of one kind are ordered among themselves.  `collateDatum` puts a missing value before all
  others.
-/

namespace EntityQuery

mutual

/-- Whether two documents agree in every detail. -/
def Document.same : Document → Document → Bool
  | .null, .null => true
  | .bool a, .bool b => a == b
  | .number a, .number b => a.same b
  | .string a, .string b => a == b
  | .array a, .array b => sameItems a b
  | .object a, .object b => sameFields a b
  | _, _ => false

/-- Whether two lists of documents agree in every detail. -/
def sameItems : List Document → List Document → Bool
  | [], [] => true
  | a :: as, b :: bs => a.same b && sameItems as bs
  | _, _ => false

/-- Whether two lists of fields agree in every detail. -/
def sameFields : List (String × Document) → List (String × Document) → Bool
  | [], [] => true
  | a :: as, b :: bs => sameField a b && sameFields as bs
  | _, _ => false

/-- Whether two fields agree in every detail. -/
def sameField : String × Document → String × Document → Bool
  | (key, a), (name, b) => key == name && a.same b

end

namespace Document

/-- Equality of the statement language. -/
def equal : Document → Document → Bool
  | .number a, .number b => a.compare b == .eq
  | a, b => a.same b

/-- The place of a kind of value in the order of kinds. -/
def rank : Document → Nat
  | .null => 1
  | .bool _ => 2
  | .number _ => 3
  | .string _ => 4
  | .array _ => 5
  | .object _ => 6

end Document

/-- The order of two objects: by the number of fields, then by text. -/
def collateFields (a b : Fields) : Ordering :=
  match compare a.length b.length with
  | .eq => compare (Document.object a).text (Document.object b).text
  | o => o

mutual

/-- The order of the statement language. -/
def Document.collate : Document → Document → Ordering
  | .bool a, .bool b => compare a b
  | .number a, .number b => a.compare b
  | .string a, .string b => compare a b
  | .array a, .array b => collateItems a b
  | .object a, .object b => collateFields a b
  | a, b => compare a.rank b.rank

/-- The order of two arrays: by the first items that differ, then by length. -/
def collateItems : List Document → List Document → Ordering
  | [], [] => .eq
  | [], _ :: _ => .lt
  | _ :: _, [] => .gt
  | a :: as, b :: bs =>
    match a.collate b with
    | .eq => collateItems as bs
    | o => o

end

/-- A value of a row, which may be missing. -/
abbrev Datum := Option Document

/-- The order of two values of rows; a missing value comes first. -/
def collateDatum : Datum → Datum → Ordering
  | none, none => .eq
  | none, some _ => .lt
  | some _, none => .gt
  | some a, some b => a.collate b

end EntityQuery
