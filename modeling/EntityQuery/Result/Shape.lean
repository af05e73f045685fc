import EntityQuery.Scalar.Codec

/-!
# Shapes of rows

A shape says what the rows of a statement hold and how it is decoded.

* `RowShape.leaves` are the scalars of a row with their paths.
-/

namespace EntityQuery

/-- A property in the document of an entity. -/
structure PropertySlot where
  name : String
  field : String
  codec : Codec
  required : Bool

/-- Where an embedded entity is in the document of its owner. -/
structure EmbeddedPlace where
  name : String
  field : String
  /-- Whether there is an array of them. -/
  many : Bool
  optional : Bool
deriving DecidableEq, Repr

/-- The document of an entity. -/
structure EntityShape where
  entity : String
  properties : List PropertySlot
  embedded : List (EmbeddedPlace × EntityShape)

/-- A bare scalar. -/
structure ScalarSlot where
  codec : Codec
  nullable : Bool
  /-- The path of the property that the scalar is, if it is one. -/
  origin : Option String

/-- A field of a record. -/
structure RecordPlace where
  name : String
  /-- Whether the field may be missing or null. -/
  optional : Bool
deriving DecidableEq, Repr

/-- The shape of a row. -/
inductive RowShape where
  | entity (shape : EntityShape)
  | scalar (slot : ScalarSlot)
  | record (slots : List (RecordPlace × RowShape))

/-- A scalar of a row. -/
structure Leaf where
  path : String
  scalarType : ScalarType
  required : Bool
deriving DecidableEq, Repr

/-- The description of a leaf. -/
def Leaf.toDocument (l : Leaf) : Document :=
  .ofFields [("path", .string l.path), ("scalar_type", l.scalarType.toDocument),
    ("required", .bool l.required)]

/-- A path with one more name. -/
def joinPath (path name : String) : String := if path.isEmpty then name else path ++ "." ++ name

mutual

/-- The scalars in the document of an entity at a path. -/
def EntityShape.leavesAt (path : String) : EntityShape → List Leaf
  | ⟨_, properties, embedded⟩ =>
    properties.map (fun p => ⟨joinPath path p.field, p.codec.scalarType, p.required⟩) ++
      embeddedLeaves path embedded

/-- The scalars of embedded entities. -/
def embeddedLeaves (path : String) : List (EmbeddedPlace × EntityShape) → List Leaf
  | [] => []
  | e :: es => partLeaves path e ++ embeddedLeaves path es

/-- The scalars of an embedded entity. -/
def partLeaves (path : String) : EmbeddedPlace × EntityShape → List Leaf
  | (place, shape) =>
    shape.leavesAt (joinPath path place.field ++ if place.many then "[]" else "")

end

/-- The path of a bare scalar, which at the root of a row is that of its property. -/
def ScalarSlot.pathAt (path : String) (s : ScalarSlot) : String :=
  if path.isEmpty then s.origin.getD "$" else path

mutual

/-- The scalars of a shape at a path. -/
def RowShape.leavesAt (path : String) : RowShape → List Leaf
  | .entity shape => shape.leavesAt path
  | .scalar slot => [⟨slot.pathAt path, slot.codec.scalarType, !slot.nullable⟩]
  | .record slots => slotLeaves path slots

/-- The scalars of the fields of a record. -/
def slotLeaves (path : String) : List (RecordPlace × RowShape) → List Leaf
  | [] => []
  | s :: ss => recordFieldLeaves path s ++ slotLeaves path ss

/-- The scalars of a field of a record. -/
def recordFieldLeaves (path : String) : RecordPlace × RowShape → List Leaf
  | (place, shape) => shape.leavesAt (joinPath path place.name)

end

namespace RowShape

/-- The scalars of a row in order. -/
def leaves (s : RowShape) : List Leaf := s.leavesAt ""

/-- The name of the kind of a shape. -/
def kindName : RowShape → String
  | .entity _ => "entity"
  | .scalar _ => "scalar"
  | .record _ => "record"

end RowShape
end EntityQuery
