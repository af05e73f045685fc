import EntityQuery.Result.Shape
import EntityQuery.Scalar.Description
import EntityQuery.Scalar.Registry

/-!
# Descriptions of shapes

A shape may be written as a document.  It names types, and the codecs are those of a registry.

* `RowShape.ofDocument` reads a shape.
-/

namespace EntityQuery

/-- Why a document describes no shape. -/
inductive ShapeError where
  | malformed
  /-- A type has no codec. -/
  | unsupported (e : UnsupportedType)
deriving DecidableEq, Repr

/-- A reading of a shape. -/
abbrev ShapeReading := Except ShapeError

/-- Something that has to be there. -/
def ShapeReading.present {α : Type} : Option α → ShapeReading α
  | some a => .ok a
  | none => .error .malformed

namespace Registry

/-- The codec of a described type. -/
def codecOf (r : Registry) (d : Document) : ShapeReading Codec := do
  let t ← ShapeReading.present (ScalarType.ofWritten? (.ofDocument d))
  (r.find t).mapError .unsupported

/-- Reads a property. -/
def propertySlot (r : Registry) : Document → ShapeReading PropertySlot
  | .array [.string name, .string field, t, .bool required] => do
    let codec ← r.codecOf t
    .ok ⟨name, field, codec, required⟩
  | _ => .error .malformed

/-- Reads a scalar, with the path of its property if it has one. -/
def scalarSlot (r : Registry) : Document → ShapeReading ScalarSlot
  | .array [t, .bool nullable] => do
    let codec ← r.codecOf t
    .ok ⟨codec, nullable, none⟩
  | .array [t, .bool nullable, origin] => do
    let codec ← r.codecOf t
    .ok ⟨codec, nullable, origin.string?⟩
  | _ => .error .malformed

end Registry

/-- The items of a field; an absent field is an empty list. -/
def itemsAt (name : String) (d : Document) : ShapeReading (List Document) :=
  match d.field? name with
  | none => .ok []
  | some part => ShapeReading.present part.items?

/-- Reads an embedded entity, given how to read its shape. -/
def EmbeddedPlace.ofDocument (shape : Document → ShapeReading EntityShape) :
    Document → ShapeReading (EmbeddedPlace × EntityShape)
  | .array [.string name, .string field, .bool many, .bool optional, d] => do
    let entity ← shape d
    .ok (⟨name, field, many, optional⟩, entity)
  | _ => .error .malformed

/-- Reads a field of a record, given how to read its shape. -/
def RecordPlace.ofDocument (shape : Document → ShapeReading RowShape) :
    Document → ShapeReading (RecordPlace × RowShape)
  | .array [.string name, .bool optional, d] => do
    let shape ← shape d
    .ok (⟨name, optional⟩, shape)
  | _ => .error .malformed

/-- Reads an entity with at most so many entities inside one another. -/
def EntityShape.ofDocumentWithin (r : Registry) : Nat → Document → ShapeReading EntityShape
  | 0, _ => .error .malformed
  | depth + 1, d => do
    let name ← ShapeReading.present ((d.field? "name").bind Document.string?)
    let properties ← (← itemsAt "properties" d).mapM r.propertySlot
    let embedded ← (← itemsAt "embedded" d).mapM
      (EmbeddedPlace.ofDocument (ofDocumentWithin r depth))
    .ok ⟨name, properties, embedded⟩

/-- Reads a shape with at most so many shapes inside one another. -/
def RowShape.ofDocumentWithin (r : Registry) : Nat → Document → ShapeReading RowShape
  | depth + 1, .object [("entity", d)] => (EntityShape.ofDocumentWithin r depth d).map .entity
  | _ + 1, .object [("scalar", d)] => (r.scalarSlot d).map .scalar
  | depth + 1, .object [("record", .array slots)] => do
    let slots ← slots.mapM (RecordPlace.ofDocument (ofDocumentWithin r depth))
    .ok (.record slots)
  | _, _ => .error .malformed

/-- Reads a shape.  There is at most one shape on each level of its document. -/
def RowShape.ofDocument (r : Registry) (d : Document) : ShapeReading RowShape :=
  ofDocumentWithin r d.depth d

end EntityQuery
