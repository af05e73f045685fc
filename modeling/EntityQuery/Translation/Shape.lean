import EntityQuery.Result.Shape
import EntityQuery.Translation.Formula

/-!
# The shape of translated rows

* `Translator.entityShape` is the shape of the document of an entity, with what it embeds.  A chain
  of entities that embed one another visits none twice, so the number of entities bounds its length.
* `Translator.rowShape` is the shape of the rows that a frame yields.
-/

namespace EntityQuery

/-- A computation that may find a query to have no translation. -/
abbrev Shaping := Except TranslationError

namespace Translator

/-- The codec of a type. -/
def shapeCodec (tr : Translator) (t : ScalarType) : Shaping Codec :=
  (tr.registry.find t).mapError .unsupportedType

/-- The slot of a property. -/
def propertySlot (tr : Translator) (p : Property) : Shaping PropertySlot := do
  let codec ← tr.shapeCodec p.scalarType
  .ok ⟨p.name, p.fieldName, codec, !p.nullable⟩

/-- The shape of an entity inside of the entities in `outer`.  At most `depth` entities are inside
one another. -/
def entityShapeWithin (tr : Translator) : Nat → List String → String → Shaping EntityShape
  | 0, _, name => .error (.unsupported "embedded" ("'" ++ name ++ "' embeds itself"))
  | depth + 1, outer, name =>
    if outer.contains name then
      .error (.unsupported "embedded" ("'" ++ name ++ "' embeds itself"))
    else
      match tr.model.entity? name with
      | none => .error (.unsupported "entity" ("unknown entity '" ++ name ++ "'"))
      | some e => do
        let properties ← e.properties.mapM tr.propertySlot
        let embedded ← e.navigations.filterMapM fun n =>
          match n.kind with
          | .embedded many => do
            let shape ← tr.entityShapeWithin depth (name :: outer) n.target
            .ok (some (⟨n.name, n.fieldName, many, n.optional⟩, shape))
          | _ => .ok none
        .ok ⟨e.name, properties, embedded⟩

/-- The shape of the document of an entity. -/
def entityShape (tr : Translator) (name : String) : Shaping EntityShape :=
  tr.entityShapeWithin (tr.model.model.entities.length + 1) [] name

/-- The slot of a scalar. -/
def scalarSlot (tr : Translator) (s : YieldedScalar) : Shaping ScalarSlot := do
  let codec ← tr.shapeCodec s.scalarType
  .ok ⟨codec, s.nullable, s.origin⟩

/-- The slot of a field of a record. -/
def recordSlot (tr : Translator) (field : String × FieldYield) :
    Shaping (RecordPlace × RowShape) :=
  match field.2 with
  | .scalar s => do
    let slot ← tr.scalarSlot s
    .ok (⟨field.1, false⟩, .scalar slot)
  | .entity b => do
    let shape ← tr.entityShape b.entity
    .ok (⟨field.1, b.optional⟩, .entity shape)

/-- The shape of the rows that are yielded. -/
def rowShape (tr : Translator) : Yield → Shaping RowShape
  | .entity b => do
    let shape ← tr.entityShape b.entity
    .ok (.entity shape)
  | .scalar s => do
    let slot ← tr.scalarSlot s
    .ok (.scalar slot)
  | .record fields => do
    let slots ← fields.mapM tr.recordSlot
    .ok (.record slots)

end Translator
end EntityQuery
