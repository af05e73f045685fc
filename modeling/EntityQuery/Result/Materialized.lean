import EntityQuery.Result.Error
import EntityQuery.Result.Shape

/-!
# Materialized results

* `RowShape.materialize` makes a result of a row.
* `Materialized.toDocument` is the plain document of a result, by the names of properties and
  fields.
-/

namespace EntityQuery

/-- A result. -/
inductive Materialized where
  | null
  | scalar (value : Value)
  | entity (name : String) (fields : List (String × Materialized))
  /-- The embedded entities of an array. -/
  | list (items : List Materialized)
  | record (fields : List (String × Materialized))

namespace Materialized

/-- Whether the result is null. -/
def isNull : Materialized → Bool
  | .null => true
  | _ => false

/-- The value of a scalar. -/
def value? : Materialized → Option Value
  | .scalar v => some v
  | _ => none

/-- A property of an entity, or a field of a record. -/
def get? (name : String) : Materialized → Option Materialized
  | .entity _ fields => (fields.find? fun f => f.1 == name).map Prod.snd
  | .record fields => (fields.find? fun f => f.1 == name).map Prod.snd
  | _ => none

mutual

/-- The plain document of a result. -/
def toDocument : Materialized → Document
  | .null => .null
  | .scalar v => v.plain
  | .entity _ fields => .ofFields (fieldsToDocuments fields)
  | .list items => .array (itemsToDocuments items)
  | .record fields => .ofFields (fieldsToDocuments fields)

/-- The plain documents of fields. -/
def fieldsToDocuments : List (String × Materialized) → List (String × Document)
  | [] => []
  | f :: fs => fieldToDocument f :: fieldsToDocuments fs

/-- The plain document of a field. -/
def fieldToDocument : String × Materialized → String × Document
  | (name, m) => (name, m.toDocument)

/-- The plain documents of items. -/
def itemsToDocuments : List Materialized → List Document
  | [] => []
  | m :: ms => m.toDocument :: itemsToDocuments ms

end

end Materialized

/-- A computation that materializes. -/
abbrev Materializing := Except MaterializationError

/-- A path as messages show it. -/
def displayPath (path : String) : String := if path.isEmpty then "$" else path

/-- The value that a codec makes of what is at a path; what is missing is null. -/
def decodeAt (codec : Codec) (path : String) : Option Document → Materializing Value
  | some d => (codec.decode d).mapError fun e => .decode path e
  | none => .ok .null

/-- A bare scalar at a path. -/
def ScalarSlot.materialize (s : ScalarSlot) (path : String) (d : Option Document) :
    Materializing Materialized := do
  let value ← decodeAt s.codec (displayPath path) d
  if !value.isNull then .ok (.scalar value)
  else if s.nullable then .ok .null
  else .error (.missing (displayPath path))

/-- A property in the document of an entity at a path. -/
def PropertySlot.materialize (path : String) (fields : Fields) (p : PropertySlot) :
    Materializing (String × Materialized) := do
  let here := joinPath path p.field
  let value ← decodeAt p.codec here (Fields.get? p.field fields)
  if !value.isNull then .ok (p.name, .scalar value)
  else if p.required then .error (.missing here)
  else .ok (p.name, .null)

/-- A field that is neither missing nor null. -/
def valuedField (name : String) (fields : Fields) : Option Document :=
  (Fields.get? name fields).filter fun d => !d.isNull

mutual

/-- An entity at a path. -/
def EntityShape.materialize : EntityShape → String → Document → Materializing Materialized
  | ⟨name, properties, embedded⟩, path, d =>
    match d with
    | .object fields => do
      let own ← properties.mapM (PropertySlot.materialize path fields)
      let parts ← materializeEmbedded path fields embedded
      .ok (.entity name (own ++ parts))
    | d => .error (.structural (displayPath path) "an object" (.ofDocument d))

/-- The embedded entities of a document. -/
def materializeEmbedded (path : String) (fields : Fields) :
    List (EmbeddedPlace × EntityShape) → Materializing (List (String × Materialized))
  | [] => .ok []
  | e :: es => do
    let part ← materializePart path fields e
    let parts ← materializeEmbedded path fields es
    .ok (part :: parts)

/-- An embedded entity, or the array of them.  An array that is absent is empty. -/
def materializePart (path : String) (fields : Fields) :
    EmbeddedPlace × EntityShape → Materializing (String × Materialized)
  | (place, shape) => do
    let here := joinPath path place.field
    match valuedField place.field fields with
    | none =>
      if place.many then .ok (place.name, .list [])
      else if place.optional then .ok (place.name, .null)
      else .error (.missing here)
    | some d =>
      if place.many then
        match d with
        | .array items => do
          let entities ← items.zipIdx.mapM fun (item, i) =>
            shape.materialize (here ++ "[" ++ toString i ++ "]") item
          .ok (place.name, .list entities)
        | d => .error (.structural here "an array" (.ofDocument d))
      else do
        let entity ← shape.materialize here d
        .ok (place.name, entity)

end

mutual

/-- The result that a row is. -/
def RowShape.materialize : RowShape → Document → Materializing Materialized
  | .entity shape, d => if d.isNull then .error (.missing "$") else shape.materialize "" d
  | .scalar slot, d => slot.materialize "" (some d)
  | .record slots, d =>
    match d with
    | .object fields => (materializeSlots fields slots).map .record
    | d => .error (.structural "$" "an object" (.ofDocument d))

/-- The fields of a record. -/
def materializeSlots (fields : Fields) :
    List (RecordPlace × RowShape) → Materializing (List (String × Materialized))
  | [] => .ok []
  | s :: ss => do
    let first ← materializeSlot fields s
    let rest ← materializeSlots fields ss
    .ok (first :: rest)

/-- A field of a record.  The paths inside a record that is a field start anew. -/
def materializeSlot (fields : Fields) :
    RecordPlace × RowShape → Materializing (String × Materialized)
  | (place, shape) => do
    let value := valuedField place.name fields
    let result ← match shape with
      | .scalar slot => slot.materialize place.name value
      | .entity entity =>
        match value with
        | some d => entity.materialize place.name d
        | none => if place.optional then .ok .null else .error (.missing place.name)
      | .record slots =>
        match value with
        | some d => RowShape.materialize (.record slots) d
        | none => if place.optional then .ok .null else .error (.missing place.name)
    .ok (place.name, result)

end

end EntityQuery
