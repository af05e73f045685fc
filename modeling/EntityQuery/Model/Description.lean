import EntityQuery.Model.Basic
import EntityQuery.Scalar.Description

/-!
# Descriptions of models

* `Model.read` reads the text of a model, and `Model.toDocument` writes a model.
-/

namespace EntityQuery

/-! ## Reading -/

/-- Reads a keyspace. -/
def Keyspace.ofWritten? (w : Written) : Option Keyspace := do
  let parts ← w.parts? ["bucket", "scope", "collection"]
  let bucket ← partOf parts "bucket" Written.text?
  let scope ← partOr parts "scope" defaultScope Written.text?
  let collection ← partOf parts "collection" Written.text?
  some ⟨bucket, scope, collection⟩

/-- Reads a default keyspace. -/
def DefaultKeyspace.ofWritten? (w : Written) : Option DefaultKeyspace := do
  let parts ← w.parts? ["bucket", "scope"]
  let bucket ← partIf parts "bucket" Written.text?
  let scope ← partOr parts "scope" defaultScope Written.text?
  some ⟨bucket, scope⟩

/-- Reads a property. -/
def Property.ofWritten? (w : Written) : Option Property := do
  let parts ← w.parts? ["name", "field", "type", "nullable", "key"]
  let name ← partOf parts "name" Written.text?
  let field ← partIf parts "field" Written.text?
  let scalarType ← partOf parts "type" ScalarType.ofWritten?
  let nullable ← partOr parts "nullable" false Written.flag?
  let isKey ← partOr parts "key" false Written.flag?
  some { name, field, scalarType, nullable, isKey }

/-- The names of the kinds of navigations in order. -/
def NavigationKind.tags : List String := ["embedded", "reference", "collection", "through"]

/-- Reads the name of a kind of navigation; its place in the order of kinds does as well. -/
def NavigationKind.tag? : Written → Option String
  | .string (some tag) => some tag
  | w => w.count?.bind fun n => NavigationKind.tags[n]?

/-- Reads the kind of a navigation among the parts of the navigation. -/
def NavigationKind.ofParts? (parts : Parts) : Option NavigationKind := do
  let own ← knownFields? ["kind"] parts
  match ← partOf own "kind" NavigationKind.tag? with
  | "embedded" => do
    let own ← knownFields? ["many"] parts
    (partOr own "many" false Written.flag?).map .embedded
  | "reference" => do
    let own ← knownFields? ["foreign_key"] parts
    (partOf own "foreign_key" Written.text?).map .reference
  | "collection" => do
    let own ← knownFields? ["foreign_key"] parts
    (partOf own "foreign_key" Written.text?).map .collection
  | "through" => do
    let own ← knownFields? ["via"] parts
    (partOf own "via" Written.text?).map .through
  | _ => none

/-- Reads a navigation.  The parts of its kind stand among its own, so it is always an object, and
every part of it has to denote a document. -/
def Navigation.ofWritten? : Written → Option Navigation
  | .object fields => do
    let names := ["name", "target", "field", "optional"]
    let parts ← knownFields? names fields
    let others := fields.filter fun f => !names.contains f.1
    let _ ← others.mapM fun f => f.2.document?
    let name ← partOf parts "name" Written.text?
    let target ← partOf parts "target" Written.text?
    let field ← partIf parts "field" Written.text?
    let kind ← NavigationKind.ofParts? others
    let optional ← partOr parts "optional" false Written.flag?
    some { name, target, field, kind, optional }
  | _ => none

/-- Reads an entity. -/
def Entity.ofWritten? (w : Written) : Option Entity := do
  let parts ← w.parts? ["name", "keyspace", "collection", "owned", "properties", "navigations"]
  let name ← partOf parts "name" Written.text?
  let keyspace ← partIf parts "keyspace" Keyspace.ofWritten?
  let collection ← partIf parts "collection" Written.text?
  let owned ← partOr parts "owned" false Written.flag?
  let properties ← partOr parts "properties" [] (Written.listOf? Property.ofWritten?)
  let navigations ← partOr parts "navigations" [] (Written.listOf? Navigation.ofWritten?)
  some { name, keyspace, collection, owned, properties, navigations }

/-- Reads a model. -/
def Model.ofWritten? (w : Written) : Option Model := do
  let parts ← w.parts? ["entities"]
  let entities ← partOr parts "entities" [] (Written.listOf? Entity.ofWritten?)
  some ⟨entities⟩

/-- A text describes no model. -/
structure MalformedModel where
  /-- Where the text comes from. -/
  origin : String
deriving DecidableEq, Repr

namespace MalformedModel

/-- The code of the error. -/
def code (_ : MalformedModel) : String := "MODEL_LOAD_PARSE"

/-- The text of the error. -/
def message (e : MalformedModel) : String :=
  "malformed model " ++ e.origin ++ ": not the description of a model"

end MalformedModel

/-- Reads the text of a model. -/
def Model.read (origin text : String) : Except MalformedModel Model :=
  match (Written.ofText? text).bind Model.ofWritten? with
  | some m => .ok m
  | none => .error ⟨origin⟩

/-! ## Writing -/

/-- A field that is left out if there is nothing to write. -/
def optionalField (name : String) : Option Document → List (String × Document)
  | some d => [(name, d)]
  | none => []

/-- The description of a keyspace. -/
def Keyspace.toDocument (k : Keyspace) : Document :=
  .ofFields
    [("bucket", .string k.bucket), ("scope", .string k.scope), ("collection", .string k.collection)]

/-- The description of a default keyspace. -/
def DefaultKeyspace.toDocument (d : DefaultKeyspace) : Document :=
  .ofFields [("bucket", (d.bucket.map Document.string).getD .null), ("scope", .string d.scope)]

/-- The description of a property. -/
def Property.toDocument (p : Property) : Document :=
  .ofFields ([("name", .string p.name), ("type", p.scalarType.toDocument),
    ("nullable", .bool p.nullable), ("key", .bool p.isKey)] ++
    optionalField "field" (p.field.map .string))

/-- The parts of a description that tell the kind of a navigation. -/
def NavigationKind.toFields (k : NavigationKind) : List (String × Document) :=
  ("kind", .string k.name) ::
    match k with
    | .embedded many => [("many", .bool many)]
    | .reference foreignKey => [("foreign_key", .string foreignKey)]
    | .collection foreignKey => [("foreign_key", .string foreignKey)]
    | .through via => [("via", .string via)]

/-- The description of a navigation. -/
def Navigation.toDocument (n : Navigation) : Document :=
  .ofFields ([("name", .string n.name), ("target", .string n.target),
    ("optional", .bool n.optional)] ++ n.kind.toFields ++
    optionalField "field" (n.field.map .string))

/-- The description of an entity. -/
def Entity.toDocument (e : Entity) : Document :=
  .ofFields ([("name", .string e.name), ("owned", .bool e.owned),
    ("properties", .array (e.properties.map Property.toDocument)),
    ("navigations", .array (e.navigations.map Navigation.toDocument))] ++
    optionalField "keyspace" (e.keyspace.map Keyspace.toDocument) ++
    optionalField "collection" (e.collection.map .string))

/-- The description of a model. -/
def Model.toDocument (m : Model) : Document :=
  .ofFields [("entities", .array (m.entities.map Entity.toDocument))]

end EntityQuery
