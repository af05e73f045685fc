import EntityQuery.Keyspace
import EntityQuery.Scalar.Basic

/-!
# Models

A model says which entities an application knows, which properties they have, where the properties
are in documents, and how the entities are related.

* `Entity` is a type of documents, or of objects inside documents if it is owned.
* `Navigation` leads from an entity to a related one.
* `DefaultKeyspace.resolve` is the keyspace of an entity.
-/

namespace EntityQuery

/-- A scalar property of an entity. -/
structure Property where
  name : String
  /-- The field of the document, if it has another name than the property. -/
  field : Option String := none
  scalarType : ScalarType
  nullable : Bool := false
  /-- Whether the property identifies the entity. -/
  isKey : Bool := false
deriving DecidableEq, Repr

/-- The field of the document that holds a property. -/
def Property.fieldName (p : Property) : String := p.field.getD p.name

/-- How a related entity is found. -/
inductive NavigationKind where
  /-- It is part of the document, as an object or as an array of objects. -/
  | embedded (many : Bool)
  /-- A property of the source holds the key of the target. -/
  | reference (foreignKey : String)
  /-- A property of the target holds the key of the source. -/
  | collection (foreignKey : String)
  /-- A third entity stands between the two. -/
  | through (via : String)
deriving DecidableEq, Repr

/-- The name of a kind of navigation. -/
def NavigationKind.name : NavigationKind → String
  | .embedded _ => "embedded"
  | .reference _ => "reference"
  | .collection _ => "collection"
  | .through _ => "through"

/-- A relation from an entity to another. -/
structure Navigation where
  name : String
  /-- The name of the related entity. -/
  target : String
  /-- The field of the document that holds an embedded target, if it has another name. -/
  field : Option String := none
  kind : NavigationKind
  /-- Whether the target may be absent. -/
  optional : Bool := false
deriving DecidableEq, Repr

namespace Navigation

/-- The field of the document that holds an embedded target. -/
def fieldName (n : Navigation) : String := n.field.getD n.name

/-- Whether the target is part of the document. -/
def isEmbedded (n : Navigation) : Bool :=
  match n.kind with
  | .embedded _ => true
  | _ => false

end Navigation

/-- A type of documents, or of objects inside documents. -/
structure Entity where
  name : String
  keyspace : Option Keyspace := none
  /-- The collection in the default bucket and scope, if it has another name. -/
  collection : Option String := none
  /-- Whether the entity only occurs inside the documents of others. -/
  owned : Bool := false
  properties : List Property := []
  navigations : List Navigation := []
deriving DecidableEq, Repr

namespace Entity

/-- The first property of a name. -/
def property? (e : Entity) (name : String) : Option Property :=
  e.properties.find? fun p => p.name == name

/-- The first navigation of a name. -/
def navigation? (e : Entity) (name : String) : Option Navigation :=
  e.navigations.find? fun n => n.name == name

/-- The first key. -/
def key? (e : Entity) : Option Property := e.properties.find? Property.isKey

/-- Whether the entity has documents of its own. -/
def isRoot (e : Entity) : Bool := !e.owned

end Entity

/-- The entities of an application. -/
structure Model where
  entities : List Entity := []
deriving DecidableEq, Repr

/-- The first entity of a name. -/
def Model.entity? (m : Model) (name : String) : Option Entity :=
  m.entities.find? fun e => e.name == name

/-- Where the documents of entities are that do not say so themselves. -/
structure DefaultKeyspace where
  /-- Without a bucket every entity has to name its keyspace. -/
  bucket : Option String := none
  scope : String := defaultScope
deriving DecidableEq, Repr

/-- The keyspace of an entity; an owned entity has none. -/
def DefaultKeyspace.resolve (d : DefaultKeyspace) (e : Entity) : Option Keyspace :=
  if e.owned then none
  else
    match e.keyspace with
    | some k => some k
    | none => d.bucket.map fun bucket => ⟨bucket, d.scope, e.collection.getD e.name⟩

end EntityQuery
