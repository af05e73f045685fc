import EntityQuery.Document.Basic
import EntityQuery.Scalar.Basic

/-!
# Issues of models

What is wrong with a model, or noteworthy about it, and where.  Most defects make a model unusable;
some are warnings only.
-/

namespace EntityQuery

/-- What is wrong or noteworthy. -/
inductive Defect where
  /-- Two entities have one name. -/
  | duplicateEntity
  /-- Two members of an entity have one name. -/
  | duplicateMember
  /-- Two members of an entity are in one field of the document. -/
  | duplicateField (field other : String)
  /-- Nothing says where the documents of an entity are. -/
  | missingKeyspace
  /-- An owned entity says where its documents are. -/
  | ownedWithKeyspace
  /-- An entity has no key. -/
  | missingKey
  /-- A related entity without a key is looked up by its key. -/
  | missingLookupKey (owner : String)
  /-- No codec is registered for the type of a property. -/
  | unmappedProperty (scalarType : ScalarType)
  /-- No entity has the name of the target. -/
  | unknownTarget (target : String)
  /-- An entity with documents of its own is embedded. -/
  | embeddedRoot (target : String)
  /-- An entity without documents of its own is looked up. -/
  | referenceToOwned (target : String)
  /-- No property has the name of the foreign key. -/
  | missingForeignKey (foreignKey owner : String)
  /-- The foreign key cannot be compared with the key. -/
  | foreignKeyType (foreignKey key : ScalarType)
  /-- A navigation joins documents. -/
  | correlatedLookup (target : String)
  /-- A navigation leads through a third entity. -/
  | multiHop (target via : String)
  /-- Owned entities embed one another without end. -/
  | ownershipCycle (path : List String)
deriving DecidableEq, Repr

namespace Defect

/-- The code of a defect. -/
def code : Defect → String
  | .duplicateEntity => "DUPLICATE_ENTITY"
  | .duplicateMember => "DUPLICATE_MEMBER"
  | .duplicateField .. => "DUPLICATE_FIELD"
  | .missingKeyspace => "MISSING_KEYSPACE"
  | .ownedWithKeyspace => "OWNED_WITH_KEYSPACE"
  | .missingKey | .missingLookupKey _ => "MISSING_KEY"
  | .unmappedProperty _ => "UNMAPPED_PROPERTY"
  | .unknownTarget _ => "UNKNOWN_TARGET"
  | .embeddedRoot _ => "EMBEDDED_ROOT_ENTITY"
  | .referenceToOwned _ => "REFERENCE_TO_OWNED"
  | .missingForeignKey .. => "MISSING_FOREIGN_KEY"
  | .foreignKeyType .. => "FOREIGN_KEY_TYPE_MISMATCH"
  | .correlatedLookup _ => "CORRELATED_LOOKUP"
  | .multiHop .. => "MULTI_HOP_NAVIGATION"
  | .ownershipCycle _ => "OWNERSHIP_CYCLE"

/-- The text of a defect. -/
def message : Defect → String
  | .duplicateEntity => "entity declared more than once"
  | .duplicateMember => "member declared more than once"
  | .duplicateField field other =>
    "document field '" ++ field ++ "' is already mapped by '" ++ other ++ "'"
  | .missingKeyspace => "no keyspace declared and no default bucket configured"
  | .ownedWithKeyspace =>
    "owned entity types are stored inside their owner and cannot name a collection"
  | .missingKey => "root entity has no key property; it cannot be the target of a lookup"
  | .missingLookupKey owner => "'" ++ owner ++ "' has no key property to correlate on"
  | .unmappedProperty t => "no type mapping registered for '" ++ t.name ++ "'"
  | .unknownTarget target => "navigation target '" ++ target ++ "' is not part of the model"
  | .embeddedRoot target =>
    "embeds root entity '" ++ target ++ "'; documents carry a denormalized copy"
  | .referenceToOwned target =>
    "owned entity '" ++ target ++ "' has no collection of its own to look up"
  | .missingForeignKey foreignKey owner =>
    "foreign key '" ++ foreignKey ++ "' is not a property of '" ++ owner ++ "'"
  | .foreignKeyType foreignKey key =>
    "foreign key type '" ++ foreignKey.name ++ "' is not comparable with key type '" ++ key.name ++
      "'"
  | .correlatedLookup target =>
    "resolved by a correlated lookup into '" ++ target ++ "'; costs a join per query"
  | .multiHop target via =>
    "reaches '" ++ target ++ "' through '" ++ via ++
      "'; multi-hop joins have no document-store equivalent"
  | .ownershipCycle path => "owned types embed each other: " ++ " -> ".intercalate path

/-- Whether the defect makes the model unusable. -/
def isError : Defect → Bool
  | .missingKey | .embeddedRoot _ | .correlatedLookup _ => false
  | _ => true

end Defect

/-- A defect and where it is. -/
structure Issue where
  entity : String
  member : Option String
  defect : Defect
deriving DecidableEq, Repr

namespace Issue

/-- Whether the issue makes the model unusable. -/
def isError (i : Issue) : Bool := i.defect.isError

/-- Where the issue is. -/
def location (i : Issue) : String :=
  match i.member with
  | some member => i.entity ++ "." ++ member
  | none => i.entity

/-- The name of the severity. -/
def severity (i : Issue) : String := if i.isError then "ERROR" else "WARNING"

/-- The text of an issue. -/
def text (i : Issue) : String :=
  "[" ++ i.severity ++ "] " ++ i.defect.code ++ " at " ++ i.location ++ ": " ++ i.defect.message

/-- The document of an issue; names are in lower case there. -/
def toDocument (i : Issue) : Document :=
  .ofFields ([("severity", .string (i.severity.map Char.toLower)),
    ("code", .string (i.defect.code.map Char.toLower)), ("entity", .string i.entity),
    ("message", .string i.defect.message)] ++
    match i.member with
    | some member => [("member", .string member)]
    | none => [])

end Issue

/-- A model has issues that make it unusable. -/
structure InvalidModel where
  issues : List Issue
deriving DecidableEq, Repr

namespace InvalidModel

/-- The issues that make the model unusable. -/
def errors (e : InvalidModel) : List Issue := e.issues.filter Issue.isError

/-- The code of the error. -/
def code (_ : InvalidModel) : String := "MODEL_VALIDATION_FAILED"

/-- The text of the error. -/
def message (e : InvalidModel) : String :=
  "model validation failed with " ++ toString e.errors.length ++ " error(s): " ++
    "; ".intercalate (e.errors.map fun i => i.location ++ ": " ++ i.defect.message)

end InvalidModel
end EntityQuery
