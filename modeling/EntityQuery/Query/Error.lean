/-!
# Why a query cannot be built

A query refers to something that the model, or the elements of the query before, do not have.
-/

namespace EntityQuery

/-- Why a query cannot be built. -/
inductive QueryError where
  | unknownEntity (name : String)
  /-- An owned entity has no documents of its own. -/
  | notQueryable (entity : String)
  | unknownMember (entity member : String)
  | notScalar (entity member : String)
  /-- A path leads through an embedded array. -/
  | collectionInPath (entity member : String)
  | unsupportedNavigation (entity navigation reason : String)
  /-- A field is asked of elements that are no records. -/
  | notARecord (element : String)
  /-- The value is asked of elements that are no scalars. -/
  | notAScalar (element : String)
  | unknownField (field : String)
deriving DecidableEq, Repr

namespace QueryError

/-- The code of an error. -/
def code : QueryError → String
  | .unknownEntity _ => "QUERY_UNKNOWN_ENTITY"
  | .notQueryable _ => "QUERY_NOT_QUERYABLE"
  | .unknownMember .. => "QUERY_UNKNOWN_MEMBER"
  | .notScalar .. => "QUERY_NOT_SCALAR"
  | .collectionInPath .. => "QUERY_COLLECTION_IN_PATH"
  | .unsupportedNavigation .. => "QUERY_UNSUPPORTED_NAVIGATION"
  | .notARecord _ => "QUERY_NOT_A_RECORD"
  | .notAScalar _ => "QUERY_NOT_A_SCALAR"
  | .unknownField _ => "QUERY_UNKNOWN_FIELD"

/-- The text of an error. -/
def message : QueryError → String
  | .unknownEntity name => "unknown entity '" ++ name ++ "'"
  | .notQueryable entity =>
    "entity '" ++ entity ++ "' is owned and can only be reached through its owner"
  | .unknownMember entity member => "'" ++ entity ++ "' has no member '" ++ member ++ "'"
  | .notScalar entity member => "'" ++ entity ++ "." ++ member ++ "' is not a scalar property"
  | .collectionInPath entity member =>
    "'" ++ entity ++ "." ++ member ++
      "' is an embedded collection; correlate it before reading its members"
  | .unsupportedNavigation entity navigation reason =>
    "navigation '" ++ entity ++ "." ++ navigation ++ "' cannot be correlated: " ++ reason
  | .notARecord element => "element is a " ++ element ++ ", not a record"
  | .notAScalar element => "element is a " ++ element ++ ", not a scalar"
  | .unknownField field => "record has no field '" ++ field ++ "'"

end QueryError
end EntityQuery
