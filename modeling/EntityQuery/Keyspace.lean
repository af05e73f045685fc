/-!
# Keyspaces

The address of a collection: a bucket, a scope of it, and a collection in that scope.
-/

namespace EntityQuery

/-- The address of a collection. -/
structure Keyspace where
  bucket : String
  scope : String
  collection : String
deriving DecidableEq, Repr

namespace Keyspace

/-- The parts of an address from the outside in. -/
def segments (k : Keyspace) : List String := [k.bucket, k.scope, k.collection]

/-- The dotted text of an address. -/
def dotted (k : Keyspace) : String := k.bucket ++ "." ++ k.scope ++ "." ++ k.collection

end Keyspace

/-- The scope that is meant where none is named. -/
def defaultScope : String := "_default"

end EntityQuery
