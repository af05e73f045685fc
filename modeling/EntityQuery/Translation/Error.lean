import EntityQuery.Scalar.Registry

/-!
# Why a query has no translation
-/

namespace EntityQuery

/-- Why a query has no translation. -/
inductive TranslationError where
  /-- A construct of the query cannot be expressed. -/
  | unsupported (construct reason : String)
  /-- A type has no codec. -/
  | unsupportedType (cause : UnsupportedType)
deriving DecidableEq, Repr

namespace TranslationError

/-- The code of an error. -/
def code : TranslationError → String
  | .unsupported .. => "QUERY_UNSUPPORTED_CONSTRUCT"
  | .unsupportedType cause => cause.code

/-- The text of an error. -/
def message : TranslationError → String
  | .unsupported construct reason =>
    "unsupported query construct '" ++ construct ++ "': " ++ reason
  | .unsupportedType cause => cause.message

end TranslationError
end EntityQuery
