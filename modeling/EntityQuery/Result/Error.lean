import EntityQuery.Scalar.Codec

/-!
# Why a row cannot be materialized

* `MaterializationError.isFatal` tells a fault of the application, which ends a sequence of results,
  from a fault of one document.
-/

namespace EntityQuery

/-- Why a row, or what is at a path in it, cannot be materialized. -/
inductive MaterializationError where
  /-- A required value is missing or null. -/
  | missing (path : String)
  /-- A document is not of the expected form. -/
  | structural (path expected : String) (found : DocumentKind)
  /-- A codec refuses a document. -/
  | decode (path : String) (cause : CodecError)
  /-- A result is not of the type that the application asks for. -/
  | convert (path reason : String)
deriving DecidableEq, Repr

namespace MaterializationError

/-- The code of an error. -/
def code : MaterializationError → String
  | .missing _ => "MATERIALIZATION_MISSING_FIELD"
  | .structural .. => "MATERIALIZATION_STRUCTURE"
  | .decode _ cause => cause.code
  | .convert .. => "MATERIALIZATION_CONVERT"

/-- The text of an error. -/
def message : MaterializationError → String
  | .missing path => "required value at '" ++ path ++ "' is missing or null"
  | .structural path expected found =>
    "expected " ++ expected ++ " at '" ++ path ++ "', found " ++ found.name
  | .decode path cause => "cannot decode '" ++ path ++ "': " ++ cause.message
  | .convert path reason =>
    "cannot convert '" ++ path ++ "' into the requested type: " ++ reason

/-- Whether the fault is one of the application. -/
def isFatal : MaterializationError → Bool
  | .decode _ cause => cause.isFatal
  | _ => false

/-- Where the error is. -/
def path : MaterializationError → String
  | .missing path => path
  | .structural path _ _ => path
  | .decode path _ => path
  | .convert path _ => path

end MaterializationError
end EntityQuery
