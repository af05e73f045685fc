import EntityQuery.Scalar.Codec

/-!
# Why values cannot be bound to a plan
-/

namespace EntityQuery

/-- Why values cannot be bound to the parameters of a plan. -/
inductive BindingError where
  /-- The application supplies no value. -/
  | missingParameter (name : String)
  /-- The query has no constant for the slot. -/
  | missingConstant (slot : Nat)
  /-- A value is of another type than the parameter. -/
  | typeMismatch (name : String) (expected actual : ScalarType)
  /-- A number of rows is no integer from zero on. -/
  | invalidRowCount (name value : String)
  /-- A double is infinite or not a number, so that the store would compare it as a text. -/
  | nonFiniteNumber (name : String) (value : Float)
  /-- A codec refuses the value. -/
  | encode (name : String) (cause : CodecError)

namespace BindingError

/-- The code of an error. -/
def code : BindingError → String
  | .missingParameter _ | .missingConstant _ => "QUERY_MISSING_PARAMETER"
  | .typeMismatch .. => "QUERY_PARAMETER_TYPE"
  | .invalidRowCount .. => "QUERY_INVALID_ROW_COUNT"
  | .nonFiniteNumber .. => "QUERY_NON_FINITE_NUMBER"
  | .encode _ cause => cause.code

/-- The text of an error. -/
def message : BindingError → String
  | .missingParameter name => "no value supplied for parameter '$" ++ name ++ "'"
  | .missingConstant slot => "constant slot " ++ toString slot ++ " was not captured"
  | .typeMismatch name expected actual =>
    "parameter '$" ++ name ++ "' expects '" ++ expected.name ++ "', got '" ++ actual.name ++ "'"
  | .invalidRowCount name value =>
    "row count '$" ++ name ++ "' must be a non-negative integer, got " ++ value
  | .nonFiniteNumber name value =>
    "parameter '$" ++ name ++ "' is " ++ DecimalLayout.message.text value ++
      ", which the store cannot compare as a number"
  | .encode name cause => "cannot encode parameter '$" ++ name ++ "': " ++ cause.message

end BindingError
end EntityQuery
