import EntityQuery.Failure

/-!
# Why a command fails

* `CommandError.code` and `CommandError.message` are what the answer of a command shows.
* `CommandError.details` are the issues of a model that cannot be used.
-/

namespace EntityQuery

/-- A file that a command reads. -/
inductive InputFile where
  | options
  | model
  | data
deriving DecidableEq, Repr

/-- Why the documents of a store cannot be used. -/
inductive DataError where
  | malformed
  /-- The documents are not given by keyspace. -/
  | notByKeyspace
  /-- A name has other than three parts, or an empty one. -/
  | keyspace (name : String)
  /-- The documents of a keyspace are no array. -/
  | notAnArray (name : String)
deriving DecidableEq, Repr

/-- The text of an error in the documents of a store. -/
def DataError.message : DataError → String
  | .malformed => "Invalid data JSON: not a document"
  | .notByKeyspace => "data must be an object keyed by keyspace"
  | .keyspace name =>
    "invalid keyspace '" ++ name ++ "', expected bucket.scope.collection"
  | .notAnArray name => "documents for '" ++ name ++ "' must be an array"

/-- Why a request cannot be used. -/
inductive RequestError where
  | empty
  | malformed
  /-- The request is no description of a query. -/
  | description
  /-- A constant without a type is null. -/
  | untypedNull
  | emptyCoalesce
  /-- A constant is not of its type. -/
  | constant (scalarType : ScalarType) (cause : CodecError)
  /-- The value of a parameter is not of its type. -/
  | parameter (name : String) (cause : CodecError)
deriving DecidableEq, Repr

/-- The text of an error in a request. -/
def RequestError.message : RequestError → String
  | .empty => "Empty input"
  | .malformed => "JSON error: not a document"
  | .description => "invalid query description: unexpected form"
  | .untypedNull => "untyped null constant; use \x7b\"null\": \"<type>\"\x7d"
  | .emptyCoalesce => "coalesce needs at least one argument"
  | .constant t cause => "invalid " ++ t.name ++ " constant: " ++ cause.message
  | .parameter name cause => "parameter '" ++ name ++ "': " ++ cause.message

/-- Why a command fails. -/
inductive CommandError where
  /-- A file cannot be read. -/
  | unreadable (file : InputFile) (path reason : String)
  | options (cause : OptionsError)
  | data (cause : DataError)
  | request (cause : RequestError)
  | failure (cause : Failure)

namespace CommandError

/-- The code of an error. -/
def code : CommandError → String
  | .unreadable .model _ _ => "MODEL_LOAD_IO"
  | .unreadable _ _ _ | .options _ | .data _ => "CLI_CONFIG_ERROR"
  | .request _ => "CLI_INVALID_REQUEST"
  | .failure cause => cause.code

/-- The message of an error. -/
def message : CommandError → String
  | .unreadable .options path reason => "failed to read options: " ++ path ++ ": " ++ reason
  | .unreadable .model path reason => "failed to read model file " ++ path ++ ": " ++ reason
  | .unreadable .data _ reason => "Failed to read data: " ++ reason
  | .options cause => cause.message
  | .data cause => cause.message
  | .request cause => cause.message
  | .failure cause => cause.message

/-- The code and the message. -/
def text (e : CommandError) : String := e.code ++ ": " ++ e.message

/-- The issues of a model that cannot be used. -/
def details : CommandError → Option Document
  | .failure (.invalidModel cause) => some (.array (cause.issues.map Issue.toDocument))
  | _ => none

/-- The answer to a command that fails. -/
def toDocument (e : CommandError) : Document :=
  .ofFields ([("status", .string "error"), ("code", .string e.code),
    ("message", .string e.message)] ++ optionalField "details" e.details)

end CommandError
end EntityQuery
