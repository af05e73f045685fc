import EntityQuery.Document.Description
import EntityQuery.Keyspace
import EntityQuery.Store.Error
import EntityQuery.Text.Blank
import EntityQuery.Text.Quoted

/-!
# Descriptions of connections

Where a store is, which bucket of it is meant, and who connects.

* `ConnectionInfo.check` says whether a description is usable.
* `ConnectionInfo.toDocument` and `ConnectionInfo.text` never show the password.
-/

namespace EntityQuery

/-- Where a store is and who connects to it. -/
structure ConnectionInfo where
  /-- The address of the store, such as `memory://name`. -/
  connectionString : String
  username : String
  password : String := ""
  bucket : String
  scope : String := defaultScope
deriving DecidableEq, Repr

namespace ConnectionInfo

/-- The beginnings of addresses. -/
def schemes : List String := ["couchbase://", "couchbases://", "memory://"]

/-- Whether a text begins with the address of a host. -/
def hasHost (address : List Char) : Bool :=
  match address with
  | c :: _ => !isBlank c && c != '/'
  | [] => false

/-- Whether a text is the address of a store, or begins with one. -/
def isAddress (address : String) : Bool :=
  schemes.any fun scheme =>
    scheme.toList.isPrefixOf address.toList && hasHost (address.toList.drop scheme.length)

/-- Asks for a usable description. -/
def check (i : ConnectionInfo) : Except ClientError Unit :=
  if !isAddress i.connectionString then
    .error (.invalidConnection ("unsupported connection string '" ++ i.connectionString ++ "'"))
  else if isBlankText i.bucket then .error (.invalidConnection "bucket must not be empty")
  else if isBlankText i.username then .error (.invalidConnection "username must not be empty")
  else if isBlankText i.scope then .error (.invalidConnection "scope must not be empty")
  else .ok ()

/-- Reads a description. -/
def ofWritten? (w : Written) : Option ConnectionInfo := do
  let parts ← w.parts? ["connection_string", "username", "password", "bucket", "scope"]
  let connectionString ← partOf parts "connection_string" Written.text?
  let username ← partOf parts "username" Written.text?
  let password ← partOr parts "password" "" Written.text?
  let bucket ← partOf parts "bucket" Written.text?
  let scope ← partOr parts "scope" defaultScope Written.text?
  some { connectionString, username, password, bucket, scope }

/-- Reads and checks the description in a text. -/
def read (origin text : String) : Except ClientError ConnectionInfo :=
  match (Written.ofText? text).bind ofWritten? with
  | some i => do
    i.check
    .ok i
  | none => .error (.invalidConnection (origin ++ ": not the description of a connection"))

/-- The document of a description, without the password. -/
def toDocument (i : ConnectionInfo) : Document :=
  .ofFields
    [("connection_string", .string i.connectionString), ("username", .string i.username),
      ("bucket", .string i.bucket), ("scope", .string i.scope)]

/-- The text of a description, in which something else stands for the password. -/
def text (i : ConnectionInfo) : String :=
  let fields :=
    [("connection_string", i.connectionString), ("username", i.username),
      ("password", "<redacted>"), ("bucket", i.bucket), ("scope", i.scope)]
  "ConnectionInfo \x7b " ++ ", ".intercalate (fields.map fun f => f.1 ++ ": " ++ quoted f.2) ++
    " \x7d"

end ConnectionInfo
end EntityQuery
