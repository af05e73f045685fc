import EntityQuery.Command.Arguments
import EntityQuery.Command.Description
import EntityQuery.Provider.Session

/-!
# Answers of commands

A command is given the texts of files, and answers with a document.

* `Command.answer` is what a command finds.
* `response` is the answer as it is written.
-/

namespace EntityQuery

/-- The text of a file, or why it cannot be read, by the path. -/
abbrev Files := String → Except String String

/-- Reads a request. -/
def readRequest (text : String) : Except CommandError Document :=
  if isBlankText text then .error (.request .empty)
  else
    match Document.ofText? text with
    | some d => .ok d
    | none => .error (.request .malformed)

/-- The answer to a command, as it is written. -/
def response : Except CommandError Document → Document
  | .ok d => .ofFields [("status", .string "ok"), ("data", d)]
  | .error e => e.toDocument

namespace Files

/-- The text of a file. -/
def text (files : Files) (file : InputFile) (path : String) : Except CommandError String :=
  (files path).mapError (.unreadable file path)

/-- The options of a file. -/
def options (files : Files) : Option String → Except CommandError Options
  | none => .ok {}
  | some path => do
    let text ← files.text .options path
    (Options.read text).mapError .options

/-- The provider for the model of a file. -/
def provider (files : Files) (model : String) (options : Option String) :
    Except CommandError Provider := do
  let o ← files.options options
  let text ← files.text .model model
  let m ← (Model.read model text).mapError fun e => .failure (.malformedModel e)
  (Provider.create m o).mapError .failure

/-- The keyspace of a dotted name. -/
def keyspaceOfName (name : String) : Except DataError Keyspace :=
  match name.splitOn "." with
  | [bucket, scope, collection] =>
    if bucket.isEmpty || scope.isEmpty || collection.isEmpty then .error (.keyspace name)
    else .ok ⟨bucket, scope, collection⟩
  | _ => .error (.keyspace name)

/-- The store with the documents of a keyspace. -/
def addDocuments (s : MemoryStore) (field : String × Document) : Except DataError MemoryStore := do
  let k ← keyspaceOfName field.1
  match field.2 with
  | .array documents => .ok (s.insert k documents)
  | _ => .error (.notAnArray field.1)

/-- The store with the documents of a text. -/
def storeOfText (text : String) : Except DataError MemoryStore :=
  match Document.ofText? text with
  | none => .error .malformed
  | some (.object fields) => fields.foldlM addDocuments .empty
  | some _ => .error .notByKeyspace

/-- The store with the documents of a file. -/
def store (files : Files) (path : String) : Except CommandError MemoryStore := do
  let text ← files.text .data path
  (storeOfText text).mapError .data

end Files

/-- What is known of the entities of a model. -/
def ValidModel.summary (m : ValidModel) : Document :=
  .ofFields
    [("valid", .bool true),
      ("entities", .array (m.model.entities.map fun e => .ofFields
        [("name", .string e.name),
          ("keyspace", ((m.keyspace? e.name).map fun k => Document.string k.dotted).getD .null)])),
      ("warnings", .array (m.warnings.map Issue.toDocument))]

/-- Adds the values of the parameters of a plan to a context. -/
def suppliedContext (p : Provider) (parameters : Fields) (c : Context) :
    List ParameterEntry → Except CommandError Context
  | [] => .ok c
  | entry :: entries =>
    match entry.origin, Fields.get? entry.name parameters with
    | .named, some d => do
      let codec ← (p.options.registry.find entry.scalarType).mapError fun e =>
        CommandError.failure (.translation (.unsupportedType e))
      let value ← (codec.decode d).mapError fun e => .request (.parameter entry.name e)
      suppliedContext p parameters (c.withParameter entry.name value) entries
    | _, _ => suppliedContext p parameters c entries

/-- The rows and the failures of single rows, or the first failure of another kind. -/
def sortItems : List (Except Failure Materialized) →
    Except Failure (List Document × List Document)
  | [] => .ok ([], [])
  | .ok item :: items => do
    let (rows, errors) ← sortItems items
    .ok (item.toDocument :: rows, errors)
  | .error f :: items =>
    if f.isItemLevel then do
      let (rows, errors) ← sortItems items
      .ok (rows, .ofFields [("code", .string f.code), ("message", .string f.message)] :: errors)
    else .error f

/-- The connection to the documents in memory. -/
def memoryConnection (o : Options) : ConnectionInfo :=
  { connectionString := "memory://entityquery", username := "entityquery"
    bucket := o.defaults.bucket.getD "default" }

/-- Runs the query of a description over a store. -/
def QueryDescription.run (d : QueryDescription) (p : Provider) (store : MemoryStore) :
    Except CommandError Document := do
  let q ← d.query p
  let session : Session := { provider := p, store, pool := some {} }
  let (session, plan) := session.plan q
  let plan ← plan.mapError CommandError.failure
  let (session, signal) := session.freshSignal
  let c ← suppliedContext p d.parameters (p.options.context signal) plan.entries
  let (session, connection) := session.connect (memoryConnection p.options)
  let _ ← connection.mapError CommandError.failure
  let (session, context) := session.addContext c
  let (session, results) := session.execute q context
  let results ← results.mapError CommandError.failure
  let (session, items) := session.collect results
  let (rows, errors) ← (sortItems items).mapError CommandError.failure
  .ok (.ofFields
    [("statement", .string plan.text), ("state", .string (session.context context).state.name),
      ("rows", .array rows), ("errors", .array errors),
      ("metrics", session.provider.counters.toDocument)])

namespace Command

/-- Whether a command takes a request. -/
def takesRequest : Command → Bool
  | .validate .. => false
  | _ => true

/-- The paths of the files that a command reads. -/
def paths : Command → List String
  | .validate model options => model :: options.toList
  | .translate model options => model :: options.toList
  | .run model data options => model :: data :: options.toList

/-- What a command finds. -/
def answer (c : Command) (files : Files) (request : Document) : Except CommandError Document :=
  match c with
  | .validate model options => do
    let p ← files.provider model options
    .ok p.model.summary
  | .translate model options => do
    let p ← files.provider model options
    let d ← QueryDescription.ofDocument request
    let q ← d.query p
    match (p.plan q).2 with
    | .ok plan => .ok (Explanation.accepted plan).toDocument
    | .error e => .error (.failure e)
  | .run model data options => do
    let store ← files.store data
    let p ← files.provider model options
    let d ← QueryDescription.ofDocument request
    d.run p store

end Command
end EntityQuery
