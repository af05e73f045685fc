import EntityQuery.Evaluation.Statement
import EntityQuery.Statement.Text
import EntityQuery.Store.Error

/-!
# A store in memory

The store keeps collections of documents, answers requests for pages of the rows of a statement,
and counts what it is asked for.  Faults can be queued: each one strikes one request.

**Paging.**  A page ends with a token, the number of the rows up to there; a request that presents
the token gets the rows behind.  `MemoryStore.page` evaluates the statement anew for every page.

**Time.**  A request takes the latency of the store, and longer if a delay strikes it.  A caller
waits for a limited time: `MemoryStore.serve` says what the store does in that time, how much of it
passes, and what answer there is, if there is one.
-/

namespace EntityQuery

/-- What strikes a request. -/
inductive Fault where
  /-- The connection breaks. -/
  | connectivity
  /-- The credentials are refused. -/
  | authentication
  /-- The statement is refused with a message. -/
  | statement (message : String)
  /-- The answer comes later, by a number of milliseconds. -/
  | delay (milliseconds : Nat)
deriving DecidableEq, Repr

/-- A request for a page of the rows of a statement. -/
structure PageRequest where
  statement : Statement
  /-- The values of the placeholders. -/
  parameters : List (String × Document)
  /-- The greatest number of rows of a page; zero counts as one. -/
  pageSize : Nat

/-- A page of rows, with the token of the next page unless it is the last one. -/
structure Page where
  rows : List Document
  continuation : Option String

/-- The state of a store in memory. -/
structure MemoryStore where
  collections : Collections := .empty
  /-- The user and password that a connection must present. -/
  credentials : Option (String × String) := none
  /-- The number of milliseconds that a request takes. -/
  latency : Nat := 0
  /-- The faults that strike the next requests. -/
  faults : List Fault := []
  /-- The texts of the statements of all requests, the latest first. -/
  received : List String := []
  /-- The number of requests. -/
  requests : Nat := 0
  /-- The number of attempts to connect. -/
  connections : Nat := 0

/-- The number of rows that a token stands for: decimal digits, perhaps after a plus sign, below
2^64. -/
def offsetOfToken? (token : String) : Option Nat :=
  let digits := match token.toList with
    | '+' :: rest => rest
    | all => all
  if digits.isEmpty || !digits.all Char.isDigit then none
  else
    let n := digits.foldl (fun n c => n * 10 + (c.toNat - '0'.toNat)) 0
    if n ≤ uint64Max then some n else none

/-- The page behind a number of rows. -/
def Page.ofRows (rows : List Document) (offset pageSize : Nat) : Page :=
  let stop := min (offset + max pageSize 1) rows.length
  ⟨(rows.take stop).drop offset, if stop < rows.length then some (toString stop) else none⟩

/-- How a failure of the evaluation is reported. -/
def ClientError.ofEvaluation : EvalError → ClientError
  | .divisionOverflow => .breakdown
  | e => .statement (e.code ++ ": " ++ e.message)

namespace MemoryStore

/-- The store at the beginning. -/
def empty : MemoryStore := {}

/-- The texts of the statements of all requests in order. -/
def statements (s : MemoryStore) : List String := s.received.reverse

/-- Queues a fault. -/
def inject (s : MemoryStore) (fault : Fault) : MemoryStore :=
  { s with faults := s.faults ++ [fault] }

/-- Makes a keyspace exist. -/
def create (s : MemoryStore) (k : Keyspace) : MemoryStore :=
  { s with collections := s.collections.create k }

/-- Adds documents to a keyspace. -/
def insert (s : MemoryStore) (k : Keyspace) (documents : List Document) : MemoryStore :=
  { s with collections := s.collections.insert k documents }

/-- The documents of a keyspace. -/
def documents (s : MemoryStore) (k : Keyspace) : List Document := s.collections.documents k

/-- The rows that an undisturbed request is about. -/
def rows (s : MemoryStore) (r : PageRequest) : Except ClientError (List Document) :=
  (r.statement.run ⟨s.collections, r.parameters⟩).mapError .ofEvaluation

/-- The answer to an undisturbed request. -/
def page (s : MemoryStore) (r : PageRequest) (token : Option String) : Except ClientError Page := do
  let offset ← match token with
    | none => .ok 0
    | some t =>
      match offsetOfToken? t with
      | some n => .ok n
      | none => .error (.statement ("invalid continuation token '" ++ t ++ "'"))
  .ok (.ofRows (← s.rows r) offset r.pageSize)

/-- What has become of a request when its answer is there or the caller stops waiting. -/
structure Attempt where
  store : MemoryStore
  /-- The milliseconds that have passed. -/
  elapsed : Nat
  /-- The answer, if it came in time. -/
  answer : Option (Except ClientError Page)

/-- Notes the arrival of a request. -/
def receive (s : MemoryStore) (r : PageRequest) : MemoryStore :=
  { s with requests := s.requests + 1, received := r.statement.text :: s.received }

/-- What happens to a request for which the caller waits `patience` milliseconds.  An answer that
comes exactly then is in time.  A fault is used up only by a request that lasts longer than the
latency of the store or as long. -/
def serve (s : MemoryStore) (r : PageRequest) (token : Option String) (patience : Nat) : Attempt :=
  let s := s.receive r
  if patience < s.latency then ⟨s, patience, none⟩
  else
    match s.faults with
    | [] => ⟨s, s.latency, some (s.page r token)⟩
    | fault :: faults =>
      let s := { s with faults }
      match fault with
      | .connectivity =>
        ⟨s, s.latency, some (.error (.connectivity "memory" "connection reset by peer"))⟩
      | .authentication =>
        ⟨s, s.latency, some (.error (.authentication "" "session credentials rejected"))⟩
      | .statement message => ⟨s, s.latency, some (.error (.statement message))⟩
      | .delay d =>
        if patience < s.latency + d then ⟨s, patience, none⟩
        else ⟨s, s.latency + d, some (s.page r token)⟩

/-- Whether the store admits a user. -/
def admits (s : MemoryStore) (username password : String) : Bool :=
  match s.credentials with
  | some expected => expected == (username, password)
  | none => true

/-- An attempt to connect. -/
def connect (s : MemoryStore) (username password : String) :
    MemoryStore × Except ClientError Unit :=
  ({ s with connections := s.connections + 1 },
    if s.admits username password then .ok ()
    else .error (.authentication username "invalid credentials"))

end MemoryStore
end EntityQuery
