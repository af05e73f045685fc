import EntityQuery.Execution.Context
import EntityQuery.Store.Memory

/-!
# Cursors

A cursor stands for the rows of a request that are still to come.  The store is asked for a page
only when a row is asked for that has not come yet.

* `Cursor.fetch` asks for the next page, or for all pages that are left.
* `Cursor.next` is the next row.  An error ends the rows.

**Cancellation.**  Whether a query is canceled already is the argument `canceled`; `wait` is the
number of milliseconds after which it will be.  A page that comes within that time is still taken,
and of two ends that come at the same time the one that the request brings about counts.
-/

namespace EntityQuery

/-- The rows of a request that are still to come. -/
structure Cursor where
  request : PageRequest
  mode : ExecutionMode
  /-- The number of milliseconds that a page may take. -/
  timeout : Nat
  /-- The rows that have come and have not been asked for. -/
  buffer : List Document := []
  /-- The token of the next page. -/
  token : Option String := none
  /-- Whether the last page has come. -/
  exhausted : Bool := false
  /-- Whether an error has ended the rows. -/
  failed : Bool := false

/-- What has come of asking for a row. -/
structure Draw where
  cursor : Cursor
  store : MemoryStore
  /-- The row or an error, or nothing at the end. -/
  row : Option (Except ClientError Document)

namespace Cursor

/-- The cursor after a page. -/
def take (c : Cursor) (p : Page) : Cursor :=
  { c with
    buffer := c.buffer ++ p.rows
    token := p.continuation
    exhausted := p.continuation.isNone }

/-- The time for which a page is awaited. -/
def patience (c : Cursor) (wait : Option Nat) : Nat := (wait.map (min c.timeout)).getD c.timeout

/-- Why a page has not come in the time for which it was awaited. -/
def giveUp (c : Cursor) (wait : Option Nat) : ClientError :=
  if c.patience wait < c.timeout then .canceled else .timeout c.timeout

/-- The cursor after the answer to a request for a page. -/
def receive (c : Cursor) (wait : Option Nat) : Option (Except ClientError Page) →
    Except ClientError Cursor
  | some (.ok page) => .ok (c.take page)
  | some (.error e) => .error e
  | none => .error (c.giveUp wait)

/-- Asks for at most the given number of pages. -/
def fetchPages : Nat → Cursor → MemoryStore → Option Nat → MemoryStore × Except ClientError Cursor
  | 0, c, s, _ => (s, .ok c)
  | n + 1, c, s, wait =>
    if c.exhausted then (s, .ok c)
    else
      let attempt := s.serve c.request c.token (c.patience wait)
      match c.receive wait attempt.answer with
      | .error e => (attempt.store, .error e)
      | .ok c => fetchPages n c attempt.store (wait.map (· - attempt.elapsed))

/-- The number of rows that the statement of a cursor has in a store. -/
def rowCount (c : Cursor) (s : MemoryStore) : Nat :=
  match s.rows c.request with
  | .ok rows => rows.length
  | .error _ => 0

/-- Asks for the next page, or for all pages that are left; no page but the last one is empty. -/
def fetch (c : Cursor) (s : MemoryStore) (wait : Option Nat) :
    MemoryStore × Except ClientError Cursor :=
  match c.mode with
  | .streaming => fetchPages 1 c s wait
  | .buffered => fetchPages (c.rowCount s + 1) c s wait

/-- The first row that has come, if there is one. -/
def draw (c : Cursor) (s : MemoryStore) : Draw :=
  match c.buffer with
  | [] => ⟨c, s, none⟩
  | row :: rows => ⟨{ c with buffer := rows }, s, some (.ok row)⟩

/-- The end of the rows by an error. -/
def fail (c : Cursor) (s : MemoryStore) (e : ClientError) : Draw :=
  ⟨{ c with failed := true }, s, some (.error e)⟩

/-- Asks for the next row. -/
def next (c : Cursor) (s : MemoryStore) (canceled : Bool) (wait : Option Nat) : Draw :=
  if c.failed then ⟨c, s, none⟩
  else if canceled then c.fail s .canceled
  else if c.exhausted || !c.buffer.isEmpty then c.draw s
  else
    match c.fetch s wait with
    | (s, .error e) => c.fail s e
    | (s, .ok c) => c.draw s

end Cursor
end EntityQuery
