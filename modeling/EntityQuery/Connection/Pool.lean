import EntityQuery.Connection.Info
import EntityQuery.Store.Memory

/-!
# Pools of connections

A pool keeps the connections that have been opened.  Descriptions with the same address, bucket and
user share one.

* `Pool.acquire` gives the connection of a description, and connects only if there is none yet.
-/

namespace EntityQuery

/-- A connection. -/
structure Connection where
  /-- A number that tells connections apart. -/
  number : Nat
  connectionString : String
  bucket : String
  scope : String
deriving DecidableEq, Repr

/-- What descriptions that share a connection have in common. -/
structure ConnectionKey where
  connectionString : String
  bucket : String
  username : String
deriving DecidableEq, Repr

/-- The key of a description. -/
def ConnectionInfo.key (i : ConnectionInfo) : ConnectionKey :=
  ⟨i.connectionString, i.bucket, i.username⟩

/-- The connections that are open. -/
structure Pool where
  connections : List (ConnectionKey × Connection) := []
deriving Repr

namespace Pool

/-- The connection of a key. -/
def find? (p : Pool) (key : ConnectionKey) : Option Connection :=
  (p.connections.find? fun c => c.1 == key).map Prod.snd

/-- The pool with a further connection. -/
def add (p : Pool) (i : ConnectionInfo) : Pool × Connection :=
  let c : Connection := ⟨p.connections.length, i.connectionString, i.bucket, i.scope⟩
  (⟨p.connections ++ [(i.key, c)]⟩, c)

/-- The connection of a description to a store. -/
def acquire (p : Pool) (s : MemoryStore) (i : ConnectionInfo) :
    Pool × MemoryStore × Except ClientError Connection :=
  match i.check with
  | .error e => (p, s, .error e)
  | .ok () =>
    match p.find? i.key with
    | some c => (p, s, .ok c)
    | none =>
      match s.connect i.username i.password with
      | (s, .error e) => (p, s, .error e)
      | (s, .ok ()) =>
        let (p, c) := p.add i
        (p, s, .ok c)

end Pool
end EntityQuery
