import EntityQuery.Connection.Pool
import EntityQuery.Execution.Cursor
import EntityQuery.Provider.Basic

/-!
# Sessions

An application at work: a provider, the store that it talks to, the contexts of its queries, and the
results that it has not read to the end.  Contexts, signals and results have numbers.

* `Session.execute` starts a query in a context.
* `Session.next` is the next item of results, `Session.collect` are all of them.
* `Session.cancel` cancels the query of a context.

**Contexts.**  A context serves one execution.  A query that is executed in a context in use is
refused; if it has no plan, it ends the context all the same.
-/

namespace EntityQuery

/-- The items of a query that are still to come. -/
structure Results where
  cursor : Cursor
  shape : RowShape
  /-- The number of the context. -/
  context : Nat
  /-- Whether the query has ended. -/
  done : Bool := false

/-- An application at work. -/
structure Session where
  provider : Provider
  store : MemoryStore := .empty
  /-- The connections, if there is a way to connect. -/
  pool : Option Pool := none
  signals : Signals := {}
  contexts : List Context := []
  results : List Results := []

namespace Session

/-- Opens a connection, or finds an open one. -/
def connect (s : Session) (i : ConnectionInfo) : Session × Except Failure Connection :=
  match s.pool with
  | none => (s, .error (.client (.invalidConnection "no transport configured")))
  | some pool =>
    match pool.acquire s.store i with
    | (pool, store, .ok c) =>
      ({ s with pool := some pool, store, provider := s.provider.report .sessionOpened }, .ok c)
    | (pool, store, .error e) => ({ s with pool := some pool, store }, .error (.client e))

/-- A further signal, and its number. -/
def freshSignal (s : Session) : Session × Nat :=
  let (signals, number) := s.signals.fresh
  ({ s with signals }, number)

/-- Cancels the queries of a signal. -/
def raise (s : Session) (signal : Nat) : Session :=
  { s with signals := s.signals.cancel signal }

/-- A further context, and its number. -/
def addContext (s : Session) (c : Context) : Session × Nat :=
  ({ s with contexts := s.contexts ++ [c] }, s.contexts.length)

/-- The context of a number. -/
def context (s : Session) (number : Nat) : Context := s.contexts.getD number {}

/-- The session after a change of a context. -/
def setContext (s : Session) (number : Nat) (c : Context) : Session :=
  { s with contexts := s.contexts.set number c }

/-- Cancels the query of a context. -/
def cancel (s : Session) (context : Nat) : Session := s.raise (s.context context).signal

/-- Whether the query of a context is canceled, or will be as soon as it looks. -/
def isCanceled (s : Session) (context : Nat) : Bool :=
  s.signals.isCanceled (s.context context).signal

/-- The plan of a query. -/
def plan (s : Session) (q : Query) : Session × Except Failure Plan :=
  let (provider, plan) := s.provider.plan q
  ({ s with provider }, plan)

/-- Ends a context because its query has no plan.  This is counted and not reported. -/
def abandon (s : Session) (context : Nat) : Session :=
  match (s.context context).finish .faulted with
  | some c =>
    let counters := s.provider.counters.countEnd .faulted
    { s.setContext context c with provider := { s.provider with counters } }
  | none => s

/-- Ends a context because values cannot be bound.  This is counted and reported, whether the
context has ended before or not. -/
def rejectBinding (s : Session) (context : Nat) : Session :=
  let c := s.context context
  let counters := s.provider.counters.countEnd .faulted
  { s.setContext context ((c.finish .faulted).getD c) with
    provider := Provider.report { s.provider with counters } .queryFaulted }

/-- The cursor of a plan with bound parameters in a context. -/
def cursor (p : Plan) (parameters : List (String × Document)) (c : Context) : Cursor :=
  { request := ⟨p.statement, parameters, c.pageSize⟩, mode := c.mode, timeout := c.timeout }

/-- Starts a plan in a context, and gives the number of the results. -/
def start (s : Session) (p : Plan) (constants : List Captured) (context : Nat) :
    Session × Except Failure Nat :=
  match (s.context context).transition .executing with
  | .error e => (s, .error (.transition e))
  | .ok c =>
    let s := s.setContext context c
    match p.bind constants c with
    | .error e => (s.rejectBinding context, .error (.binding e))
    | .ok parameters =>
      let r : Results := { cursor := cursor p parameters c, shape := p.shape, context }
      ({ s with
        results := s.results ++ [r]
        provider := s.provider.report .statementSubmitted }, .ok s.results.length)

/-- Starts a query in a context, and gives the number of its results. -/
def execute (s : Session) (q : Query) (context : Nat) : Session × Except Failure Nat :=
  match s.plan q with
  | (s, .error e) => (s.abandon context, .error e)
  | (s, .ok p) => s.start p q.constants context

/-- The session after a row has been drawn. -/
def settle (s : Session) (number : Nat) (r : Results) (d : Draw) (o : Outcome) : Session :=
  let (provider, c) := s.provider.settle (s.context r.context) o
  let r := { r with cursor := d.cursor, done := o.ending.isSome }
  { s.setContext r.context c with provider, store := d.store, results := s.results.set number r }

/-- The next item of results; `wait` is the number of milliseconds after which their query is
canceled, if it is. -/
def next (s : Session) (number : Nat) (wait : Option Nat) :
    Session × Option (Except Failure Materialized) :=
  match s.results[number]? with
  | none => (s, none)
  | some r =>
    if r.done then (s, none)
    else
      let d := r.cursor.next s.store (s.isCanceled r.context) wait
      let o := r.shape.outcome (s.context r.context).failFast d.row
      (s.settle number r d o, o.item)

/-- The next item of results whose query is canceled after a number of milliseconds. -/
def nextBefore (s : Session) (number : Nat) (wait : Nat) :
    Session × Option (Except Failure Materialized) :=
  match s.results[number]? with
  | none => (s, none)
  | some r =>
    let (s, item) := s.next number (some wait)
    (s.cancel r.context, item)

/-- At most `n` items of results, and whether the end comes after fewer. -/
def pull (s : Session) (number : Nat) : Nat → Session × List (Except Failure Materialized) × Bool
  | 0 => (s, [], false)
  | n + 1 =>
    match s.next number none with
    | (s, none) => (s, [], true)
    | (s, some item) =>
      let (s, items, ended) := s.pull number n
      (s, item :: items, ended)

/-- More items than results can have: one for each row, and one for an error at the end. -/
def itemBound (s : Session) (number : Nat) : Nat :=
  match s.results[number]? with
  | some r => r.cursor.buffer.length + r.cursor.rowCount s.store + 2
  | none => 1

/-- All items of results. -/
def collect (s : Session) (number : Nat) : Session × List (Except Failure Materialized) :=
  let (s, items, _) := s.pull number (s.itemBound number)
  (s, items)

/-- At most `n` items of results, each of which is read, up to the first error. -/
def readWhile {α : Type} (read : Materialized → Except Failure α) (s : Session) (number : Nat) :
    Nat → Session × Except Failure (List α)
  | 0 => (s, .ok [])
  | n + 1 =>
    match s.next number none with
    | (s, none) => (s, .ok [])
    | (s, some item) =>
      match item >>= read with
      | .error e => (s, .error e)
      | .ok a =>
        let (s, rest) := readWhile read s number n
        (s, rest.map (a :: ·))

/-- All items of results, each of which is read, or the first error. -/
def tryCollect {α : Type} (read : Materialized → Except Failure α) (s : Session) (number : Nat) :
    Session × Except Failure (List α) :=
  readWhile read s number (s.itemBound number)

end Session
end EntityQuery
