import EntityQuery.Failure
import EntityQuery.Result.Materialized

/-!
# Events, counters and outcomes

What a provider reports of the life of queries, what it counts, and what an application gets for a
row that a store sends.

* `RowShape.outcome` says what the item of a row is, and whether the results end with it.
-/

namespace EntityQuery

/-- Something that a provider reports. -/
inductive Event where
  | modelValidated
  | modelWarning
  | sessionOpened
  | queryTranslated
  | queryRejected
  | planCacheHit
  | planCacheMiss
  | statementSubmitted
  | queryCompleted
  | queryCanceled
  | queryFaulted
  /-- A row cannot be materialized, and the results go on. -/
  | itemFailed
deriving DecidableEq, Repr

namespace Event

/-- All events. -/
def all : List Event :=
  [.modelValidated, .modelWarning, .sessionOpened, .queryTranslated, .queryRejected, .planCacheHit,
    .planCacheMiss, .statementSubmitted, .queryCompleted, .queryCanceled, .queryFaulted,
    .itemFailed]

/-- The name of an event. -/
def name : Event → String
  | .modelValidated => "MODEL_VALIDATED"
  | .modelWarning => "MODEL_WARNING"
  | .sessionOpened => "SESSION_OPENED"
  | .queryTranslated => "QUERY_TRANSLATED"
  | .queryRejected => "QUERY_REJECTED"
  | .planCacheHit => "PLAN_CACHE_HIT"
  | .planCacheMiss => "PLAN_CACHE_MISS"
  | .statementSubmitted => "STATEMENT_SUBMITTED"
  | .queryCompleted => "QUERY_COMPLETE"
  | .queryCanceled => "QUERY_CANCELED"
  | .queryFaulted => "QUERY_FAULTED"
  | .itemFailed => "ITEM_FAILED"

/-- Whether the event reports a failure. -/
def isFailure : Event → Bool
  | .queryRejected | .queryFaulted | .itemFailed => true
  | _ => false

/-- Whether the event occurs for every query. -/
def isVerbose : Event → Bool
  | .planCacheHit | .planCacheMiss | .statementSubmitted => true
  | _ => false

/-- The level at which an event is reported. -/
def level (e : Event) : String :=
  if e.isFailure then "WARN" else if e.isVerbose then "DEBUG" else "INFO"

end Event

/-! ## Counters -/

/-- The counters of a provider. -/
structure Counters where
  translated : Nat := 0
  rejected : Nat := 0
  completed : Nat := 0
  canceled : Nat := 0
  faulted : Nat := 0
  cacheHits : Nat := 0
  cacheMisses : Nat := 0
  materialized : Nat := 0
  failures : Nat := 0
deriving DecidableEq, Repr

/-- The document of the counters. -/
def Counters.toDocument (c : Counters) : Document :=
  .ofFields
    [("queries_translated", .ofInt c.translated), ("queries_rejected", .ofInt c.rejected),
      ("queries_completed", .ofInt c.completed), ("queries_canceled", .ofInt c.canceled),
      ("queries_faulted", .ofInt c.faulted), ("plan_cache_hits", .ofInt c.cacheHits),
      ("plan_cache_misses", .ofInt c.cacheMisses),
      ("documents_materialized", .ofInt c.materialized),
      ("materialization_failures", .ofInt c.failures)]

/-! ## Outcomes -/

/-- What becomes of a row. -/
structure Outcome where
  /-- The item, or nothing at the end. -/
  item : Option (Except Failure Materialized)
  /-- How the query ends, if it ends. -/
  ending : Option QueryState

/-- What becomes of a row of a shape, of an error of the store, or of the end of the rows.  A row
that cannot be materialized ends the results if the application asks for it with `failFast`, or if
the fault is not that of the row. -/
def RowShape.outcome (shape : RowShape) (failFast : Bool) :
    Option (Except ClientError Document) → Outcome
  | none => ⟨none, some .completed⟩
  | some (.error e) =>
    ⟨some (.error (.client e)), some (if e = .canceled then .canceled else .faulted)⟩
  | some (.ok row) =>
    match shape.materialize row with
    | .ok item => ⟨some (.ok item), none⟩
    | .error e =>
      ⟨some (.error (.materialization e)),
        if e.isFatal || failFast then some .faulted else none⟩

end EntityQuery
