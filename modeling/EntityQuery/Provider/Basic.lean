import EntityQuery.Execution.Event
import EntityQuery.Plan.Cache
import EntityQuery.Plan.Explanation
import EntityQuery.Query.EntitySet

/-!
# Providers

A provider makes plans of the queries over a model, and keeps them.  It counts what becomes of the
queries, and reports it.

* `Provider.create` makes a provider of a model and options.
* `Provider.plan` is the plan of a query, an earlier one of the same key if there is one.
* `Provider.settle` notes what has become of a row.
-/

namespace EntityQuery

/-- The counters after the end of a query. -/
def Counters.countEnd (c : Counters) : QueryState → Counters
  | .completed => { c with completed := c.completed + 1 }
  | .canceled => { c with canceled := c.canceled + 1 }
  | _ => { c with faulted := c.faulted + 1 }

/-- The event of the end of a query. -/
def Event.ofEnd : QueryState → Event
  | .completed => .queryCompleted
  | .canceled => .queryCanceled
  | _ => .queryFaulted

/-- What makes and keeps the plans for a model. -/
structure Provider where
  model : ValidModel
  options : Options
  plans : PlanCache Plan := {}
  /-- The number of plans that have been compiled. -/
  compiled : Nat := 0
  counters : Counters := {}
  /-- What has been reported, the latest first. -/
  reports : List Event := []

namespace Provider

/-- Reports an event. -/
def report (p : Provider) (e : Event) : Provider := { p with reports := e :: p.reports }

/-- Makes a provider.  What is noteworthy about the model is reported. -/
def create (m : Model) (o : Options) : Except Failure Provider := do
  o.check.mapError .options
  let valid ← (m.validate o.registry o.defaults).mapError .invalidModel
  let p : Provider := { model := valid, options := o, plans := { capacity := o.cacheCapacity } }
  .ok ((valid.warnings.foldl (fun p _ => p.report .modelWarning) p).report .modelValidated)

/-- The set of an entity with documents of its own. -/
def entitySet (p : Provider) (name : String) : Except Failure EntitySet :=
  (p.model.entitySet name).mapError .query

/-- The translation of a query. -/
def translate (p : Provider) (q : Query) : Except Failure Translation :=
  (Translator.translate ⟨p.model, p.options.registry, p.options.functions⟩ q).mapError .translation

/-- Compiles a query into a plan of a key. -/
def compile (p : Provider) (q : Query) (key : PlanKey) : Except Failure Plan := do
  let t ← p.translate q
  (Plan.compile p.options.registry key p.compiled t).mapError fun e =>
    .translation (.unsupportedType e)

/-- Notes that a plan of the cache is used. -/
def countHit (p : Provider) : Provider :=
  Provider.report
    { p with counters := { p.counters with cacheHits := p.counters.cacheHits + 1 } } .planCacheHit

/-- Notes that a query has been translated. -/
def countMiss (p : Provider) : Provider :=
  let c := { p.counters with
    cacheMisses := p.counters.cacheMisses + 1, translated := p.counters.translated + 1 }
  (Provider.report { p with counters := c } .planCacheMiss).report .queryTranslated

/-- Notes that a query has no plan. -/
def countRejection (p : Provider) : Provider :=
  Provider.report
    { p with counters := { p.counters with rejected := p.counters.rejected + 1 } } .queryRejected

/-- The plan of a query.  Queries that differ in the values of constants only have the same one, as
long as it is kept. -/
def plan (p : Provider) (q : Query) : Provider × Except Failure Plan :=
  let key := PlanKey.ofQuery q
  let (plans, kept) := p.plans.get key
  let p := { p with plans }
  match kept with
  | some plan => (p.countHit, .ok plan)
  | none =>
    match p.compile q key with
    | .error e => (p.countRejection, .error e)
    | .ok plan =>
      let (plans, plan) := p.plans.insert key plan
      (Provider.countMiss { p with plans, compiled := p.compiled + 1 }, .ok plan)

/-- Explains what the provider makes of a query. -/
def explain (p : Provider) (q : Query) : Provider × Explanation :=
  match p.plan q with
  | (p, .ok plan) => (p, .accepted plan)
  | (p, .error e) => (p, .rejected e.code e.message)

/-- Counts and reports the end of a query, unless its context has ended before. -/
def finish (p : Provider) (c : Context) (ending : QueryState) : Provider × Context :=
  match c.finish ending with
  | some c => (Provider.report { p with counters := p.counters.countEnd ending } (.ofEnd ending), c)
  | none => (p, c)

/-- Counts what has become of a row.  A failure with which the results do not end is reported. -/
def countItem (p : Provider) (o : Outcome) : Provider :=
  match o.item with
  | some (.ok _) =>
    { p with counters := { p.counters with materialized := p.counters.materialized + 1 } }
  | some (.error (.materialization _)) =>
    let p := { p with counters := { p.counters with failures := p.counters.failures + 1 } }
    if o.ending.isNone then p.report .itemFailed else p
  | _ => p

/-- Notes what has become of a row of a query in a context. -/
def settle (p : Provider) (c : Context) (o : Outcome) : Provider × Context :=
  match o.ending with
  | some ending => (p.countItem o).finish c ending
  | none => (p.countItem o, c)

end Provider
end EntityQuery
