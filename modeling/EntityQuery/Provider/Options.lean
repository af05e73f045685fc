import EntityQuery.Execution.Description
import EntityQuery.Model.Description
import EntityQuery.Scalar.Registry
import EntityQuery.Text.Blank
import EntityQuery.Translation.FunctionTable

/-!
# Options of providers

* `Options.check` says whether options are in range.
* `Options.read` reads options that are written as a document, and checks them.
* `Options.context` is the context of a query that is executed under the options.
-/

namespace EntityQuery

/-- Why options cannot be used. -/
inductive OptionsError where
  /-- A text is no document of options. -/
  | malformed
  /-- The page size is out of range. -/
  | pageSize (given : Nat)
  /-- Requests are given no time. -/
  | noTime
  /-- No plan can be kept. -/
  | noCapacity
  | blankBucket
  | blankScope
deriving DecidableEq, Repr

/-- The greatest page size. -/
def maxPageSize : Nat := 10000

namespace OptionsError

/-- The code of an error. -/
def code : OptionsError → String
  | .malformed => "CONFIG_PARSE"
  | _ => "CONFIG_INVALID"

/-- What is wrong. -/
def reason : OptionsError → String
  | .malformed => "unexpected form"
  | .pageSize given =>
    "page_size must be between 1 and " ++ toString maxPageSize ++ ", got " ++ toString given
  | .noTime => "request_timeout_ms must be > 0"
  | .noCapacity => "plan_cache_capacity must be > 0"
  | .blankBucket => "default bucket must not be empty"
  | .blankScope => "default scope must not be empty"

/-- The text of an error. -/
def message : OptionsError → String
  | .malformed => "invalid options JSON: " ++ reason .malformed
  | e => "invalid option: " ++ e.reason

end OptionsError

/-- The greatest number of plans that are kept unless an application says otherwise. -/
def defaultCacheCapacity : Nat := 1024

/-- What an application decides for all its queries. -/
structure Options where
  defaults : DefaultKeyspace := {}
  mode : ExecutionMode := .streaming
  /-- Whether the first row that cannot be materialized ends the results. -/
  failFast : Bool := false
  pageSize : Nat := defaultPageSize
  /-- The number of milliseconds that a request may take. -/
  timeout : Nat := defaultTimeout
  /-- The greatest number of plans that are kept. -/
  cacheCapacity : Nat := defaultCacheCapacity
  registry : Registry := .standard
  functions : FunctionTable := .standard

namespace Options

/-- Asks for options in range. -/
def check (o : Options) : Except OptionsError Unit :=
  if o.pageSize = 0 ∨ maxPageSize < o.pageSize then .error (.pageSize o.pageSize)
  else if o.timeout = 0 then .error .noTime
  else if o.cacheCapacity = 0 then .error .noCapacity
  else if (o.defaults.bucket.map isBlankText).getD false then .error .blankBucket
  else if isBlankText o.defaults.scope then .error .blankScope
  else .ok ()

/-- The names of the parts of a description of options. -/
def partNames : List String :=
  ["default_keyspace", "execution_mode", "fail_fast", "page_size", "request_timeout_ms",
    "plan_cache_capacity"]

/-- Reads a description of options. -/
def ofWritten? (w : Written) : Option Options := do
  let parts ← w.parts? partNames
  let standard : Options := {}
  let defaults ← partOr parts "default_keyspace" standard.defaults DefaultKeyspace.ofWritten?
  let mode ← partOr parts "execution_mode" standard.mode ExecutionMode.ofWritten?
  let failFast ← partOr parts "fail_fast" standard.failFast Written.flag?
  let pageSize ← partOr parts "page_size" standard.pageSize Written.count?
  let timeout ← partOr parts "request_timeout_ms" standard.timeout Written.count?
  let cacheCapacity ← partOr parts "plan_cache_capacity" standard.cacheCapacity Written.count?
  some { defaults, mode, failFast, pageSize, timeout, cacheCapacity }

/-- Reads and checks the options of a text. -/
def read (text : String) : Except OptionsError Options :=
  match (Written.ofText? text).bind ofWritten? with
  | some o => do
    o.check
    .ok o
  | none => .error .malformed

/-- The document of options. -/
def toDocument (o : Options) : Document :=
  .ofFields
    [("default_keyspace", o.defaults.toDocument), ("execution_mode", .string o.mode.name),
      ("fail_fast", .bool o.failFast), ("page_size", .ofInt o.pageSize),
      ("request_timeout_ms", .ofInt o.timeout), ("plan_cache_capacity", .ofInt o.cacheCapacity)]

/-- The context of a query, with the number of the signal that cancels it. -/
def context (o : Options) (signal : Nat) : Context :=
  Context.withPageSize
    { mode := o.mode, failFast := o.failFast, timeout := o.timeout, signal } o.pageSize

end Options
end EntityQuery
