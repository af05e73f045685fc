import EntityQuery.Execution.Context
import EntityQuery.Scalar.Description
import EntityQuery.Scalar.Tagged

/-!
# Descriptions of contexts

What an application asks for one query, in place of what the options say for all queries.

* `Context.configured?` reads a description into a context.
-/

namespace EntityQuery

/-- The mode of a name. -/
def ExecutionMode.ofWritten? (w : Written) : Option ExecutionMode := do
  let (name, rest) ← w.variant?
  if isUnit rest then [ExecutionMode.streaming, .buffered].find? fun m => m.name == name else none

namespace Context

/-- Reads the values of parameters into a context. -/
def withParameters? (c : Context) : List (String × Written) → Option Context
  | [] => some c
  | (name, w) :: fields => do
    let value ← w.document?.bind Value.ofTagged?
    (c.withParameter name value).withParameters? fields

/-- Reads a description into a context. -/
def configured? (c : Context) (w : Written) : Option Context := do
  let parts ← w.parts? ["mode", "fail_fast", "page_size", "timeout_ms", "params"]
  let mode ← partIf parts "mode" ExecutionMode.ofWritten?
  let failFast ← partIf parts "fail_fast" Written.flag?
  let pageSize ← partIf parts "page_size" Written.count?
  let timeout ← partIf parts "timeout_ms" Written.count?
  let c := { c with
    mode := mode.getD c.mode, failFast := failFast.getD c.failFast
    timeout := timeout.getD c.timeout }
  let c := (pageSize.map c.withPageSize).getD c
  match findPart? "params" parts with
  | some (.object fields) => c.withParameters? fields
  | none | some .null => some c
  | some _ => none

end Context
end EntityQuery
