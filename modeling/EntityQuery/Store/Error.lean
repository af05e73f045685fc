/-!
# Why a request to a store fails

* `ClientError.isRetryable` are the failures that may pass by themselves.
* `ClientError.isFatal` are those that will not.
-/

namespace EntityQuery

/-- Why a request to a store fails. -/
inductive ClientError where
  /-- The store cannot be reached, or has dropped the request. -/
  | connectivity (endpoint reason : String)
  /-- The store has not answered within the given number of milliseconds. -/
  | timeout (budget : Nat)
  /-- The credentials are refused. -/
  | authentication (username reason : String)
  /-- The store refuses the statement. -/
  | statement (message : String)
  /-- The description of a connection is not usable. -/
  | invalidConnection (reason : String)
  /-- The caller has given up. -/
  | canceled
  /-- The store breaks down on the statement, without an answer. -/
  | breakdown
deriving DecidableEq, Repr

namespace ClientError

/-- The code of an error. -/
def code : ClientError → String
  | .connectivity .. => "CLIENT_CONNECTIVITY"
  | .timeout _ => "CLIENT_TIMEOUT"
  | .authentication .. => "CLIENT_AUTHENTICATION"
  | .statement _ => "CLIENT_STATEMENT"
  | .invalidConnection _ => "CLIENT_INVALID_CONNECTION"
  | .canceled => "QUERY_CANCELED"
  | .breakdown => "CLIENT_BREAKDOWN"

/-- The text of an error. -/
def message : ClientError → String
  | .connectivity endpoint reason => "cannot reach '" ++ endpoint ++ "': " ++ reason
  | .timeout budget => "request timed out after " ++ toString budget ++ "ms"
  | .authentication username reason =>
    "authentication failed for '" ++ username ++ "': " ++ reason
  | .statement message => "statement rejected: " ++ message
  | .invalidConnection reason => "invalid connection info: " ++ reason
  | .canceled => "query canceled"
  | .breakdown => "the store broke down"

/-- Whether a later attempt may succeed. -/
def isRetryable : ClientError → Bool
  | .connectivity .. | .timeout _ => true
  | _ => false

/-- Whether no later attempt will succeed. -/
def isFatal : ClientError → Bool
  | .authentication .. | .statement _ | .invalidConnection _ => true
  | _ => false

end ClientError
end EntityQuery
