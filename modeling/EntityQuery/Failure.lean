import EntityQuery.Execution.Context
import EntityQuery.Model.Description
import EntityQuery.Model.Issue
import EntityQuery.Plan.Error
import EntityQuery.Provider.Options
import EntityQuery.Query.Error
import EntityQuery.Result.Error
import EntityQuery.Store.Error
import EntityQuery.Translation.Error

/-!
# Failures

Whatever may fail on the way from a model to the results of a query, as one type.

* `Failure.isRetryable`: a later attempt may succeed.
* `Failure.isFatal`: no later attempt will.
* `Failure.isItemLevel`: one row is at fault, and the results go on.
-/

namespace EntityQuery

/-- What an application is told when it does not get what it asks for. -/
inductive Failure where
  | malformedModel (cause : MalformedModel)
  | invalidModel (cause : InvalidModel)
  | options (cause : OptionsError)
  | query (cause : QueryError)
  | translation (cause : TranslationError)
  | binding (cause : BindingError)
  | transition (cause : InvalidTransition)
  | client (cause : ClientError)
  | materialization (cause : MaterializationError)

namespace Failure

/-- The code of a failure. -/
def code : Failure → String
  | .malformedModel cause => cause.code
  | .invalidModel cause => cause.code
  | .options cause => cause.code
  | .query cause => cause.code
  | .translation cause => cause.code
  | .binding cause => cause.code
  | .transition cause => cause.code
  | .client cause => cause.code
  | .materialization cause => cause.code

/-- The text of a failure. -/
def message : Failure → String
  | .malformedModel cause => cause.message
  | .invalidModel cause => cause.message
  | .options cause => cause.message
  | .query cause => cause.message
  | .translation cause => cause.message
  | .binding cause => cause.message
  | .transition cause => cause.message
  | .client cause => cause.message
  | .materialization cause => cause.message

/-- Whether a later attempt may succeed. -/
def isRetryable : Failure → Bool
  | .client cause => cause.isRetryable
  | _ => false

/-- Whether no later attempt will succeed. -/
def isFatal : Failure → Bool
  | .materialization cause => cause.isFatal
  | .client cause => cause.isFatal
  | _ => true

/-- Whether one row is at fault, so that the results go on. -/
def isItemLevel : Failure → Bool
  | .materialization cause => !cause.isFatal
  | _ => false

end Failure
end EntityQuery
