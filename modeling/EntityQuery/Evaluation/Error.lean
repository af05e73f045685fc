import EntityQuery.Statement.Basic

/-!
# Why a statement is refused

The errors that end the evaluation of a statement.
-/

namespace EntityQuery

/-- Why a statement cannot be evaluated. -/
inductive EvalError where
  /-- No collection has the address. -/
  | unknownKeyspace (name : String)
  /-- A clause that limits the rows does not evaluate to an integer from zero on. -/
  | invalidRowCount (clause found : String)
  /-- No source binds the alias. -/
  | unknownReference (name : String)
  /-- A placeholder has no value. -/
  | unboundParameter (name : String)
  /-- An aggregate stands where there is no group. -/
  | misplacedAggregate (function : Aggregate)
  /-- No function has the name. -/
  | unknownFunction (name : String)
  /-- A function has too few or too many arguments. -/
  | arity (name expected : String) (found : Nat)
  /-- The least integer is divided by minus one, which no integer of 64 bits can hold. -/
  | divisionOverflow
deriving DecidableEq, Repr

namespace EvalError

/-- The code of an error. -/
def code : EvalError → String
  | .unknownKeyspace _ => "EVAL_UNKNOWN_KEYSPACE"
  | .invalidRowCount .. => "EVAL_INVALID_ROW_COUNT"
  | .unknownReference _ => "EVAL_UNKNOWN_REFERENCE"
  | .unboundParameter _ => "EVAL_UNBOUND_PARAMETER"
  | .misplacedAggregate _ => "EVAL_MISPLACED_AGGREGATE"
  | .unknownFunction _ => "EVAL_UNKNOWN_FUNCTION"
  | .arity .. => "EVAL_FUNCTION_ARITY"
  | .divisionOverflow => "EVAL_DIVISION_OVERFLOW"

/-- The text of an error. -/
def message : EvalError → String
  | .unknownKeyspace name => "Keyspace not found: " ++ name
  | .invalidRowCount clause found =>
    clause ++ " must be a non-negative integer, got " ++ found
  | .unknownReference name => "Ambiguous or unknown reference '" ++ name ++ "'"
  | .unboundParameter name => "No value for named parameter $" ++ name
  | .misplacedAggregate function => function.name ++ " used outside of an aggregation"
  | .unknownFunction name => "Invalid function " ++ name
  | .arity name expected found =>
    "function " ++ name ++ " expects " ++ expected ++ " argument(s), got " ++ toString found
  | .divisionOverflow => "integer division overflows"

end EvalError
end EntityQuery
