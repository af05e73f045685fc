import EntityQuery.Scalar.Value

/-!
# Contexts of executions

A query is created, executed, and then completed, canceled or faulted.  It may be canceled or fail
before it is executed, and nothing follows an end.  A context says how a query is executed and how
far it has come.

* `QueryState.canBecome` says which state may follow another.
* `Context.transition` and `Context.finish` move a context on.
* `Signals` are the signals with which contexts are canceled.  Contexts may share one, and a signal
  stays canceled.
-/

namespace EntityQuery

/-! ## The life of a query -/

/-- How far a query has come. -/
inductive QueryState where
  | created
  | executing
  | completed
  | canceled
  | faulted
deriving DecidableEq, Repr

namespace QueryState

/-- The states. -/
def all : List QueryState := [.created, .executing, .completed, .canceled, .faulted]

/-- Whether the query has ended. -/
def isTerminal : QueryState → Bool
  | .completed | .canceled | .faulted => true
  | _ => false

/-- Whether a state may follow another. -/
def canBecome : QueryState → QueryState → Bool
  | .created, .executing => true
  | .created, .canceled => true
  | .created, .faulted => true
  | .executing, next => next.isTerminal
  | _, _ => false

/-- Nothing follows an end. -/
theorem canBecome_of_isTerminal {s : QueryState} (h : s.isTerminal = true) (next : QueryState) :
    s.canBecome next = false := by
  cases s <;> simp_all [isTerminal, canBecome]

/-- The name of a state. -/
def name : QueryState → String
  | .created => "created"
  | .executing => "executing"
  | .completed => "completed"
  | .canceled => "canceled"
  | .faulted => "faulted"

end QueryState

/-- A state cannot follow another. -/
structure InvalidTransition where
  current : QueryState
  next : QueryState
deriving DecidableEq, Repr

namespace InvalidTransition

/-- The code of the error. -/
def code (_ : InvalidTransition) : String := "CONTEXT_INVALID_TRANSITION"

/-- The text of the error. -/
def message (e : InvalidTransition) : String :=
  "illegal query state transition " ++ e.current.name ++ " -> " ++ e.next.name

end InvalidTransition

/-! ## Contexts -/

/-- When pages are requested. -/
inductive ExecutionMode where
  /-- A page is requested when its first row is asked for. -/
  | streaming
  /-- All pages are requested when the first row is asked for. -/
  | buffered
deriving DecidableEq, Repr

/-- The name of a mode. -/
def ExecutionMode.name : ExecutionMode → String
  | .streaming => "streaming"
  | .buffered => "buffered"

/-- The signals that there are, by number, and whether each is canceled. -/
structure Signals where
  states : List Bool := []
deriving DecidableEq, Repr

namespace Signals

/-- A further signal, and its number. -/
def fresh (s : Signals) : Signals × Nat := (⟨s.states ++ [false]⟩, s.states.length)

/-- Cancels a signal. -/
def cancel (s : Signals) (number : Nat) : Signals := ⟨s.states.set number true⟩

/-- Whether a signal is canceled. -/
def isCanceled (s : Signals) (number : Nat) : Bool := s.states.getD number false

/-- A signal that is canceled stays canceled. -/
theorem isCanceled_cancel {s : Signals} {number : Nat} (other : Nat)
    (h : s.isCanceled number = true) : (s.cancel other).isCanceled number = true := by
  simp only [isCanceled, cancel, List.getD_eq_getElem?_getD, List.getElem?_set] at *
  grind

end Signals

/-- The greatest number of rows of a page unless an application says otherwise. -/
def defaultPageSize : Nat := 100

/-- The number of milliseconds that a request may take unless an application says otherwise. -/
def defaultTimeout : Nat := 75000

/-- How a query is executed, and how far it has come. -/
structure Context where
  mode : ExecutionMode := .streaming
  /-- Whether the first row that cannot be materialized ends the results. -/
  failFast : Bool := false
  pageSize : Nat := defaultPageSize
  /-- The number of milliseconds that a request may take. -/
  timeout : Nat := defaultTimeout
  /-- The values of parameters, of which the latest of a name counts. -/
  parameters : List (String × Value) := []
  /-- The number of the signal that cancels the query. -/
  signal : Nat := 0
  state : QueryState := .created

namespace Context

/-- The context with another page size, which is at least one. -/
def withPageSize (c : Context) (n : Nat) : Context := { c with pageSize := max n 1 }

/-- The context with a parameter. -/
def withParameter (c : Context) (name : String) (value : Value) : Context :=
  { c with parameters := (name, value) :: c.parameters }

/-- The value of a parameter. -/
def parameter? (c : Context) (name : String) : Option Value :=
  (c.parameters.find? fun p => p.1 == name).map Prod.snd

/-- Moves the context on. -/
def transition (c : Context) (next : QueryState) : Except InvalidTransition Context :=
  if c.state.canBecome next then .ok { c with state := next } else .error ⟨c.state, next⟩

/-- Ends the context, unless it has ended before. -/
def finish (c : Context) (terminal : QueryState) : Option Context :=
  (c.transition terminal).toOption

end Context

end EntityQuery
