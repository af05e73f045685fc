import EntityQuery.Execution.Context
import EntityQuery.Plan.Error
import EntityQuery.Query.Encoding
import EntityQuery.Statement.Text
import EntityQuery.Translation.Query

/-!
# Plans

A plan is a translated query that can be executed with the constants of any query of its key.

* `Plan.compile` makes a plan of a translation.
* `Plan.bind` finds and encodes the values of its parameters.
-/

namespace EntityQuery

/-- A translated query, ready to be executed. -/
structure Plan where
  key : PlanKey
  statement : Statement
  /-- The parameters with their codecs. -/
  parameters : List (ParameterEntry × Codec)
  shape : RowShape
  /-- A number that tells plans apart. -/
  number : Nat := 0

namespace Plan

/-- The text of the statement. -/
def text (p : Plan) : String := p.statement.text

/-- The parameters. -/
def entries (p : Plan) : List ParameterEntry := p.parameters.map Prod.fst

/-- Makes a plan of a translation. -/
def compile (registry : Registry) (key : PlanKey) (number : Nat) (t : Translation) :
    Except UnsupportedType Plan := do
  let parameters ← t.query.parameters.entries.mapM fun entry => do
    let codec ← registry.find entry.scalarType
    .ok (entry, codec)
  .ok ⟨key, t.query.statement, parameters, t.shape, number⟩

end Plan

/-- Whether a value may be supplied for a parameter of a type.  Null always may; an integer of 32
bits may stand for one of 64. -/
def ScalarType.accepts (expected : ScalarType) (actual : ScalarType) : Bool :=
  actual == expected ||
    match expected with
    | .custom _ => true
    | .json => true
    | .int64 => actual == .int32
    | _ => false

/-- Whether a value is an integer from zero on. -/
def Value.isCount : Value → Bool
  | .int32 n => 0 ≤ n.toInt
  | .int64 n => 0 ≤ n.toInt
  | _ => false

/-- Whether a value is a double that is infinite or not a number. -/
def Value.nonFinite? : Value → Option Float
  | .float64 x => if Number.isFinite x then none else some x
  | _ => none

namespace ParameterEntry

/-- The value of a parameter: a constant of the query, or what the context supplies. -/
def supply (e : ParameterEntry) (constants : List Captured) (c : Context) :
    Except BindingError Value :=
  match e.origin with
  | .constant slot =>
    match constants[slot]? with
    | none => .error (.missingConstant slot)
    | some captured =>
      if captured.scalarType = e.scalarType then .ok captured.value
      else .error (.typeMismatch e.name e.scalarType captured.scalarType)
  | .named =>
    match c.parameter? e.name with
    | none => .error (.missingParameter e.name)
    | some value =>
      match value.scalarType?.filter fun t => !e.scalarType.accepts t with
      | some actual => .error (.typeMismatch e.name e.scalarType actual)
      | none => .ok value

/-- Refuses values that the store would read in another way. -/
def check (e : ParameterEntry) (value : Value) : Except BindingError Unit :=
  match value.nonFinite? with
  | some x => .error (.nonFiniteNumber e.name x)
  | none =>
    if e.rowCount && !value.isCount then .error (.invalidRowCount e.name value.message) else .ok ()

/-- The document that is sent for a parameter. -/
def bind (e : ParameterEntry) (codec : Codec) (constants : List Captured) (c : Context) :
    Except BindingError (String × Document) := do
  let value ← e.supply constants c
  e.check value
  let d ← (codec.encode value).mapError (.encode e.name)
  .ok (e.name, d)

end ParameterEntry

/-- The documents that are sent for the parameters of a plan. -/
def Plan.bind (p : Plan) (constants : List Captured) (c : Context) :
    Except BindingError (List (String × Document)) :=
  p.parameters.mapM fun (entry, codec) => entry.bind codec constants c

end EntityQuery
