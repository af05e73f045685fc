import EntityQuery.Command.Formula

/-!
# Descriptions of queries

A query over one entity, as an application writes it: which elements, in which order, and what is
made of them.

* `QueryDescription.ofWritten?` reads a description; parts of other names are refused.
* `QueryDescription.query` is the query that is described.
-/

namespace EntityQuery

/-- A key of an order. -/
structure OrderDescription where
  key : FormulaDescription
  descending : Bool

/-- What is made of the elements. -/
inductive SelectDescription where
  | formula (f : FormulaDescription)
  | fields (fields : List (String × FormulaDescription))

/-- The description of a query. -/
structure QueryDescription where
  entity : String
  aliasName : Option String
  filter : Option FormulaDescription
  orderBy : List OrderDescription
  select : Option SelectDescription
  distinct : Bool
  skip : Option Int
  take : Option Int
  /-- What ends the query, with its argument. -/
  terminal : Option (Terminal × Option FormulaDescription)
  /-- The values of parameters by name. -/
  parameters : Fields

/-- Reads a key of an order. -/
def OrderDescription.ofWritten? (w : Written) : Option OrderDescription := do
  let parts ← w.parts? ["expr", "descending"]
  let key ← partOf parts "expr" FormulaDescription.ofWritten?
  let descending ← partOr parts "descending" false Written.flag?
  some ⟨key, descending⟩

/-- Reads a field of a record. -/
def recordField? (w : Written) : Option (String × FormulaDescription) := do
  let parts ← w.parts? ["name", "value"]
  let name ← partOf parts "name" Written.text?
  let value ← partOf parts "value" FormulaDescription.ofWritten?
  some (name, value)

/-- Reads what is made of the elements. -/
def SelectDescription.ofWritten? (w : Written) : Option SelectDescription :=
  match w.variant? with
  | some ("expr", some w) => (FormulaDescription.ofWritten? w).map .formula
  | some ("fields", some w) => (Written.listOf? recordField? w).map .fields
  | _ => none

/-- The terminals without an argument. -/
def plainTerminals : List Terminal := [.count, .any]

/-- The terminals with an argument. -/
def appliedTerminals : List Terminal := [.all, .sum, .min, .max, .average]

/-- Reads what ends a query. -/
def terminalOfWritten? (w : Written) : Option (Terminal × Option FormulaDescription) := do
  let (name, rest) ← w.variant?
  match plainTerminals.find? fun t => t.name == name with
  | some t => if isUnit rest then some (t, none) else none
  | none => do
    let t ← appliedTerminals.find? fun t => t.name == name
    let f ← rest.bind FormulaDescription.ofWritten?
    some (t, some f)

/-- Reads the values of parameters. -/
def parametersOfWritten? : Written → Option Fields
  | .object fields => (Written.document? (.object fields)).bind Document.fields?
  | _ => none

namespace QueryDescription

/-- The names of the parts of a description. -/
def partNames : List String :=
  ["entity", "alias", "filter", "order_by", "select", "distinct", "skip", "take", "terminal",
    "parameters"]

/-- Reads a description. -/
def ofWritten? (w : Written) : Option QueryDescription := do
  let parts ← if w.hasOnly partNames then w.parts? partNames else none
  let entity ← partOf parts "entity" Written.text?
  let aliasName ← partIf parts "alias" Written.text?
  let filter ← partIf parts "filter" FormulaDescription.ofWritten?
  let orderBy ← partOr parts "order_by" [] (Written.listOf? OrderDescription.ofWritten?)
  let select ← partIf parts "select" SelectDescription.ofWritten?
  let distinct ← partOr parts "distinct" false Written.flag?
  let skip ← partIf parts "skip" Written.integer?
  let take ← partIf parts "take" Written.integer?
  let terminal ← partIf parts "terminal" terminalOfWritten?
  let parameters ← partOr parts "parameters" [] parametersOfWritten?
  some { entity, aliasName, filter, orderBy, select, distinct, skip, take, terminal, parameters }

/-- Reads the description in a document. -/
def ofDocument (d : Document) : Except CommandError QueryDescription :=
  match ofWritten? (.ofDocument d) with
  | some q => .ok q
  | none => .error (.request .description)

variable (p : Provider) (set : EntitySet)

/-- The query with a condition. -/
def filtered (q : Query) : Option FormulaDescription → Except CommandError Query
  | none => .ok q
  | some f => (f.formula p set).map (.filter q)

/-- The query in an order.  The first key orders it, and the others decide where it does not. -/
def ordered (q : Query) : List OrderDescription → Except CommandError Query
  | [] => .ok q
  | first :: rest => do
    let key ← first.key.formula p set
    rest.foldlM (fun q o => (o.key.formula p set).map fun key => .thenBy q key o.descending)
      (.orderBy q key first.descending)

/-- The query of what is made of the elements. -/
def selected (q : Query) : Option SelectDescription → Except CommandError Query
  | none => .ok q
  | some (.formula f) => (f.formula p set).map fun f => .project q (.scalar f)
  | some (.fields fields) => do
    let fields ← fields.mapM fun (name, f) =>
      (f.formula p set).map fun f => (name, Projected.scalar f)
    .ok (.project q (.record fields))

/-- The query with an end. -/
def concluded (q : Query) :
    Option (Terminal × Option FormulaDescription) → Except CommandError Query
  | none => .ok q
  | some (t, none) => .ok (.conclude q t none)
  | some (t, some f) => (f.formula p set).map fun f => .conclude q t (some f)

/-- A number of rows as a formula. -/
def rowCount (n : Int) : Formula := .ofValue (.int64 (.ofInt n))

/-- The query over an entity set. -/
def queryOver (d : QueryDescription) : Except CommandError Query := do
  let q ← filtered p set set.query d.filter
  let q ← ordered p set q d.orderBy
  let q ← selected p set q d.select
  let q := if d.distinct then .distinct q else q
  let q := (d.skip.map fun n => Query.skip q (rowCount n)).getD q
  let q := (d.take.map fun n => Query.take q (rowCount n)).getD q
  concluded p set q d.terminal

/-- The query that is described. -/
def query (d : QueryDescription) : Except CommandError Query := do
  let set ← (p.entitySet d.entity).mapError CommandError.failure
  queryOver p ((d.aliasName.map set.withAlias).getD set) d

end QueryDescription
end EntityQuery
