import EntityQuery.Evaluation.Function
import EntityQuery.Store.Collections

/-!
# Evaluation of expressions

An expression is evaluated on a row, which binds aliases to values, or on a group of rows, in which
aggregates have a value.  A value may be missing, and the operators of the language spread missing
and null values: missing wins over null, and both yield to the operand that decides a conjunction
or disjunction alone.

* `Row` and `Scope` are what an expression is evaluated on.
* `Operator.apply` is the meaning of the binary operators.
* `Expression.eval` is the value of an expression.
-/

namespace EntityQuery

/-- What a statement is evaluated against. -/
structure Environment where
  collections : Collections
  /-- The values of the placeholders. -/
  parameters : List (String × Document)

/-- The value of a placeholder. -/
def Environment.parameter? (env : Environment) (name : String) : Option Document :=
  (env.parameters.find? fun p => p.1 == name).map Prod.snd

/-- The aliases that are bound, the latest first. -/
structure Row where
  bindings : List (String × Datum)

namespace Row

/-- The row that binds nothing. -/
def empty : Row := ⟨[]⟩

/-- A row with one more alias. -/
def bind (row : Row) (aliasName : String) (value : Datum) : Row :=
  ⟨(aliasName, value) :: row.bindings⟩

/-- A row that binds one alias. -/
def single (aliasName : String) (d : Document) : Row := empty.bind aliasName (some d)

/-- The latest binding of an alias. -/
def find? (row : Row) (aliasName : String) : Option Datum :=
  (row.bindings.find? fun b => b.1 == aliasName).map Prod.snd

end Row

/-- A row, and the rows of its group if rows are grouped. -/
structure Scope where
  row : Row
  group : Option (List Row)

/-- The scope of a row on its own. -/
def Scope.ofRow (row : Row) : Scope := ⟨row, none⟩

/-- Whether a value is the truth value true. -/
def isTrue : Datum → Bool
  | some (.bool true) => true
  | _ => false

/-- Whether a value is neither missing nor null. -/
def isValued : Datum → Bool
  | some d => !d.isNull
  | none => false

/-- Whether a value is the given truth value. -/
def isBool (b : Bool) : Datum → Bool
  | some (.bool c) => b == c
  | _ => false

/-- A conjunction (`decisive` false) or disjunction (`decisive` true): one decisive operand decides
alone, and the opposite value needs two operands that have it. -/
def connective (decisive : Bool) (left right : Datum) : Datum :=
  if isBool decisive left || isBool decisive right then some (.bool decisive)
  else if left.isNone || right.isNone then none
  else if isBool (!decisive) left && isBool (!decisive) right then some (.bool !decisive)
  else some .null

/-- The text of two texts one after the other. -/
def concatenated : Document → Document → Document
  | .string a, .string b => .string (a ++ b)
  | _, _ => .null

/-- An operator on two values that are neither missing nor null. -/
def Operator.onValues (op : Operator) (a b : Document) : Except EvalError Document :=
  match op with
  | .eq => .ok (.bool (a.equal b))
  | .ne => .ok (.bool (!a.equal b))
  | .lt => .ok (.bool (a.collate b == .lt))
  | .le => .ok (.bool (a.collate b != .gt))
  | .gt => .ok (.bool (a.collate b == .gt))
  | .ge => .ok (.bool (a.collate b != .lt))
  | .concat => .ok (concatenated a b)
  | op => arithmetic op a b

/-- The meaning of a binary operator. -/
def Operator.apply (op : Operator) (left right : Datum) : Except EvalError Datum :=
  match op with
  | .and => .ok (connective false left right)
  | .or => .ok (connective true left right)
  | op =>
    match left, right with
    | some a, some b =>
      if a.isNull || b.isNull then .ok (some .null) else (op.onValues a b).map some
    | _, _ => .ok none

/-- The negation of a condition. -/
def negated : Datum → Datum
  | none => none
  | some (.bool b) => some (.bool !b)
  | some _ => some .null

/-- A number with the opposite sign. -/
def oppositeOf : Datum → Datum
  | none => none
  | some d =>
    match Quantity.ofDocument? d with
    | some q => some q.negate.toDocument
    | none => some .null

/-- The document of a literal. -/
def Literal.toDocument : Literal → Document
  | .null => .null
  | .bool b => .bool b
  | .int n => .ofInt n

/-- Whether a text matches a pattern. -/
def liked : Datum → Datum → Datum
  | none, _ => none
  | _, none => none
  | some (.string s), some (.string p) => some (.bool (matchesPattern p.toList s.toList))
  | _, _ => some .null

/-- Keeps the first of the documents that have one text; `seen` are the texts before. -/
def dedupeFrom (seen : List String) : List Document → List Document
  | [] => []
  | d :: ds =>
    let text := d.text
    if seen.contains text then dedupeFrom seen ds else d :: dedupeFrom (text :: seen) ds

/-- Keeps the first of the documents that have one text. -/
def dedupe (ds : List Document) : List Document := dedupeFrom [] ds

/-- The first of the least values. -/
def leastOf : List Document → Document
  | [] => .null
  | d :: ds => ds.foldl (fun best d => if best.collate d == .gt then d else best) d

/-- The last of the greatest values. -/
def greatestOf : List Document → Document
  | [] => .null
  | d :: ds => ds.foldl (fun best d => if best.collate d == .gt then best else d) d

/-- The sum of the numbers among some values. -/
def sumOf (values : List Document) : Document :=
  match values.filterMap Quantity.ofDocument? with
  | [] => .null
  | qs => (qs.foldl Quantity.add (.int 0)).toDocument

/-- The average of the numbers among some values. -/
def averageOf (values : List Document) : Document :=
  match values.filterMap Quantity.ofDocument? with
  | [] => .null
  | qs => .ofFloat (qs.foldl (fun sum q => sum + q.toFloat) (-0.0) / .ofNat qs.length)

/-- The value of an aggregate over values that are neither missing nor null. -/
def Aggregate.fold : Aggregate → List Document → Document
  | .count, values => .ofInt values.length
  | .sum, values => sumOf values
  | .avg, values => averageOf values
  | .min, values => leastOf values
  | .max, values => greatestOf values

/-- The value of an aggregate over the values of its argument on the rows of a group. -/
def Aggregate.over (f : Aggregate) (distinct : Bool) (values : List Datum) : Document :=
  let valued := values.filterMap fun v => if isValued v then v else none
  f.fold (if distinct then dedupe valued else valued)

mutual

/-- The value of an expression in a scope. -/
def Expression.eval (env : Environment) : Expression → Scope → Except EvalError Datum
  | .ident name, scope =>
    match scope.row.find? name with
    | some d => .ok d
    | none => if scope.row.bindings.isEmpty then .ok none else .error (.unknownReference name)
  | .field base name, scope => do
    let d ← base.eval env scope
    .ok (d.bind (Document.field? name))
  | .placeholder name, _ =>
    match env.parameter? name with
    | some d => .ok (some d)
    | none => .error (.unboundParameter name)
  | .literal value, _ => .ok (some value.toDocument)
  | .binary op left right, scope => do
    let l ← left.eval env scope
    let r ← right.eval env scope
    op.apply l r
  | .not e, scope => do .ok (negated (← e.eval env scope))
  | .neg e, scope => do .ok (oppositeOf (← e.eval env scope))
  | .valued e, scope => do .ok (some (.bool (isValued (← e.eval env scope))))
  | .notValued e, scope => do .ok (some (.bool (!isValued (← e.eval env scope))))
  | .inList e list, scope => do
    match ← e.eval env scope with
    | none => .ok none
    | some .null => .ok (some .null)
    | some d => (evalIn env d list scope).map fun found => some (.bool found)
  | .like e pattern, scope => do
    let d ← e.eval env scope
    let p ← pattern.eval env scope
    .ok (liked d p)
  | .call name args, scope => do
    let ds ← evalList env args scope
    callFunction name ds
  | .aggregate function _ none, scope =>
    match scope.group with
    | some rows => .ok (some (.ofInt rows.length))
    | none => .error (.misplacedAggregate function)
  | .aggregate function distinct (some arg), scope =>
    match scope.group with
    | some rows => do
      let values ← rows.mapM fun row => arg.eval env (.ofRow row)
      .ok (some (function.over distinct values))
    | none => .error (.misplacedAggregate function)
  | .caseWhen c t o, scope => do
    if isTrue (← c.eval env scope) then t.eval env scope else o.eval env scope

/-- The values of several expressions. -/
def evalList (env : Environment) : List Expression → Scope → Except EvalError (List Datum)
  | [], _ => .ok []
  | e :: es, scope => do
    let d ← e.eval env scope
    let ds ← evalList env es scope
    .ok (d :: ds)

/-- Whether one of the expressions has a given value; those behind it are not evaluated. -/
def evalIn (env : Environment) (d : Document) : List Expression → Scope → Except EvalError Bool
  | [], _ => .ok false
  | e :: es, scope => do
    match ← e.eval env scope with
    | some candidate => if d.equal candidate then .ok true else evalIn env d es scope
    | none => evalIn env d es scope

end

end EntityQuery
