import EntityQuery.Evaluation.Expression

/-!
# Evaluation of statements

A selection reads the rows of its source, extends them term by term, keeps those that satisfy the
predicate, folds them into groups where it aggregates, orders them, makes a document of each, drops
duplicates if asked to, and takes the part that `OFFSET` and `LIMIT` name.

* `Clauses.run` does all that follows the sources; its steps are `keepWhere`, `groupsOf`,
  `Clauses.ordered`, `Selection.project`, `dedupe` and `Clauses.page`.
* `Statement.run` is the list of rows that a statement returns.
* `sortStable_perm`: ordering loses no row and adds none.
-/

namespace EntityQuery

/-- The members of a list that pass a test, in order. -/
def keepWhere {α : Type} (test : α → Except EvalError Bool) : List α → Except EvalError (List α)
  | [] => .ok []
  | a :: as => do
    let keep ← test a
    let rest ← keepWhere test as
    .ok (if keep then a :: rest else rest)

/-- Whether a condition is true on a row. -/
def Expression.holds (env : Environment) (e : Expression) (row : Row) : Except EvalError Bool := do
  .ok (isTrue (← e.eval env (.ofRow row)))

/-! ## Groups -/

/-- The text of a key of a group. -/
def keyText : Datum → String
  | some d => d.text
  | none => "\x00missing"

/-- The text that tells groups apart. -/
def groupKey (keys : List Datum) : String := "\x01".intercalate (keys.map keyText)

/-- A group under construction: its key and its rows, the latest first. -/
abbrev KeyedGroup := String × List Row

/-- Adds a row to the group of its key, behind the others if there is none yet. -/
def addToGroup (key : String) (row : Row) : List KeyedGroup → List KeyedGroup
  | [] => [(key, [row])]
  | g :: gs => if g.1 = key then (g.1, row :: g.2) :: gs else g :: addToGroup key row gs

/-- The scope of a group, given its rows from the latest one on. -/
def scopeOfGroup (rows : List Row) : Scope := ⟨rows.getLast?.getD .empty, some rows.reverse⟩

/-- The groups of rows with their keys, in the order of the first row of each. -/
def groupsOf (rows : List (String × Row)) : List Scope :=
  (rows.foldl (fun groups (key, row) => addToGroup key row groups) []).map fun g =>
    scopeOfGroup g.2

/-! ## Ordering -/

/-- The order of two lists of key values. -/
def compareKeys : List OrderKey → List Datum → List Datum → Ordering
  | k :: ks, a :: as, b :: bs =>
    match if k.descending then (collateDatum a b).swap else collateDatum a b with
    | .eq => compareKeys ks as bs
    | o => o
  | _, _, _ => .eq

/-- Inserts an element into a list that is sorted from the greatest element on, in front of those
it is not less than. -/
def insertBack {α : Type} (less : α → α → Bool) (a : α) : List α → List α
  | [] => [a]
  | b :: bs => if less a b then b :: insertBack less a bs else a :: b :: bs

/-- Sorts a list; elements that are not less than one another keep their order.

Being less is to be a weak order on the elements.  By a comparison that is none, a sort need not
come to an end with a list; this one does, and its list is one of those that are possible then. -/
def sortStable {α : Type} (less : α → α → Bool) (as : List α) : List α :=
  (as.foldl (fun sorted a => insertBack less a sorted) []).reverse

theorem insertBack_perm {α : Type} (less : α → α → Bool) (a : α) (as : List α) :
    (insertBack less a as).Perm (a :: as) := by
  induction as with
  | nil => exact .refl _
  | cons b bs ih =>
    unfold insertBack
    split
    · exact (ih.cons b).trans (.swap ..)
    · exact .refl _

/-- Sorting keeps the members of a list. -/
theorem sortStable_perm {α : Type} (less : α → α → Bool) (as : List α) :
    (sortStable less as).Perm as := by
  have inserted : ∀ (as sorted : List α),
      (as.foldl (fun sorted a => insertBack less a sorted) sorted).Perm (sorted ++ as) := by
    intro as
    induction as with
    | nil => intro sorted; simp
    | cons a as ih =>
      intro sorted
      refine (ih _).trans (((insertBack_perm less a sorted).append_right as).trans ?_)
      exact List.perm_middle.symm
  exact (List.reverse_perm _).trans (by simpa using inserted as [])

/-! ## The clauses of a selection -/

/-- The fields of an object for named expressions; a missing value leaves its field out. -/
def projectItems (env : Environment) (scope : Scope) :
    List (Expression × String) → Fields → Except EvalError Fields
  | [], fields => .ok fields
  | (e, name) :: items, fields => do
    match ← e.eval env scope with
    | some d => projectItems env scope items (Fields.put name d fields)
    | none => projectItems env scope items fields

/-- The document that a selection makes of a row or group; a bare value may be missing. -/
def Selection.project (env : Environment) (s : Selection) (scope : Scope) :
    Except EvalError Datum :=
  match s with
  | .raw e => e.eval env scope
  | .items list => (projectItems env scope list []).map fun fields => some (.object fields)

/-- What a message calls a value that is no number. -/
def describe : Datum → String
  | none => "MISSING"
  | some .null => "NULL"
  | some (.bool _) => "boolean"
  | some (.number n) => n.text
  | some (.string _) => "string"
  | some (.array _) => "array"
  | some (.object _) => "object"

/-- The number of rows that an expression names; it sees no row. -/
def Expression.rowCount (env : Environment) (clause : String) (e : Expression) :
    Except EvalError Nat := do
  let d ← e.eval env (.ofRow .empty)
  match d.bind Document.int? with
  | some n => if 0 ≤ n then .ok n.toNat else .error (.invalidRowCount clause (describe d))
  | none => .error (.invalidRowCount clause (describe d))

namespace Clauses

/-- The scopes in which the selection is evaluated. -/
def scopes (env : Environment) (c : Clauses) (rows : List Row) : Except EvalError (List Scope) :=
  if !c.isAggregating then .ok (rows.map .ofRow)
  else if c.groupBy.isEmpty then .ok [⟨rows.head?.getD .empty, some rows⟩]
  else do
    let keyed ← rows.mapM fun row => do
      let keys ← evalList env c.groupBy (.ofRow row)
      .ok (groupKey keys, row)
    .ok (groupsOf keyed)

/-- The scopes in the order that the clauses ask for. -/
def ordered (env : Environment) (c : Clauses) (scopes : List Scope) :
    Except EvalError (List Scope) :=
  if c.orderBy.isEmpty then .ok scopes
  else do
    let keyed ← scopes.mapM fun scope => do
      let keys ← evalList env (c.orderBy.map OrderKey.key) scope
      .ok (keys, scope)
    .ok ((sortStable (fun a b => compareKeys c.orderBy a.1 b.1 == .lt) keyed).map Prod.snd)

/-- The part of the rows that `OFFSET` and `LIMIT` name. -/
def page (env : Environment) (c : Clauses) (rows : List Document) :
    Except EvalError (List Document) := do
  let offset ← match c.offset with
    | some e => e.rowCount env "OFFSET"
    | none => .ok 0
  match c.limit with
  | some e => do
    let limit ← e.rowCount env "LIMIT"
    .ok ((rows.drop offset).take limit)
  | none => .ok (rows.drop offset)

/-- The rows that satisfy the predicate. -/
def kept (env : Environment) (c : Clauses) (rows : List Row) : Except EvalError (List Row) :=
  match c.predicate with
  | some e => keepWhere (e.holds env) rows
  | none => .ok rows

/-- The documents of a selection over the rows of its sources. -/
def run (env : Environment) (c : Clauses) (rows : List Row) : Except EvalError (List Document) := do
  let rows ← c.kept env rows
  let scopes ← c.scopes env rows
  let scopes ← c.ordered env scopes
  let projected ← scopes.mapM (c.selection.project env)
  let documents := projected.filterMap id
  c.page env (if c.distinct then dedupe documents else documents)

end Clauses

/-! ## Sources and terms -/

/-- The rows that a join makes of one row. -/
def joinRow (env : Environment) (matching : Matching) (aliasName : String) (condition : Expression)
    (documents : List Document) (row : Row) : Except EvalError (List Row) := do
  let matched ← keepWhere (condition.holds env) (documents.map fun d => row.bind aliasName (some d))
  .ok (if matched.isEmpty && matching == .leftOuter then [row.bind aliasName none] else matched)

/-- The rows that an unnesting makes of one row. -/
def unnestRow (env : Environment) (matching : Matching) (aliasName : String) (array : Expression)
    (row : Row) : Except EvalError (List Row) := do
  match ← array.eval env (.ofRow row) with
  | some (.array (item :: items)) =>
    .ok ((item :: items).map fun d => row.bind aliasName (some d))
  | _ => .ok (if matching == .leftOuter then [row.bind aliasName none] else [])

/-- The rows of a set operation. -/
def SetOperation.combine (op : SetOperation) (left right : List Document) : List Document :=
  match op with
  | .unionAll => left ++ right
  | .union => dedupe (left ++ right)
  | .intersect =>
    let texts := right.map Document.text
    (dedupe left).filter fun d => texts.contains d.text
  | .except =>
    let texts := right.map Document.text
    (dedupe left).filter fun d => !texts.contains d.text

mutual

/-- The rows that a statement returns. -/
def Statement.run (env : Environment) : Statement → Except EvalError (List Document)
  | .select source terms clauses => do
    let documents ← source.run env
    let rows ← runTerms env terms (documents.map (Row.single source.aliasName))
    clauses.run env rows
  | .compound op left right => do
    let l ← left.run env
    let r ← right.run env
    .ok (op.combine l r)

/-- The documents of a source. -/
def Source.run (env : Environment) : Source → Except EvalError (List Document)
  | .keyspace k _ =>
    match env.collections.documents? k with
    | some documents => .ok documents
    | none => .error (.unknownKeyspace k.dotted)
  | .statement s _ => s.run env

/-- The rows that a term makes of the rows before it. -/
def Term.run (env : Environment) : Term → List Row → Except EvalError (List Row)
  | .join matching source condition, rows => do
    let documents ← source.run env
    let joined ← rows.mapM (joinRow env matching source.aliasName condition documents)
    .ok joined.flatten
  | .unnest matching array aliasName, rows => do
    let unnested ← rows.mapM (unnestRow env matching aliasName array)
    .ok unnested.flatten

/-- The rows after several terms. -/
def runTerms (env : Environment) : List Term → List Row → Except EvalError (List Row)
  | [], rows => .ok rows
  | t :: ts, rows => do
    let rows ← t.run env rows
    runTerms env ts rows

end

end EntityQuery
