import EntityQuery.Query.Basic
import EntityQuery.Statement.Parameters

/-!
# Selections under construction

A translation folds the operators of a query into a selection, the frame, as long as they have a
clause of their own; then the selection becomes a source of a new one.

* `Yield` is what the rows of a frame are, in expressions over its sources.
* `Yield.rebase` is the same yield, read through the alias of a statement that has become a source.
* `Stage` is what has been translated so far: a frame, or a set operation, which takes no clauses.
-/

namespace EntityQuery

/-- An alias that is bound to an entity. -/
structure Binding where
  aliasName : String
  entity : String
  /-- The expression that the alias stands for. -/
  base : Expression
  /-- Whether the entity may be missing from a row. -/
  optional : Bool

/-- A scalar that rows hold. -/
structure YieldedScalar where
  expression : Expression
  scalarType : ScalarType
  nullable : Bool
  /-- The path of the property that the scalar is, if it is one. -/
  origin : Option String

/-- What a field of a record holds. -/
inductive FieldYield where
  | scalar (s : YieldedScalar)
  | entity (b : Binding)

/-- The expression of a field. -/
def FieldYield.expression : FieldYield → Expression
  | .scalar s => s.expression
  | .entity b => b.base

/-- The binding of a field that holds an entity. -/
def FieldYield.binding? : FieldYield → Option Binding
  | .scalar _ => none
  | .entity b => some b

/-- A field with another expression. -/
def FieldYield.withBase (base : Expression) : FieldYield → FieldYield
  | .scalar s => .scalar { s with expression := base }
  | .entity b => .entity { b with base }

/-- What the rows of a frame are. -/
inductive Yield where
  | entity (b : Binding)
  | scalar (s : YieldedScalar)
  | record (fields : List (String × FieldYield))

namespace Yield

/-- The selection that makes rows. -/
def selection : Yield → Selection
  | .entity b => .raw b.base
  | .scalar s => .raw s.expression
  | .record fields => .items (fields.map fun f => (f.2.expression, f.1))

/-- The same yield over a source whose rows it describes. -/
def rebase (aliasName : String) : Yield → Yield
  | .entity b => .entity { b with base := .ident aliasName }
  | .scalar s => .scalar { s with expression := .ident aliasName }
  | .record fields =>
    .record (fields.map fun f => (f.1, f.2.withBase (.field (.ident aliasName) f.1)))

/-- The bindings of the entities that rows hold. -/
def bindings : Yield → List Binding
  | .entity b => [b]
  | .scalar _ => []
  | .record fields => fields.filterMap fun f => f.2.binding?

/-- The fields that a join or correlation adds to; scalars have none. -/
def scopeFields? : Yield → Option (List (String × FieldYield))
  | .entity b => some [(b.aliasName, .entity b)]
  | .record fields => some fields
  | .scalar _ => none

/-- The field of a record. -/
def field? (name : String) : List (String × FieldYield) → Option FieldYield
  | [] => none
  | f :: fs => if f.1 = name then some f.2 else field? name fs

end Yield

/-- A selection under construction. -/
structure Frame where
  source : Source
  terms : List Term := []
  predicate : Option Expression := none
  groupBy : List Expression := []
  orderBy : List OrderKey := []
  distinct : Bool := false
  offset : Option Expression := none
  limit : Option Expression := none
  yield : Yield
  /-- The aliases to which formulas may refer. -/
  scope : List Binding
  isGrouped : Bool := false
  /-- Whether the frame yields a single row for all rows of its sources. -/
  isConcluded : Bool := false

namespace Frame

/-- Whether the number of rows is limited. -/
def isLimited (f : Frame) : Bool := f.limit.isSome

/-- Whether a part of the rows is taken. -/
def isPaged (f : Frame) : Bool := f.limit.isSome || f.offset.isSome

/-- Whether the rows are ordered. -/
def isOrdered (f : Frame) : Bool := !f.orderBy.isEmpty

/-- Whether the frame takes no further clauses. -/
def isSealed (f : Frame) : Bool := f.isGrouped || f.isConcluded || f.distinct

/-- Whether the frame reads a keyspace and does nothing else, under which alias it may be. -/
def bareKeyspace? (f : Frame) : Option Keyspace :=
  match f.source, f.yield with
  | .keyspace k aliasName, .entity ⟨_, _, .ident base, _⟩ =>
    if f.terms.isEmpty && f.predicate.isNone && f.groupBy.isEmpty && !f.isOrdered && !f.isPaged &&
        !f.isSealed && base == aliasName then
      some k
    else none
  | _, _ => none

/-- What an alias in scope is bound to. -/
def binding? (f : Frame) (aliasName : String) : Option Binding :=
  f.scope.find? fun b => b.aliasName == aliasName

/-- Whether an alias is in use. -/
def takes (f : Frame) (aliasName : String) : Bool :=
  (f.binding? aliasName).isSome || f.source.aliasName == aliasName ||
    f.terms.any fun t => t.aliasName == aliasName

/-- The clauses of the selection. -/
def clauses (f : Frame) : Clauses where
  predicate := f.predicate
  groupBy := f.groupBy
  orderBy := f.orderBy
  selection := f.yield.selection
  distinct := f.distinct
  offset := f.offset
  limit := f.limit

/-- The finished selection. -/
def finish (f : Frame) : Statement := .select f.source f.terms f.clauses

/-- A frame over a statement that has become a source. -/
def ofStatement (s : Statement) (yield : Yield) (aliasName : String) : Frame :=
  let rebased := yield.rebase aliasName
  { source := .statement s aliasName, yield := rebased, scope := rebased.bindings }

end Frame

/-- What has been translated so far. -/
inductive Stage where
  | frame (f : Frame)
  /-- A set operation, and what its rows are. -/
  | compound (s : Statement) (yield : Yield)

namespace Stage

/-- The statement. -/
def statement : Stage → Statement
  | .frame f => f.finish
  | .compound s _ => s

/-- What the rows of the statement are. -/
def yield : Stage → Yield
  | .frame f => f.yield
  | .compound _ y => y

end Stage
end EntityQuery
