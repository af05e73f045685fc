import EntityQuery.Keyspace
import EntityQuery.Operator

/-!
# Statements

The statements that a store runs: a selection from sources, or two statements joined by a set
operation.

* `Expression` is a scalar expression over the aliases that the sources bind.
* `Source` is a collection or a statement under an alias, and `Term` a further source that is
  joined to the rows so far, or an array of each row that is taken apart.
* `Clauses` are the parts of a selection that do not hold statements.
* `Statement.placeholders` and `Statement.keyspaces` are what a statement refers to.
-/

namespace EntityQuery

/-- A literal.  The values of an application are never literals but placeholders. -/
inductive Literal where
  | null
  | bool (b : Bool)
  | int (n : Int)
deriving DecidableEq, Repr

/-- A function of all rows of a group. -/
inductive Aggregate where
  | count
  | sum
  | avg
  | min
  | max
deriving DecidableEq, Repr

/-- The aggregates. -/
def Aggregate.all : List Aggregate := [.count, .sum, .avg, .min, .max]

/-- The spelling of an aggregate. -/
def Aggregate.name : Aggregate → String
  | .count => "COUNT"
  | .sum => "SUM"
  | .avg => "AVG"
  | .min => "MIN"
  | .max => "MAX"

/-- A scalar expression. -/
inductive Expression where
  /-- What an alias is bound to. -/
  | ident (name : String)
  /-- A field of an object. -/
  | field (base : Expression) (name : String)
  /-- The value that a parameter has. -/
  | placeholder (name : String)
  | literal (value : Literal)
  | binary (op : Operator) (left right : Expression)
  | not (e : Expression)
  | neg (e : Expression)
  /-- Whether a value is neither null nor missing. -/
  | valued (e : Expression)
  /-- Whether a value is null or missing. -/
  | notValued (e : Expression)
  | inList (e : Expression) (list : List Expression)
  | like (e pattern : Expression)
  | call (name : String) (args : List Expression)
  /-- An aggregate; without an argument it counts rows. -/
  | aggregate (function : Aggregate) (distinct : Bool) (arg : Option Expression)
  | caseWhen (condition thenValue elseValue : Expression)
deriving Repr, Inhabited

namespace Expression

/-- The number of rows of a group. -/
def countRows : Expression := .aggregate .count false none

/-- The value at the end of a path of fields. -/
def path (base : Expression) (names : List String) : Expression := names.foldl .field base

/-- The conjunction with a condition that may be absent. -/
def andAlso (left : Option Expression) (right : Expression) : Expression :=
  match left with
  | some l => .binary .and l right
  | none => right

mutual

/-- Whether the expression holds an aggregate. -/
def hasAggregate : Expression → Bool
  | .ident _ | .placeholder _ | .literal _ => false
  | .field base _ => base.hasAggregate
  | .binary _ left right => left.hasAggregate || right.hasAggregate
  | .not e | .neg e | .valued e | .notValued e => e.hasAggregate
  | .inList e list => e.hasAggregate || anyAggregate list
  | .like e pattern => e.hasAggregate || pattern.hasAggregate
  | .call _ args => anyAggregate args
  | .aggregate .. => true
  | .caseWhen c t o => c.hasAggregate || t.hasAggregate || o.hasAggregate

/-- Whether one of the expressions holds an aggregate. -/
def anyAggregate : List Expression → Bool
  | [] => false
  | e :: es => e.hasAggregate || anyAggregate es

end

mutual

/-- The placeholders of an expression from left to right. -/
def placeholders : Expression → List String
  | .ident _ | .literal _ => []
  | .placeholder name => [name]
  | .field base _ => base.placeholders
  | .binary _ left right => left.placeholders ++ right.placeholders
  | .not e | .neg e | .valued e | .notValued e => e.placeholders
  | .inList e list => e.placeholders ++ placeholdersOf list
  | .like e pattern => e.placeholders ++ pattern.placeholders
  | .call _ args => placeholdersOf args
  | .aggregate _ _ (some arg) => arg.placeholders
  | .aggregate _ _ none => []
  | .caseWhen c t o => c.placeholders ++ t.placeholders ++ o.placeholders

/-- The placeholders of several expressions from left to right. -/
def placeholdersOf : List Expression → List String
  | [] => []
  | e :: es => e.placeholders ++ placeholdersOf es

end

end Expression

/-- What a selection makes of a row or group. -/
inductive Selection where
  /-- The bare value of an expression. -/
  | raw (e : Expression)
  /-- An object with one field for each named expression. -/
  | items (items : List (Expression × String))
deriving Repr

namespace Selection

/-- The expressions of a selection. -/
def expressions : Selection → List Expression
  | .raw e => [e]
  | .items list => list.map Prod.fst

end Selection

/-- A key of an ordering. -/
structure OrderKey where
  key : Expression
  descending : Bool
deriving Repr

/-- Whether rows without a partner are kept. -/
inductive Matching where
  /-- Only rows with a partner are kept. -/
  | inner
  /-- Rows without a partner are kept, with the alias missing. -/
  | leftOuter
deriving DecidableEq, Repr

/-- The parts of a selection that hold no statements, in the order in which they apply. -/
structure Clauses where
  predicate : Option Expression := none
  groupBy : List Expression := []
  orderBy : List OrderKey := []
  selection : Selection
  distinct : Bool := false
  offset : Option Expression := none
  limit : Option Expression := none
deriving Repr

namespace Clauses

/-- The clauses that return what an alias is bound to. -/
def all (aliasName : String) : Clauses := { selection := .raw (.ident aliasName) }

/-- The expressions of the clauses. -/
def expressions (c : Clauses) : List Expression :=
  c.selection.expressions ++ c.predicate.toList ++ c.groupBy ++ c.orderBy.map OrderKey.key ++
    c.limit.toList ++ c.offset.toList

/-- Whether rows are folded into groups. -/
def isAggregating (c : Clauses) : Bool :=
  !c.groupBy.isEmpty || Expression.anyAggregate c.selection.expressions ||
    Expression.anyAggregate (c.orderBy.map OrderKey.key)

end Clauses

/-- A set operation on the rows of two statements. -/
inductive SetOperation where
  | union
  | unionAll
  | intersect
  | except
deriving DecidableEq, Repr

/-- The set operations. -/
def SetOperation.all : List SetOperation := [.union, .unionAll, .intersect, .except]

/-- The spelling of a set operation. -/
def SetOperation.keyword : SetOperation → String
  | .union => "UNION"
  | .unionAll => "UNION ALL"
  | .intersect => "INTERSECT"
  | .except => "EXCEPT"

mutual

/-- A source of rows under an alias. -/
inductive Source where
  | keyspace (keyspace : Keyspace) (aliasName : String)
  | statement (statement : Statement) (aliasName : String)

/-- What extends the rows of the sources before it. -/
inductive Term where
  /-- A row for each pair that satisfies a condition. -/
  | join (matching : Matching) (source : Source) (condition : Expression)
  /-- A row for each item of an array. -/
  | unnest (matching : Matching) (array : Expression) (aliasName : String)

/-- A statement. -/
inductive Statement where
  | select (source : Source) (terms : List Term) (clauses : Clauses)
  | compound (op : SetOperation) (left right : Statement)

end

/-- The alias of a source. -/
def Source.aliasName : Source → String
  | .keyspace _ aliasName => aliasName
  | .statement _ aliasName => aliasName

/-- The alias that a term binds. -/
def Term.aliasName : Term → String
  | .join _ source _ => source.aliasName
  | .unnest _ _ aliasName => aliasName

/-- The expression of a term. -/
def Term.expression : Term → Expression
  | .join _ _ condition => condition
  | .unnest _ array _ => array

mutual

/-- The placeholders of a statement. -/
def Statement.placeholders : Statement → List String
  | .select source terms clauses =>
    source.placeholders ++ termPlaceholders terms ++ Expression.placeholdersOf clauses.expressions
  | .compound _ left right => left.placeholders ++ right.placeholders

/-- The placeholders of the statement of a source. -/
def Source.placeholders : Source → List String
  | .keyspace .. => []
  | .statement s _ => s.placeholders

/-- The placeholders of a term. -/
def Term.placeholders : Term → List String
  | .join _ source condition => source.placeholders ++ condition.placeholders
  | .unnest _ array _ => array.placeholders

/-- The placeholders of several terms. -/
def termPlaceholders : List Term → List String
  | [] => []
  | t :: ts => t.placeholders ++ termPlaceholders ts

end

mutual

/-- The keyspaces that a statement reads, as often as it names them. -/
def Statement.reads : Statement → List Keyspace
  | .select source terms _ => source.reads ++ termReads terms
  | .compound _ left right => left.reads ++ right.reads

/-- The keyspaces that a source reads. -/
def Source.reads : Source → List Keyspace
  | .keyspace k _ => [k]
  | .statement s _ => s.reads

/-- The keyspaces that a term reads. -/
def Term.reads : Term → List Keyspace
  | .join _ source _ => source.reads
  | .unnest .. => []

/-- The keyspaces that several terms read. -/
def termReads : List Term → List Keyspace
  | [] => []
  | t :: ts => t.reads ++ termReads ts

end

/-- The keyspaces that a statement reads, in the order of their first use. -/
def Statement.keyspaces (s : Statement) : List Keyspace := s.reads.eraseDups

end EntityQuery
