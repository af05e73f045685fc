import EntityQuery.Query.Error
import EntityQuery.Query.Formula
import EntityQuery.Statement.Basic

/-!
# Queries

A query is a tree of operators over the documents of entities.  It describes a sequence of elements:
entities, scalars, or records of such.

* `Query.element` is the type of the elements.
* `Query.member` and `Query.value` are formulas over the elements of a query, for its next step.
* `Query.constants` are the constants of a query: those of its inputs first, then its own.
-/

namespace EntityQuery

/-- How a navigation is correlated with the rows of a query. -/
inductive CorrelationKind where
  /-- Each item of an array of the source makes a row. -/
  | unnest (path : List String)
  /-- Each document of the target makes a row whose field equals one of the source. -/
  | lookup (sourceField targetField : List String)
deriving DecidableEq, Repr

/-- A navigation that is correlated with the rows of a query. -/
structure Correlation where
  sourceAlias : String
  navigation : String
  /-- The entity that the navigation leads to. -/
  target : String
  /-- The alias of the target. -/
  aliasName : String
  kind : CorrelationKind
  /-- Whether source rows without a target are kept. -/
  optional : Bool := false
deriving DecidableEq, Repr

/-- What a join keeps. -/
inductive JoinKind where
  | inner
  | leftOuter
  | rightOuter
  | fullOuter
deriving DecidableEq, Repr

/-- The name of a kind of join. -/
def JoinKind.name : JoinKind → String
  | .inner => "inner"
  | .leftOuter => "left_outer"
  | .rightOuter => "right_outer"
  | .fullOuter => "full_outer"

/-- The name of a set operation in a query. -/
def SetOperation.name : SetOperation → String
  | .union => "union"
  | .unionAll => "concat"
  | .intersect => "intersect"
  | .except => "except"

/-- A function of the elements of a group. -/
inductive SummaryFunction where
  | count
  | countDistinct
  | sum
  | avg
  | min
  | max
deriving DecidableEq, Repr

/-- The functions of groups. -/
def SummaryFunction.all : List SummaryFunction := [.count, .countDistinct, .sum, .avg, .min, .max]

/-- The name of a function of groups. -/
def SummaryFunction.name : SummaryFunction → String
  | .count => "count"
  | .countDistinct => "count_distinct"
  | .sum => "sum"
  | .avg => "avg"
  | .min => "min"
  | .max => "max"

/-- A summary of a group; without an argument it is one of the elements as such. -/
structure Summary where
  function : SummaryFunction
  arg : Option Formula

namespace Summary

/-- The type of a summary. -/
def scalarType (s : Summary) : ScalarType :=
  match s.function with
  | .count | .countDistinct => .int64
  | .avg => .float64
  | .sum =>
    match s.arg.map Formula.scalarType with
    | some t => if t.isInteger then .int64 else t
    | none => .int64
  | .min | .max => (s.arg.map Formula.scalarType).getD .json

/-- Whether a summary may be null. -/
def isNullable (s : Summary) : Bool :=
  match s.function with
  | .count | .countDistinct => false
  | _ => true

end Summary

/-- What ends a query with a single scalar. -/
inductive Terminal where
  | count
  | sum
  | min
  | max
  | average
  | any
  | all
deriving DecidableEq, Repr

namespace Terminal

/-- The name of a terminal. -/
def name : Terminal → String
  | .count => "count"
  | .sum => "sum"
  | .min => "min"
  | .max => "max"
  | .average => "average"
  | .any => "any"
  | .all => "all"

/-- The summary that a terminal is, if it is one of the values of a formula. -/
def function? : Terminal → Option SummaryFunction
  | .sum => some .sum
  | .min => some .min
  | .max => some .max
  | .average => some .avg
  | _ => none

end Terminal

/-- What a field of a projected record holds. -/
inductive Projected where
  | scalar (f : Formula)
  /-- The entity that an alias stands for. -/
  | entity (entity aliasName : String)

/-- What a projection makes of an element. -/
inductive Projection where
  | scalar (f : Formula)
  | record (fields : List (String × Projected))
  /-- The entity that an alias stands for. -/
  | entity (entity aliasName : String)

/-- The type of the elements of a query. -/
inductive ElementType where
  | entity (entity aliasName : String)
  | scalar (scalarType : ScalarType) (nullable : Bool)
  | record (fields : List (String × ElementType))
deriving Repr

namespace ElementType

/-- The name of the kind of a type. -/
def kindName : ElementType → String
  | .entity .. => "entity"
  | .scalar .. => "scalar"
  | .record _ => "record"

/-- The type of the values of a formula. -/
def ofFormula (f : Formula) : ElementType := .scalar f.scalarType f.isNullable

/-- The fields that a join or correlation adds to. -/
def scopeFields : ElementType → List (String × ElementType)
  | .entity name aliasName => [(aliasName, .entity name aliasName)]
  | .record fields => fields
  | .scalar .. => []

mutual

/-- Whether two sequences can be operands of one set operation.  Aliases and nullability do not
matter. -/
def isCompatible : ElementType → ElementType → Bool
  | .entity a _, .entity b _ => a == b
  | .scalar a _, .scalar b _ => a == b
  | .record as, .record bs => areCompatible as bs
  | _, _ => false

/-- Whether two lists of fields have the same names and compatible types. -/
def areCompatible : List (String × ElementType) → List (String × ElementType) → Bool
  | [], [] => true
  | a :: as, b :: bs => isCompatibleField a b && areCompatible as bs
  | _, _ => false

/-- Whether two fields have the same name and compatible types. -/
def isCompatibleField : String × ElementType → String × ElementType → Bool
  | (name, a), (other, b) => name == other && isCompatible a b

end

mutual

/-- The document of a type. -/
def toDocument : ElementType → Document
  | .entity name aliasName => .object [("entity", .array [.string name, .string aliasName])]
  | .scalar t nullable => .object [("scalar", .array [t.toDocument, .bool nullable])]
  | .record fields => .object [("record", .array (fieldsToDocuments fields))]

/-- The documents of fields. -/
def fieldsToDocuments : List (String × ElementType) → List Document
  | [] => []
  | field :: fields => fieldToDocument field :: fieldsToDocuments fields

/-- The document of a field. -/
def fieldToDocument : String × ElementType → Document
  | (name, t) => .array [.string name, t.toDocument]

end

end ElementType

/-- The type of the elements that a projection makes. -/
def Projected.element : Projected → ElementType
  | .scalar f => .ofFormula f
  | .entity name aliasName => .entity name aliasName

/-- The type of the elements that a projection makes. -/
def Projection.element : Projection → ElementType
  | .scalar f => .ofFormula f
  | .record fields => .record (fields.map fun f => (f.1, f.2.element))
  | .entity name aliasName => .entity name aliasName

/-- The formulas of a projection. -/
def Projection.formulas : Projection → List Formula
  | .scalar f => [f]
  | .record fields => fields.filterMap fun f =>
    match f.2 with
    | .scalar g => some g
    | .entity .. => none
  | .entity .. => []

/-- A query. -/
inductive Query where
  /-- The documents of an entity under an alias. -/
  | source (entity aliasName : String)
  | filter (input : Query) (predicate : Formula)
  | project (input : Query) (projection : Projection)
  /-- The elements in the order of a key, in place of an earlier order. -/
  | orderBy (input : Query) (key : Formula) (descending : Bool)
  /-- The elements in the order of a key where an earlier order does not decide. -/
  | thenBy (input : Query) (key : Formula) (descending : Bool)
  | groupBy (input : Query) (keys : List (String × Formula)) (summaries : List (String × Summary))
  | join (kind : JoinKind) (left right : Query) (leftKey rightKey : Formula)
  | correlate (input : Query) (correlation : Correlation)
  | skip (input : Query) (count : Formula)
  | take (input : Query) (count : Formula)
  | distinct (input : Query)
  | combine (op : SetOperation) (left right : Query)
  | conclude (input : Query) (terminal : Terminal) (arg : Option Formula)

namespace Query

/-- The type of the single element that a terminal makes. -/
def concludedElement (terminal : Terminal) (arg : Option Formula) : ElementType :=
  match terminal.function? with
  | some function => .scalar (Summary.scalarType ⟨function, arg⟩) true
  | none =>
    match terminal with
    | .count => .scalar .int64 false
    | _ => .scalar .bool false

/-- The field that the right side of a join adds to a record. -/
def joinedField : ElementType → String × ElementType
  | .entity name aliasName => (aliasName, .entity name aliasName)
  | other => ("", other)

/-- The type of the elements of a query. -/
def element : Query → ElementType
  | .source entity aliasName => .entity entity aliasName
  | .filter input _ => input.element
  | .project _ projection => projection.element
  | .orderBy input _ _ => input.element
  | .thenBy input _ _ => input.element
  | .groupBy _ keys summaries =>
    .record (keys.map (fun k => (k.1, .ofFormula k.2)) ++
      summaries.map fun s => (s.1, .scalar s.2.scalarType s.2.isNullable))
  | .join _ left right _ _ => .record (left.element.scopeFields ++ [joinedField right.element])
  | .correlate input c =>
    .record (input.element.scopeFields ++ [(c.aliasName, .entity c.target c.aliasName)])
  | .skip input _ => input.element
  | .take input _ => input.element
  | .distinct input => input.element
  | .combine _ left _ => left.element
  | .conclude _ terminal arg => concludedElement terminal arg

/-- The field of a given name of the current record. -/
def member (q : Query) (name : String) : Except QueryError Formula :=
  match q.element with
  | .record fields =>
    match fields.find? fun f => f.1 == name with
    | some (_, .scalar t nullable) => .ok (.member name t nullable)
    | some _ => .error (.notScalar "record" name)
    | none => .error (.unknownField name)
  | other => .error (.notARecord other.kindName)

/-- The current scalar. -/
def value (q : Query) : Except QueryError Formula :=
  match q.element with
  | .scalar t nullable => .ok (.element t nullable)
  | other => .error (.notAScalar other.kindName)

/-- The formulas of the outermost operator in order. -/
def formulas : Query → List Formula
  | .source .. | .correlate .. | .distinct _ | .combine .. => []
  | .filter _ predicate => [predicate]
  | .project _ projection => projection.formulas
  | .orderBy _ key _ => [key]
  | .thenBy _ key _ => [key]
  | .groupBy _ keys summaries =>
    keys.map Prod.snd ++ summaries.filterMap fun s => s.2.arg
  | .join _ _ _ leftKey rightKey => [leftKey, rightKey]
  | .skip _ count => [count]
  | .take _ count => [count]
  | .conclude _ _ arg => arg.toList

/-- The constants of a query in order. -/
def constants (q : Query) : List Captured :=
  let own := Formula.constantsOf q.formulas
  match q with
  | .source .. => own
  | .filter input _ | .project input _ | .orderBy input _ _ | .thenBy input _ _
  | .groupBy input _ _ | .correlate input _ | .skip input _ | .take input _ | .distinct input
  | .conclude input _ _ => input.constants ++ own
  | .join _ left right _ _ => left.constants ++ right.constants ++ own
  | .combine _ left right => left.constants ++ right.constants ++ own

end Query
end EntityQuery
