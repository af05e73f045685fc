import EntityQuery.Operator
import EntityQuery.Scalar.Value

/-!
# Formulas

A formula is a typed scalar expression of a query: over the properties of the entities in scope, the
fields of the current record, the current scalar, constants and parameters.

* `Formula.scalarType` and `Formula.isNullable` are what is known of the value of a formula.
* `Formula.children` are the direct parts of a formula, in the order in which everything that walks
  through formulas visits them.
* `Formula.constants` are the constants in that order; the place of a constant is its slot.
-/

namespace EntityQuery

/-- A property that a path of members leads to. -/
structure PropertyPath where
  /-- The alias of the entity at which the path starts. -/
  aliasName : String
  /-- The entity at which the path starts. -/
  entity : String
  /-- The path as the application writes it. -/
  member : String
  /-- The fields of the document on the way. -/
  path : List String
  scalarType : ScalarType
  nullable : Bool
deriving DecidableEq, Repr

/-- A function that every store knows. -/
inductive BuiltinFunction where
  | lower
  | upper
  | trim
  | length
  | contains
  | startsWith
  | endsWith
  | abs
  | round
  | floor
  | ceil
deriving DecidableEq, Repr

namespace BuiltinFunction

/-- The functions. -/
def all : List BuiltinFunction :=
  [.lower, .upper, .trim, .length, .contains, .startsWith, .endsWith, .abs, .round, .floor, .ceil]

/-- The name of a function. -/
def name : BuiltinFunction → String
  | .lower => "lower"
  | .upper => "upper"
  | .trim => "trim"
  | .length => "length"
  | .contains => "contains"
  | .startsWith => "starts_with"
  | .endsWith => "ends_with"
  | .abs => "abs"
  | .round => "round"
  | .floor => "floor"
  | .ceil => "ceil"

/-- The number of arguments of a function. -/
def arity : BuiltinFunction → Nat
  | .contains | .startsWith | .endsWith => 2
  | _ => 1

/-- The type of the result, given the type of the first argument. -/
def resultType (f : BuiltinFunction) (arg : ScalarType) : ScalarType :=
  match f with
  | .lower | .upper | .trim => .string
  | .length => .int64
  | .contains | .startsWith | .endsWith => .bool
  | .abs => arg
  | .round | .floor | .ceil => if arg.isInteger then arg else .float64

end BuiltinFunction

/-- A typed scalar expression of a query. -/
inductive Formula where
  | property (p : PropertyPath)
  /-- A field of the current record. -/
  | member (name : String) (scalarType : ScalarType) (nullable : Bool)
  /-- The current scalar. -/
  | element (scalarType : ScalarType) (nullable : Bool)
  /-- A value that is fixed when the query is built. -/
  | constant (value : Value) (scalarType : ScalarType)
  /-- A value that is supplied when the query is executed. -/
  | parameter (name : String) (scalarType : ScalarType)
  | binary (op : Operator) (left right : Formula)
  | not (f : Formula)
  | negate (f : Formula)
  | isNull (f : Formula)
  | isNotNull (f : Formula)
  | inList (f : Formula) (list : List Formula)
  | like (f pattern : Formula)
  | builtin (function : BuiltinFunction) (args : List Formula)
  | caseWhen (condition thenValue elseValue : Formula)
  /-- The first of some values that is not null. -/
  | coalesce (values : List Formula)
  /-- A call of a function that the application registers. -/
  | call (function : String) (args : List Formula) (scalarType : ScalarType)

/-- A constant of a query. -/
structure Captured where
  value : Value
  scalarType : ScalarType

namespace Formula

/-- A constant of the type of its value; null has the type of documents. -/
def ofValue (v : Value) : Formula := .constant v (v.scalarType?.getD .json)

/-- The first of two values that is not null; the values of a longer choice come before. -/
def orElse (f fallback : Formula) : Formula :=
  match f with
  | .coalesce values => .coalesce (values ++ [fallback])
  | f => .coalesce [f, fallback]

mutual

/-- The type of a formula. -/
def scalarType : Formula → ScalarType
  | .property p => p.scalarType
  | .member _ t _ => t
  | .element t _ => t
  | .constant _ t => t
  | .parameter _ t => t
  | .call _ _ t => t
  | .binary op left right =>
    if op.isArithmetic then (left.scalarType.promote right.scalarType).getD left.scalarType
    else if op = .concat then .string
    else .bool
  | .not _ => .bool
  | .negate f => f.scalarType
  | .isNull _ | .isNotNull _ | .inList .. | .like .. => .bool
  | .builtin function args => function.resultType (firstType args)
  | .caseWhen _ t _ => t.scalarType
  | .coalesce values => firstType values

/-- The type of the first formula of a list. -/
def firstType : List Formula → ScalarType
  | [] => .json
  | f :: _ => f.scalarType

end

mutual

/-- Whether the value of a formula may be null. -/
def isNullable : Formula → Bool
  | .property p => p.nullable
  | .member _ _ nullable => nullable
  | .element _ nullable => nullable
  | .constant value _ => value.isNull
  | .parameter .. | .call .. => true
  | .isNull _ | .isNotNull _ => false
  | .binary _ left right => left.isNullable || right.isNullable
  | .not f | .negate f => f.isNullable
  | .inList f _ => f.isNullable
  | .like f pattern => f.isNullable || pattern.isNullable
  | .builtin _ args => anyNullable args
  | .caseWhen _ t o => t.isNullable || o.isNullable
  | .coalesce values => allNullable values

/-- Whether one of the values may be null. -/
def anyNullable : List Formula → Bool
  | [] => false
  | f :: fs => f.isNullable || anyNullable fs

/-- Whether each of the values may be null. -/
def allNullable : List Formula → Bool
  | [] => true
  | f :: fs => f.isNullable && allNullable fs

end

/-- The direct parts of a formula in order. -/
def children : Formula → List Formula
  | .property _ | .member .. | .element .. | .constant .. | .parameter .. => []
  | .binary _ left right => [left, right]
  | .not f | .negate f | .isNull f | .isNotNull f => [f]
  | .inList f list => f :: list
  | .like f pattern => [f, pattern]
  | .builtin _ args => args
  | .call _ args _ => args
  | .caseWhen c t o => [c, t, o]
  | .coalesce values => values

mutual

/-- The constants of a formula in order. -/
def constants : Formula → List Captured
  | .constant value t => [⟨value, t⟩]
  | .property _ | .member .. | .element .. | .parameter .. => []
  | .binary _ left right => left.constants ++ right.constants
  | .not f | .negate f | .isNull f | .isNotNull f => f.constants
  | .inList f list => f.constants ++ constantsOf list
  | .like f pattern => f.constants ++ pattern.constants
  | .builtin _ args => constantsOf args
  | .call _ args _ => constantsOf args
  | .caseWhen c t o => c.constants ++ t.constants ++ o.constants
  | .coalesce values => constantsOf values

/-- The constants of several formulas in order. -/
def constantsOf : List Formula → List Captured
  | [] => []
  | f :: fs => f.constants ++ constantsOf fs

end

end Formula
end EntityQuery
