import EntityQuery.Document.Order
import EntityQuery.Evaluation.Error

/-!
# Arithmetic on stored values

A number takes part in arithmetic as a 64-bit integer if it was written as one, and as a double
otherwise.  Integers stay integers as long as the result is one that fits 64 bits; all other
results are doubles.  What is not a number, and what has no finite result, is null.
-/

namespace EntityQuery

/-- A number as it takes part in arithmetic. -/
inductive Quantity where
  | int (n : Int)
  | float (x : Float)
deriving Repr

namespace Quantity

/-- The quantity that a document denotes, if it is a number. -/
def ofDocument? : Document → Option Quantity
  | .number n =>
    match n.toInt64? with
    | some i => some (.int i)
    | none => some (.float n.toFloat)
  | _ => none

/-- The double nearest to a quantity. -/
def toFloat : Quantity → Float
  | .int n => .ofInt n
  | .float x => x

/-- The document of a quantity. -/
def toDocument : Quantity → Document
  | .int n => .ofInt n
  | .float x => .ofFloat x

/-- An integer if it fits 64 bits, and otherwise the given double. -/
def checked (exact : Int) (fallback : Float) : Quantity :=
  if fitsInt64 exact then .int exact else .float fallback

/-- The sum of two quantities. -/
def add : Quantity → Quantity → Quantity
  | .int x, .int y => checked (x + y) (.ofInt x + .ofInt y)
  | a, b => .float (a.toFloat + b.toFloat)

/-- A quantity with the opposite sign. -/
def negate : Quantity → Quantity
  | .int n => checked (-n) (-(.ofInt n))
  | .float x => .float (-x)

/-- The magnitude of a quantity. -/
def magnitude : Quantity → Quantity
  | .int n => checked n.natAbs (.ofInt n.natAbs)
  | .float x => .float x.abs

/-- A quantity rounded to an integer in a given direction. -/
def rounded (direction : Binary64.Direction) : Quantity → Document
  | .int n => .ofInt n
  | .float x =>
    match (Binary64.ofFloat x).rounded direction with
    | none => .null
    | some n =>
      if int64Min < n && n ≤ int64Max then .ofInt n else .ofFloat (.ofInt n)

end Quantity

/-- Division of integers.  A remainder makes the quotient a double; division by zero is null. -/
def divideInts (x y : Int) : Except EvalError Document :=
  if y = 0 then .ok .null
  else if x = int64Min && y = -1 then .error .divisionOverflow
  else if x.tmod y = 0 then .ok (.ofInt (x.tdiv y))
  else .ok (.ofFloat (.ofInt x / .ofInt y))

/-- The remainder of a division of integers, with the sign of the dividend. -/
def remainderInts (x y : Int) : Except EvalError Document :=
  if y = 0 then .ok .null
  else if x = int64Min && y = -1 then .error .divisionOverflow
  else .ok (.ofInt (x.tmod y))

/-- An arithmetic operator on integers. -/
def arithmeticInts (op : Operator) (x y : Int) : Except EvalError Document :=
  match op with
  | .add => .ok (Quantity.checked (x + y) (.ofInt x + .ofInt y)).toDocument
  | .sub => .ok (Quantity.checked (x - y) (.ofInt x - .ofInt y)).toDocument
  | .mul => .ok (Quantity.checked (x * y) (.ofInt x * .ofInt y)).toDocument
  | .div => divideInts x y
  | .mod => remainderInts x y
  | _ => .ok .null

/-- An arithmetic operator on doubles. -/
def arithmeticFloats (op : Operator) (x y : Float) : Document :=
  match op with
  | .add => .ofFloat (x + y)
  | .sub => .ofFloat (x - y)
  | .mul => .ofFloat (x * y)
  | .div => if y == 0.0 then .null else .ofFloat (x / y)
  | .mod => if y == 0.0 then .null else .ofFloat (remainderOfFloats x y)
  | _ => .null

/-- An arithmetic operator on two values; what is not a number makes the result null. -/
def arithmetic (op : Operator) (a b : Document) : Except EvalError Document :=
  match Quantity.ofDocument? a, Quantity.ofDocument? b with
  | some (.int x), some (.int y) => arithmeticInts op x y
  | some x, some y => .ok (arithmeticFloats op x.toFloat y.toFloat)
  | _, _ => .ok .null

end EntityQuery
