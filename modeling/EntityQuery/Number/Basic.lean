import EntityQuery.Number.Decimal

/-!
# Document numbers

A number of a document is an integer or a double, and keeps which of the two it was written as:
`1` and `1.0` are different numbers that compare equal.

* `Number.toInt64?` and `Number.toFloat` are the two readings of a number.
* `Number.compare` is exact on two 64-bit integers and goes through doubles otherwise.
* `Number.text` is the text of a number in a document.
-/

namespace EntityQuery

/-- The least signed 64-bit integer. -/
abbrev int64Min : Int := -9223372036854775808

/-- The greatest signed 64-bit integer. -/
abbrev int64Max : Int := 9223372036854775807

/-- The greatest unsigned 64-bit integer. -/
abbrev uint64Max : Nat := 18446744073709551615

/-- The least signed 32-bit integer. -/
abbrev int32Min : Int := -2147483648

/-- The greatest signed 32-bit integer. -/
abbrev int32Max : Int := 2147483647

/-- Whether an integer fits 64 signed bits. -/
def fitsInt64 (n : Int) : Bool := decide (int64Min ≤ n) && decide (n ≤ int64Max)

/-- Whether an integer fits 32 signed bits. -/
def fitsInt32 (n : Int) : Bool := decide (int32Min ≤ n) && decide (n ≤ int32Max)

/-- A number of a document.  Integers that are read from text fit 64 bits, signed or unsigned. -/
inductive Number where
  /-- A number written as an integer. -/
  | int (n : Int)
  /-- A number written with a fraction or an exponent, or too large for an integer. -/
  | float (x : Float)
deriving DecidableEq, Repr

namespace Number

/-- The number as a signed 64-bit integer, if it was written as one. -/
def toInt64? : Number → Option Int
  | .int n => if fitsInt64 n then some n else none
  | .float _ => none

/-- The double nearest to the number. -/
def toFloat : Number → Float
  | .int n => .ofInt n
  | .float x => x

/-- Whether a double is finite, which is what a document can hold. -/
def isFinite (x : Float) : Bool :=
  match Binary64.ofFloat x with
  | .finite .. => true
  | _ => false

/-- The order of two doubles; values that cannot be ordered count as equal. -/
def compareFloats (x y : Float) : Ordering :=
  if x < y then .lt else if y < x then .gt else .eq

/-- The order of two numbers. -/
def compare (x y : Number) : Ordering :=
  match x.toInt64?, y.toInt64? with
  | some a, some b => Ord.compare a b
  | _, _ => compareFloats x.toFloat y.toFloat

/-- Whether two numbers are the same kind of number with the same value. -/
def same : Number → Number → Bool
  | .int a, .int b => a == b
  | .float a, .float b => a == b
  | _, _ => false

/-- The text of a number in a document. -/
def text : Number → String
  | .int n => toString n
  | .float x => DecimalLayout.document.text x

end Number

end EntityQuery
