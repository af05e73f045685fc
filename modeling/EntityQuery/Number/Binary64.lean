/-!
# Doubles as exact numbers

A finite double is `± mantissa · 2 ^ exponent`.  Everything that must be exact — rounding to an
integer, the remainder of a division, the choice of decimal digits — is computed on that view with
integers, never with the floating-point operations themselves.

* `Binary64.ofFloat` reads the sign, the mantissa and the exponent off the bits of a double.
* `Binary64.rounded` is the nearest integer in a given direction.
* `remainderOfFloats` is the exact remainder of a truncating division.
-/

namespace EntityQuery

/-- The exact content of a double. -/
inductive Binary64 where
  /-- Not a number. -/
  | nan
  /-- An infinity of the given sign. -/
  | infinite (negative : Bool)
  /-- The number `± mantissa · 2 ^ exponent`. -/
  | finite (negative : Bool) (mantissa : Nat) (exponent : Int)
deriving Repr, DecidableEq

namespace Binary64

/-- Reads the three fields of the interchange format: a biased exponent of zero marks the
subnormal numbers, an exponent of all ones the infinities and the numbers that are not. -/
def ofFloat (x : Float) : Binary64 :=
  let bits := x.toBits.toNat
  let negative := decide (Nat.pow 2 63 ≤ bits)
  let biased := bits / Nat.pow 2 52 % Nat.pow 2 11
  let fraction := bits % Nat.pow 2 52
  if biased = 2047 then
    if fraction = 0 then .infinite negative else .nan
  else if biased = 0 then .finite negative fraction (-1074)
  else .finite negative (Nat.pow 2 52 + fraction) (Int.ofNat biased - 1075)

/-- How a number between two integers is rounded. -/
inductive Direction where
  /-- Towards negative infinity. -/
  | down
  /-- Towards positive infinity. -/
  | up
  /-- To the nearer integer, and away from zero from the middle. -/
  | nearest
deriving Repr, DecidableEq

/-- The magnitude to which `whole + rest / unit` rounds; `rest` is below `unit`. -/
def Direction.magnitude (direction : Direction) (negative : Bool) (whole rest unit : Nat) : Nat :=
  match direction with
  | .down => if negative && rest != 0 then whole + 1 else whole
  | .up => if !negative && rest != 0 then whole + 1 else whole
  | .nearest => if unit ≤ 2 * rest then whole + 1 else whole

/-- The integer of the given sign and magnitude. -/
def signed (negative : Bool) (magnitude : Nat) : Int :=
  if negative then -(magnitude : Int) else magnitude

/-- The integer to which a double rounds, or nothing for a value that is not finite. -/
def rounded (direction : Direction) : Binary64 → Option Int
  | .nan => none
  | .infinite _ => none
  | .finite negative mantissa exponent =>
    if 0 ≤ exponent then some (signed negative (mantissa * Nat.pow 2 exponent.toNat))
    else
      let unit := Nat.pow 2 (-exponent).toNat
      some (signed negative
        (direction.magnitude negative (mantissa / unit) (mantissa % unit) unit))

/-- The integer that a double denotes, if it denotes one. -/
def toInt? : Binary64 → Option Int
  | .nan => none
  | .infinite _ => none
  | .finite negative mantissa exponent =>
    if 0 ≤ exponent then some (signed negative (mantissa * Nat.pow 2 exponent.toNat))
    else
      let unit := Nat.pow 2 (-exponent).toNat
      if mantissa % unit = 0 then some (signed negative (mantissa / unit)) else none

/-- The double nearest to `± mantissa · 2 ^ exponent`.  A negative power of two is written as a
power of five over a power of ten. -/
def toFloat : Binary64 → Float
  | .nan => 0.0 / 0.0
  | .infinite negative => if negative then -1.0 / 0.0 else 1.0 / 0.0
  | .finite negative mantissa exponent =>
    let magnitude :=
      if 0 ≤ exponent then Float.ofScientific (mantissa * Nat.pow 2 exponent.toNat) false 0
      else Float.ofScientific (mantissa * Nat.pow 5 (-exponent).toNat) true (-exponent).toNat
    if negative then -magnitude else magnitude

/-- The remainder of the division of the first number by the second, truncated towards zero.  It
has the sign of the dividend, and is exact: both are scaled to the smaller exponent. -/
def remainder : Binary64 → Binary64 → Binary64
  | .finite negative m e, .finite _ n f =>
    if n = 0 then .nan
    else
      let low := min e f
      let dividend := m * Nat.pow 2 (e - low).toNat
      let divisor := n * Nat.pow 2 (f - low).toNat
      .finite negative (dividend % divisor) low
  | x@(.finite ..), .infinite _ => x
  | _, _ => .nan

end Binary64

/-- The exact remainder of two doubles, with the sign of the dividend. -/
def remainderOfFloats (x y : Float) : Float :=
  (Binary64.remainder (.ofFloat x) (.ofFloat y)).toFloat

end EntityQuery
