import EntityQuery.Number.Binary64

/-!
# Decimal text of doubles

Two texts are written for a double, and both carry the fewest digits that read back to it.

* `Decimal.shortest` finds those digits: on the grids of 1, 2, … 17 significant digits it tests the
  two neighbours of the number and takes the first grid with a point inside the interval of reals
  that round to the number; of two such points it takes the nearer.
* `DecimalLayout` says how digits become text.  Document text (`DecimalLayout.document`) switches
  to an exponent for very large and very small numbers and always shows that the number is not an
  integer; message text (`DecimalLayout.message`) never uses an exponent.
-/

namespace EntityQuery

/-- The decimal number `0.d₁d₂… · 10 ^ scale`, given by the digits of `digits`. -/
structure Decimal where
  digits : Nat
  scale : Int
deriving Repr, DecidableEq

namespace Decimal

/-- Which of two equally near decimals is taken. -/
inductive Tie where
  /-- The one whose last digit is even. -/
  | even
  /-- The greater one. -/
  | up
deriving Repr, DecidableEq

/-- The least `k` between the bound and its first argument below which all powers `10 ^ k` are at
most `num / den`; searched upwards from `low` for at most `fuel` steps. -/
def leastScale (num den : Nat) : Nat → Int → Int
  | 0, low => low
  | fuel + 1, low =>
    let below :=
      if 0 ≤ low then decide (num < den * Nat.pow 10 low.toNat)
      else decide (num * Nat.pow 10 (-low).toNat < den)
    if below then low else leastScale num den fuel (low + 1)

/-- The number of decimal digits of `n`, counted up to `fuel`. -/
def digitCount : Nat → Nat → Nat
  | 0, _ => 0
  | fuel + 1, n => if n = 0 then 0 else digitCount fuel (n / 10) + 1

/-- Whether the decimal `candidate · 10 ^ unit` rounds to the double `num / den`, of which the
next smaller neighbour is `low` and the next greater one `high` quarter steps away in units of
`1 / (4 · den)`; the ends of the interval belong to it when `closed` holds. -/
def readsBack (num den low high : Nat) (closed : Bool) (candidate : Nat) (unit : Int) : Bool :=
  let (top, bottom) :=
    if 0 ≤ unit then (candidate * Nat.pow 10 unit.toNat, 1)
    else (candidate, Nat.pow 10 (-unit).toNat)
  -- the candidate is between (4 · num - low) / (4 · den) and (4 · num + high) / (4 · den)
  let value := 4 * top * den
  let lower := (4 * num - low) * bottom
  let upper := (4 * num + high) * bottom
  if closed then decide (lower ≤ value) && decide (value ≤ upper)
  else decide (lower < value) && decide (value < upper)

/-- Drops the zeros at the end of a digit string. -/
def trimZeros : Nat → Nat → Nat
  | 0, n => n
  | fuel + 1, n => if n = 0 then 0 else if n % 10 = 0 then trimZeros fuel (n / 10) else n

/-- The first grid, from `places` significant digits on, with a point that reads back. -/
def firstGrid (tie : Tie) (num den low high : Nat) (closed : Bool) (scale : Int) :
    Nat → Nat → Option Decimal
  | 0, _ => none
  | fuel + 1, places =>
    let unit := scale - places
    let (top, bottom) :=
      if 0 ≤ unit then (num, den * Nat.pow 10 unit.toNat) else (num * Nat.pow 10 (-unit).toNat, den)
    let under := top / bottom
    let rest := top % bottom
    let hitUnder := readsBack num den low high closed under unit
    let hitOver := readsBack num den low high closed (under + 1) unit
    let chosen :=
      if hitUnder && hitOver then
        if 2 * rest < bottom then some under
        else if bottom < 2 * rest then some (under + 1)
        else match tie with
          | .even => if under % 2 = 0 then some under else some (under + 1)
          | .up => some (under + 1)
      else if hitUnder then some under
      else if hitOver then some (under + 1)
      else none
    match chosen with
    | some digits =>
      let trimmed := trimZeros 20 digits
      some ⟨trimmed, unit + digitCount 20 digits⟩
    | none => firstGrid tie num den low high closed scale fuel (places + 1)

/-- The fewest decimal digits that read back to `mantissa · 2 ^ exponent`, a positive double.  The
gap below a power of two is half as wide as the gap above it. -/
def shortest (tie : Tie) (mantissa : Nat) (exponent : Int) : Decimal :=
  let (num, den) :=
    if 0 ≤ exponent then (mantissa * Nat.pow 2 exponent.toNat, 1)
    else (mantissa, Nat.pow 2 (-exponent).toNat)
  let step := if 0 ≤ exponent then Nat.pow 2 exponent.toNat else 1
  let narrow := decide (mantissa = Nat.pow 2 52) && decide (-1074 < exponent)
  let low := if narrow then step else 2 * step
  let high := 2 * step
  let start : Int := (Int.ofNat (Nat.log2 num) - Int.ofNat (Nat.log2 den) - 1) * 30103 / 100000 - 1
  let scale := leastScale num den 8 start
  (firstGrid tie num den low high (mantissa % 2 == 0) scale 17 1).getD ⟨mantissa, exponent⟩

end Decimal

/-- How the digits of a double are laid out as text. -/
structure DecimalLayout where
  /-- Which of two equally near digit strings is written. -/
  tie : Decimal.Tie
  /-- The exponents of the leading digit that are written without an exponent part. -/
  positional : Int → Bool
  /-- Whether a positional number without a fraction ends in `.0`. -/
  showsFraction : Bool

namespace DecimalLayout

/-- Numbers in documents: positional when the leading digit stands for 10⁻⁵ to 10¹⁵. -/
def document : DecimalLayout where
  tie := .even
  positional := fun e => decide (-5 ≤ e) && decide (e ≤ 15)
  showsFraction := true

/-- Numbers in messages: always positional, and without a fraction part where there is none. -/
def message : DecimalLayout where
  tie := .up
  positional := fun _ => true
  showsFraction := false

/-- A row of zeros. -/
def zeros (n : Nat) : String := String.ofList (List.replicate n '0')

/-- Lays out the digits of a positive number. -/
def layOut (layout : DecimalLayout) (d : Decimal) : String :=
  let digits := Nat.toDigits 10 d.digits
  let count := digits.length
  let leading := d.scale - 1
  if layout.positional leading then
    let whole :=
      if d.scale ≤ 0 then "0"
      else String.ofList (digits.take d.scale.toNat) ++ zeros (d.scale.toNat - count)
    let fraction :=
      if d.scale ≤ 0 then zeros (-d.scale).toNat ++ String.ofList digits
      else String.ofList (digits.drop d.scale.toNat)
    if fraction.isEmpty then
      if layout.showsFraction then whole ++ ".0" else whole
    else whole ++ "." ++ fraction
  else
    let fraction := String.ofList (digits.drop 1)
    let lead := String.ofList (digits.take 1)
    let sign := if leading < 0 then "-" else "+"
    let exponent := toString leading.natAbs
    (if fraction.isEmpty then lead else lead ++ "." ++ fraction) ++ "e" ++ sign ++ exponent

/-- The text of a double. -/
def text (layout : DecimalLayout) (x : Float) : String :=
  match Binary64.ofFloat x with
  | .nan => "NaN"
  | .infinite negative => if negative then "-inf" else "inf"
  | .finite negative mantissa exponent =>
    let magnitude :=
      if mantissa = 0 then (if layout.showsFraction then "0.0" else "0")
      else layout.layOut (Decimal.shortest layout.tie mantissa exponent)
    if negative then "-" ++ magnitude else magnitude

end DecimalLayout

end EntityQuery
