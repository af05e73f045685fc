import EntityQuery.Number.Basic

/-!
# Number literals

A literal is an optional minus sign, an integer part without superfluous zeros, an optional
fraction and an optional exponent.  `NumberLiteral.ofChars?` checks that grammar and
`NumberLiteral.value` computes the number.

Without fraction and exponent a literal that fits 64 bits is an integer.  Any other literal is a
double, computed from a 64-bit significand and a power of ten: digits that no longer fit the
significand are dropped, and the significand is multiplied with, or divided by, the power in steps
of at most `10 ^ 308`.  A literal whose magnitude passes the greatest double has no value.
-/

namespace EntityQuery

/-- The parts of a number literal; `none` stands for a part that is not written. -/
structure NumberLiteral where
  negative : Bool
  whole : List Char
  fraction : Option (List Char)
  /-- The sign (`true` for minus) and the digits of the exponent. -/
  exponent : Option (Bool × List Char)
deriving Repr, DecidableEq

namespace NumberLiteral

/-- Splits the digits off the front of a text. -/
def digits (text : List Char) : List Char × List Char := text.span Char.isDigit

/-- Reads an exponent, of which the letter has been read, up to the end of the text. -/
def exponent? (text : List Char) : Option (Bool × List Char) :=
  let (negative, rest) :=
    match text with
    | '+' :: rest => (false, rest)
    | '-' :: rest => (true, rest)
    | _ => (false, text)
  match digits rest with
  | ([], _) => none
  | (ds, []) => some (negative, ds)
  | (_, _ :: _) => none

/-- Reads a whole literal; nothing may follow it. -/
def ofChars? (text : List Char) : Option NumberLiteral :=
  let (negative, rest) :=
    match text with
    | '-' :: rest => (true, rest)
    | _ => (false, text)
  let (whole, rest) := digits rest
  if whole = [] || (whole.head? == some '0' && whole.length != 1) then none
  else
    match rest with
    | [] => some ⟨negative, whole, none, none⟩
    | '.' :: rest =>
      match digits rest with
      | ([], _) => none
      | (ds, []) => some ⟨negative, whole, some ds, none⟩
      | (ds, mark :: rest) =>
        if mark = 'e' || mark = 'E' then
          (exponent? rest).map fun e => ⟨negative, whole, some ds, some e⟩
        else none
    | mark :: rest =>
      if mark = 'e' || mark = 'E' then
        (exponent? rest).map fun e => ⟨negative, whole, none, some e⟩
      else none

/-- Appends digits to a significand while it fits the limit.  The second component counts the
digits that were taken. -/
def significand (limit : Nat) : Nat → List Char → Nat × Nat
  | start, [] => (start, 0)
  | start, d :: ds =>
    let next := start * 10 + (d.toNat - '0'.toNat)
    if next ≤ limit then
      let (result, taken) := significand limit next ds
      (result, taken + 1)
    else (start, 0)

/-- Scales a magnitude by a power of ten, in steps of at most `10 ^ 308`. -/
def scaled (magnitude : Float) (power : Int) : Option Float :=
  if 308 < power then
    if magnitude == 0.0 then some magnitude else none
  else if 0 ≤ power then
    let product := magnitude * Float.ofScientific 1 false power.toNat
    if Number.isFinite product then some product else none
  else if -308 ≤ power then
    some (magnitude / Float.ofScientific 1 false (-power).toNat)
  else if magnitude == 0.0 then some magnitude
  else scaled (magnitude / Float.ofScientific 1 false 308) (power + 308)
termination_by (-power).toNat
decreasing_by omega

/-- The exponent part as an integer; nothing if its digits pass 32 bits. -/
def exponentValue (e : Bool × List Char) : Option Int :=
  let (magnitude, taken) := significand int32Max.toNat 0 e.2
  if taken = e.2.length then some (if e.1 then -(magnitude : Int) else magnitude) else none

/-- Keeps an exponent within 32 signed bits. -/
def clampInt32 (n : Int) : Int := max int32Min (min int32Max n)

/-- The value of a literal, or nothing if its magnitude is too large. -/
def value (l : NumberLiteral) : Option Number :=
  let sign : Float → Float := fun x => if l.negative then -x else x
  let (start, taken) := significand uint64Max 0 l.whole
  let dropped : Int := (l.whole.length - taken : Nat)
  match l.fraction, l.exponent with
  | none, none =>
    if dropped = 0 then
      if !l.negative then some (.int start)
      else if start = 0 || Nat.pow 2 63 < start then some (.float (-(Float.ofInt start)))
      else some (.int (-(start : Int)))
    else (scaled (.ofInt start) dropped).map fun x => .float (sign x)
  | fraction, exponent =>
    let (digits, places) := significand uint64Max start (fraction.getD [])
    let power := dropped - places
    match exponent with
    | none => (scaled (.ofInt digits) power).map fun x => .float (sign x)
    | some e =>
      match exponentValue e with
      | some shift =>
        (scaled (.ofInt digits) (clampInt32 (power + shift))).map fun x => .float (sign x)
      | none => if digits != 0 && !e.1 then none else some (.float (sign 0.0))

/-- The number that a text denotes, if it is a literal with a value. -/
def parse? (text : List Char) : Option (Option Number) := (ofChars? text).map value

end NumberLiteral

end EntityQuery
