import EntityQuery.Calendar.Date

/-!
# Instants

An instant is a second of universal time, counted from the beginning of 1970, and a fraction of it
in nanoseconds.  A fraction of a whole second and more marks a leap second, which has the number of
the last second of its minute.

* `Instant.text` writes date and time with as many digits of the fraction as it needs, in threes.
* `Instant.ofText?` reads that form with any offset from universal time.
-/

namespace EntityQuery

/-- Whether a fraction may follow a second. -/
def isFraction (seconds : Int) (nanos : Nat) : Bool :=
  decide (nanos < 1000000000) || (decide (nanos < 2000000000) && seconds % 60 == 59)

/-- An instant of universal time. -/
structure Instant where
  seconds : Int
  nanos : Nat
  valid : isFraction seconds nanos = true
deriving DecidableEq

namespace Instant

/-- The instant with the given second and fraction, if there is one. -/
def ofParts? (seconds : Int) (nanos : Nat) : Option Instant :=
  if h : isFraction seconds nanos = true then some ⟨seconds, nanos, h⟩ else none

/-- The fraction of a second as text: nothing, or a point and three, six or nine digits. -/
def fractionText (nanos : Nat) : String :=
  if nanos = 0 then ""
  else if nanos % 1000000 = 0 then "." ++ padded 3 (nanos / 1000000)
  else if nanos % 1000 = 0 then "." ++ padded 6 (nanos / 1000)
  else "." ++ padded 9 nanos

/-- Date and time of an instant, without a zone. -/
def localText (i : Instant) : String :=
  let (year, month, day) := dateParts (i.seconds / 86400)
  let time := (i.seconds % 86400).toNat
  let isLeap := decide (1000000000 ≤ i.nanos)
  let second := if isLeap then time % 60 + 1 else time % 60
  let nanos := if isLeap then i.nanos - 1000000000 else i.nanos
  dateText year month day ++ "T" ++ padded 2 (time / 3600) ++ ":" ++ padded 2 (time / 60 % 60) ++
    ":" ++ padded 2 second ++ fractionText nanos

/-- The text of an instant in documents. -/
def text (i : Instant) : String := i.localText ++ "Z"

/-- The text of an instant in messages. -/
def message (i : Instant) : String := i.localText ++ "+00:00"

/-- Splits a number of exactly `count` decimal digits off the front of a text. -/
def takeDigits? (count : Nat) (s : List Char) : Option (Nat × List Char) :=
  let ds := s.take count
  if ds.length = count && ds.all Char.isDigit then some (decimalValue ds, s.drop count) else none

/-- Splits an optional fraction off the front of a text, in nanoseconds; further digits are
dropped. -/
def takeFraction? (s : List Char) : Option (Nat × List Char) :=
  match s with
  | '.' :: rest =>
    let ds := rest.takeWhile Char.isDigit
    if ds.isEmpty then none
    else
      let kept := ds.take 9
      some (decimalValue kept * Nat.pow 10 (9 - kept.length), rest.drop ds.length)
  | s => some (0, s)

/-- Reads an offset from universal time, in seconds, up to the end of the text. -/
def offset? (s : List Char) : Option Int :=
  match s with
  | ['Z'] => some 0
  | ['z'] => some 0
  | sign :: s => do
    let factor ← if sign = '+' then some (1 : Int) else if sign = '-' || sign = '−' then some (-1)
      else none
    let (hours, s) ← takeDigits? 2 s
    let s ← takeChar? ':' s
    let (minutes, s) ← takeDigits? 2 s
    if s.isEmpty && hours ≤ 23 && minutes ≤ 59 then
      some (factor * (hours * 3600 + minutes * 60 : Nat))
    else none
  | [] => none

/-- Splits the mark between date and time off the front of a text. -/
def takeSeparator? : List Char → Option (List Char)
  | 'T' :: s => some s
  | 't' :: s => some s
  | ' ' :: s => some s
  | _ => none

/-- Reads an instant.  A sixtieth second is kept as a leap second. -/
def ofText? (s : String) : Option Instant := do
  let (year, s) ← takeDigits? 4 s.toList
  let s ← takeChar? '-' s
  let (month, s) ← takeDigits? 2 s
  let s ← takeChar? '-' s
  let (day, s) ← takeDigits? 2 s
  let s ← takeSeparator? s
  let (hour, s) ← takeDigits? 2 s
  let s ← takeChar? ':' s
  let (minute, s) ← takeDigits? 2 s
  let s ← takeChar? ':' s
  let (second, s) ← takeDigits? 2 s
  let (nanos, s) ← takeFraction? s
  let offset ← offset? s
  let date ← Date.ofParts? year month day
  if hour ≤ 23 && minute ≤ 59 && second ≤ 60 then
    let isLeap := second == 60
    let time : Int := (hour * 3600 + minute * 60 + (if isLeap then 59 else second) : Nat)
    ofParts? (date.dayNumber * 86400 + time - offset) (if isLeap then nanos + 1000000000 else nanos)
  else none

end Instant
end EntityQuery
