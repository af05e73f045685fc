import EntityQuery.Text.Blank

/-!
# Dates

Dates of the Gregorian calendar, extended to all years from -262143 to 262142.

* `Date.dayNumber` and `Date.ofDayNumber` count days from 1 January 1970.
* `Date.text` is `YYYY-MM-DD`; years outside 0 to 9999 have a sign and at least four digits.
* `Date.ofText?` reads that form and some looser ones.
-/

namespace EntityQuery

/-- Whether a year has 366 days. -/
def isLeapYear (year : Int) : Bool :=
  year % 4 == 0 && (year % 100 != 0 || year % 400 == 0)

/-- The number of days of a month. -/
def daysInMonth (year : Int) (month : Nat) : Nat :=
  if month = 2 then (if isLeapYear year then 29 else 28)
  else if month = 4 || month = 6 || month = 9 || month = 11 then 30
  else 31

/-- Whether year, month and day name a date. -/
def isDate (year : Int) (month day : Nat) : Bool :=
  decide (-262143 ≤ year) && decide (year ≤ 262142) && decide (1 ≤ month) && decide (month ≤ 12) &&
    decide (1 ≤ day) && decide (day ≤ daysInMonth year month)

/-- A date. -/
structure Date where
  year : Int
  month : Nat
  day : Nat
  valid : isDate year month day = true
deriving DecidableEq

/-- The number of a date, given by its parts, counted from 1 January 1970.  Years are counted from
March on, so that the day a leap year inserts is the last one. -/
def dayNumberOf (year : Int) (month day : Nat) : Int :=
  let shifted := if month ≤ 2 then year - 1 else year
  let era := shifted / 400
  let yearOfEra := shifted % 400
  let monthFromMarch : Int := if 2 < month then month - 3 else month + 9
  let dayOfYear := (153 * monthFromMarch + 2) / 5 + day - 1
  let dayOfEra := yearOfEra * 365 + yearOfEra / 4 - yearOfEra / 100 + dayOfYear
  era * 146097 + dayOfEra - 719468

/-- The year, month and day of a day counted from 1 January 1970. -/
def dateParts (number : Int) : Int × Nat × Nat :=
  let shifted := number + 719468
  let era := shifted / 146097
  let dayOfEra := shifted % 146097
  let yearOfEra := (dayOfEra - dayOfEra / 1460 + dayOfEra / 36524 - dayOfEra / 146096) / 365
  let dayOfYear := dayOfEra - (365 * yearOfEra + yearOfEra / 4 - yearOfEra / 100)
  let monthFromMarch := (5 * dayOfYear + 2) / 153
  let day := dayOfYear - (153 * monthFromMarch + 2) / 5 + 1
  let month := if monthFromMarch < 10 then monthFromMarch + 3 else monthFromMarch - 9
  let year := yearOfEra + era * 400
  (if month ≤ 2 then year + 1 else year, month.toNat, day.toNat)

/-- A number in decimal digits, with zeros in front up to a given width. -/
def padded (width n : Nat) : String :=
  let ds := Nat.toDigits 10 n
  String.ofList (List.replicate (width - ds.length) '0' ++ ds)

/-- The text of a year. -/
def yearText (year : Int) : String :=
  if 0 ≤ year && year ≤ 9999 then padded 4 year.toNat
  else (if year < 0 then "-" else "+") ++ padded 4 year.natAbs

/-- The text of a date, given by its parts. -/
def dateText (year : Int) (month day : Nat) : String :=
  yearText year ++ "-" ++ padded 2 month ++ "-" ++ padded 2 day

/-- The number that decimal digits denote. -/
def decimalValue (ds : List Char) : Nat := ds.foldl (fun n c => n * 10 + (c.toNat - '0'.toNat)) 0

/-- Splits at most `limit` decimal digits, and at least one, off the front of a text. -/
def takeNumber? (limit : Nat) (s : List Char) : Option (Nat × List Char) :=
  let ds := (s.take limit).takeWhile Char.isDigit
  if ds.isEmpty then none else some (decimalValue ds, s.drop ds.length)

/-- Splits a given character off the front of a text. -/
def takeChar? (c : Char) : List Char → Option (List Char)
  | [] => none
  | d :: s => if c = d then some s else none

namespace Date

/-- The date with the given parts, if there is one. -/
def ofParts? (year : Int) (month day : Nat) : Option Date :=
  if h : isDate year month day = true then some ⟨year, month, day, h⟩ else none

/-- The number of a date, counted from 1 January 1970. -/
def dayNumber (d : Date) : Int := dayNumberOf d.year d.month d.day

/-- The text of a date. -/
def text (d : Date) : String := dateText d.year d.month d.day

/-- Reads a year: up to four digits, or a sign and any number of digits. -/
def takeYear? (s : List Char) : Option (Int × List Char) :=
  match s with
  | '-' :: s => (takeNumber? s.length s).map fun (n, rest) => (-(n : Int), rest)
  | '+' :: s => (takeNumber? s.length s).map fun (n, rest) => ((n : Int), rest)
  | s => (takeNumber? 4 s).map fun (n, rest) => ((n : Int), rest)

/-- Reads a date.  Blanks may stand before each number, and the numbers of the month and the day
may have one digit. -/
def ofText? (s : String) : Option Date := do
  let (year, s) ← takeYear? (s.toList.dropWhile isBlank)
  let s ← takeChar? '-' s
  let (month, s) ← takeNumber? 2 (s.dropWhile isBlank)
  let s ← takeChar? '-' s
  let (day, s) ← takeNumber? 2 (s.dropWhile isBlank)
  if s.isEmpty then ofParts? year month day else none

end Date
end EntityQuery
