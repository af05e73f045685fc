import EntityQuery.Evaluation.Arithmetic
import EntityQuery.Text.Blank
import EntityQuery.Text.Case
import EntityQuery.Text.Search

/-!
# Functions of the statement language

A function is called by its name.  The number of arguments is checked first.  Then a missing
argument makes the result missing and a null one makes it null; so does an argument of the wrong
kind.  Only `IFMISSINGORNULL` looks at such arguments: it is the first one that is neither.
-/

namespace EntityQuery

/-- A function of the statement language. -/
inductive StoreFunction where
  | lower
  | upper
  | trim
  | length
  | reverse
  | abs
  | round
  | floor
  | ceil
  | sqrt
  | arrayLength
  | contains
  | position
  | power
  | arrayContains
  | replace
  | substr
  | ifMissingOrNull
deriving DecidableEq, Repr

namespace StoreFunction

/-- The function of a name. -/
def ofName? : String → Option StoreFunction
  | "LOWER" => some .lower
  | "UPPER" => some .upper
  | "TRIM" => some .trim
  | "LENGTH" => some .length
  | "REVERSE" => some .reverse
  | "ABS" => some .abs
  | "ROUND" => some .round
  | "FLOOR" => some .floor
  | "CEIL" => some .ceil
  | "SQRT" => some .sqrt
  | "ARRAY_LENGTH" => some .arrayLength
  | "CONTAINS" => some .contains
  | "POSITION" => some .position
  | "POWER" => some .power
  | "ARRAY_CONTAINS" => some .arrayContains
  | "REPLACE" => some .replace
  | "SUBSTR" => some .substr
  | "IFMISSINGORNULL" => some .ifMissingOrNull
  | _ => none

/-- The numbers of arguments that a function takes, as messages name them. -/
def arityText : StoreFunction → String
  | .lower | .upper | .trim | .length | .reverse | .abs | .round | .floor | .ceil | .sqrt
  | .arrayLength => "1"
  | .contains | .position | .power | .arrayContains => "2"
  | .replace => "3"
  | .substr => "2 or 3"
  | .ifMissingOrNull => "at least 1"

/-- Whether a function takes a number of arguments. -/
def takes (f : StoreFunction) (count : Nat) : Bool :=
  match f with
  | .lower | .upper | .trim | .length | .reverse | .abs | .round | .floor | .ceil | .sqrt
  | .arrayLength => count == 1
  | .contains | .position | .power | .arrayContains => count == 2
  | .replace => count == 3
  | .substr => count == 2 || count == 3
  | .ifMissingOrNull => count != 0

/-- A function of one text. -/
def onText (f : List Char → Document) : Document → Document
  | .string s => f s.toList
  | _ => .null

/-- A function of two texts. -/
def onTexts (f : List Char → List Char → Document) : Document → Document → Document
  | .string s, .string t => f s.toList t.toList
  | _, _ => .null

/-- A function of one number. -/
def onNumber (f : Quantity → Document) (d : Document) : Document :=
  match Quantity.ofDocument? d with
  | some q => f q
  | none => .null

/-- The text of some characters. -/
def textDocument (cs : List Char) : Document := .string (.ofList cs)

/-- The part of a text from a position on, of at most the given length.  A negative position counts
from the end; a position outside the text makes the result null. -/
def substring (s : List Char) (start : Int) (count : Option Nat) : Document :=
  let position := if start < 0 then start + s.length else start
  if position < 0 || (s.length : Int) < position then .null
  else
    let tail := s.drop position.toNat
    textDocument (match count with
      | some n => tail.take n
      | none => tail)

/-- The part of a text, with position and length as values. -/
def substringOf (s start : Document) (count : Option Document) : Document :=
  match s, Quantity.ofDocument? start with
  | .string s, some (.int start) =>
    match count with
    | none => substring s.toList start none
    | some d =>
      match Quantity.ofDocument? d with
      | some (.int n) => if 0 ≤ n then substring s.toList start (some n.toNat) else .null
      | _ => .null
  | _, _ => .null

/-- Replaces the occurrences of one text in another; an empty text has none. -/
def replaced : Document → Document → Document → Document
  | .string s, .string needle, .string replacement =>
    if needle.isEmpty then .null
    else textDocument (replaceAll needle.toList replacement.toList s.toList)
  | _, _, _ => .null

/-- The result of a function on arguments that are neither missing nor null. -/
def compute : StoreFunction → List Document → Document
  | .lower, [.string s] => .string (lowerCase s)
  | .upper, [.string s] => .string (upperCase s)
  | .trim, [.string s] => .string (trimmed s)
  | .length, [d] => onText (fun s => .ofInt s.length) d
  | .reverse, [d] => onText (fun s => textDocument s.reverse) d
  | .abs, [d] => onNumber (fun q => q.magnitude.toDocument) d
  | .round, [d] => onNumber (Quantity.rounded .nearest) d
  | .floor, [d] => onNumber (Quantity.rounded .down) d
  | .ceil, [d] => onNumber (Quantity.rounded .up) d
  | .sqrt, [d] => onNumber (fun q => .ofFloat q.toFloat.sqrt) d
  | .arrayLength, [.array items] => .ofInt items.length
  | .contains, [s, needle] => onTexts (fun s needle => .bool (occursIn needle s)) s needle
  | .position, [s, needle] =>
    onTexts (fun s needle => .ofInt (match indexOf? needle s with
      | some n => n
      | none => -1)) s needle
  | .power, [base, exponent] =>
    onNumber (fun x => onNumber (fun y => .ofFloat (x.toFloat.pow y.toFloat)) exponent) base
  | .arrayContains, [.array items, d] => .bool (items.any fun item => item.equal d)
  | .replace, [s, needle, replacement] => replaced s needle replacement
  | .substr, [s, start] => substringOf s start none
  | .substr, [s, start, count] => substringOf s start (some count)
  | _, _ => .null

/-- The first argument that is neither missing nor null. -/
def firstValued : List Datum → Document
  | [] => .null
  | some d :: args => if d.isNull then firstValued args else d
  | none :: args => firstValued args

/-- The result of a function on a suitable number of arguments. -/
def applyTo (f : StoreFunction) (args : List Datum) : Datum :=
  match f with
  | .ifMissingOrNull => some (firstValued args)
  | f =>
    if args.any Option.isNone then none
    else
      let values := args.filterMap id
      if values.any Document.isNull then some .null else some (f.compute values)

end StoreFunction

/-- Calls the function of a name. -/
def callFunction (name : String) (args : List Datum) : Except EvalError Datum :=
  match StoreFunction.ofName? name with
  | none => .error (.unknownFunction name)
  | some f =>
    if f.takes args.length then .ok (f.applyTo args)
    else .error (.arity name f.arityText args.length)

end EntityQuery
