import EntityQuery.Text.CaseTable
import EntityQuery.Text.Blank

/-!
# Lower and upper case

The full case mappings of a text.  They are made character by character, with one exception: a
capital sigma at the end of a word has a lower-case form of its own.
-/

namespace EntityQuery

/-- Looks a character up in the tables of one direction. -/
def mapCase (ranges : Array (Nat × Nat × Nat × Nat)) (sequences : Array (Nat × List Nat))
    (c : Char) : List Char :=
  match sequences.find? fun (code, _) => code == c.toNat with
  | some (_, codes) => codes.map Char.ofNat
  | none =>
    match ranges.find? fun (first, last, step, _) =>
        decide (first ≤ c.toNat) && decide (c.toNat ≤ last) && (c.toNat - first) % step == 0 with
    | some (first, _, _, image) => [Char.ofNat (image + (c.toNat - first))]
    | none => [c]

/-- The lower-case form of a character. -/
def lowerChar (c : Char) : List Char :=
  if c.toNat < 128 then [c.toLower] else mapCase lowerRanges lowerSequences c

/-- The upper-case form of a character. -/
def upperChar (c : Char) : List Char :=
  if c.toNat < 128 then [c.toUpper] else mapCase upperRanges upperSequences c

/-- Whether the first character that is not ignored in case matters is a cased one. -/
def meetsCased (s : List Char) : Bool :=
  match s.dropWhile (inRanges caseIgnorableRanges) with
  | [] => false
  | c :: _ => inRanges casedRanges c

/-- Lower case of a text, given the characters before it from the nearest one on. -/
def lowerChars : List Char → List Char → List Char
  | _, [] => []
  | before, c :: after =>
    if c = 'Σ' then
      (if meetsCased before && !meetsCased after then 'ς' else 'σ') ::
        lowerChars (c :: before) after
    else lowerChar c ++ lowerChars (c :: before) after

/-- The lower-case form of a text. -/
def lowerCase (s : String) : String := .ofList (lowerChars [] s.toList)

/-- The upper-case form of a text. -/
def upperCase (s : String) : String := .ofList (s.toList.flatMap upperChar)

end EntityQuery
