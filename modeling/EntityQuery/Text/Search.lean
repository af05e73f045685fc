/-!
# Searching in text

Texts are searched as lists of characters.

* `indexOf?` is the position of the first occurrence of one text in another.
* `replaceAll` replaces every occurrence, from the left and without overlaps.
* `matchesPattern` decides the patterns of `LIKE`: `%` stands for any run of characters, `_` for any
  one character, and every other character for itself.
-/

namespace EntityQuery

/-- The number of characters in front of the first occurrence of `needle`. -/
def indexOf? (needle : List Char) : List Char → Option Nat
  | [] => if needle.isEmpty then some 0 else none
  | c :: s =>
    if needle.isPrefixOf (c :: s) then some 0 else (indexOf? needle s).map (· + 1)

/-- Whether `needle` occurs in a text. -/
def occursIn (needle s : List Char) : Bool := (indexOf? needle s).isSome

/-- Replaces the occurrences of `needle`, which is not empty.  While `pending` characters of an
occurrence are left they are passed over. -/
def replaceFrom (needle replacement : List Char) : Nat → List Char → List Char
  | _, [] => []
  | pending + 1, _ :: s => replaceFrom needle replacement pending s
  | 0, c :: s =>
    if needle.isPrefixOf (c :: s) then
      replacement ++ replaceFrom needle replacement (needle.length - 1) s
    else c :: replaceFrom needle replacement 0 s

/-- Replaces every occurrence of `needle`, which is not empty. -/
def replaceAll (needle replacement s : List Char) : List Char :=
  replaceFrom needle replacement 0 s

/-- The ends of a text, from the whole text to the empty one. -/
def suffixes : List Char → List (List Char)
  | [] => [[]]
  | c :: s => (c :: s) :: suffixes s

/-- Whether a whole text matches a pattern of `LIKE`. -/
def matchesPattern : List Char → List Char → Bool
  | [], s => s.isEmpty
  | p :: pattern, s =>
    if p = '%' then (suffixes s).any (matchesPattern pattern)
    else
      match s with
      | [] => false
      | c :: s => (p = '_' || p = c) && matchesPattern pattern s

end EntityQuery
