/-!
# Sets of characters and blanks

A set of characters is written as a table of inclusive ranges of code points.  One of them are the
characters with the White_Space property, which can be removed at both ends of a text.
-/

namespace EntityQuery

/-- Whether a character lies in one of the ranges of a table. -/
def inRanges (table : Array (Nat × Nat)) (c : Char) : Bool :=
  table.any fun (low, high) => decide (low ≤ c.toNat) && decide (c.toNat ≤ high)

/-- The characters with the White_Space property. -/
def blankRanges : Array (Nat × Nat) :=
  #[(0x9, 0xd), (0x20, 0x20), (0x85, 0x85), (0xa0, 0xa0), (0x1680, 0x1680), (0x2000, 0x200a),
    (0x2028, 0x2029), (0x202f, 0x202f), (0x205f, 0x205f), (0x3000, 0x3000)]

/-- Whether a character is blank. -/
def isBlank (c : Char) : Bool := inRanges blankRanges c

/-- A text without the blank characters at its ends. -/
def trimChars (s : List Char) : List Char :=
  ((s.dropWhile isBlank).reverse.dropWhile isBlank).reverse

/-- A text without the blank characters at its ends. -/
def trimmed (s : String) : String := .ofList (trimChars s.toList)

/-- Whether a text has nothing but blanks. -/
def isBlankText (s : String) : Bool := s.toList.all isBlank

end EntityQuery
