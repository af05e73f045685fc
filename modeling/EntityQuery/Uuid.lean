/-!
# Universally unique identifiers

An identifier is a number of 128 bits.  It is written as 32 hexadecimal digits with hyphens after
the digits 8, 12, 16 and 20; when read, the hyphens may be left out, and a hyphenated text may stand
in braces or after `urn:uuid:`.
-/

namespace EntityQuery

/-- A universally unique identifier. -/
structure Uuid where
  bits : BitVec 128
deriving DecidableEq, Repr

namespace Uuid

/-- The identifier of which all bits are zero. -/
def nil : Uuid := ⟨0⟩

/-- The value of a hexadecimal digit. -/
def digitValue? (c : Char) : Option Nat :=
  if c.isDigit then some (c.toNat - '0'.toNat)
  else if 'a' ≤ c && c ≤ 'f' then some (c.toNat - 'a'.toNat + 10)
  else if 'A' ≤ c && c ≤ 'F' then some (c.toNat - 'A'.toNat + 10)
  else none

/-- The number that hexadecimal digits denote, continuing a given one. -/
def hexNumber? (start : Nat) : List Char → Option Nat
  | [] => some start
  | c :: s => (digitValue? c).bind fun d => hexNumber? (start * 16 + d) s

/-- Exactly `places` hexadecimal digits of a number, the most significant one first. -/
def hexDigits : Nat → Nat → List Char
  | 0, _ => []
  | places + 1, n => hexDigits places (n / 16) ++ [Nat.digitChar (n % 16)]

/-- Puts hyphens between the groups of 32 digits. -/
def hyphenate (ds : List Char) : List Char :=
  ds.take 8 ++ '-' :: (ds.drop 8).take 4 ++ '-' :: (ds.drop 12).take 4 ++
    '-' :: (ds.drop 16).take 4 ++ '-' :: ds.drop 20

/-- The hyphenated text of an identifier, in lower case. -/
def text (u : Uuid) : String := .ofList (hyphenate (hexDigits 32 u.bits.toNat))

/-- Reads exactly 32 hexadecimal digits. -/
def ofDigits? (s : List Char) : Option Uuid :=
  if s.length = 32 then (hexNumber? 0 s).map fun n => ⟨.ofNat 128 n⟩ else none

/-- Takes the hyphens out of a text that has them exactly between the groups. -/
def unhyphenate? (s : List Char) : Option (List Char) :=
  if s.length = 36 && s[8]? == some '-' && s[13]? == some '-' && s[18]? == some '-' &&
      s[23]? == some '-' then
    some (s.take 8 ++ (s.drop 9).take 4 ++ (s.drop 14).take 4 ++ (s.drop 19).take 4 ++ s.drop 24)
  else none

/-- Reads the hyphenated form. -/
def ofHyphenated? (s : List Char) : Option Uuid := (unhyphenate? s).bind ofDigits?

/-- Reads any of the accepted forms. -/
def ofText? (s : String) : Option Uuid :=
  let cs := s.toList
  if cs.length = 32 then ofDigits? cs
  else if cs.length = 36 then ofHyphenated? cs
  else if cs.length = 38 && cs.head? == some '\x7b' && cs.getLast? == some '\x7d' then
    ofHyphenated? ((cs.drop 1).dropLast)
  else if cs.length = 45 && (cs.take 9).map Char.toLower == "urn:uuid:".toList then
    ofHyphenated? (cs.drop 9)
  else none

end Uuid
end EntityQuery
