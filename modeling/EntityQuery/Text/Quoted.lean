import EntityQuery.Text.VisibleTable
import EntityQuery.Text.Blank

/-!
# Quoted text in messages

A text is quoted in a message between double quotes.  A backslash marks the quote, the backslash,
the usual control characters and, by its code point, every other character without a glyph.
-/

namespace EntityQuery

/-- The digits of a number in a base of at most sixteen, in lower case. -/
def digitText (base n : Nat) : String := .ofList (Nat.toDigits base n)

/-- Whether a character is shown as itself. -/
def isVisible (c : Char) : Bool :=
  if c.toNat < 127 then decide (32 ≤ c.toNat)
  else !inRanges extendingRanges c && !inRanges invisibleRanges c

/-- One character of a quoted text. -/
def quotedChar (c : Char) : String :=
  match c with
  | '"' => "\\\""
  | '\\' => "\\\\"
  | '\n' => "\\n"
  | '\r' => "\\r"
  | '\t' => "\\t"
  | '\x00' => "\\0"
  | c => if isVisible c then c.toString else "\\u\x7b" ++ digitText 16 c.toNat ++ "\x7d"

/-- A text between double quotes. -/
def quoted (s : String) : String := "\"" ++ String.join (s.toList.map quotedChar) ++ "\""

end EntityQuery
