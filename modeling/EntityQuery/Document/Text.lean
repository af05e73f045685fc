import EntityQuery.Document.Basic
import EntityQuery.Text.Quoted

/-!
# The text of a document

Documents are written without blanks.  A string escapes the quote, the backslash and the control
characters, and shows every other character as itself; so the text of a document holds no control
character.
-/

namespace EntityQuery

/-- A number below 256 in two hexadecimal digits. -/
def hexByte (n : Nat) : String :=
  .ofList [Nat.digitChar (n / 16), Nat.digitChar (n % 16)]

/-- One character of a string in a document text. -/
def documentChar (c : Char) : String :=
  match c with
  | '"' => "\\\""
  | '\\' => "\\\\"
  | '\n' => "\\n"
  | '\r' => "\\r"
  | '\t' => "\\t"
  | '\x08' => "\\b"
  | '\x0c' => "\\f"
  | c => if c.toNat < 32 then "\\u00" ++ hexByte c.toNat else c.toString

/-- A string in a document text. -/
def documentString (s : String) : String :=
  "\"" ++ String.join (s.toList.map documentChar) ++ "\""

mutual

/-- The text of a document. -/
def Document.text : Document → String
  | .null => "null"
  | .bool true => "true"
  | .bool false => "false"
  | .number n => n.text
  | .string s => documentString s
  | .array items => "[" ++ itemsText items ++ "]"
  | .object fields => "\x7b" ++ fieldsText fields ++ "\x7d"

/-- The texts of the items of an array, between commas. -/
def itemsText : List Document → String
  | [] => ""
  | [item] => item.text
  | item :: items => item.text ++ "," ++ itemsText items

/-- The texts of the fields of an object, between commas. -/
def fieldsText : List (String × Document) → String
  | [] => ""
  | [field] => fieldText field
  | field :: fields => fieldText field ++ "," ++ fieldsText fields

/-- The text of a field. -/
def fieldText : String × Document → String
  | (name, value) => documentString name ++ ":" ++ value.text

end

end EntityQuery
