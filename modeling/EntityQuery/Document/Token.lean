import EntityQuery.Number.Literal

/-!
# Tokens of a document text

A machine reads a text character by character.  Its state is what has been read of the current
token: `Lexer.step` makes the transitions and `Lexer.tokens?` runs the machine over a whole text.

A string whose escapes name half of a surrogate pair, and a number whose magnitude is too large,
are tokens without a value; the text around them can still be read.
-/

namespace EntityQuery

/-- A token of a document text. -/
inductive Token where
  | openBracket
  | closeBracket
  | openBrace
  | closeBrace
  | comma
  | colon
  | null
  | bool (b : Bool)
  | number (n : Option Number)
  | string (s : Option String)
deriving Repr

namespace Lexer

/-- What follows in an escape of a string. -/
inductive Escape where
  /-- No escape is open. -/
  | none
  /-- The character after a backslash. -/
  | mark
  /-- Hexadecimal digits: the value of those read and the number of those missing. -/
  | code (value missing : Nat)
deriving Repr

/-- The state between two characters. -/
inductive State where
  /-- Between tokens. -/
  | idle
  /-- In a word or number; its characters in reverse. -/
  | word (text : List Char)
  /-- In a string: its characters in reverse, whether they are all valid, the first half of a
  surrogate pair that waits for the second one, and the open escape. -/
  | string (text : List Char) (valid : Bool) (high : Option Nat) (escape : Escape)
deriving Repr

/-- Whether a character belongs to a word or a number. -/
def isWordChar (c : Char) : Bool := c.isAlphanum || c == '-' || c == '+' || c == '.'

/-- Whether a character separates tokens. -/
def isSpace (c : Char) : Bool := c == ' ' || c == '\n' || c == '\t' || c == '\r'

/-- The token of a word or number. -/
def ofWord (text : List Char) : Option Token :=
  if text = "null".toList then some .null
  else if text = "true".toList then some (.bool true)
  else if text = "false".toList then some (.bool false)
  else (NumberLiteral.parse? text).map .number

/-- The token of a single punctuation mark. -/
def ofMark : Char → Option Token
  | '[' => some .openBracket
  | ']' => some .closeBracket
  | '\x7b' => some .openBrace
  | '\x7d' => some .closeBrace
  | ',' => some .comma
  | ':' => some .colon
  | _ => none

/-- The value of a hexadecimal digit. -/
def hexValue (c : Char) : Option Nat :=
  if c.isDigit then some (c.toNat - '0'.toNat)
  else if 'a' ≤ c && c ≤ 'f' then some (c.toNat - 'a'.toNat + 10)
  else if 'A' ≤ c && c ≤ 'F' then some (c.toNat - 'A'.toNat + 10)
  else none

/-- The character of a one-letter escape. -/
def escaped : Char → Option Char
  | '"' => some '"'
  | '\\' => some '\\'
  | '/' => some '/'
  | 'b' => some '\x08'
  | 'f' => some '\x0c'
  | 'n' => some '\n'
  | 'r' => some '\r'
  | 't' => some '\t'
  | _ => none

/-- Takes a code that an escape names into a string. -/
def takeCode (text : List Char) (valid : Bool) (high : Option Nat) (code : Nat) : State :=
  match high with
  | some first =>
    if 0xDC00 ≤ code && code ≤ 0xDFFF then
      let value := 0x10000 + (first - 0xD800) * 0x400 + (code - 0xDC00)
      .string (Char.ofNat value :: text) valid none .none
    else .string text false none .none
  | none =>
    if 0xD800 ≤ code && code ≤ 0xDBFF then .string text valid (some code) .none
    else if 0xDC00 ≤ code && code ≤ 0xDFFF then .string text false none .none
    else .string (Char.ofNat code :: text) valid none .none

/-- The transition from between two tokens. -/
def stepIdle (c : Char) : Option (State × List Token) :=
  if isSpace c then some (.idle, [])
  else if c = '"' then some (.string [] true none .none, [])
  else if isWordChar c then some (.word [c], [])
  else (ofMark c).map fun token => (.idle, [token])

/-- The transition on one character, with the tokens that end in front of it or with it. -/
def step : State → Char → Option (State × List Token)
  | .idle, c => stepIdle c
  | .word text, c =>
    if isWordChar c then some (.word (c :: text), [])
    else do
      let token ← ofWord text.reverse
      let (state, tokens) ← stepIdle c
      some (state, token :: tokens)
  | .string text valid high .none, c =>
    if c = '"' then
      let value := if valid && high.isNone then some (String.ofList text.reverse) else none
      some (.idle, [.string value])
    else if c = '\\' then some (.string text valid high .mark, [])
    else if c.toNat < 32 then none
    else some (.string (c :: text) (valid && high.isNone) none .none, [])
  | .string text valid high .mark, c =>
    if c = 'u' then some (.string text valid high (.code 0 4), [])
    else (escaped c).map fun e => (.string (e :: text) (valid && high.isNone) none .none, [])
  | .string text valid high (.code value missing), c =>
    (hexValue c).map fun digit =>
      let value := value * 16 + digit
      if missing ≤ 1 then (takeCode text valid high value, [])
      else (.string text valid high (.code value (missing - 1)), [])

/-- Runs the machine over a text from a given state; the tokens before it are in reverse. -/
def run (before : List Token) : State → List Char → Option (List Token)
  | .idle, [] => some before.reverse
  | .word text, [] => (ofWord text.reverse).map fun token => (token :: before).reverse
  | .string .., [] => none
  | state, c :: text =>
    match step state c with
    | none => none
    | some (next, tokens) => run (tokens.reverse ++ before) next text

/-- The tokens of a text. -/
def tokens? (text : String) : Option (List Token) := run [] .idle text.toList

end Lexer

end EntityQuery
