import EntityQuery.Document.Basic
import EntityQuery.Document.Token

/-!
# Documents as written

A document text keeps details that a document does not: the order of the fields of an object and
names that occur twice.  `Written` is a document with these details; the readers of descriptions
look at it, and `Written.document?` forgets them.

* `Written.ofText?` reads a text.  It keeps the arrays and objects that are open on a stack, and
  takes one token at a time; at most `Written.maxDepth` of them may be open.
* `Written.ofDocument` is a document as it would be written in the order of its fields.
-/

namespace EntityQuery

/-- A document as it is written.  A number or a string without a value is written correctly but
denotes nothing. -/
inductive Written where
  | null
  | bool (b : Bool)
  | number (n : Option Number)
  | string (s : Option String)
  | array (items : List Written)
  | object (fields : List (String × Written))
deriving Repr, Inhabited

namespace Written

/-- An array or object that is still open, with what it holds in reverse. -/
inductive Frame where
  | array (items : List Written)
  /-- An object whose next field has no name yet. -/
  | object (fields : List (String × Written))
  /-- An object in which the value of a named field is due. -/
  | field (fields : List (String × Written)) (name : String)
deriving Repr

/-- What may come next. -/
inductive Expecting where
  /-- A value. -/
  | value
  /-- A value, or the end of an array that has just been opened. -/
  | firstItem
  /-- The name of a field. -/
  | name
  /-- The name of a field, or the end of an object that has just been opened. -/
  | firstName
  /-- The colon after a name. -/
  | colon
  /-- A comma or the end of what is open; with nothing open, the end of the text. -/
  | next
deriving DecidableEq, Repr

/-- The state of reading: what is open, innermost first, what may come, and the value that is
complete when nothing is open. -/
structure Progress where
  stack : List Frame
  expecting : Expecting
  done : Option Written
deriving Repr

/-- The greatest number of arrays and objects inside one another. -/
def maxDepth : Nat := 127

/-- Puts a complete value in its place. -/
def complete (value : Written) : List Frame → Option Progress
  | [] => some ⟨[], .next, some value⟩
  | .array items :: stack => some ⟨.array (value :: items) :: stack, .next, none⟩
  | .field fields name :: stack => some ⟨.object ((name, value) :: fields) :: stack, .next, none⟩
  | .object _ :: _ => none

/-- Whether a value may come next. -/
def Expecting.allowsValue : Expecting → Bool
  | .value => true
  | .firstItem => true
  | _ => false

/-- Opens an array or object. -/
def opened (frame : Frame) (expecting : Expecting) (p : Progress) : Option Progress :=
  if p.expecting.allowsValue && p.stack.length < maxDepth then
    some ⟨frame :: p.stack, expecting, none⟩
  else none

/-- Takes a value that is complete in one token. -/
def simple (value : Written) (p : Progress) : Option Progress :=
  if p.expecting.allowsValue then complete value p.stack else none

/-- Takes one token. -/
def step (p : Progress) (token : Token) : Option Progress :=
  match token with
  | .null => simple .null p
  | .bool b => simple (.bool b) p
  | .number n => simple (.number n) p
  | .string s =>
    if p.expecting == .name || p.expecting == .firstName then
      match s, p.stack with
      | some name, .object fields :: stack => some ⟨.field fields name :: stack, .colon, none⟩
      | _, _ => none
    else simple (.string s) p
  | .openBracket => opened (.array []) .firstItem p
  | .openBrace => opened (.object []) .firstName p
  | .closeBracket =>
    match p.stack with
    | .array items :: stack =>
      if p.expecting == .next || p.expecting == .firstItem then
        complete (.array items.reverse) stack
      else none
    | _ => none
  | .closeBrace =>
    match p.stack with
    | .object fields :: stack =>
      if p.expecting == .next || p.expecting == .firstName then
        complete (.object fields.reverse) stack
      else none
    | _ => none
  | .comma =>
    if p.expecting == .next then
      match p.stack with
      | .array _ :: _ => some { p with expecting := .value }
      | .object _ :: _ => some { p with expecting := .name }
      | _ => none
    else none
  | .colon => if p.expecting == .colon then some { p with expecting := .value } else none

/-- Takes tokens to the end. -/
def readTokens : Progress → List Token → Option Written
  | p, [] => p.done
  | p, token :: tokens =>
    match step p token with
    | none => none
    | some p => readTokens p tokens

/-- Reads a text that holds one document and nothing else. -/
def ofText? (text : String) : Option Written :=
  (Lexer.tokens? text).bind (readTokens ⟨[], .value, none⟩)

mutual

/-- The document that is written, if all its numbers and strings denote something. -/
def document? : Written → Option Document
  | .null => some .null
  | .bool b => some (.bool b)
  | .number n => n.map .number
  | .string s => s.map .string
  | .array items => (documents? items).map .array
  | .object fields => (fieldDocuments? fields).map Document.ofFields

/-- The documents of the items of an array. -/
def documents? : List Written → Option (List Document)
  | [] => some []
  | item :: items => do
    let first ← item.document?
    let rest ← documents? items
    some (first :: rest)

/-- The documents of the fields of an object. -/
def fieldDocuments? : List (String × Written) → Option (List (String × Document))
  | [] => some []
  | field :: fields => do
    let first ← fieldDocument? field
    let rest ← fieldDocuments? fields
    some (first :: rest)

/-- The document of one field. -/
def fieldDocument? : String × Written → Option (String × Document)
  | (name, value) => value.document?.map fun document => (name, document)

end

mutual

/-- A document, as it would be written in the order of its fields. -/
def ofDocument : Document → Written
  | .null => .null
  | .bool b => .bool b
  | .number n => .number (some n)
  | .string s => .string (some s)
  | .array items => .array (ofDocuments items)
  | .object fields => .object (ofFieldDocuments fields)

/-- Documents of an array, as they would be written. -/
def ofDocuments : List Document → List Written
  | [] => []
  | item :: items => ofDocument item :: ofDocuments items

/-- Documents of fields, as they would be written. -/
def ofFieldDocuments : List (String × Document) → List (String × Written)
  | [] => []
  | field :: fields => ofFieldDocument field :: ofFieldDocuments fields

/-- The document of a field, as it would be written. -/
def ofFieldDocument : String × Document → String × Written
  | (name, value) => (name, ofDocument value)

end

end Written

/-- Reads a text that holds one document and nothing else. -/
def Document.ofText? (text : String) : Option Document :=
  (Written.ofText? text).bind Written.document?

end EntityQuery
