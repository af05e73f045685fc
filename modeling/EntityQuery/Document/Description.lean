import EntityQuery.Document.Written

/-!
# Descriptions

A description is a document that an application writes to say what it wants: a model, a set of
options, a query.  Its parts have names, and it may be written as an object or as the array of its
parts in their order.

* `Written.parts?` finds the parts of a description.
* `partOf` and `partOr` read one of them, which has to be there or has a default.
* `Written.variant?` takes apart a choice between named alternatives.
-/

namespace EntityQuery

namespace Written

/-- The text of a string. -/
def text? : Written → Option String
  | .string s => s
  | _ => none

/-- A truth value. -/
def flag? : Written → Option Bool
  | .bool b => some b
  | _ => none

/-- A natural number below 2^64, written as an integer. -/
def count? : Written → Option Nat
  | .number (some (.int n)) => if 0 ≤ n && n ≤ uint64Max then some n.toNat else none
  | _ => none

/-- An integer of 64 bits, written as one. -/
def integer? : Written → Option Int
  | .number (some (.int n)) => if fitsInt64 n then some n else none
  | _ => none

/-- The items of an array, each of which can be read. -/
def listOf? {α : Type} (read : Written → Option α) : Written → Option (List α)
  | .array items => items.mapM read
  | _ => none

/-- Something that null leaves out. -/
def optional? {α : Type} (read : Written → Option α) : Written → Option (Option α)
  | .null => some none
  | w => (read w).map some

/-- One of several named alternatives, with what belongs to it: a string that names it, or an
object with one field. -/
def variant? : Written → Option (String × Option Written)
  | .string (some name) => some (name, none)
  | .object [(name, w)] => some (name, some w)
  | _ => none

end Written

/-- The parts of a description that are present. -/
abbrev Parts := List (String × Written)

/-- The fields of an object that have one of the given names, none of which may occur twice. -/
def knownFields? (names : List String) (fields : Parts) : Option Parts :=
  let known := fields.filter fun f => names.contains f.1
  if (known.map Prod.fst).Nodup then some known else none

/-- The parts of a description whose parts have the given names in order.  Fields of other names
are passed over. -/
def Written.parts? (names : List String) : Written → Option Parts
  | .object fields => knownFields? names fields
  | .array items => if items.length ≤ names.length then some (names.zip items) else none
  | _ => none

/-- Whether all fields of a description have one of the given names. -/
def Written.hasOnly (names : List String) : Written → Bool
  | .object fields => fields.all fun f => names.contains f.1
  | _ => true

/-- A part that may be absent. -/
def findPart? (name : String) (parts : Parts) : Option Written :=
  (parts.find? fun p => p.1 == name).map Prod.snd

/-- Reads a part that has to be there. -/
def partOf {α : Type} (parts : Parts) (name : String) (read : Written → Option α) : Option α :=
  (findPart? name parts).bind read

/-- Reads a part that has a default. -/
def partOr {α : Type} (parts : Parts) (name : String) (absent : α) (read : Written → Option α) :
    Option α :=
  match findPart? name parts with
  | some w => read w
  | none => some absent

/-- Reads a part that may be absent or null. -/
def partIf {α : Type} (parts : Parts) (name : String) (read : Written → Option α) :
    Option (Option α) :=
  partOr parts name none (Written.optional? read)

end EntityQuery
