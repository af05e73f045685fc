import EntityQuery.Scalar.Basic
import EntityQuery.Statement.Basic

/-!
# Parameters of a statement

A statement never holds a value of the application; it holds placeholders, and its parameter table
says where the value of each one comes from.  A placeholder stands either for a constant of the
query, counted in slots, or for a parameter that the application names.

* `ParameterTable.bindSlot`, `ParameterTable.bindNamed` and `ParameterTable.markRowCount` are the
  ways in which a table grows.
* `ParameterTable.find?_eq_none_iff`: a placeholder has an entry exactly if it is one of the names.
* `StoreQuery.isConsistent` says that a statement and its table fit.
-/

namespace EntityQuery

/-- Where the value of a placeholder comes from. -/
inductive ParameterOrigin where
  /-- A constant of the query. -/
  | constant (slot : Nat)
  /-- A value that is supplied under the name of the placeholder. -/
  | named
deriving DecidableEq, Repr

/-- What is known of a placeholder. -/
structure ParameterEntry where
  name : String
  scalarType : ScalarType
  origin : ParameterOrigin
  /-- Whether the value is a number of rows, so that it must be an integer and not negative. -/
  rowCount : Bool := false
deriving DecidableEq, Repr

/-- The description of an entry. -/
def ParameterEntry.toDocument (e : ParameterEntry) : Document :=
  let origin :=
    match e.origin with
    | .constant slot => [("source", Document.string "constant"), ("slot", .ofInt slot)]
    | .named => [("source", .string "named")]
  .ofFields ([("name", .string e.name), ("scalar_type", e.scalarType.toDocument)] ++ origin ++
    if e.rowCount then [("row_count", .bool true)] else [])

/-- Why a named parameter is refused. -/
inductive ParameterError where
  /-- A name is used with two types. -/
  | typeConflict (name : String) (first second : ScalarType)
  /-- A name is no identifier, or is that of a constant. -/
  | invalidName (name : String)
deriving DecidableEq, Repr

/-- The text of the refusal. -/
def ParameterError.message : ParameterError → String
  | .typeConflict name first second =>
    "parameter '$" ++ name ++ "' is used as both '" ++ first.name ++ "' and '" ++ second.name ++ "'"
  | .invalidName name => "'" ++ name ++ "' is not a valid parameter name"

/-- Whether a text is an identifier: letters, digits and underscores of ASCII, and no digit in
front. -/
def isIdentifier (name : String) : Bool :=
  match name.toList with
  | [] => false
  | c :: cs => (c.isAlpha || c == '_') && cs.all fun c => c.isAlphanum || c == '_'

/-- Whether a text has the form of the name of a constant. -/
def isSlotName (name : String) : Bool :=
  match name.toList with
  | 'p' :: c :: cs => (c :: cs).all Char.isDigit
  | _ => false

/-- The placeholder of a constant. -/
def slotName (slot : Nat) : String := "p" ++ toString slot

/-- The parameters of a statement, in the order in which they were bound. -/
structure ParameterTable where
  entries : List ParameterEntry
deriving DecidableEq, Repr

namespace ParameterTable

/-- The table without entries. -/
def empty : ParameterTable := ⟨[]⟩

/-- The entry of a placeholder. -/
def find? (t : ParameterTable) (name : String) : Option ParameterEntry :=
  t.entries.find? fun e => e.name == name

/-- The placeholders in order. -/
def names (t : ParameterTable) : List String := t.entries.map ParameterEntry.name

/-- A placeholder has an entry exactly if it is one of the names. -/
theorem find?_eq_none_iff {t : ParameterTable} {name : String} :
    t.find? name = none ↔ name ∉ t.names := by
  simp [find?, names]

/-- A table with one more entry at its end. -/
def push (t : ParameterTable) (e : ParameterEntry) : ParameterTable := ⟨t.entries ++ [e]⟩

@[simp] theorem names_push (t : ParameterTable) (e : ParameterEntry) :
    (t.push e).names = t.names ++ [e.name] := by
  simp [push, names]

/-- Binds the constant of a slot, unless that has been done. -/
def bindSlot (t : ParameterTable) (slot : Nat) (scalarType : ScalarType) :
    ParameterTable × String :=
  let name := slotName slot
  match t.find? name with
  | some _ => (t, name)
  | none => (t.push ⟨name, scalarType, .constant slot, false⟩, name)

/-- Binds a named parameter.  All uses of a name share one entry and have one type. -/
def bindNamed (t : ParameterTable) (name : String) (scalarType : ScalarType) :
    Except ParameterError (ParameterTable × String) :=
  if !isIdentifier name || isSlotName name then .error (.invalidName name)
  else
    match t.find? name with
    | some e =>
      if e.scalarType = scalarType then .ok (t, name)
      else .error (.typeConflict name e.scalarType scalarType)
    | none => .ok (t.push ⟨name, scalarType, .named, false⟩, name)

/-- Marks the first entry of a name in a list of entries. -/
def markFirst (name : String) : List ParameterEntry → List ParameterEntry
  | [] => []
  | e :: es => if e.name = name then { e with rowCount := true } :: es else e :: markFirst name es

/-- Marks a placeholder as a number of rows. -/
def markRowCount (t : ParameterTable) (name : String) : ParameterTable :=
  ⟨markFirst name t.entries⟩

/-- Marking an entry leaves the names alone. -/
@[simp] theorem names_markRowCount (t : ParameterTable) (name : String) :
    (t.markRowCount name).names = t.names := by
  obtain ⟨entries⟩ := t
  simp only [markRowCount, names]
  induction entries with
  | nil => rfl
  | cons e es ih => grind [markFirst]

/-- The description of a table. -/
def toDocument (t : ParameterTable) : Document :=
  .ofFields [("entries", .array (t.entries.map ParameterEntry.toDocument))]

end ParameterTable

/-- A statement and its parameters. -/
structure StoreQuery where
  statement : Statement
  parameters : ParameterTable

/-- Whether the placeholders of the statement are exactly the entries of the table, each of which
occurs once. -/
def StoreQuery.isConsistent (q : StoreQuery) : Bool :=
  let used := q.statement.placeholders
  let declared := q.parameters.names
  used.all declared.contains && declared.all used.contains && decide declared.Nodup

end EntityQuery
