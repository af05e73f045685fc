import EntityQuery.Command.Error
import EntityQuery.Provider.Basic

/-!
# Descriptions of formulas

A formula is described by an object whose one field names an operator and holds its operands.

* `FormulaDescription.ofWritten?` reads a description.
* `FormulaDescription.formula` is the formula over the elements of an entity set.
-/

namespace EntityQuery

/-- The description of a formula. -/
inductive FormulaDescription where
  | property (path : String)
  /-- A constant whose type follows from its form. -/
  | constant (d : Document)
  | typed (d : Document) (scalarType : ScalarType)
  | null (scalarType : ScalarType)
  | parameter (name : String) (scalarType : ScalarType)
  | binary (op : Operator) (left right : FormulaDescription)
  | like (f pattern : FormulaDescription)
  | not (f : FormulaDescription)
  | isNull (f : FormulaDescription)
  | isNotNull (f : FormulaDescription)
  | inList (f : FormulaDescription) (values : List FormulaDescription)
  | coalesce (values : List FormulaDescription)
  | builtin (function : BuiltinFunction) (arg : FormulaDescription)
  | call (name : String) (args : List FormulaDescription) (scalarType : ScalarType)

mutual

/-- How many objects and arrays are inside one another. -/
def Written.depth : Written → Nat
  | .array items => depthOfItems items + 1
  | .object fields => depthOfFields fields + 1
  | _ => 0

/-- The greatest depth of some items. -/
def depthOfItems : List Written → Nat
  | [] => 0
  | item :: items => max item.depth (depthOfItems items)

/-- The greatest depth of some fields. -/
def depthOfFields : List (String × Written) → Nat
  | [] => 0
  | field :: fields => max (depthOfField field) (depthOfFields fields)

/-- The depth of what a field holds. -/
def depthOfField : String × Written → Nat
  | (_, w) => w.depth

end

namespace FormulaDescription

/-- The operators of two operands, by name. -/
def binaryNames : List (String × Operator) :=
  [("eq", .eq), ("ne", .ne), ("lt", .lt), ("le", .le), ("gt", .gt), ("ge", .ge), ("and", .and),
    ("or", .or), ("add", .add), ("sub", .sub), ("mul", .mul), ("div", .div), ("concat", .concat)]

/-- The functions that a description can name. -/
def builtins : List BuiltinFunction := [.lower, .upper, .trim, .length, .abs]

/-- The parts of an operator that is described by an object. -/
def objectParts? (names : List String) : Written → Option Parts
  | .object fields => knownFields? names fields
  | _ => none

/-- Two operands. -/
def pair? (read : Written → Option FormulaDescription) :
    Written → Option (FormulaDescription × FormulaDescription)
  | .array [left, right] => do
    let l ← read left
    let r ← read right
    some (l, r)
  | _ => none

/-- Reads what belongs to the operator of a name. -/
def operator? (read : Written → Option FormulaDescription) (name : String) (w : Written) :
    Option FormulaDescription :=
  match name with
  | "prop" => w.text?.map .property
  | "const" => w.document?.map .constant
  | "typed" => do
    let parts ← objectParts? ["value", "type"] w
    let d ← partOf parts "value" Written.document?
    let t ← partOf parts "type" ScalarType.ofWritten?
    some (.typed d t)
  | "null" => (ScalarType.ofWritten? w).map .null
  | "param" => do
    let parts ← objectParts? ["name", "type"] w
    let name ← partOf parts "name" Written.text?
    let t ← partOf parts "type" ScalarType.ofWritten?
    some (.parameter name t)
  | "like" => (pair? read w).map fun (f, pattern) => .like f pattern
  | "not" => (read w).map .not
  | "is_null" => (read w).map .isNull
  | "is_not_null" => (read w).map .isNotNull
  | "in" => do
    let parts ← objectParts? ["expr", "values"] w
    let f ← partOf parts "expr" read
    let values ← partOf parts "values" (Written.listOf? read)
    some (.inList f values)
  | "coalesce" => (Written.listOf? read w).map .coalesce
  | "call" => do
    let parts ← objectParts? ["name", "args", "type"] w
    let name ← partOf parts "name" Written.text?
    let args ← partOr parts "args" [] (Written.listOf? read)
    let t ← partOf parts "type" ScalarType.ofWritten?
    some (.call name args t)
  | name =>
    match binaryNames.find? fun e => e.1 == name with
    | some (_, op) => (pair? read w).map fun (left, right) => .binary op left right
    | none => do
      let function ← builtins.find? fun f => f.name == name
      let arg ← read w
      some (.builtin function arg)

/-- Reads a description in which at most `depth` ones are inside one another. -/
def readWithin : Nat → Written → Option FormulaDescription
  | 0, _ => none
  | depth + 1, w =>
    match w.variant? with
    | some (name, some operands) => operator? (readWithin depth) name operands
    | _ => none

/-- Reads a description. -/
def ofWritten? (w : Written) : Option FormulaDescription := readWithin (w.depth + 1) w

/-- The value of a constant whose type follows from its form.  An integer has 32 bits if it fits. -/
def constantValue : Document → Except RequestError Value
  | .null => .error .untypedNull
  | .bool b => .ok (.bool b)
  | .number (.int n) =>
    .ok (if fitsInt32 n then .int32 (.ofInt n)
      else if fitsInt64 n then .int64 (.ofInt n)
      else .float64 (Number.toFloat (.int n)))
  | .number n => .ok (.float64 n.toFloat)
  | .string s => .ok (.string s)
  | d => .ok (.json d)

/-- The value of a constant of a given type. -/
def typedValue (p : Provider) (t : ScalarType) (d : Document) : Except CommandError Value := do
  let codec ← (p.options.registry.find t).mapError fun e =>
    CommandError.failure (.translation (.unsupportedType e))
  (codec.decode d).mapError fun e => .request (.constant t e)

mutual

/-- The formula over the elements of an entity set. -/
def formula (p : Provider) (set : EntitySet) : FormulaDescription → Except CommandError Formula
  | .property path =>
    match p.model.property set path with
    | .ok path => .ok (.property path)
    | .error e => .error (.failure (.query e))
  | .constant d => do
    let v ← (constantValue d).mapError .request
    .ok (.ofValue v)
  | .typed d t => do
    let v ← typedValue p t d
    .ok (.constant v t)
  | .null t => .ok (.constant .null t)
  | .parameter name t => .ok (.parameter name t)
  | .binary op left right => do
    let l ← left.formula p set
    let r ← right.formula p set
    .ok (.binary op l r)
  | .like f pattern => do
    let f ← f.formula p set
    let pattern ← pattern.formula p set
    .ok (.like f pattern)
  | .not f => do
    let f ← f.formula p set
    .ok (.not f)
  | .isNull f => do
    let f ← f.formula p set
    .ok (.isNull f)
  | .isNotNull f => do
    let f ← f.formula p set
    .ok (.isNotNull f)
  | .inList f values => do
    let values ← formulas p set values
    let f ← f.formula p set
    .ok (.inList f values)
  | .coalesce values => do
    match ← formulas p set values with
    | [] => .error (.request .emptyCoalesce)
    | f :: fs => .ok (fs.foldl Formula.orElse f)
  | .builtin function arg => do
    let arg ← arg.formula p set
    .ok (.builtin function [arg])
  | .call name args t => do
    let args ← formulas p set args
    .ok (.call name args t)

/-- The formulas over the elements of an entity set. -/
def formulas (p : Provider) (set : EntitySet) :
    List FormulaDescription → Except CommandError (List Formula)
  | [] => .ok []
  | d :: ds => do
    let f ← d.formula p set
    let fs ← formulas p set ds
    .ok (f :: fs)

end

end FormulaDescription
end EntityQuery
