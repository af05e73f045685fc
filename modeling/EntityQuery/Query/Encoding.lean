import EntityQuery.Digest.Sha256
import EntityQuery.Document.Text
import EntityQuery.Query.Basic

/-!
# Keys of queries

Queries that differ only in the values of their constants share a plan.  `Query.encoding` holds all
of a query but those values: of a constant it has the type and whether it is null.
`PlanKey.ofQuery` is the digest of the encoding.

Every text is preceded by its length, and every list by the number of its items where the operator
does not fix it.
-/

namespace EntityQuery

namespace Encoding

/-- The bytes of a number, eight of them, the least significant one first. -/
def number (n : Nat) : List UInt8 := (Sha256.bigEndian 8 n).reverse

/-- A text and its length. -/
def text (s : String) : List UInt8 := number s.utf8ByteSize ++ s.toUTF8.toList

/-- A truth value. -/
def flag (b : Bool) : List UInt8 := [if b then 1 else 0]

/-- A type, by its name. -/
def scalarType (t : ScalarType) : List UInt8 := text t.name

/-- A path of fields. -/
def path (names : List String) : List UInt8 := number names.length ++ names.flatMap text

end Encoding

open Encoding (number text flag path)

mutual

/-- The encoding of a formula: what it is, then its parts. -/
def Formula.encoding : Formula → List UInt8
  | .property p =>
    text "prop" ++ text p.aliasName ++ text p.entity ++ path p.path ++
      Encoding.scalarType p.scalarType ++ flag p.nullable
  | .member name t nullable =>
    text "member" ++ text name ++ Encoding.scalarType t ++ flag nullable
  | .element t nullable => text "element" ++ Encoding.scalarType t ++ flag nullable
  | .constant value t => text "const" ++ Encoding.scalarType t ++ flag value.isNull
  | .parameter name t => text "param" ++ text name ++ Encoding.scalarType t
  | .binary op left right => text op.name ++ left.encoding ++ right.encoding
  | .not f => text "not" ++ f.encoding
  | .negate f => text "negate" ++ f.encoding
  | .isNull f => text "is_null" ++ f.encoding
  | .isNotNull f => text "is_not_null" ++ f.encoding
  | .inList f list => text "in" ++ number list.length ++ f.encoding ++ formulaEncodings list
  | .like f pattern => text "like" ++ f.encoding ++ pattern.encoding
  | .builtin function args => text function.name ++ number args.length ++ formulaEncodings args
  | .caseWhen c t o => text "case" ++ c.encoding ++ t.encoding ++ o.encoding
  | .coalesce values => text "coalesce" ++ number values.length ++ formulaEncodings values
  | .call function args t =>
    text "call" ++ text function ++ Encoding.scalarType t ++ number args.length ++
      formulaEncodings args

/-- The encodings of formulas, one after the other. -/
def formulaEncodings : List Formula → List UInt8
  | [] => []
  | f :: fs => f.encoding ++ formulaEncodings fs

end

/-- The encoding of a formula that may be absent. -/
def optionalEncoding : Option Formula → List UInt8
  | some f => flag true ++ f.encoding
  | none => flag false

/-- The encoding of a summary. -/
def Summary.encoding (s : Summary) : List UInt8 := text s.function.name ++ optionalEncoding s.arg

/-- The encoding of what a field holds. -/
def Projected.encoding : Projected → List UInt8
  | .scalar f => f.encoding
  | .entity name aliasName => text "entity" ++ text name ++ text aliasName

/-- The encoding of a projection. -/
def Projection.encoding : Projection → List UInt8
  | .scalar f => text "scalar" ++ f.encoding
  | .record fields =>
    text "record" ++ number fields.length ++
      fields.flatMap fun f => text f.1 ++ f.2.encoding
  | .entity name aliasName => text "entity" ++ text name ++ text aliasName

/-- The encoding of a kind of correlation. -/
def CorrelationKind.encoding : CorrelationKind → List UInt8
  | .unnest names => text "unnest" ++ path names
  | .lookup source target => text "lookup" ++ path source ++ path target

/-- The encoding of a correlation. -/
def Correlation.encoding (c : Correlation) : List UInt8 :=
  text c.sourceAlias ++ text c.navigation ++ text c.target ++ text c.aliasName ++ flag c.optional ++
    c.kind.encoding

/-- The encoding of the direction of an ordering. -/
def directionEncoding (descending : Bool) : List UInt8 :=
  text (if descending then "desc" else "asc")

/-- The encoding of a query: its inputs, then its outermost operator. -/
def Query.encoding : Query → List UInt8
  | .source entity aliasName => text "source" ++ text entity ++ text aliasName
  | .filter input predicate => input.encoding ++ text "filter" ++ predicate.encoding
  | .project input projection => input.encoding ++ text "project" ++ projection.encoding
  | .orderBy input key descending =>
    input.encoding ++ text "order_by" ++ directionEncoding descending ++ key.encoding
  | .thenBy input key descending =>
    input.encoding ++ text "then_by" ++ directionEncoding descending ++ key.encoding
  | .groupBy input keys summaries =>
    input.encoding ++ text "group_by" ++
      number keys.length ++ keys.flatMap (fun k => text k.1 ++ k.2.encoding) ++
      number summaries.length ++ summaries.flatMap fun s => text s.1 ++ s.2.encoding
  | .join kind left right leftKey rightKey =>
    left.encoding ++ right.encoding ++ text "join" ++ text kind.name ++ leftKey.encoding ++
      rightKey.encoding
  | .correlate input correlation => input.encoding ++ text "correlate" ++ correlation.encoding
  | .skip input count => input.encoding ++ text "skip" ++ count.encoding
  | .take input count => input.encoding ++ text "take" ++ count.encoding
  | .distinct input => input.encoding ++ text "distinct"
  | .combine op left right => left.encoding ++ right.encoding ++ text "set_op" ++ text op.name
  | .conclude input terminal arg =>
    input.encoding ++ text "aggregate" ++ text terminal.name ++ optionalEncoding arg

/-- The key under which the plan of a query is kept. -/
structure PlanKey where
  bytes : List UInt8
deriving DecidableEq, Repr

namespace PlanKey

/-- The key of a query. -/
def ofQuery (q : Query) : PlanKey := ⟨Sha256.digest q.encoding⟩

/-- The text of a key, two hexadecimal digits for each byte. -/
def text (k : PlanKey) : String := String.join (k.bytes.map fun b => hexByte b.toNat)

end PlanKey
end EntityQuery
