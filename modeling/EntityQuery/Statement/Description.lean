import EntityQuery.Document.Basic
import EntityQuery.Statement.Basic

/-!
# Descriptions of statements

A statement may be written as a document.  An expression is an array that begins with its kind; for
a binary operator the kind is the spelling of the operator.  A selection is an object with its
clauses, and a set operation an object with the operation and two statements.

* `Expression.ofDocument?` reads an expression.
* `Statement.ofDocument?` reads a statement.
-/

namespace EntityQuery

/-- The operator of a spelling. -/
def Operator.ofSymbol? (symbol : String) : Option Operator :=
  Operator.all.find? fun op => op.symbol == symbol

/-- The aggregate of a spelling. -/
def Aggregate.ofName? (name : String) : Option Aggregate :=
  Aggregate.all.find? fun a => a.name == name

/-- The set operation of a spelling. -/
def SetOperation.ofKeyword? (keyword : String) : Option SetOperation :=
  SetOperation.all.find? fun op => op.keyword == keyword

namespace Expression

mutual

/-- Reads an expression. -/
def ofDocument? : Document → Option Expression
  | .array [.string "id", name] => name.string?.map .ident
  | .array [.string "$", name] => name.string?.map .placeholder
  | .array [.string "null"] => some (.literal .null)
  | .array [.string "bool", b] => b.bool?.map fun b => .literal (.bool b)
  | .array [.string "int", n] => n.int?.map fun n => .literal (.int n)
  | .array (.string "f" :: base :: names) => do
    some ((← ofDocument? base).path (← names.mapM Document.string?))
  | .array [.string "not", e] => (ofDocument? e).map .not
  | .array [.string "neg", e] => (ofDocument? e).map .neg
  | .array [.string "valued", e] => (ofDocument? e).map .valued
  | .array [.string "not_valued", e] => (ofDocument? e).map .notValued
  | .array [.string "in", e, .array list] => do
    some (.inList (← ofDocument? e) (← ofDocuments? list))
  | .array [.string "like", e, pattern] => do
    some (.like (← ofDocument? e) (← ofDocument? pattern))
  | .array [.string "fn", name, .array args] => do
    some (.call (← name.string?) (← ofDocuments? args))
  | .array [.string "agg", function, distinct, arg] => do
    let function ← function.string?.bind Aggregate.ofName?
    some (.aggregate function (← distinct.bool?) (← optional? arg))
  | .array [.string "case", condition, thenValue, elseValue] => do
    some (.caseWhen (← ofDocument? condition) (← ofDocument? thenValue) (← ofDocument? elseValue))
  | .array [.string symbol, left, right] => do
    some (.binary (← Operator.ofSymbol? symbol) (← ofDocument? left) (← ofDocument? right))
  | _ => none

/-- Reads an expression that null leaves out. -/
def optional? : Document → Option (Option Expression)
  | .null => some none
  | d => (ofDocument? d).map some

/-- Reads several expressions. -/
def ofDocuments? : List Document → Option (List Expression)
  | [] => some []
  | d :: ds => do
    let first ← ofDocument? d
    let rest ← ofDocuments? ds
    some (first :: rest)

end

end Expression

/-- Reads a part of a description that may be absent or null. -/
def clauseIf {α : Type} (read : Document → Option α) (d : Document) (name : String) :
    Option (Option α) :=
  match d.field? name with
  | none | some .null => some none
  | some part => (read part).map some

/-- Reads a list of parts of a description; an absent list is empty. -/
def clauseList {α : Type} (read : Document → Option α) (d : Document) (name : String) :
    Option (List α) :=
  match d.field? name with
  | none => some []
  | some part => do (← part.items?).mapM read

/-- Reads the name of a way of matching. -/
def Matching.ofDocument? : Document → Option Matching
  | .string "inner" => some .inner
  | .string "left" => some .leftOuter
  | _ => none

/-- Reads a keyspace as the list of its segments. -/
def Keyspace.ofDocument? : Document → Option Keyspace
  | .array [.string bucket, .string scope, .string collection] => some ⟨bucket, scope, collection⟩
  | _ => none

/-- Reads an expression with an alias. -/
def Selection.itemOfDocument? : Document → Option (Expression × String)
  | .array [e, .string aliasName] => (Expression.ofDocument? e).map fun e => (e, aliasName)
  | _ => none

/-- Reads a key of an ordering. -/
def OrderKey.ofDocument? : Document → Option OrderKey
  | .array [e, .bool descending] => (Expression.ofDocument? e).map fun e => ⟨e, descending⟩
  | _ => none

/-- Reads what a selection makes of its rows; without a word on it, it is what the alias of the
source is bound to. -/
def Selection.ofDocument? (aliasName : String) (d : Document) : Option Selection := do
  match ← clauseIf Expression.ofDocument? d "raw" with
  | some e => some (.raw e)
  | none =>
    if (d.field? "items").isNone then some (.raw (.ident aliasName))
    else (clauseList itemOfDocument? d "items").map .items

/-- Reads the clauses of a selection. -/
def Clauses.ofDocument? (aliasName : String) (d : Document) : Option Clauses := do
  let predicate ← clauseIf Expression.ofDocument? d "where"
  let groupBy ← clauseList Expression.ofDocument? d "group_by"
  let orderBy ← clauseList OrderKey.ofDocument? d "order_by"
  let selection ← Selection.ofDocument? aliasName d
  let distinct ← clauseIf Document.bool? d "distinct"
  let offset ← clauseIf Expression.ofDocument? d "offset"
  let limit ← clauseIf Expression.ofDocument? d "limit"
  some { predicate, groupBy, orderBy, selection, distinct := distinct.getD false, offset, limit }

/-- Reads a source, given how to read a statement inside it. -/
def Source.ofDocument? (statement : Document → Option Statement) (d : Document) :
    Option Source := do
  let aliasName ← (← d.field? "as").string?
  match d.field? "ks" with
  | some k => (Keyspace.ofDocument? k).map fun k => .keyspace k aliasName
  | none => do
    let s ← statement (← d.field? "sub")
    some (.statement s aliasName)

/-- Reads a term, given how to read a statement inside it. -/
def Term.ofDocument? (statement : Document → Option Statement) (d : Document) : Option Term := do
  match d.field? "join" with
  | some m => do
    let matching ← Matching.ofDocument? m
    let source ← Source.ofDocument? statement (← d.field? "source")
    some (.join matching source (← Expression.ofDocument? (← d.field? "on")))
  | none => do
    let matching ← Matching.ofDocument? (← d.field? "unnest")
    let array ← Expression.ofDocument? (← d.field? "expr")
    some (.unnest matching array (← (← d.field? "as").string?))

/-- Reads a statement with at most so many statements inside one another. -/
def Statement.ofDocumentWithin? : Nat → Document → Option Statement
  | 0, _ => none
  | depth + 1, d =>
    match d.field? "compound" with
    | some (.array [.string keyword, left, right]) => do
      let op ← SetOperation.ofKeyword? keyword
      let left ← ofDocumentWithin? depth left
      let right ← ofDocumentWithin? depth right
      some (.compound op left right)
    | some _ => none
    | none => do
      let source ← Source.ofDocument? (ofDocumentWithin? depth) (← d.field? "from")
      let terms ← clauseList (Term.ofDocument? (ofDocumentWithin? depth)) d "terms"
      let clauses ← Clauses.ofDocument? source.aliasName d
      some (.select source terms clauses)

/-- Reads a statement.  There is at most one statement on each level of its document. -/
def Statement.ofDocument? (d : Document) : Option Statement := ofDocumentWithin? d.depth d

end EntityQuery
