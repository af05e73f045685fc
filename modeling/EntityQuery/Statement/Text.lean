import EntityQuery.Statement.Basic

/-!
# The text of a statement

Identifiers stand between backticks.  An expression is written with as few parentheses as the
binding strengths of the operators allow: `Expression.textAt` puts them around an expression that
binds looser than its place asks for.  An operand of a set operation is put in parentheses where
its own clauses, or its own operator, would otherwise be read differently.
-/

namespace EntityQuery

/-- An identifier between backticks; a backtick in it is written twice. -/
def identText (name : String) : String :=
  "`" ++ String.ofList (name.toList.flatMap fun c => if c = '`' then ['`', '`'] else [c]) ++ "`"

/-- The text of a keyspace. -/
def Keyspace.text (k : Keyspace) : String := ".".intercalate (k.segments.map identText)

/-! ## Binding strengths, the loosest first -/

/-- The binding strength of an operator. -/
def Operator.strength : Operator → Nat
  | .or => 1
  | .and => 2
  | .eq | .ne | .lt | .le | .gt | .ge => 4
  | .concat => 5
  | .add | .sub => 6
  | .mul | .div | .mod => 7

/-- The binding strength of negated conditions. -/
def notStrength : Nat := 3

/-- The binding strength of comparisons and tests. -/
def testStrength : Nat := 4

/-- The binding strength of a sign. -/
def signStrength : Nat := 8

/-- The binding strength of what needs no parentheses. -/
def atomStrength : Nat := 9

/-- The binding strength of an expression. -/
def Expression.strength : Expression → Nat
  | .binary op _ _ => op.strength
  | .not _ => notStrength
  | .valued _ | .notValued _ | .inList .. | .like .. => testStrength
  | .neg _ => signStrength
  | _ => atomStrength

/-- The text of a literal. -/
def Literal.text : Literal → String
  | .null => "NULL"
  | .bool true => "TRUE"
  | .bool false => "FALSE"
  | .int n => toString n

/-- Puts a text in parentheses if the condition holds. -/
def parenthesized (condition : Bool) (text : String) : String :=
  if condition then "(" ++ text ++ ")" else text

mutual

/-- The text of an expression at a place that asks for a binding strength.  Operators of one
strength associate to the left, and comparisons do not associate. -/
def Expression.textAt : Expression → Nat → String
  | .ident name, _ => identText name
  | .field base name, _ => base.textAt atomStrength ++ "." ++ identText name
  | .placeholder name, _ => "$" ++ name
  | .literal value, _ => value.text
  | .binary op left right, least =>
    let here := op.strength
    parenthesized (decide (here < least))
      (left.textAt (if here = testStrength then here + 1 else here) ++ " " ++ op.symbol ++ " " ++
        right.textAt (here + 1))
  | .not e, least => parenthesized (decide (notStrength < least)) ("NOT " ++ e.textAt notStrength)
  | .neg e, least => parenthesized (decide (signStrength < least)) ("-" ++ e.textAt signStrength)
  | .valued e, least =>
    parenthesized (decide (testStrength < least)) (e.textAt (testStrength + 1) ++ " IS VALUED")
  | .notValued e, least =>
    parenthesized (decide (testStrength < least)) (e.textAt (testStrength + 1) ++ " IS NOT VALUED")
  | .inList e list, least =>
    parenthesized (decide (testStrength < least))
      (e.textAt (testStrength + 1) ++ " IN [" ++ expressionTexts list ++ "]")
  | .like e pattern, least =>
    parenthesized (decide (testStrength < least))
      (e.textAt (testStrength + 1) ++ " LIKE " ++ pattern.textAt (testStrength + 1))
  | .call name args, _ => name ++ "(" ++ expressionTexts args ++ ")"
  | .aggregate function _ none, _ => function.name ++ "(*)"
  | .aggregate function distinct (some arg), _ =>
    function.name ++ "(" ++ (if distinct then "DISTINCT " else "") ++ arg.textAt 0 ++ ")"
  | .caseWhen c t o, _ =>
    "CASE WHEN " ++ c.textAt 0 ++ " THEN " ++ t.textAt 0 ++ " ELSE " ++ o.textAt 0 ++ " END"

/-- The texts of expressions between commas. -/
def expressionTexts : List Expression → String
  | [] => ""
  | [e] => e.textAt 0
  | e :: es => e.textAt 0 ++ ", " ++ expressionTexts es

end

/-- The text of an expression. -/
def Expression.text (e : Expression) : String := e.textAt 0

/-- The text of a selection. -/
def Selection.text : Selection → String
  | .raw e => "RAW " ++ e.text
  | .items list => ", ".intercalate (list.map fun (e, name) => e.text ++ " AS " ++ identText name)

/-- The text of a key of an ordering. -/
def OrderKey.text (k : OrderKey) : String := k.key.text ++ if k.descending then " DESC" else ""

/-- A clause with an optional expression. -/
def clauseText (keyword : String) : Option Expression → String
  | some e => keyword ++ e.text
  | none => ""

namespace Clauses

/-- The text in front of the sources. -/
def headText (c : Clauses) : String :=
  "SELECT " ++ (if c.distinct then "DISTINCT " else "") ++ c.selection.text

/-- The text behind the sources. -/
def tailText (c : Clauses) : String :=
  clauseText " WHERE " c.predicate ++
    (if c.groupBy.isEmpty then "" else " GROUP BY " ++ expressionTexts c.groupBy) ++
    (if c.orderBy.isEmpty then ""
      else " ORDER BY " ++ ", ".intercalate (c.orderBy.map OrderKey.text)) ++
    clauseText " LIMIT " c.limit ++ clauseText " OFFSET " c.offset

/-- Whether the order or number of the rows is fixed. -/
def isArranged (c : Clauses) : Bool := !c.orderBy.isEmpty || c.limit.isSome || c.offset.isSome

end Clauses

/-- Whether an operand of a set operation is put in parentheses. -/
def Statement.isWrapped (onTheRight : Bool) : Statement → Bool
  | .select _ _ clauses => clauses.isArranged
  | .compound .. => onTheRight

/-- The text of a join in front of its source. -/
def Matching.joinText : Matching → String
  | .inner => " INNER JOIN "
  | .leftOuter => " LEFT OUTER JOIN "

/-- The text of an unnesting in front of its array. -/
def Matching.unnestText : Matching → String
  | .inner => " UNNEST "
  | .leftOuter => " LEFT OUTER UNNEST "

mutual

/-- The text of a statement. -/
def Statement.text : Statement → String
  | .select source terms clauses =>
    clauses.headText ++ " FROM " ++ source.text ++ termTexts terms ++ clauses.tailText
  | .compound op left right =>
    parenthesized (left.isWrapped false) left.text ++ " " ++ op.keyword ++ " " ++
      parenthesized (right.isWrapped true) right.text

/-- The text of a source. -/
def Source.text : Source → String
  | .keyspace k aliasName => k.text ++ " AS " ++ identText aliasName
  | .statement s aliasName => "(" ++ s.text ++ ") AS " ++ identText aliasName

/-- The text of a term. -/
def Term.text : Term → String
  | .join matching source condition =>
    matching.joinText ++ source.text ++ " ON " ++ condition.text
  | .unnest matching array aliasName =>
    matching.unnestText ++ array.text ++ " AS " ++ identText aliasName

/-- The texts of terms, one after the other. -/
def termTexts : List Term → String
  | [] => ""
  | t :: ts => t.text ++ termTexts ts

end

end EntityQuery
