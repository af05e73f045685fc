import EntityQuery.Statement.Description
import EntityQuery.Statement.Text
import Mathlib.Tactic.Common

/-!
# A reader of statements

The text of a statement is read from left to right.  Behind an expression stands a mark: an operator
that goes on with it, a keyword, a comma or a closing bracket, or else the text ends there.  An
expression opens with a name, a number, a sign, a parenthesis or a keyword of its own.  So the
reader never has to go back.

* `Mark` and `Opening` are what stands behind an expression, and in front of one.
* `TextReader.expression` reads an expression at a place that asks for a binding strength: an
  operator that binds looser is left for a place further out.
* `TextReader.statement` reads a statement; set operations associate to the left.

Readers that call each other are given a number of steps, and fail when they have used them up.
-/

namespace EntityQuery

/-! ## Marks

Between expressions stand marks: operators, keywords, commas and brackets.  All of them are in one
list, and none is the beginning of another one, so the first that fits is the right one. -/

/-- How an expression goes on behind its first operand. -/
inductive Suffix where
  | field
  | binary (op : Operator)
  | valued
  | notValued
  | inList
  | like
deriving DecidableEq

namespace Suffix

/-- The text of a suffix in front of its next operand. -/
def text : Suffix → String
  | .field => "."
  | .binary op => " " ++ op.symbol ++ " "
  | .valued => " IS VALUED"
  | .notValued => " IS NOT VALUED"
  | .inList => " IN ["
  | .like => " LIKE "

/-- The binding strength of what a suffix makes. -/
def strength : Suffix → Nat
  | .field => atomStrength
  | .binary op => op.strength
  | .valued | .notValued | .inList | .like => testStrength

/-- The suffixes. -/
def all : List Suffix :=
  [.field, .valued, .notValued, .inList, .like] ++ Operator.all.map .binary

end Suffix

/-- What may stand behind an expression. -/
inductive Mark where
  | suffix (s : Suffix)
  | comma
  | closeParenthesis
  | closeBracket
  | caseThen
  | caseElse
  | caseEnd
  | named
  | source
  | condition
  | descending
  | join (matching : Matching)
  | unnest (matching : Matching)
  | predicate
  | grouping
  | ordering
  | limit
  | offset
  | union
  | intersect
  | except
deriving DecidableEq

namespace Mark

/-- The text of a mark. -/
def text : Mark → String
  | .suffix s => s.text
  | .comma => ", "
  | .closeParenthesis => ")"
  | .closeBracket => "]"
  | .caseThen => " THEN "
  | .caseElse => " ELSE "
  | .caseEnd => " END"
  | .named => " AS "
  | .source => " FROM "
  | .condition => " ON "
  | .descending => " DESC"
  | .join matching => matching.joinText
  | .unnest matching => matching.unnestText
  | .predicate => " WHERE "
  | .grouping => " GROUP BY "
  | .ordering => " ORDER BY "
  | .limit => " LIMIT "
  | .offset => " OFFSET "
  | .union => " UNION"
  | .intersect => " INTERSECT"
  | .except => " EXCEPT"

/-- The marks. -/
def all : List Mark :=
  [.comma, .closeParenthesis, .closeBracket, .caseThen, .caseElse, .caseEnd, .named, .source,
    .condition, .descending, .join .inner, .join .leftOuter, .unnest .inner, .unnest .leftOuter,
    .predicate, .grouping, .ordering, .limit, .offset, .union, .intersect, .except] ++
    Suffix.all.map .suffix

/-- The suffix that a mark is, if it binds as strong as asked for. -/
def suffix? (least : Nat) : Mark → Option Suffix
  | .suffix s => if least ≤ s.strength then some s else none
  | _ => none

/-- The term that a mark begins: a join on the left, an unnesting on the right. -/
def term? : Mark → Option (Matching ⊕ Matching)
  | .join matching => some (.inl matching)
  | .unnest matching => some (.inr matching)
  | _ => none

/-- The set operation that a mark begins; a union may yet be one that keeps duplicates. -/
def setOperation? : Mark → Option SetOperation
  | .union => some .union
  | .intersect => some .intersect
  | .except => some .except
  | _ => none

end Mark

/-- The rest of a text behind one that it begins with. -/
def dropText : List Char → List Char → Option (List Char)
  | [], cs => some cs
  | _ :: _, [] => none
  | a :: as, c :: cs => if a = c then dropText as cs else none

/-- The mark that a text begins with, and the rest. -/
def nextMark (cs : List Char) : Option (Mark × List Char) :=
  Mark.all.findSome? fun m => (dropText m.text.toList cs).map (m, ·)

@[simp] lemma dropText_append (as rest : List Char) : dropText as (as ++ rest) = some rest := by
  induction as with
  | nil => rfl
  | cons a as ih => rw [List.cons_append, dropText, if_pos rfl, ih]

/-- No mark begins with another one. -/
lemma nextMark_text (m : Mark) (rest : List Char) :
    nextMark (m.text.toList ++ rest) = some (m, rest) := by
  cases m with
  | suffix s =>
      cases s with
      | binary op => cases op <;> rfl
      | _ => rfl
  | join matching => cases matching <;> rfl
  | unnest matching => cases matching <;> rfl
  | _ => rfl

/-! ## Openings

The first characters of an expression tell what kind it is of.  Where a word opens it, the character
behind the word is needed: a parenthesis makes it a call. -/

/-- How an expression begins. -/
inductive Opening where
  | ident (name : String)
  | placeholder (name : String)
  | number (n : Nat)
  | parenthesis
  | sign
  | null
  | bool (b : Bool)
  | not
  | caseWhen
  /-- An aggregate, up to its argument. -/
  | aggregate (function : Aggregate) (distinct : Bool)
  /-- An aggregate of rows, up to its end. -/
  | rows (function : Aggregate)
  /-- A function, up to its arguments. -/
  | call (name : String)

/-- Whether a character is one of identifiers. -/
def isWordChar (c : Char) : Bool := c.isAlphanum || c == '_'

/-- The rest of an identifier between backticks, and what stands behind it. -/
def quotedRest : List Char → Option (List Char × List Char)
  | [] => none
  | '`' :: '`' :: cs => (quotedRest cs).map fun r => ('`' :: r.1, r.2)
  | '`' :: cs => some ([], cs)
  | c :: cs => (quotedRest cs).map fun r => (c :: r.1, r.2)

/-- How an expression begins that has a word in front, from what stands behind the word. -/
def wordOpening (word : List Char) (cs : List Char) : Option (Opening × List Char) :=
  match cs with
  | '(' :: cs =>
    match Aggregate.ofName? (.ofList word) with
    | none => some (.call (.ofList word), cs)
    | some function =>
      match dropText "*)".toList cs, dropText "DISTINCT ".toList cs with
      | some cs, _ => some (.rows function, cs)
      | none, some cs => some (.aggregate function true, cs)
      | none, none => some (.aggregate function false, cs)
  | cs =>
    if word = "NULL".toList then some (.null, cs)
    else if word = "TRUE".toList then some (.bool true, cs)
    else if word = "FALSE".toList then some (.bool false, cs)
    else if word = "NOT".toList then (dropText " ".toList cs).map (.not, ·)
    else if word = "CASE".toList then (dropText " WHEN ".toList cs).map (.caseWhen, ·)
    else none

/-- How the expression begins that stands next in a text, and the rest. -/
def nextOpening (cs : List Char) : Option (Opening × List Char) :=
  match cs with
  | '`' :: cs => (quotedRest cs).map fun r => (.ident (.ofList r.1), r.2)
  | '$' :: cs => some (.placeholder (.ofList (cs.takeWhile isWordChar)), cs.dropWhile isWordChar)
  | '(' :: cs => some (.parenthesis, cs)
  | '-' :: cs => some (.sign, cs)
  | cs =>
    let word := cs.takeWhile isWordChar
    let rest := cs.dropWhile isWordChar
    if (word.headD ' ').isDigit then some (.number (Nat.ofDigitChars 10 word 0), rest)
    else wordOpening word rest

/-! ## The parts of the reader

A reader takes a value from the front of a list of characters.  The small ones here read one mark,
one name, or values between commas. -/

/-- A reader takes a value from the front of a text, and leaves the rest. -/
abbrev TextReader := StateT (List Char) Option

namespace TextReader

variable {α : Type}

/-- Reads how an expression begins. -/
def opening : TextReader Opening := nextOpening

/-- Reads a mark that is one of some, and leaves any other one. -/
def mark? (which : Mark → Option α) : TextReader (Option α) := fun cs =>
  match nextMark cs with
  | some (m, rest) =>
    match which m with
    | some a => some (some a, rest)
    | none => some (none, cs)
  | none => some (none, cs)

/-- Reads a mark if it stands next. -/
def has (m : Mark) : TextReader Bool := do
  let found ← mark? fun m' => if m' = m then some () else none
  pure found.isSome

/-- Reads a mark that has to stand next. -/
def expect (m : Mark) : TextReader Unit := do
  let found ← has m
  if found then pure () else failure

/-- Reads a text if it stands next. -/
def optional (text : String) : TextReader Bool := fun cs =>
  match dropText text.toList cs with
  | some rest => some (true, rest)
  | none => some (false, cs)

/-- Reads a text that has to stand next. -/
def exactly (text : String) : TextReader Unit := do
  let found ← optional text
  if found then pure () else failure

/-- Reads an identifier between backticks. -/
def ident : TextReader String := do
  match ← opening with
  | .ident name => pure name
  | _ => failure

/-- Reads values between commas. -/
def separated (r : Nat → TextReader α) : Nat → TextReader (List α)
  | 0 => failure
  | n + 1 => do
    let a ← r n
    let more ← has .comma
    if more then do
      let as ← separated r n
      pure (a :: as)
    else pure [a]

/-! ## Expressions

Expressions are read by precedence: an operand first, and then suffixes while their strength is at
least what the place asks for.  The number of steps bounds the recursion, and enough of them are
given to each text. -/

mutual

/-- Reads an expression at a place that asks for a binding strength. -/
def expression (least : Nat) : Nat → TextReader Expression
  | 0 => failure
  | n + 1 => do
    let e ← operand n
    suffixes least e n

/-- Reads how an expression goes on behind its first operand. -/
def suffixes (least : Nat) (e : Expression) : Nat → TextReader Expression
  | 0 => failure
  | n + 1 => do
    match ← mark? (Mark.suffix? least) with
    | some s => do
      let e' ← applied s e n
      suffixes least e' n
    | none => pure e

/-- Reads what a suffix makes of an expression. -/
def applied (s : Suffix) (e : Expression) : Nat → TextReader Expression
  | 0 => failure
  | n + 1 => do
    match s with
    | .field => do
      let name ← ident
      pure (.field e name)
    | .binary op => do
      let right ← expression (op.strength + 1) n
      pure (.binary op e right)
    | .valued => pure (.valued e)
    | .notValued => pure (.notValued e)
    | .inList => do
      let list ← listed .closeBracket n
      pure (.inList e list)
    | .like => do
      let pattern ← expression (testStrength + 1) n
      pure (.like e pattern)

/-- Reads the first operand of an expression, or all of one that begins with a sign or a keyword. -/
def operand : Nat → TextReader Expression
  | 0 => failure
  | n + 1 => do
    match ← opening with
    | .ident name => pure (.ident name)
    | .placeholder name => pure (.placeholder name)
    | .number k => pure (.literal (.int k))
    | .null => pure (.literal .null)
    | .bool b => pure (.literal (.bool b))
    | .parenthesis => do
      let e ← expression 0 n
      expect .closeParenthesis
      pure e
    | .sign => do
      let e ← expression signStrength n
      pure (.neg e)
    | .not => do
      let e ← expression notStrength n
      pure (.not e)
    | .caseWhen => do
      let c ← expression 0 n
      expect .caseThen
      let t ← expression 0 n
      expect .caseElse
      let o ← expression 0 n
      expect .caseEnd
      pure (.caseWhen c t o)
    | .aggregate function distinct => do
      let arg ← expression 0 n
      expect .closeParenthesis
      pure (.aggregate function distinct (some arg))
    | .rows function => pure (.aggregate function false none)
    | .call name => do
      let args ← listed .closeParenthesis n
      pure (.call name args)

/-- Reads expressions up to a closing bracket. -/
def listed (close : Mark) : Nat → TextReader (List Expression)
  | 0 => failure
  | n + 1 => do
    let closed ← has close
    if closed then pure []
    else do
      let es ← expressions n
      expect close
      pure es

/-- Reads expressions between commas. -/
def expressions : Nat → TextReader (List Expression)
  | 0 => failure
  | n + 1 => do
    let e ← expression 0 n
    let more ← has .comma
    if more then do
      let es ← expressions n
      pure (e :: es)
    else pure [e]

end

/-! ## Statements

Statements nest in sources and in set operations, and both times in parentheses.  Set operations
associate to the left, as the reader goes on with them in a loop. -/

/-- Reads an expression with its name. -/
def item (n : Nat) : TextReader (Expression × String) := do
  let e ← expression 0 n
  expect .named
  let name ← ident
  pure (e, name)

/-- Reads a selection, up to the sources. -/
def selection (n : Nat) : TextReader Selection := do
  let raw ← optional "RAW "
  if raw then do
    let e ← expression 0 n
    expect .source
    pure (.raw e)
  else do
    let empty ← has .source
    if empty then pure (.items [])
    else do
      let items ← separated item n
      expect .source
      pure (.items items)

/-- Reads a key of an ordering. -/
def orderKey (n : Nat) : TextReader OrderKey := do
  let key ← expression 0 n
  let descending ← has .descending
  pure ⟨key, descending⟩

/-- Reads a clause if its mark stands next. -/
def clause (m : Mark) (r : TextReader α) : TextReader (Option α) := do
  let present ← has m
  if present then do
    let a ← r
    pure (some a)
  else pure none

/-- Reads the clauses behind the sources. -/
def clauses (selection : Selection) (distinct : Bool) (n : Nat) : TextReader Clauses := do
  let predicate ← clause .predicate (expression 0 n)
  let groupBy ← clause .grouping (expressions n)
  let orderBy ← clause .ordering (separated orderKey n)
  let limit ← clause .limit (expression 0 n)
  let offset ← clause .offset (expression 0 n)
  pure
    { predicate, groupBy := groupBy.getD [], orderBy := orderBy.getD [], selection, distinct,
      offset, limit }

/-- Reads a set operation if one stands next. -/
def setOperation? : TextReader (Option SetOperation) := do
  match ← mark? Mark.setOperation? with
  | none => pure none
  | some .union => do
    let all ← optional " ALL"
    exactly " "
    pure (some (if all then .unionAll else .union))
  | some op => do
    exactly " "
    pure (some op)

mutual

/-- Reads a statement. -/
def statement : Nat → TextReader Statement
  | 0 => failure
  | n + 1 => do
    let s ← side n
    compounds s n

/-- Reads how a statement goes on behind its first operand. -/
def compounds (s : Statement) : Nat → TextReader Statement
  | 0 => failure
  | n + 1 => do
    match ← setOperation? with
    | some op => do
      let right ← side n
      compounds (.compound op s right) n
    | none => pure s

/-- Reads an operand of a set operation. -/
def side : Nat → TextReader Statement
  | 0 => failure
  | n + 1 => do
    let wrapped ← optional "("
    if wrapped then do
      let s ← statement n
      expect .closeParenthesis
      pure s
    else do
      exactly "SELECT "
      let distinct ← optional "DISTINCT "
      let selection ← selection n
      let source ← source n
      let terms ← terms n
      let clauses ← clauses selection distinct n
      pure (.select source terms clauses)

/-- Reads a source. -/
def source : Nat → TextReader Source
  | 0 => failure
  | n + 1 => do
    let wrapped ← optional "("
    if wrapped then do
      let s ← statement n
      expect .closeParenthesis
      expect .named
      let aliasName ← ident
      pure (.statement s aliasName)
    else do
      let bucket ← ident
      expect (.suffix .field)
      let scope ← ident
      expect (.suffix .field)
      let collection ← ident
      expect .named
      let aliasName ← ident
      pure (.keyspace ⟨bucket, scope, collection⟩ aliasName)

/-- Reads terms one after the other. -/
def terms : Nat → TextReader (List Term)
  | 0 => failure
  | n + 1 => do
    match ← mark? Mark.term? with
    | none => pure []
    | some (.inl matching) => do
      let source ← source n
      expect .condition
      let condition ← expression 0 n
      let ts ← terms n
      pure (.join matching source condition :: ts)
    | some (.inr matching) => do
      let array ← expression 0 n
      expect .named
      let aliasName ← ident
      let ts ← terms n
      pure (.unnest matching array aliasName :: ts)

end

end TextReader
end EntityQuery
