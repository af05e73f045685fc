import EntityQuery.Translation.Error
import EntityQuery.Translation.Frame
import EntityQuery.Translation.FunctionTable
import EntityQuery.Model.Validation

/-!
# Translation of formulas

A formula becomes an expression over the sources of a frame.  Each constant takes the next slot; its
value is never written into the statement.  A comparison with the constant null becomes a test, so
such a constant takes a slot without a placeholder.

* `Translating` is a translation: it threads the parameters, the next slot and the number of aliases
  that have been made up, and may fail.
* `Translator.formula` translates a formula.
* `Translator.summary` translates a summary of a group.
-/

namespace EntityQuery

/-- What a translation consults. -/
structure Translator where
  model : ValidModel
  registry : Registry
  functions : FunctionTable

/-- How far a translation has come. -/
structure Progress where
  parameters : ParameterTable := .empty
  /-- The slot of the next constant. -/
  nextSlot : Nat := 0
  /-- The number of aliases that have been made up. -/
  aliases : Nat := 0

/-- A translation. -/
abbrev Translating := StateT Progress (Except TranslationError)

/-- Gives up. -/
def unsupported {α : Type} (construct reason : String) : Translating α :=
  throw (.unsupported construct reason)

/-- Takes the next slot. -/
def takeSlot : Translating Nat :=
  modifyGet fun p => (p.nextSlot, { p with nextSlot := p.nextSlot + 1 })

/-- Makes up an alias. -/
def freshAlias : Translating String :=
  modifyGet fun p => ("t" ++ toString (p.aliases + 1), { p with aliases := p.aliases + 1 })

/-! ## Types of operands -/

/-- Whether a formula is the constant null. -/
def Formula.isNullConstant : Formula → Bool
  | .constant value _ => value.isNull
  | _ => false

/-- Asks for an operand of a type. -/
def expectOperand (construct wanted : String) (accepts : ScalarType → Bool) (f : Formula) :
    Translating Unit :=
  if accepts f.scalarType then pure ()
  else
    unsupported construct
      ("expected " ++ wanted ++ " operand, found '" ++ f.scalarType.name ++ "'")

/-- Asks for a truth value. -/
def expectBool (construct : String) (f : Formula) : Translating Unit :=
  expectOperand construct "a bool" (· == .bool) f

/-- Asks for a text. -/
def expectText (construct : String) (f : Formula) : Translating Unit :=
  expectOperand construct "a string" (· == .string) f

/-- Asks for a number. -/
def expectNumber (construct : String) (f : Formula) : Translating Unit :=
  expectOperand construct "a numeric" ScalarType.isNumeric f

/-- Two types between quotes. -/
def quotedPair (between : String) (a b : ScalarType) : String :=
  "'" ++ a.name ++ "' " ++ between ++ " '" ++ b.name ++ "'"

/-- Asks for operands that an operator takes. -/
def checkOperands (op : Operator) (left right : Formula) : Translating Unit :=
  let l := left.scalarType
  let r := right.scalarType
  if op.isComparison then
    if l.comparable r then pure ()
    else unsupported op.name ("cannot compare " ++ quotedPair "with" l r)
  else if op.isLogical then do
    expectBool op.name left
    expectBool op.name right
  else if op.isArithmetic then
    if (l.promote r).isSome then pure ()
    else unsupported op.name ("no arithmetic between " ++ quotedPair "and" l r)
  else do
    expectText op.name left
    expectText op.name right

/-- Asks for formulas that can be compared with a first one. -/
def checkComparable (construct found between : String) (first : ScalarType) (fs : List Formula) :
    Translating Unit :=
  match fs.find? fun f => !first.comparable f.scalarType with
  | some bad => unsupported construct (found ++ quotedPair between first bad.scalarType)
  | none => pure ()

/-- The comparison of a value with null. -/
def nullTest (op : Operator) (e : Expression) : Translating Expression :=
  match op with
  | .eq => pure (.notValued e)
  | .ne => pure (.valued e)
  | _ => unsupported op.name "ordering comparison against null"

/-- The comparison of null with null. -/
def nullsCompared (op : Operator) : Translating Expression :=
  match op with
  | .eq => pure (.literal (.bool true))
  | .ne => pure (.literal (.bool false))
  | _ => unsupported op.name "ordering comparison between nulls"

/-! ## Functions -/

namespace BuiltinFunction

/-- Whether a function is one of numbers. -/
def isNumeric : BuiltinFunction → Bool
  | .abs | .round | .floor | .ceil => true
  | _ => false

/-- The text from where a suffix would start. -/
def lastPart (text suffix : Expression) : Expression :=
  .call "SUBSTR" [text, .binary .sub (.call "LENGTH" [text]) (.call "LENGTH" [suffix])]

/-- The expression of a function of some arguments. -/
def expression : BuiltinFunction → List Expression → Expression
  | .lower, args => .call "LOWER" args
  | .upper, args => .call "UPPER" args
  | .trim, args => .call "TRIM" args
  | .length, args => .call "LENGTH" args
  | .contains, args => .call "CONTAINS" args
  | .abs, args => .call "ABS" args
  | .round, args => .call "ROUND" args
  | .floor, args => .call "FLOOR" args
  | .ceil, args => .call "CEIL" args
  | .startsWith, args => .binary .eq (.call "POSITION" args) (.literal (.int 0))
  | .endsWith, args =>
    let text := args.getD 0 (.literal .null)
    let suffix := args.getD 1 (.literal .null)
    .binary .eq (lastPart text suffix) suffix

/-- Asks for suitable arguments. -/
def check (function : BuiltinFunction) (args : List Formula) : Translating Unit := do
  if args.length != function.arity then
    unsupported function.name
      ("takes " ++ toString function.arity ++ " argument(s), got " ++ toString args.length)
  args.forM (if function.isNumeric then expectNumber function.name else expectText function.name)

end BuiltinFunction

/-- The registered function that a call names, if the call suits it. -/
def FunctionTable.resolve (t : FunctionTable) (function : String) (count : Nat)
    (scalarType : ScalarType) : Translating FunctionEntry :=
  match t.find? function with
  | none => unsupported "call" ("function '" ++ function ++ "' is not registered")
  | some entry =>
    match entry.arity.filter (· != count) with
    | some arity =>
      unsupported "call"
        ("function '" ++ function ++ "' takes " ++ toString arity ++ " argument(s), got " ++
          toString count)
    | none =>
      if entry.returnType = scalarType then pure entry
      else
        unsupported "call"
          ("function '" ++ function ++ "' returns '" ++ entry.returnType.name ++ "', not '" ++
            scalarType.name ++ "'")

/-! ## Formulas -/

namespace Translator

/-- Asks for a codec of a type. -/
def codec (tr : Translator) (t : ScalarType) : Translating Codec :=
  match tr.registry.find t with
  | .ok c => pure c
  | .error e => throw (.unsupportedType e)

/-- The placeholder of the next constant. -/
def constant (tr : Translator) (t : ScalarType) : Translating Expression := do
  let _ ← tr.codec t
  let slot ← takeSlot
  modifyGet fun p =>
    let (parameters, name) := p.parameters.bindSlot slot t
    (.placeholder name, { p with parameters })

/-- The placeholder of a parameter. -/
def parameter (tr : Translator) (name : String) (t : ScalarType) : Translating Expression := do
  let _ ← tr.codec t
  let p ← get
  match p.parameters.bindNamed name t with
  | .ok (parameters, name) => do
    set { p with parameters }
    pure (.placeholder name)
  | .error e => unsupported "parameter" e.message

end Translator

/-- The expression of a property in a frame. -/
def Frame.property (f : Frame) (p : PropertyPath) : Translating Expression :=
  match f.binding? p.aliasName with
  | none =>
    unsupported "property"
      ("'" ++ p.aliasName ++ "." ++ p.member ++ "' refers to an alias that is not in scope")
  | some b =>
    if b.entity = p.entity then pure (b.base.path p.path)
    else
      unsupported "property"
        ("alias '" ++ p.aliasName ++ "' is bound to '" ++ b.entity ++ "', not '" ++ p.entity ++ "'")

/-- The expression of a field of the current record. -/
def Frame.member (f : Frame) (name : String) : Translating Expression :=
  match f.yield with
  | .record fields =>
    match Yield.field? name fields with
    | some (.scalar s) => pure s.expression
    | some (.entity _) =>
      unsupported "member" ("field '" ++ name ++ "' holds an entity; use its properties")
    | none => unsupported "member" ("no field named '" ++ name ++ "'")
  | _ => unsupported "member" "the current element is not a record"

/-- The expression of the current scalar. -/
def Frame.element (f : Frame) : Translating Expression :=
  match f.yield with
  | .scalar s => pure s.expression
  | _ => unsupported "element" "the current element is not a scalar"

/-- The property that a formula hands on unchanged. -/
def Frame.originOf (f : Frame) : Formula → Option String
  | .property p => some p.member
  | .member name _ _ =>
    match f.yield with
    | .record fields =>
      match Yield.field? name fields with
      | some (.scalar s) => s.origin
      | _ => none
    | _ => none
  | .element _ _ =>
    match f.yield with
    | .scalar s => s.origin
    | _ => none
  | _ => none

namespace Translator

mutual

/-- Translates a formula over a frame. -/
def formula (tr : Translator) (frame : Frame) : Formula → Translating Expression
  | .property p => frame.property p
  | .member name _ _ => frame.member name
  | .element _ _ => frame.element
  | .constant _ t => tr.constant t
  | .parameter name t => tr.parameter name t
  | .binary op left right =>
    if op.isComparison && left.isNullConstant && right.isNullConstant then do
      let _ ← takeSlot
      let _ ← takeSlot
      nullsCompared op
    else if op.isComparison && left.isNullConstant then do
      let _ ← takeSlot
      let e ← tr.formula frame right
      nullTest op e
    else if op.isComparison && right.isNullConstant then do
      let e ← tr.formula frame left
      let _ ← takeSlot
      nullTest op e
    else do
      checkOperands op left right
      let l ← tr.formula frame left
      let r ← tr.formula frame right
      pure (.binary op l r)
  | .not f => do
    expectBool "not" f
    let e ← tr.formula frame f
    pure (.not e)
  | .negate f => do
    expectNumber "negate" f
    let e ← tr.formula frame f
    pure (.neg e)
  | .isNull f => do
    let e ← tr.formula frame f
    pure (.notValued e)
  | .isNotNull f => do
    let e ← tr.formula frame f
    pure (.valued e)
  | .inList f list => do
    checkComparable "in_list" "cannot compare " "with" f.scalarType list
    let e ← tr.formula frame f
    let es ← tr.formulas frame list
    pure (.inList e es)
  | .like f pattern => do
    expectText "like" f
    expectText "like" pattern
    let e ← tr.formula frame f
    let p ← tr.formula frame pattern
    pure (.like e p)
  | .builtin function args => do
    function.check args
    let es ← tr.formulas frame args
    pure (function.expression es)
  | .caseWhen c t o => do
    expectBool "conditional" c
    checkComparable "conditional" "branches have types " "and" t.scalarType [o]
    let ce ← tr.formula frame c
    let te ← tr.formula frame t
    let oe ← tr.formula frame o
    pure (.caseWhen ce te oe)
  | .coalesce values => do
    if values.isEmpty then unsupported "coalesce" "needs at least one operand"
    checkComparable "coalesce" "operands have types " "and" (Formula.firstType values) values
    let es ← tr.formulas frame values
    match es with
    | [e] => pure e
    | es => pure (.call "IFMISSINGORNULL" es)
  | .call function args t => do
    let entry ← tr.functions.resolve function args.length t
    let es ← tr.formulas frame args
    pure (.call entry.storeName es)

/-- Translates formulas from left to right. -/
def formulas (tr : Translator) (frame : Frame) : List Formula → Translating (List Expression)
  | [] => pure []
  | f :: fs => do
    let e ← tr.formula frame f
    let es ← tr.formulas frame fs
    pure (e :: es)

end

/-- Translates a condition. -/
def condition (tr : Translator) (frame : Frame) (construct : String) (f : Formula) :
    Translating Expression := do
  expectBool construct f
  tr.formula frame f

/-- Translates a formula that rows are to hold. -/
def yielded (tr : Translator) (frame : Frame) (f : Formula) : Translating YieldedScalar := do
  let expression ← tr.formula frame f
  pure ⟨expression, f.scalarType, f.isNullable, frame.originOf f⟩

end Translator

/-- The aggregate of a summary, and whether it counts equal values once. -/
def SummaryFunction.aggregate : SummaryFunction → Aggregate × Bool
  | .count => (.count, false)
  | .countDistinct => (.count, true)
  | .sum => (.sum, false)
  | .avg => (.avg, false)
  | .min => (.min, false)
  | .max => (.max, false)

/-- Whether an aggregate computes with numbers. -/
def Aggregate.isNumeric : Aggregate → Bool
  | .sum | .avg => true
  | _ => false

/-- Translates a summary of a group. -/
def Translator.summary (tr : Translator) (frame : Frame) (s : Summary) :
    Translating Expression := do
  let (aggregate, distinct) := s.function.aggregate
  match s.arg with
  | some f => do
    if aggregate.isNumeric then expectNumber s.function.name f
    let e ← tr.formula frame f
    pure (.aggregate aggregate distinct (some e))
  | none =>
    if s.function = .count then pure .countRows
    else unsupported s.function.name "an argument is required"

end EntityQuery
