import EntityQuery.Translation.Shape

/-!
# Translation of queries

The inputs of an operator are translated before the operator itself.  An operator becomes a clause
of the frame of its input if that keeps its meaning; otherwise `Stage.enter` makes the frame a
source of a new one.

* `Translator.stage` translates a query as far as the last frame.
* `Translator.translate` is the translation of a query: a statement with its parameters, and the
  shape of its rows.
-/

namespace EntityQuery

/-- A statement with its parameters, and the shape of its rows. -/
structure Translation where
  query : StoreQuery
  shape : RowShape

/-- A frame to which clauses can be added: that of the stage unless `closed` holds of it, and else a
new one over the statement of the stage. -/
def Stage.enter (closed : Frame → Bool) (s : Stage) : Translating Frame :=
  match s with
  | .frame f =>
    if closed f then do
      let aliasName ← freshAlias
      pure (.ofStatement f.finish f.yield aliasName)
    else pure f
  | .compound statement yield => do
    let aliasName ← freshAlias
    pure (.ofStatement statement yield aliasName)

/-- The first of some names that occurs twice, at its second place. -/
def firstRepeated (seen : List String) : List String → Option String
  | [] => none
  | name :: names => if seen.contains name then some name else firstRepeated (name :: seen) names

/-- Asks for names that are all different. -/
def checkNames (construct : String) (names : List String) : Translating Unit :=
  match firstRepeated [] names with
  | some name => unsupported construct ("field '" ++ name ++ "' appears twice")
  | none => pure ()

/-- What an entity that is projected is bound to. -/
def Frame.projected (f : Frame) (aliasName : String) : Translating Binding :=
  match f.binding? aliasName with
  | some b => pure b
  | none => unsupported "project" ("entity alias '" ++ aliasName ++ "' is not in scope")

/-- The frame with a further condition. -/
def Frame.restrict (f : Frame) (e : Expression) : Frame :=
  { f with predicate := some (Expression.andAlso f.predicate e) }

/-- The frame with a further term that binds an entity. -/
def Frame.extend (f : Frame) (fields : List (String × FieldYield)) (t : Term) (b : Binding) :
    Frame :=
  { f with
    terms := f.terms ++ [t]
    scope := f.scope ++ [b]
    yield := .record (fields ++ [(b.aliasName, .entity b)]) }

/-- The fields to which a join or correlation adds. -/
def Frame.fieldsFor (f : Frame) (construct reason : String) :
    Translating (List (String × FieldYield)) :=
  match f.yield.scopeFields? with
  | some fields => pure fields
  | none => unsupported construct reason

/-- Asks for an alias that is not in use. -/
def Frame.checkAlias (f : Frame) (construct aliasName : String) : Translating Unit :=
  if f.takes aliasName then unsupported construct ("alias '" ++ aliasName ++ "' is already bound")
  else pure ()

/-- How a join matches rows, if a statement can express it. -/
def JoinKind.matching : JoinKind → Translating Matching
  | .inner => pure .inner
  | .leftOuter => pure .leftOuter
  | .rightOuter =>
    unsupported "right_outer_join"
      "unmatched rows of an independently rooted right side cannot be preserved"
  | .fullOuter =>
    unsupported "full_outer_join"
      "unmatched rows of two independently rooted sides cannot be preserved"

/-- The source that the right side of a join is, and what it binds. -/
def Stage.joinSource (s : Stage) (optional : Bool) : Translating (Source × Binding) :=
  match s.yield with
  | .entity b =>
    let bare := match s with
      | .frame f => f.bareKeyspace?
      | .compound .. => none
    let source := match bare with
      | some k => .keyspace k b.aliasName
      | none => .statement s.statement b.aliasName
    pure (source, { b with base := .ident b.aliasName, optional })
  | _ => unsupported "join" "the right side must yield entities"

/-- What counts the rows of a frame. -/
def comparedCount (op : Operator) : Expression := .binary op .countRows (.literal (.int 0))

namespace Translator

/-- The keyspace of an entity. -/
def keyspace (tr : Translator) (construct entity : String) : Translating Keyspace :=
  match tr.model.keyspace? entity with
  | some k => pure k
  | none => unsupported construct ("entity '" ++ entity ++ "' has no collection")

/-- Translates a field of a projection. -/
def projectedField (tr : Translator) (frame : Frame) (field : String × Projected) :
    Translating (String × FieldYield) :=
  match field.2 with
  | .scalar f => do
    let s ← tr.yielded frame f
    pure (field.1, .scalar s)
  | .entity _ aliasName => do
    let b ← frame.projected aliasName
    pure (field.1, .entity b)

/-- Translates a projection. -/
def projection (tr : Translator) (frame : Frame) : Projection → Translating Yield
  | .scalar f => do
    let s ← tr.yielded frame f
    pure (.scalar s)
  | .entity _ aliasName => do
    let b ← frame.projected aliasName
    pure (.entity b)
  | .record fields => do
    if fields.isEmpty then unsupported "project" "a record projection needs at least one field"
    checkNames "project" (fields.map Prod.fst)
    let yields ← fields.mapM (tr.projectedField frame)
    pure (.record yields)

/-- Translates a number of rows. -/
def rowCount (tr : Translator) (frame : Frame) (construct : String) (count : Formula) :
    Translating Expression := do
  if !count.scalarType.isInteger then
    unsupported construct
      ("row count must be an integer, found '" ++ count.scalarType.name ++ "'")
  let e ← tr.formula frame count
  match e with
  | .placeholder name => do
    modify fun p => { p with parameters := p.parameters.markRowCount name }
    pure e
  | _ => pure e

/-- Translates the keys of a grouping. -/
def groupKey (tr : Translator) (frame : Frame) (key : String × Formula) :
    Translating (String × YieldedScalar) := do
  let s ← tr.yielded frame key.2
  pure (key.1, s)

/-- Translates the summaries of a grouping. -/
def groupSummary (tr : Translator) (frame : Frame) (s : String × Summary) :
    Translating (String × YieldedScalar) := do
  let e ← tr.summary frame s.2
  pure (s.1, ⟨e, s.2.scalarType, s.2.isNullable, none⟩)

/-- The argument of a terminal. -/
def terminalArgument (terminal : Terminal) : Option Formula → Translating Formula
  | some f => pure f
  | none => unsupported terminal.name "an argument is required"

/-- Asks for values that a terminal can aggregate. -/
def checkAggregated (terminal : Terminal) (aggregate : Aggregate) (t : ScalarType) :
    Translating Unit :=
  if aggregate.isNumeric && !t.isNumeric then
    unsupported terminal.name ("cannot aggregate values of type '" ++ t.name ++ "'")
  else pure ()

/-- The type of an aggregate of values of a type. -/
def aggregatedType (aggregate : Aggregate) (t : ScalarType) : ScalarType :=
  match aggregate with
  | .avg => .float64
  | .sum => if t.isInteger then .int64 else t
  | _ => t

/-- Translates a terminal: the frame whose rows it looks at, and what it makes of them.  All
elements satisfy a condition if none violates it, and one for which it is null does. -/
def terminal (tr : Translator) (frame : Frame) (terminal : Terminal) (arg : Option Formula) :
    Translating (Frame × YieldedScalar) :=
  match terminal.function? with
  | some function => do
    let f ← terminalArgument terminal arg
    let aggregate := function.aggregate.1
    checkAggregated terminal aggregate f.scalarType
    let e ← tr.formula frame f
    pure (frame, ⟨.aggregate aggregate false (some e), aggregatedType aggregate f.scalarType, true,
      none⟩)
  | none =>
    match terminal with
    | .count => pure (frame, ⟨.countRows, .int64, false, none⟩)
    | .any => pure (frame, ⟨comparedCount .gt, .bool, false, none⟩)
    | _ => do
      let f ← terminalArgument terminal arg
      let e ← tr.condition frame terminal.name f
      let violated := .not (.call "IFMISSINGORNULL" [e, .literal (.bool false)])
      pure (frame.restrict violated, ⟨comparedCount .eq, .bool, false, none⟩)

/-- The term of a correlated navigation from what its source is bound to. -/
def correlationTerm (tr : Translator) (c : Correlation) (source : Binding) : Translating Term :=
  let matching : Matching := if c.optional then .leftOuter else .inner
  match c.kind with
  | .unnest path => pure (.unnest matching (source.base.path path) c.aliasName)
  | .lookup sourceField targetField => do
    let k ← tr.keyspace "correlate" c.target
    pure (.join matching (.keyspace k c.aliasName)
      (.binary .eq (Expression.path (.ident c.aliasName) targetField)
        (source.base.path sourceField)))

/-- Translates a query as far as the last frame. -/
def stage (tr : Translator) : Query → Translating Stage
  | .source entity aliasName => do
    let k ← tr.keyspace "source" entity
    let b : Binding := ⟨aliasName, entity, .ident aliasName, false⟩
    pure (.frame { source := .keyspace k aliasName, yield := .entity b, scope := [b] })
  | .filter input predicate => do
    let frame ← (← tr.stage input).enter fun f => f.isPaged || f.isSealed
    let e ← tr.condition frame "filter" predicate
    pure (.frame (frame.restrict e))
  | .project input projection => do
    let frame ← (← tr.stage input).enter Frame.isSealed
    let yield ← tr.projection frame projection
    pure (.frame { frame with yield, scope := yield.bindings })
  | .orderBy input key descending => do
    let frame ← (← tr.stage input).enter fun f => f.isPaged || f.isSealed
    let e ← tr.formula frame key
    pure (.frame { frame with orderBy := [⟨e, descending⟩] })
  | .thenBy input key descending => do
    match ← tr.stage input with
    | .frame frame =>
      if frame.isOrdered && !frame.isPaged && !frame.isSealed then do
        let e ← tr.formula frame key
        pure (.frame { frame with orderBy := frame.orderBy ++ [⟨e, descending⟩] })
      else unsupported "then_by" "a secondary ordering must directly follow an ordering"
    | .compound .. =>
      unsupported "then_by" "a secondary ordering must directly follow an ordering"
  | .groupBy input keys summaries => do
    let frame ← (← tr.stage input).enter fun f => f.isPaged || f.isSealed || f.isOrdered
    let ks ← keys.mapM (tr.groupKey frame)
    let ss ← summaries.mapM (tr.groupSummary frame)
    let fields := (ks ++ ss).map fun f => (f.1, FieldYield.scalar f.2)
    checkNames "group_by" (fields.map Prod.fst)
    pure (.frame { frame with
      groupBy := ks.map fun k => k.2.expression
      yield := .record fields
      scope := []
      isGrouped := true })
  | .join kind left right leftKey rightKey => do
    let matching ← kind.matching
    let leftStage ← tr.stage left
    let rightStage ← tr.stage right
    let frame ← leftStage.enter fun f => f.isPaged || f.isSealed
    let fields ← frame.fieldsFor "join" "the left side yields scalars, not entities"
    let (source, b) ← rightStage.joinSource (matching == .leftOuter)
    frame.checkAlias "join" b.aliasName
    let widened := { frame with scope := frame.scope ++ [b] }
    let l := leftKey.scalarType
    let r := rightKey.scalarType
    if !l.comparable r then
      unsupported "join" ("join keys of types " ++ quotedPair "and" l r ++ " cannot be compared")
    let le ← tr.formula widened leftKey
    let re ← tr.formula widened rightKey
    pure (.frame (frame.extend fields (.join matching source (.binary .eq le re)) b))
  | .correlate input c => do
    let frame ← (← tr.stage input).enter fun f => f.isPaged || f.isSealed
    let fields ← frame.fieldsFor "correlate" "the input yields scalars, not entities"
    match frame.binding? c.sourceAlias with
    | none => unsupported "correlate" ("alias '" ++ c.sourceAlias ++ "' is not in scope")
    | some source => do
      frame.checkAlias "correlate" c.aliasName
      let term ← tr.correlationTerm c source
      pure (.frame
        (frame.extend fields term ⟨c.aliasName, c.target, .ident c.aliasName, c.optional⟩))
  | .skip input count => do
    let frame ← (← tr.stage input).enter fun f => f.isPaged || f.isSealed
    let e ← tr.rowCount frame "skip" count
    pure (.frame { frame with offset := some e })
  | .take input count => do
    let frame ← (← tr.stage input).enter fun f => f.isLimited || f.isSealed
    let e ← tr.rowCount frame "take" count
    pure (.frame { frame with limit := some e })
  | .distinct input => do
    let frame ← (← tr.stage input).enter fun f => f.isPaged || f.isSealed || f.isOrdered
    pure (.frame { frame with distinct := true })
  | .combine op left right => do
    if !left.element.isCompatible right.element then
      unsupported op.name "operands produce different element types"
    let l ← tr.stage left
    let r ← tr.stage right
    pure (.compound (.compound op l.statement r.statement) l.yield)
  | .conclude input terminal arg => do
    let frame ← (← tr.stage input).enter fun f => f.isPaged || f.isSealed
    let (frame, s) ← tr.terminal frame terminal arg
    pure (.frame { frame with
      orderBy := []
      yield := .scalar s
      scope := []
      isConcluded := true })

/-- The translation of a query. -/
def translate (tr : Translator) (q : Query) : Except TranslationError Translation := do
  let (stage, progress) ← (tr.stage q).run {}
  let shape ← tr.rowShape stage.yield
  .ok ⟨⟨stage.statement, progress.parameters⟩, shape⟩

end Translator
end EntityQuery
