import EntityQuery.Proofs.Translation.Documents
import EntityQuery.Proofs.Translation.Frames
import EntityQuery.Proofs.Translation.Slots

/-!
# Types of elements and shapes of rows

A query says of which type its elements are, and its translation says of which shape its rows are.
The type is read off the operators, and the shape off what the last frame yields.  They agree,
except that a projection is typed by the entity that it names, while its rows are shaped by the
entity that the alias is bound to.

* `RowShape.element`: the type of the elements that rows of a shape hold.
* `Query.boundElement`: the type of the elements, with each alias for the entity that it is bound
  to.
* `Translator.Lowered.element`: a stage yields elements of this type.
* `element_shape`: so does a translation, and the type of the query is the same unless a projection
  names another entity than the one that its alias is bound to.
-/

namespace EntityQuery

/-! ## The two types

The type that a query states and the one that it computes may differ, since a projection writes down
an entity with an alias and the frame looks the alias up.  Therefore there are two of them, and they
are equal where projections name what is bound. -/

namespace ElementType

mutual

/-- The type without the aliases of entities, which rows do not hold. -/
def anonymous : ElementType → ElementType
  | .entity name _ => .entity name ""
  | .scalar t nullable => .scalar t nullable
  | .record fields => .record (anonymousFields fields)

/-- The fields of a record without the aliases of entities. -/
def anonymousFields : List (String × ElementType) → List (String × ElementType)
  | [] => []
  | field :: fields => anonymousField field :: anonymousFields fields

/-- A field of a record without the aliases of entities. -/
def anonymousField : String × ElementType → String × ElementType
  | (name, t) => (name, t.anonymous)

end

/-- The entity and the alias of an entity. -/
def binding? : ElementType → Option (String × String)
  | .entity name aliasName => some (name, aliasName)
  | _ => none

/-- The entities that elements hold, each with its alias. -/
def bindings : ElementType → List (String × String)
  | .entity name aliasName => [(name, aliasName)]
  | .scalar .. => []
  | .record fields => fields.filterMap fun f => f.2.binding?

/-- The entity that an alias is bound to, and none of a name if it is not in scope. -/
def entityUnder (t : ElementType) (aliasName : String) : String :=
  ((t.bindings.find? fun b => b.2 == aliasName).map Prod.fst).getD ""

end ElementType

mutual

/-- The type of the elements that rows of a shape hold. -/
def RowShape.element : RowShape → ElementType
  | .entity shape => .entity shape.entity ""
  | .scalar slot => .scalar slot.codec.scalarType slot.nullable
  | .record slots => .record (elementsOfSlots slots)

/-- The types of the fields of a record. -/
def elementsOfSlots : List (RecordPlace × RowShape) → List (String × ElementType)
  | [] => []
  | slot :: slots => elementOfSlot slot :: elementsOfSlots slots

/-- The type of a field of a record. -/
def elementOfSlot : RecordPlace × RowShape → String × ElementType
  | (place, shape) => (place.name, shape.element)

end

/-- The type of a field of a projection, with the entity that its alias is bound to. -/
def Projected.boundElement (input : ElementType) : Projected → ElementType
  | .scalar f => .ofFormula f
  | .entity _ aliasName => .entity (input.entityUnder aliasName) aliasName

/-- The type of the elements of a projection, with the entities that its aliases are bound to. -/
def Projection.boundElement (input : ElementType) : Projection → ElementType
  | .scalar f => .ofFormula f
  | .entity _ aliasName => .entity (input.entityUnder aliasName) aliasName
  | .record fields => .record (fields.map fun f => (f.1, f.2.boundElement input))

/-- The type of the elements of a query, with the entities that projected aliases are bound to. -/
def Query.boundElement : Query → ElementType
  | .source entity aliasName => .entity entity aliasName
  | .project input projection => projection.boundElement input.boundElement
  | .groupBy input keys summaries => (Query.groupBy input keys summaries).element
  | .join _ left right _ _ =>
    .record (left.boundElement.scopeFields ++ [joinedField right.boundElement])
  | .correlate input c =>
    .record (input.boundElement.scopeFields ++ [(c.aliasName, .entity c.target c.aliasName)])
  | .filter input _ | .orderBy input _ _ | .thenBy input _ _ | .skip input _ | .take input _
  | .distinct input => input.boundElement
  | .combine _ left _ => left.boundElement
  | .conclude _ terminal arg => concludedElement terminal arg

/-- The entities that a projection names, each with its alias. -/
def Projection.entities : Projection → List (String × String)
  | .scalar _ => []
  | .entity name aliasName => [(name, aliasName)]
  | .record fields => fields.filterMap fun f =>
    match f.2 with
    | .scalar _ => none
    | .entity name aliasName => some (name, aliasName)

/-- Each projection of a query names the entities that its aliases are bound to. -/
def Query.NamesBound : Query → Prop
  | .source .. => True
  | .project input projection =>
    input.NamesBound ∧ ∀ e ∈ projection.entities, input.element.entityUnder e.2 = e.1
  | .join _ left right _ _ | .combine _ left right => left.NamesBound ∧ right.NamesBound
  | .filter input _ | .orderBy input _ _ | .thenBy input _ _ | .groupBy input _ _
  | .correlate input _ | .skip input _ | .take input _ | .distinct input | .conclude input _ _ =>
    input.NamesBound

/-- If projections name the entities that their aliases are bound to, the two types are the same. -/
lemma Query.boundElement_eq {q : Query} (h : q.NamesBound) : q.boundElement = q.element := by
  induction q with
  | source => rfl
  | project input projection ih =>
      obtain ⟨hinput, hentities⟩ := h
      rw [boundElement, ih hinput, element]
      cases projection with
      | scalar f => rfl
      | entity name aliasName =>
          have hname := hentities (name, aliasName) (List.mem_singleton_self _)
          rw [Projection.boundElement, hname, Projection.element]
      | record fields =>
          rw [Projection.boundElement, Projection.element]
          congr 1
          refine List.map_congr_left fun field hfield => ?_
          obtain ⟨name, f | ⟨entity, aliasName⟩⟩ := field
          · rfl
          · have hname := hentities (entity, aliasName) (List.mem_filterMap.2 ⟨_, hfield, rfl⟩)
            rw [Projected.boundElement, hname, Projected.element]
  | join kind left right leftKey rightKey ihl ihr =>
      rw [boundElement, ihl h.1, ihr h.2, element]
  | correlate input c ih => rw [boundElement, ih h, element]
  | combine op left right ihl ihr => exact ihl h.1
  | groupBy | conclude => rfl
  | filter input _ ih | orderBy input _ _ ih | thenBy input _ _ ih | skip input _ ih
  | take input _ ih | distinct input ih => exact ih h

/-! ## What stages yield

A stage makes elements of the second type, in which aliases stand for what they are bound to.  This
needs no assumption about projections. -/

/-- The type of what a field of a record holds. -/
def FieldYield.element : FieldYield → ElementType
  | .scalar s => .scalar s.scalarType s.nullable
  | .entity b => .entity b.entity b.aliasName

namespace Yield

/-- The type of the elements that a yield makes. -/
def element : Yield → ElementType
  | .entity b => .entity b.entity b.aliasName
  | .scalar s => .scalar s.scalarType s.nullable
  | .record fields => .record (fields.map fun f => (f.1, f.2.element))

variable {y : Yield}

/-- A yield makes elements of the same type whatever it is read from. -/
@[simp] lemma element_rebase (y : Yield) (aliasName : String) :
    (y.rebase aliasName).element = y.element := by
  cases y with
  | entity b => rfl
  | scalar s => rfl
  | record fields =>
      simp only [rebase, element, List.map_map]
      congr 1
      refine List.map_congr_left fun field _ => ?_
      obtain ⟨name, s | b⟩ := field <;> rfl

/-- The fields that a join adds to are of the types of those of the elements. -/
lemma element_scopeFields {fields : List (String × FieldYield)}
    (h : y.scopeFields? = some fields) :
    fields.map (fun f => (f.1, f.2.element)) = y.element.scopeFields := by
  cases y with
  | entity b =>
      cases h
      rfl
  | record fields₀ =>
      cases h
      rfl
  | scalar s => cases h

/-- A yield binds the aliases that its type has. -/
lemma bindings_element (y : Yield) :
    y.element.bindings = y.bindings.map fun b => (b.entity, b.aliasName) := by
  cases y with
  | entity b => rfl
  | scalar s => rfl
  | record fields =>
      simp only [element, ElementType.bindings, bindings, List.filterMap_map, List.map_filterMap]
      refine List.filterMap_congr fun field _ => ?_
      obtain ⟨name, s | b⟩ := field <;> rfl

end Yield

/-- A frame binds an alias to the entity that the type of its rows has under the alias. -/
lemma Frame.entity_bound {f : Frame} (h : f.scope = f.yield.bindings) (aliasName : String) :
    (f.bound aliasName).entity = f.yield.element.entityUnder aliasName := by
  rw [bound, binding?, h, ElementType.entityUnder, Yield.bindings_element, List.find?_map]
  simp only [Function.comp_def]
  cases f.yield.bindings.find? fun b => b.aliasName == aliasName <;> rfl

/-- A frame that is entered yields what the stage does. -/
lemma Stage.Enters.element {closed : Frame → Bool} {s : Stage} {f : Frame}
    (henter : s.Enters closed f) : f.yield.element = s.yield.element := by
  cases henter with
  | kept => rfl
  | nested => exact Yield.element_rebase _ _
  | compound => exact Yield.element_rebase _ _

namespace Translator

variable {tr : Translator} {frame : Frame}

/-- A field that holds an entity holds the one that its alias is bound to. -/
lemma element_projectedFields (hscope : frame.scope = frame.yield.bindings) (n : Nat)
    (fields : List (String × Projected)) :
    (tr.projectedFields frame n fields).map (fun f => (f.1, f.2.element)) =
      fields.map fun f => (f.1, f.2.boundElement frame.yield.element) := by
  induction fields generalizing n with
  | nil => rfl
  | cons field fields ih =>
      obtain ⟨name, f | ⟨entity, aliasName⟩⟩ := field
      · rw [projectedFields, List.map_cons, List.map_cons, ih]
        rfl
      · rw [projectedFields, List.map_cons, List.map_cons, ih, FieldYield.element,
          frame.entity_bound hscope, frame.aliasName_bound, Projected.boundElement]

/-- A projection yields the entities that its aliases are bound to. -/
lemma element_projectedYield (hscope : frame.scope = frame.yield.bindings) (n : Nat)
    (p : Projection) :
    (tr.projectedYield frame n p).element = p.boundElement frame.yield.element := by
  cases p with
  | scalar f => rfl
  | entity entity aliasName =>
      rw [projectedYield, Yield.element, frame.entity_bound hscope, frame.aliasName_bound,
        Projection.boundElement]
  | record fields => exact congrArg _ (element_projectedFields hscope n fields)

lemma element_groupKeys (n : Nat) (keys : List (String × Formula)) :
    (tr.groupKeys frame n keys).map (fun k => (k.1, (FieldYield.scalar k.2).element)) =
      keys.map fun k => (k.1, .ofFormula k.2) := by
  induction keys generalizing n with
  | nil => rfl
  | cons key keys ih =>
      obtain ⟨name, f⟩ := key
      rw [groupKeys, List.map_cons, List.map_cons, ih]
      rfl

lemma element_groupSummaries (n : Nat) (summaries : List (String × Summary)) :
    (tr.groupSummaries frame n summaries).map (fun s => (s.1, (FieldYield.scalar s.2).element)) =
      summaries.map fun s => (s.1, .scalar s.2.scalarType s.2.isNullable) := by
  induction summaries generalizing n with
  | nil => rfl
  | cons summary summaries ih =>
      obtain ⟨name, s⟩ := summary
      rw [groupSummaries, List.map_cons, List.map_cons, ih]
      rfl

/-- A terminal makes a scalar of the type that it concludes the query with. -/
lemma Concludes.element {n m : Nat} {terminal : Terminal} {arg : Option Formula} {frame' : Frame}
    {s : YieldedScalar} (h : Concludes tr frame n terminal arg frame' s m) :
    (Yield.scalar s).element = Query.concludedElement terminal arg := by
  cases h with
  | summary hfunction => cases terminal <;> cases hfunction <;> rfl
  | count | any | all => rfl

/-- **A stage yields elements of the type of its query**, with the entities that aliases are bound
to. -/
theorem Lowered.element {n m : Nat} {q : Query} {s : Stage} (h : Lowered tr n q s m) :
    s.yield.element = q.boundElement := by
  induction h with
  | source => rfl
  | project hinput henter ih =>
      have hscope := (hinput.tidy.enter henter).scope
      rw [Query.boundElement, ← ih, ← henter.element]
      exact element_projectedYield hscope _ _
  | @groupBy n m m₁ input s frame keys summaries =>
      change ElementType.record (((tr.groupKeys frame m keys ++
        tr.groupSummaries frame m₁ summaries).map _).map _) = .record (keys.map _ ++ summaries.map _)
      rw [List.map_map, List.map_append]
      exact congrArg _ (congrArg₂ _ (element_groupKeys m keys) (element_groupSummaries m₁ summaries))
  | @join n n₁ n₂ kind matching left right ls rs frame fields b b' leftKey rightKey _ _ _ henter
      hfields hyield _ hb ihl ihr =>
      rw [hyield] at ihr
      rw [Query.boundElement, ← ihl, ← ihr, ← henter.element, ← Yield.element_scopeFields hfields, hb]
      change ElementType.record ((fields ++ [_]).map _) = _
      rw [List.map_append]
      rfl
  | correlate _ henter hfields _ _ _ ih =>
      rw [Query.boundElement, ← ih, ← henter.element, ← Yield.element_scopeFields hfields]
      change ElementType.record ((_ ++ [_]).map _) = _
      rw [List.map_append]
      rfl
  | thenBy _ _ _ ih => exact ih
  | filter _ henter ih | orderBy _ henter ih | skip _ henter ih | take _ henter ih
  | distinct _ henter ih => exact henter.element.trans ih
  | combine _ _ _ ihl _ => exact ihl
  | conclude _ _ hterminal => exact hterminal.element

end Translator

/-! ## What rows hold

A shape is made from a yield by looking up codecs and shapes of entities.  Reading the type off the
shape again gives the type of the yield. -/

/-- The codec that is found for a type is one of the type. -/
lemma Registry.scalarType_of_find {registry : Registry} {t : ScalarType} {codec : Codec}
    (h : registry.find t = .ok codec) : codec.scalarType = t := by
  rw [find] at h
  cases hfind : registry.find? t with
  | none => simp [hfind] at h
  | some c =>
      rw [hfind] at h
      cases h
      simpa using List.find?_some hfind

namespace Translator

variable {tr : Translator}

lemma scalarType_of_shapeCodec {t : ScalarType} {codec : Codec}
    (h : tr.shapeCodec t = .ok codec) : codec.scalarType = t :=
  Registry.scalarType_of_find (Computation.mapError_eq_ok.1 h)

/-- The shape of an entity is one of the entity. -/
lemma entity_of_entityShapeWithin {depth : Nat} {outer : List String} {name : String}
    {shape : EntityShape} (h : tr.entityShapeWithin depth outer name = .ok shape) :
    shape.entity = name := by
  cases depth with
  | zero => cases h
  | succ depth =>
      rw [entityShapeWithin] at h
      split at h
      · cases h
      · cases hentity : tr.model.entity? name with
        | none => simp [hentity] at h
        | some e =>
            simp only [hentity] at h
            obtain ⟨properties, -, h⟩ := Computation.bind_eq_ok.1 h
            obtain ⟨embedded, -, h⟩ := Computation.bind_eq_ok.1 h
            cases h
            simpa using List.find?_some hentity

lemma element_scalarSlot {s : YieldedScalar} {slot : ScalarSlot} (h : tr.scalarSlot s = .ok slot) :
    (RowShape.scalar slot).element = .scalar s.scalarType s.nullable := by
  obtain ⟨codec, hcodec, h⟩ := Computation.bind_eq_ok.1 h
  cases h
  rw [RowShape.element, scalarType_of_shapeCodec hcodec]

/-- The place of a field has the name of the field and holds what the field does. -/
lemma element_recordSlot {field : String × FieldYield} {slot : RecordPlace × RowShape}
    (h : tr.recordSlot field = .ok slot) :
    elementOfSlot slot = ElementType.anonymousField (field.1, field.2.element) := by
  obtain ⟨name, s | b⟩ := field
  · obtain ⟨slot, hslot, h⟩ := Computation.bind_eq_ok.1 h
    cases h
    rw [elementOfSlot, element_scalarSlot hslot]
    rfl
  · obtain ⟨shape, hshape, h⟩ := Computation.bind_eq_ok.1 h
    cases h
    rw [elementOfSlot, RowShape.element, entity_of_entityShapeWithin hshape]
    rfl

lemma elements_recordSlots {fields : List (String × FieldYield)}
    {slots : List (RecordPlace × RowShape)} (h : fields.mapM tr.recordSlot = .ok slots) :
    elementsOfSlots slots =
      ElementType.anonymousFields (fields.map fun f => (f.1, f.2.element)) := by
  induction Computation.mapM_eq_ok.1 h with
  | nil => rfl
  | cons hslot hrest ih =>
      rw [elementsOfSlots, List.map_cons, ElementType.anonymousFields, element_recordSlot hslot,
        ih (Computation.mapM_eq_ok.2 hrest)]

/-- **The shape of rows is that of the elements that are yielded.** -/
theorem element_rowShape {y : Yield} {shape : RowShape} (h : tr.rowShape y = .ok shape) :
    shape.element = y.element.anonymous := by
  cases y with
  | entity b =>
      obtain ⟨shape, hshape, h⟩ := Computation.bind_eq_ok.1 h
      cases h
      rw [RowShape.element, entity_of_entityShapeWithin hshape, Yield.element,
        ElementType.anonymous]
  | scalar s =>
      obtain ⟨slot, hslot, h⟩ := Computation.bind_eq_ok.1 h
      cases h
      exact element_scalarSlot hslot
  | record fields =>
      obtain ⟨slots, hslots, h⟩ := Computation.bind_eq_ok.1 h
      cases h
      rw [RowShape.element, elements_recordSlots hslots, Yield.element, ElementType.anonymous]

end Translator

/-- **The rows of a query are of the type of its elements**, as far as its projections name the
entities that their aliases are bound to.  In any case they hold what the aliases are bound to. -/
theorem element_shape {tr : Translator} {q : Query} {t : Translation}
    (ht : tr.translate q = .ok t) :
    t.shape.element = q.boundElement.anonymous ∧
      (q.NamesBound → t.shape.element = q.element.anonymous) := by
  obtain ⟨stage, progress, hstage, -, hshape⟩ := Translator.translate_eq_ok ht
  have hbound : t.shape.element = q.boundElement.anonymous := by
    rw [Translator.element_rowShape hshape, (Translator.stage_eq_ok hstage).1.element]
  refine ⟨hbound, fun hnames => ?_⟩
  rw [hbound, Query.boundElement_eq hnames]

namespace Sample

/-- A model of persons with their addresses, and of orders. -/
def shop : ValidModel where
  model := ⟨[
    { name := "Person"
      keyspace := some ⟨"app", "_default", "person"⟩
      properties := [
        { name := "id", scalarType := .int64, isKey := true },
        { name := "age", scalarType := .int64 }]
      navigations := [
        { name := "orders", target := "Order", kind := .collection "buyer" },
        { name := "addresses", target := "Address", kind := .embedded true }] },
    { name := "Order"
      keyspace := some ⟨"app", "_default", "order"⟩
      properties := [
        { name := "id", scalarType := .string, isKey := true },
        { name := "buyer", scalarType := .int64 },
        { name := "total", scalarType := .int64 }] },
    { name := "Address"
      owned := true
      properties := [{ name := "city", scalarType := .string }] }]⟩
  defaults := {}
  warnings := []

/-- A translator for the model. -/
def shopTranslator : Translator := ⟨shop, .standard, .standard⟩

/-- The orders of a person, with persons that have none. -/
def ordersOf (aliasName : String) : Correlation where
  sourceAlias := aliasName
  navigation := "orders"
  target := "Order"
  aliasName := "o"
  kind := .lookup ["id"] ["buyer"]
  optional := true

/-- Each person with an order, and what the order amounts to. -/
def purchases : Query :=
  .project (.correlate (.source "Person" "p") (ordersOf "p"))
    (.record [("who", .entity "Person" "p"), ("what", .entity "Order" "o"),
      ("total", .scalar (.property ⟨"o", "Order", "total", ["total"], .int64, false⟩))])

/-- The persons, which a projection takes for orders. -/
def mistaken : Query := .project (.source "Person" "p") (.entity "Order" "p")

end Sample

/-- Persons, orders and totals are what the rows of the sample query hold. -/
theorem element_shape_purchases : ∃ t, Translator.translate Sample.shopTranslator Sample.purchases =
      .ok t ∧ Sample.purchases.NamesBound ∧
    t.shape.element = .record [("who", .entity "Person" ""), ("what", .entity "Order" ""),
      ("total", .scalar .int64 false)] := by
  obtain ⟨t, ht⟩ : ∃ t, Translator.translate Sample.shopTranslator Sample.purchases = .ok t :=
    ⟨_, rfl⟩
  have hnames : Sample.purchases.NamesBound :=
    ⟨trivial, by simp [Projection.entities, Query.element, ElementType.entityUnder,
      ElementType.bindings, ElementType.binding?, ElementType.scopeFields, Sample.ordersOf]⟩
  exact ⟨t, ht, hnames, (element_shape ht).2 hnames⟩

/-- Of the persons that are taken for orders, the elements are orders and the rows are persons. -/
theorem element_shape_mistaken : ∃ t, Translator.translate Sample.shopTranslator Sample.mistaken =
      .ok t ∧ Sample.mistaken.element = .entity "Order" "p" ∧
    t.shape.element = .entity "Person" "" ∧
    t.shape.element ≠ Sample.mistaken.element.anonymous :=
  ⟨_, rfl, rfl, rfl, by simp [Sample.mistaken, Query.element, Projection.element,
    ElementType.anonymous, RowShape.element]⟩

end EntityQuery
