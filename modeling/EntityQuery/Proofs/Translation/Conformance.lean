import EntityQuery.Evaluation.Expression
import EntityQuery.Proofs.Computation
import EntityQuery.Query.EntitySet
import EntityQuery.Result.Materialized
import EntityQuery.Translation.Shape

/-!
# Documents that conform to entities

A document conforms to an entity if it can be materialized as one.  Then so can what it embeds,
which is what rows of a navigation hold.  Neither the path that errors name nor the entities around
an embedded one matter for this.

* `EntityShape.materialize_of_path`: what is materialized does not depend on the path.
* `Translator.entityShapeWithin_mono`: the shape of an entity does not depend on what embeds it.
* `Translator.Conforms`: a document can be materialized as an entity.
* `Translator.Conforms.item` and `Translator.Conforms.part`: what a document embeds conforms.
* `Translator.Conforms.property`: what a document holds as a property can be decoded.
* `Binding.Accepts`: an alias stands for such a document, or for nothing if it is optional.
-/

namespace EntityQuery

/-! ## Paths

A path is handed down while a document is materialized, so that an error can name the place at which
it has come up.  Results do not depend on it, which lets an embedded document be looked at by
itself. -/

section Paths

variable {path : String} {d : Document} {fields : Fields}

lemma decodeAt_of_path {codec : Codec} {o : Option Document} {v : Value}
    (h : decodeAt codec path o = .ok v) (path' : String) : decodeAt codec path' o = .ok v := by
  cases o with
  | none => exact h
  | some d => exact Computation.mapError_eq_ok.2 (Computation.mapError_eq_ok.1 h)

lemma PropertySlot.materialize_of_path {p : PropertySlot} {r : String × Materialized}
    (h : p.materialize path fields = .ok r) (path' : String) :
    p.materialize path' fields = .ok r := by
  obtain ⟨v, hv, h⟩ := Computation.bind_eq_ok.1 h
  refine Computation.bind_eq_ok.2 ⟨v, decodeAt_of_path hv _, ?_⟩
  cases hnull : v.isNull with
  | false => rwa [hnull] at h
  | true =>
      cases hrequired : p.required with
      | false => rwa [hnull, hrequired] at h
      | true =>
          rw [hnull, hrequired] at h
          cases h

/-- An entity is materialized from an object: its properties, and what it embeds. -/
lemma EntityShape.materialize_eq_ok {shape : EntityShape} {m : Materialized} :
    shape.materialize path d = .ok m ↔ ∃ fields own parts, d = .object fields ∧
      shape.properties.mapM (PropertySlot.materialize path fields) = .ok own ∧
      materializeEmbedded path fields shape.embedded = .ok parts ∧
      m = .entity shape.entity (own ++ parts) := by
  obtain ⟨name, properties, embedded⟩ := shape
  cases d with
  | object fields =>
      rw [EntityShape.materialize, Computation.bind_eq_ok]
      constructor
      · rintro ⟨own, hown, h⟩
        obtain ⟨parts, hparts, h⟩ := Computation.bind_eq_ok.1 h
        exact ⟨fields, own, parts, rfl, hown, hparts, (Except.ok.inj h).symm⟩
      · rintro ⟨fields', own, parts, heq, hown, hparts, rfl⟩
        cases heq
        exact ⟨own, hown, Computation.bind_eq_ok.2 ⟨parts, hparts, rfl⟩⟩
  | _ => simp [EntityShape.materialize]

/-- An array of embedded entities is materialized item by item. -/
lemma materializePart_many {place : EmbeddedPlace} {shape : EntityShape}
    {part : String × Materialized} (hmany : place.many = true) :
    materializePart path fields (place, shape) = .ok part ↔
      (valuedField place.field fields = none ∧ part = (place.name, .list [])) ∨
      ∃ items entities, valuedField place.field fields = some (.array items) ∧
        (items.zipIdx.mapM fun (item, i) =>
          shape.materialize (joinPath path place.field ++ "[" ++ toString i ++ "]") item) =
            .ok entities ∧ part = (place.name, .list entities) := by
  rw [materializePart]
  cases valuedField place.field fields with
  | none => simp [hmany, eq_comm]
  | some d =>
      cases d with
      | array items =>
          simp only [hmany, if_true, Computation.bind_eq_ok, Except.ok.injEq]
          constructor
          · rintro ⟨entities, hentities, rfl⟩
            exact .inr ⟨items, entities, rfl, hentities, rfl⟩
          · rintro (⟨h, -⟩ | ⟨items', entities, heq, hentities, rfl⟩)
            · cases h
            · cases heq
              exact ⟨entities, hentities, rfl⟩
      | _ => simp [hmany]

/-- A single embedded entity is materialized, unless it is optional and absent. -/
lemma materializePart_single {place : EmbeddedPlace} {shape : EntityShape}
    {part : String × Materialized} (hmany : place.many = false) :
    materializePart path fields (place, shape) = .ok part ↔
      (valuedField place.field fields = none ∧ place.optional = true ∧ part = (place.name, .null)) ∨
      ∃ d m, valuedField place.field fields = some d ∧
        shape.materialize (joinPath path place.field) d = .ok m ∧ part = (place.name, m) := by
  rw [materializePart]
  cases valuedField place.field fields with
  | none => cases place.optional <;> simp [hmany, eq_comm]
  | some d =>
      simp only [hmany, Bool.false_eq_true, if_false, Computation.bind_eq_ok, Except.ok.injEq]
      constructor
      · rintro ⟨m, hm, rfl⟩
        exact .inr ⟨d, m, rfl, hm, rfl⟩
      · rintro (⟨h, -⟩ | ⟨d', m, heq, hm, rfl⟩)
        · cases h
        · cases heq
          exact ⟨m, hm, rfl⟩

mutual

/-- **What is materialized does not depend on the path**, which only errors name. -/
theorem EntityShape.materialize_of_path : (shape : EntityShape) → {path : String} →
    {d : Document} → {m : Materialized} → shape.materialize path d = .ok m →
    (path' : String) → shape.materialize path' d = .ok m
  | ⟨name, properties, embedded⟩, path, d, m, h, path' => by
      obtain ⟨fields, own, parts, rfl, hown, hparts, rfl⟩ := EntityShape.materialize_eq_ok.1 h
      exact EntityShape.materialize_eq_ok.2 ⟨fields, own, parts, rfl,
        Computation.mapM_imp hown fun p r hr => p.materialize_of_path hr path',
        materializeEmbedded_of_path embedded hparts path', rfl⟩

/-- The embedded entities do not depend on the path. -/
theorem materializeEmbedded_of_path : (embedded : List (EmbeddedPlace × EntityShape)) →
    {path : String} → {fields : Fields} → {parts : List (String × Materialized)} →
    materializeEmbedded path fields embedded = .ok parts →
    (path' : String) → materializeEmbedded path' fields embedded = .ok parts
  | [], path, fields, parts, h, path' => h
  | e :: es, path, fields, parts, h, path' => by
      obtain ⟨part, hpart, h⟩ := Computation.bind_eq_ok.1 h
      obtain ⟨rest, hrest, h⟩ := Computation.bind_eq_ok.1 h
      exact Computation.bind_eq_ok.2 ⟨part, materializePart_of_path e hpart path',
        Computation.bind_eq_ok.2 ⟨rest, materializeEmbedded_of_path es hrest path', h⟩⟩

/-- An embedded entity does not depend on the path. -/
theorem materializePart_of_path : (e : EmbeddedPlace × EntityShape) →
    {path : String} → {fields : Fields} → {part : String × Materialized} →
    materializePart path fields e = .ok part →
    (path' : String) → materializePart path' fields e = .ok part
  | (place, shape), path, fields, part, h, path' => by
      cases hmany : place.many with
      | true =>
          refine (materializePart_many hmany).2 (((materializePart_many hmany).1 h).imp_right ?_)
          rintro ⟨items, entities, hitems, hentities, rfl⟩
          exact ⟨items, entities, hitems,
            Computation.mapM_imp hentities fun item m hm => shape.materialize_of_path hm _, rfl⟩
      | false =>
          refine (materializePart_single hmany).2 (((materializePart_single hmany).1 h).imp_right ?_)
          rintro ⟨d, m, hd, hm, rfl⟩
          exact ⟨d, m, hd, shape.materialize_of_path hm _, rfl⟩

end

/-- Each embedded entity of a document is materialized. -/
lemma exists_materializePart {embedded : List (EmbeddedPlace × EntityShape)}
    {parts : List (String × Materialized)} (h : materializeEmbedded path fields embedded = .ok parts) :
    ∀ e ∈ embedded, ∃ part, materializePart path fields e = .ok part := by
  induction embedded generalizing parts with
  | nil => exact fun e he => by cases he
  | cons e es ih =>
      obtain ⟨part, hpart, h⟩ := Computation.bind_eq_ok.1 h
      obtain ⟨rest, hrest, -⟩ := Computation.bind_eq_ok.1 h
      intro e' he'
      rcases List.mem_cons.1 he' with rfl | he'
      · exact ⟨part, hpart⟩
      · exact ih hrest e' he'

/-- A value that is not null is found as such. -/
lemma valuedField_of_get? {name : String} (h : Fields.get? name fields = some d)
    (hd : d.isNull = false) : valuedField name fields = some d := by
  rw [valuedField, h, Option.filter_some, hd]
  rfl

/-- Each item of an array of embedded entities is materialized. -/
lemma materialize_item {place : EmbeddedPlace} {shape : EntityShape} {part : String × Materialized}
    {items : List Document} (h : materializePart path fields (place, shape) = .ok part)
    (hmany : place.many = true) (hitems : Fields.get? place.field fields = some (.array items)) :
    ∀ item ∈ items, ∃ m, shape.materialize "" item = .ok m := by
  have hvalued := valuedField_of_get? hitems rfl
  obtain ⟨hnone, -⟩ | ⟨items', entities, hsome, hentities, -⟩ := (materializePart_many hmany).1 h
  · rw [hvalued] at hnone
    cases hnone
  · cases hvalued.symm.trans hsome
    intro item hitem
    obtain ⟨i, hi⟩ := List.mem_iff_getElem?.1 hitem
    obtain ⟨m, -, hm⟩ :=
      Computation.exists_of_mapM hentities (item, i) (List.mem_zipIdx_iff_getElem?.2 hi)
    exact ⟨m, shape.materialize_of_path hm ""⟩

/-- A single embedded entity is materialized, or it is optional and absent. -/
lemma materialize_part {place : EmbeddedPlace} {shape : EntityShape} {part : String × Materialized}
    (h : materializePart path fields (place, shape) = .ok part) (hmany : place.many = false) :
    (∃ d m, Fields.get? place.field fields = some d ∧ shape.materialize "" d = .ok m) ∨
      (place.optional = true ∧ ∀ d, Fields.get? place.field fields = some d → d = .null) := by
  obtain ⟨hnone, hoptional, -⟩ | ⟨d, m, hsome, hm, -⟩ := (materializePart_single hmany).1 h
  · refine .inr ⟨hoptional, fun d hd => ?_⟩
    cases d with
    | null => rfl
    | _ => rw [valuedField_of_get? hd rfl] at hnone; cases hnone
  · exact .inl ⟨d, m, (Option.filter_eq_some_iff.1 hsome).1, shape.materialize_of_path hm ""⟩

end Paths

namespace Translator

variable {tr : Translator}

/-! ## Shapes

The shape of an embedded entity is made inside of those around it, with less room for further ones.
Where it is made at all, it is the shape that the entity has by itself. -/

/-- The place of what a navigation embeds, and its shape; other navigations have none. -/
def embeddedSlot (tr : Translator) (depth : Nat) (outer : List String) (n : Navigation) :
    Shaping (Option (EmbeddedPlace × EntityShape)) :=
  match n.kind with
  | .embedded many => do
    let shape ← tr.entityShapeWithin depth outer n.target
    .ok (some (⟨n.name, n.fieldName, many, n.optional⟩, shape))
  | _ => .ok none

/-- The parts of the shape of an entity: the slots of its properties, and what it embeds. -/
lemma entityShapeWithin_eq_ok {depth : Nat} {outer : List String} {name : String}
    {shape : EntityShape} (h : tr.entityShapeWithin (depth + 1) outer name = .ok shape) :
    ∃ e os, tr.model.entity? name = some e ∧ outer.contains name = false ∧
      e.properties.mapM tr.propertySlot = .ok shape.properties ∧
      e.navigations.mapM (tr.embeddedSlot depth (name :: outer)) = .ok os ∧
      os.filterMap id = shape.embedded ∧ shape.entity = e.name := by
  rw [entityShapeWithin] at h
  cases houter : outer.contains name with
  | true => simp only [houter, if_true] at h; cases h
  | false =>
      simp only [houter, Bool.false_eq_true, if_false] at h
      cases hentity : tr.model.entity? name with
      | none => simp only [hentity] at h; cases h
      | some e =>
          simp only [hentity] at h
          obtain ⟨properties, hproperties, h⟩ := Computation.bind_eq_ok.1 h
          obtain ⟨embedded, hembedded, h⟩ := Computation.bind_eq_ok.1 h
          cases h
          obtain ⟨os, hos, heq⟩ := Computation.filterMapM_eq_ok.1 hembedded
          exact ⟨e, os, rfl, rfl, hproperties, hos, heq, rfl⟩

/-- **The shape of an entity does not depend on what embeds it**: with more room, and inside of
fewer entities, it is the same. -/
theorem entityShapeWithin_mono {depth depth' : Nat} {outer outer' : List String} {name : String}
    {shape : EntityShape} (h : tr.entityShapeWithin depth outer name = .ok shape)
    (hdepth : depth ≤ depth') (houter : outer' ⊆ outer) :
    tr.entityShapeWithin depth' outer' name = .ok shape := by
  induction depth generalizing depth' outer outer' name shape with
  | zero => cases h
  | succ depth ih =>
      obtain ⟨depth', rfl⟩ := Nat.exists_eq_add_of_le' (Nat.le_trans (Nat.le_add_left 1 depth) hdepth)
      obtain ⟨e, os, hentity, hfree, hproperties, hos, hembedded, hname⟩ := entityShapeWithin_eq_ok h
      obtain ⟨_, properties, embedded⟩ := shape
      cases hname
      have hfree' : outer'.contains name = false := by
        rw [List.contains_eq_mem, decide_eq_false_iff_not] at hfree ⊢
        exact fun hmem => hfree (houter hmem)
      rw [entityShapeWithin, hfree', if_neg Bool.false_ne_true, hentity]
      refine Computation.bind_eq_ok.2 ⟨properties, hproperties,
        Computation.bind_eq_ok.2 ⟨embedded, ?_, rfl⟩⟩
      refine Computation.filterMapM_eq_ok.2 ⟨os, Computation.mapM_imp hos fun n o ho => ?_, hembedded⟩
      rw [embeddedSlot] at ho
      cases hkind : n.kind with
      | embedded many =>
          simp only [hkind] at ho ⊢
          obtain ⟨inner, hinner, ho⟩ := Computation.bind_eq_ok.1 ho
          refine Computation.bind_eq_ok.2 ⟨inner, ih hinner (by omega) ?_, ho⟩
          exact List.cons_subset_cons name houter
      | _ => simpa only [hkind] using ho

/-- The shape of an entity that is embedded in another one is the one that it has by itself. -/
lemma entityShape_of_within {depth : Nat} {outer : List String} {name : String}
    {shape : EntityShape} (h : tr.entityShapeWithin depth outer name = .ok shape)
    (hdepth : depth ≤ tr.model.model.entities.length + 1) : tr.entityShape name = .ok shape :=
  entityShapeWithin_mono h hdepth (List.nil_subset _)

/-! ## Conforming documents

A document that can be materialized has what its entity asks for.  What follows takes such a
document apart by members, and not by the shape again. -/

/-- A document can be materialized as an entity. -/
def Conforms (tr : Translator) (entity : String) (d : Document) : Prop :=
  ∃ shape m, tr.entityShape entity = .ok shape ∧ shape.materialize "" d = .ok m

namespace Conforms

variable {entity : String} {d : Document}

/-- A document that conforms is an object. -/
lemma exists_object (h : tr.Conforms entity d) : ∃ fields, d = .object fields := by
  obtain ⟨shape, m, -, hm⟩ := h
  obtain ⟨fields, own, parts, hd, -⟩ := EntityShape.materialize_eq_ok.1 hm
  exact ⟨fields, hd⟩

/-- A document that conforms is not null. -/
lemma isNull (h : tr.Conforms entity d) : d.isNull = false := by
  obtain ⟨fields, rfl⟩ := h.exists_object
  rfl

/-- A document that conforms is materialized at each path. -/
lemma materialize (h : tr.Conforms entity d) {shape : EntityShape}
    (hshape : tr.entityShape entity = .ok shape) (path : String) :
    ∃ m, shape.materialize path d = .ok m := by
  obtain ⟨shape', m, hshape', hm⟩ := h
  cases hshape.symm.trans hshape'
  exact ⟨m, shape.materialize_of_path hm path⟩

/-- What is materialized of an embedded entity in a document that conforms. -/
lemma exists_part (h : tr.Conforms entity d) {e : Entity} (he : tr.model.entity? entity = some e)
    {n : Navigation} (hn : n ∈ e.navigations) {many : Bool} (hkind : n.kind = .embedded many) :
    ∃ fields shape part, d = .object fields ∧ tr.entityShape n.target = .ok shape ∧
      materializePart "" fields (⟨n.name, n.fieldName, many, n.optional⟩, shape) = .ok part := by
  obtain ⟨shape, m, hshape, hm⟩ := h
  obtain ⟨e', os, he', -, -, hos, hembedded, -⟩ := entityShapeWithin_eq_ok hshape
  cases he.symm.trans he'
  obtain ⟨o, ho, hslot⟩ := Computation.exists_of_mapM hos n hn
  rw [embeddedSlot] at hslot
  simp only [hkind] at hslot
  obtain ⟨inner, hinner, heq⟩ := Computation.bind_eq_ok.1 hslot
  cases heq
  have hmem : ((⟨n.name, n.fieldName, many, n.optional⟩ : EmbeddedPlace), inner) ∈ shape.embedded :=
    hembedded ▸ List.mem_filterMap.2 ⟨_, ho, rfl⟩
  obtain ⟨fields, own, parts, rfl, -, hparts, -⟩ := EntityShape.materialize_eq_ok.1 hm
  obtain ⟨part, hpart⟩ := exists_materializePart hparts _ hmem
  exact ⟨fields, inner, part, rfl, entityShape_of_within hinner (Nat.le_succ _), hpart⟩

/-- **The items of an embedded array conform** to the entity that they are. -/
theorem item (h : tr.Conforms entity d) {e : Entity} (he : tr.model.entity? entity = some e)
    {n : Navigation} (hn : n ∈ e.navigations) (hkind : n.kind = .embedded true)
    {items : List Document} (hitems : d.field? n.fieldName = some (.array items)) :
    ∀ item ∈ items, tr.Conforms n.target item := by
  obtain ⟨fields, shape, part, rfl, hshape, hpart⟩ := h.exists_part he hn hkind
  intro item hitem
  obtain ⟨m, hm⟩ := materialize_item hpart rfl hitems item hitem
  exact ⟨shape, m, hshape, hm⟩

/-- **An embedded entity conforms**, or it is optional and absent. -/
theorem part (h : tr.Conforms entity d) {e : Entity} (he : tr.model.entity? entity = some e)
    {n : Navigation} (hn : n ∈ e.navigations) (hkind : n.kind = .embedded false) :
    (∃ d', d.field? n.fieldName = some d' ∧ tr.Conforms n.target d') ∨
      (n.optional = true ∧ ∀ d', d.field? n.fieldName = some d' → d' = .null) := by
  obtain ⟨fields, shape, part, rfl, hshape, hpart⟩ := h.exists_part he hn hkind
  exact (materialize_part hpart rfl).imp_left fun ⟨d', m, hd', hm⟩ => ⟨d', hd', shape, m, hshape, hm⟩

/-- **What is held as a property is decoded** by the codec of its type, and it is neither missing
nor null unless the property may be so. -/
theorem property (h : tr.Conforms entity d) {e : Entity} (he : tr.model.entity? entity = some e)
    {p : Property} (hp : p ∈ e.properties) :
    (∀ d', d.field? p.fieldName = some d' → ∃ codec v, tr.registry.find p.scalarType = .ok codec ∧
      codec.decode d' = .ok v) ∧
    (p.nullable = false → ∃ d', d.field? p.fieldName = some d' ∧ d'.isNull = false) := by
  obtain ⟨shape, m, hshape, hm⟩ := h
  obtain ⟨e', os, he', -, hproperties, -, -, -⟩ := entityShapeWithin_eq_ok hshape
  cases he.symm.trans he'
  obtain ⟨slot, hslot, hmade⟩ := Computation.exists_of_mapM hproperties p hp
  obtain ⟨codec, hcodec, heq⟩ := Computation.bind_eq_ok.1 hmade
  cases heq
  obtain ⟨fields, own, parts, rfl, hown, -, -⟩ := EntityShape.materialize_eq_ok.1 hm
  obtain ⟨r, -, hr⟩ := Computation.exists_of_mapM hown _ hslot
  obtain ⟨v, hv, hr⟩ := Computation.bind_eq_ok.1 hr
  constructor
  · intro d' hd'
    have hfield : Fields.get? p.fieldName fields = some d' := hd'
    rw [hfield] at hv
    exact ⟨codec, v, Computation.mapError_eq_ok.1 hcodec, Computation.mapError_eq_ok.1 hv⟩
  · intro hnullable
    have hvalued : v.isNull = false := by
      cases hnull : v.isNull with
      | false => rfl
      | true =>
          simp only [hnull, hnullable, Bool.not_true, Bool.not_false, Bool.false_eq_true, if_false,
            if_true] at hr
          cases hr
    cases hfield : Fields.get? p.fieldName fields with
    | none =>
        simp only [hfield] at hv
        cases hv
        cases hvalued
    | some d' =>
        refine ⟨d', hfield, ?_⟩
        cases d' with
        | null =>
            simp only [hfield] at hv
            cases Except.ok.inj hv
            cases hvalued
        | _ => rfl

end Conforms
end Translator

/-- What an alias may be bound to on a row: a document that conforms to its entity, or nothing if
the entity is optional. -/
def Binding.Accepts (tr : Translator) (b : Binding) : Datum → Prop
  | some d => tr.Conforms b.entity d
  | none => b.optional = true

end EntityQuery
