import EntityQuery.Proofs.Evaluation.Kinds
import EntityQuery.Proofs.Translation.Conformance

/-!
# What rows hold

A shape says what a row has to be, and what the row then holds.  Both are said here without the
computation that makes a result of a row, which stops at the first fault and names its path.

* `RowShape.Conforms`: objects are where the shape has entities and records, and required values are
  there.
* `RowShape.content`: the fields of the shape in order, each with its decoded value or null.
* `RowShape.Agree`: two rows differ at most in what the shape does not mention.
* `materialize_exact`: a row is materialized if and only if it conforms, as its content, and nothing
  that the shape does not mention matters.
* `materialize_without_object`: a field of a record that may be null.
-/

namespace EntityQuery

/-! ## Scalars

A codec may decode what is there to null.  Both, that nothing is there and that null is, are
accepted only where a value is not required. -/

/-- The result that a value is. -/
def Materialized.ofValue (v : Value) : Materialized := if v.isNull then .null else .scalar v

namespace Codec

/-- Whether a codec accepts what is there.  If a value is required, there has to be one that is not
null, and it is not decoded to null either. -/
def Accepts (c : Codec) (required : Bool) (o : Datum) : Prop :=
  match required with
  | true => ∃ d v, o = some d ∧ d.isNull = false ∧ c.decode d = .ok v ∧ v.isNull = false
  | false => isValued o = false ∨ ∃ d v, o = some d ∧ c.decode d = .ok v

/-- The decoded value of what is there.  It is null if nothing is there. -/
def content (c : Codec) (o : Datum) : Materialized :=
  match o with
  | none => .null
  | some d =>
    match c.decode d with
    | .ok v => .ofValue v
    | .error _ => .null

end Codec

/-! ## Entities

The definitions recurse on the shape and not on the document: what a shape does not mention is not
looked at, however deep it is. -/

/-- Whether a document is an object. -/
def Document.IsObject (d : Document) : Prop := ∃ fields, d = .object fields

/-- Whether an object holds a property. -/
def PropertySlot.Conforms (p : PropertySlot) (d : Document) : Prop :=
  p.codec.Accepts p.required (d.field? p.field)

/-- The property that an object holds. -/
def PropertySlot.content (p : PropertySlot) (d : Document) : String × Materialized :=
  (p.name, p.codec.content (d.field? p.field))

mutual

/-- **Whether a document is as the shape of an entity says.** -/
def EntityShape.Conforms : EntityShape → Document → Prop
  | ⟨_, properties, embedded⟩, d =>
    d.IsObject ∧ (∀ p ∈ properties, p.Conforms d) ∧ embeddedConform d embedded

/-- Whether an object holds embedded entities. -/
def embeddedConform (d : Document) : List (EmbeddedPlace × EntityShape) → Prop
  | [] => True
  | e :: es => partConforms d e ∧ embeddedConform d es

/-- Whether an object holds an embedded entity, or the array of them.  An array may be absent, and a
single entity if it is optional. -/
def partConforms (d : Document) : EmbeddedPlace × EntityShape → Prop
  | (place, shape) =>
    match place.many with
    | true =>
      isValued (d.field? place.field) = false ∨
        ∃ items, d.field? place.field = some (.array items) ∧ ∀ item ∈ items, shape.Conforms item
    | false =>
      place.optional = true ∧ isValued (d.field? place.field) = false ∨
        ∃ part, d.field? place.field = some part ∧ shape.Conforms part

end

mutual

/-- **What a document holds as an entity**: its properties, and what it embeds. -/
def EntityShape.content : EntityShape → Document → Materialized
  | ⟨name, properties, embedded⟩, d =>
    .entity name (properties.map (fun p => p.content d) ++ embeddedContent d embedded)

/-- The embedded entities that an object holds. -/
def embeddedContent (d : Document) :
    List (EmbeddedPlace × EntityShape) → List (String × Materialized)
  | [] => []
  | e :: es => partContent d e :: embeddedContent d es

/-- The embedded entity that an object holds, or the list of them, one for each item. -/
def partContent (d : Document) : EmbeddedPlace × EntityShape → String × Materialized
  | (place, shape) =>
    match place.many, d.field? place.field with
    | true, some (.array items) => (place.name, .list (items.map fun item => shape.content item))
    | true, _ => (place.name, .list [])
    | false, some part => (place.name, if part.isNull then .null else shape.content part)
    | false, none => (place.name, .null)

end

mutual

/-- Whether two documents are the same but for what the shape of an entity does not mention. -/
def EntityShape.Agree : EntityShape → Document → Document → Prop
  | ⟨_, properties, embedded⟩, d, d' =>
    d = d' ∨ d.IsObject ∧ d'.IsObject ∧
      (∀ p ∈ properties, d.field? p.field = d'.field? p.field) ∧ embeddedAgree d d' embedded

/-- Whether two objects hold the same embedded entities. -/
def embeddedAgree (d d' : Document) : List (EmbeddedPlace × EntityShape) → Prop
  | [] => True
  | e :: es => partAgrees d d' e ∧ embeddedAgree d d' es

/-- Whether two objects hold the same embedded entity, or arrays of the same ones. -/
def partAgrees (d d' : Document) : EmbeddedPlace × EntityShape → Prop
  | (place, shape) =>
    d.field? place.field = d'.field? place.field ∨
      match place.many with
      | true =>
        ∃ items items', d.field? place.field = some (.array items) ∧
          d'.field? place.field = some (.array items') ∧
          List.Forall₂ (fun item item' => shape.Agree item item') items items'
      | false =>
        ∃ part part', d.field? place.field = some part ∧ d'.field? place.field = some part' ∧
          shape.Agree part part'

end

/-! ## Rows

A row is a scalar, an entity, or a record of such rows.  A field of a record may be absent if it is
optional, while a scalar says of itself whether it may be null. -/

/-- Whether a field of a record may be absent, which a scalar says itself. -/
def RowShape.mayBeAbsent (optional : Bool) : RowShape → Bool
  | .scalar slot => slot.nullable
  | _ => optional

mutual

/-- **Whether a row is as its shape says.** -/
def RowShape.Conforms : RowShape → Document → Prop
  | .entity shape, d => shape.Conforms d
  | .scalar slot, d => slot.codec.Accepts (!slot.nullable) (some d)
  | .record slots, d => d.IsObject ∧ slotsConform d slots

/-- Whether an object holds the fields of a record. -/
def slotsConform (d : Document) : List (RecordPlace × RowShape) → Prop
  | [] => True
  | s :: ss => slotConforms d s ∧ slotsConform d ss

/-- Whether an object holds a field of a record, or need not hold it. -/
def slotConforms (d : Document) : RecordPlace × RowShape → Prop
  | (place, shape) =>
    shape.mayBeAbsent place.optional = true ∧ isValued (d.field? place.name) = false ∨
      ∃ part, d.field? place.name = some part ∧ shape.Conforms part

end

mutual

/-- **What a row holds.** -/
def RowShape.content : RowShape → Document → Materialized
  | .entity shape, d => shape.content d
  | .scalar slot, d => slot.codec.content (some d)
  | .record slots, d => .record (slotsContent d slots)

/-- The fields of a record that an object holds. -/
def slotsContent (d : Document) : List (RecordPlace × RowShape) → List (String × Materialized)
  | [] => []
  | s :: ss => slotContent d s :: slotsContent d ss

/-- The field of a record that an object holds. -/
def slotContent (d : Document) : RecordPlace × RowShape → String × Materialized
  | (place, shape) =>
    match d.field? place.name with
    | some part => (place.name, if part.isNull then .null else shape.content part)
    | none => (place.name, .null)

end

mutual

/-- Whether two rows are the same but for what a shape does not mention. -/
def RowShape.Agree : RowShape → Document → Document → Prop
  | .entity shape, d, d' => shape.Agree d d'
  | .scalar _, d, d' => d = d'
  | .record slots, d, d' => d = d' ∨ d.IsObject ∧ d'.IsObject ∧ slotsAgree d d' slots

/-- Whether two objects hold the same fields of a record. -/
def slotsAgree (d d' : Document) : List (RecordPlace × RowShape) → Prop
  | [] => True
  | s :: ss => slotAgrees d d' s ∧ slotsAgree d d' ss

/-- Whether two objects hold the same field of a record. -/
def slotAgrees (d d' : Document) : RecordPlace × RowShape → Prop
  | (place, shape) =>
    d.field? place.name = d'.field? place.name ∨
      ∃ part part', d.field? place.name = some part ∧ d'.field? place.name = some part' ∧
        shape.Agree part part'

end

/-- Whether the shape of an entity mentions a field of its document. -/
def EntityShape.Mentions (shape : EntityShape) (name : String) : Prop :=
  (∃ p ∈ shape.properties, p.field = name) ∨ ∃ e ∈ shape.embedded, e.1.field = name

/-- Whether a shape mentions a field of the row.  A scalar is the row as a whole. -/
def RowShape.Mentions (name : String) : RowShape → Prop
  | .entity shape => shape.Mentions name
  | .scalar _ => True
  | .record slots => ∃ s ∈ slots, s.1.name = name

/-! ## What is accepted is decoded

Accepting says that there is something to decode, and the content what it is decoded to.  For
scalars the two are the whole of materialization. -/

section Scalars

variable {c : Codec} {required : Bool} {path : String} {o : Datum}

/-- What a codec accepts is decoded, to null only if it is not required. -/
lemma Codec.accepts_iff : c.Accepts required o ↔
    ∃ v, decodeAt c path o = .ok v ∧ (required = true → v.isNull = false) := by
  cases o with
  | none =>
      cases required with
      | true => simp [Accepts, decodeAt, Value.isNull]
      | false => simp [Accepts, decodeAt, isValued]
  | some d =>
      simp only [decodeAt, Computation.mapError_eq_ok]
      cases required with
      | false =>
          constructor
          · rintro (habsent | ⟨d', v, heq, hv⟩)
            · cases d with
              | null => exact ⟨.null, rfl, by simp⟩
              | _ => cases habsent
            · cases heq
              exact ⟨v, hv, by simp⟩
          · rintro ⟨v, hv, -⟩
            exact .inr ⟨d, v, rfl, hv⟩
      | true =>
          constructor
          · rintro ⟨d', v, heq, -, hv, hvalue⟩
            cases heq
            exact ⟨v, hv, fun _ => hvalue⟩
          · rintro ⟨v, hv, hvalue⟩
            refine ⟨d, v, rfl, ?_, hv, hvalue rfl⟩
            -- null is decoded to null
            cases d with
            | null =>
                cases hv
                exact hvalue rfl
            | _ => rfl

/-- What is decoded is the content. -/
lemma Codec.content_of_decodeAt {v : Value} (h : decodeAt c path o = .ok v) :
    c.content o = .ofValue v := by
  cases o with
  | none =>
      cases h
      rfl
  | some d => rw [content, Computation.mapError_eq_ok.1 h]

/-- A value that is decoded and may be what it is, null or not, is accepted and is the content. -/
lemma Codec.exists_decodeAt {r : Materialized} :
    (∃ v, decodeAt c path o = .ok v ∧ (required = true → v.isNull = false) ∧ r = .ofValue v) ↔
      c.Accepts required o ∧ r = c.content o := by
  constructor
  · rintro ⟨v, hv, hvalue, rfl⟩
    exact ⟨accepts_iff.2 ⟨v, hv, hvalue⟩, (content_of_decodeAt hv).symm⟩
  · rintro ⟨haccepts, rfl⟩
    obtain ⟨v, hv, hvalue⟩ := accepts_iff.1 haccepts
    exact ⟨v, hv, hvalue, content_of_decodeAt hv⟩

/-- A scalar is materialized if it is accepted. -/
theorem ScalarSlot.materialize_iff {s : ScalarSlot} {m : Materialized} :
    s.materialize path o = .ok m ↔ s.codec.Accepts (!s.nullable) o ∧ m = s.codec.content o := by
  rw [materialize, Computation.bind_eq_ok, ← Codec.exists_decodeAt]
  refine exists_congr fun v => and_congr_right fun _ => ?_
  cases hnull : v.isNull <;> cases s.nullable <;>
    simp [Materialized.ofValue, hnull, eq_comm (a := m)]

/-- A property is materialized if it is accepted. -/
theorem PropertySlot.materialize_iff {p : PropertySlot} {fields : Fields}
    {r : String × Materialized} : p.materialize path fields = .ok r ↔
      p.Conforms (.object fields) ∧ r = p.content (.object fields) := by
  obtain ⟨name, m⟩ := r
  have hread : (∃ v, decodeAt p.codec (joinPath path p.field) (Fields.get? p.field fields) = .ok v ∧
      (p.required = true → v.isNull = false) ∧ m = .ofValue v) ↔
        p.Conforms (.object fields) ∧ m = p.codec.content (Fields.get? p.field fields) :=
    Codec.exists_decodeAt
  rw [materialize, Computation.bind_eq_ok, content, Prod.mk.injEq, and_left_comm]
  refine Iff.trans (exists_congr fun v => ?_) (exists_and_left.trans (and_congr_right fun _ => hread))
  rw [and_left_comm]
  refine and_congr_right fun _ => ?_
  cases hnull : v.isNull <;> cases p.required <;>
    simp [Materialized.ofValue, hnull, eq_comm (a := m), eq_comm (a := name)]

end Scalars

/-! ## What conforms is materialized

Materialization stops at the first fault, and conformity speaks of all parts at once.  The induction
is on the shape, with one statement for entities and one for what they embed. -/

section

variable {path : String} {fields : Fields}

lemma valuedField_eq_none {name : String} :
    valuedField name fields = none ↔ isValued ((Document.object fields).field? name) = false := by
  rw [valuedField, Document.field?]
  cases Fields.get? name fields with
  | none => simp [isValued]
  | some d => cases d <;> simp [isValued, Document.isNull]

lemma valuedField_eq_some {name : String} {d : Document} : valuedField name fields = some d ↔
    (Document.object fields).field? name = some d ∧ d.isNull = false := by
  rw [valuedField, Document.field?, Option.filter_eq_some_iff, Bool.not_eq_true']

/-- What conforms is an object, and not null. -/
lemma EntityShape.Conforms.isNull {shape : EntityShape} {d : Document} (h : shape.Conforms d) :
    d.isNull = false := by
  obtain ⟨_, _, _⟩ := shape
  obtain ⟨⟨fields, rfl⟩, -⟩ := h
  rfl

mutual

/-- **A document is materialized as an entity if and only if it conforms**, and then as what it
holds. -/
theorem EntityShape.materialize_iff : (shape : EntityShape) → {path : String} → {d : Document} →
    {m : Materialized} →
    (shape.materialize path d = .ok m ↔ shape.Conforms d ∧ m = shape.content d)
  | ⟨name, properties, embedded⟩, path, d, m => by
      rw [EntityShape.materialize_eq_ok, EntityShape.Conforms, EntityShape.content]
      have hown : ∀ fields own, properties.mapM (PropertySlot.materialize path fields) = .ok own ↔
          (∀ p ∈ properties, p.Conforms (.object fields)) ∧
            own = properties.map fun p => p.content (.object fields) :=
        fun fields own => Computation.mapM_iff fun p r => PropertySlot.materialize_iff
      constructor
      · rintro ⟨fields, own, parts, rfl, hmade, hparts, rfl⟩
        obtain ⟨hproperties, rfl⟩ := (hown fields own).1 hmade
        obtain ⟨hembedded, rfl⟩ := (materializeEmbedded_iff embedded).1 hparts
        exact ⟨⟨⟨fields, rfl⟩, hproperties, hembedded⟩, rfl⟩
      · rintro ⟨⟨⟨fields, rfl⟩, hproperties, hembedded⟩, rfl⟩
        exact ⟨fields, _, _, rfl, (hown fields _).2 ⟨hproperties, rfl⟩,
          (materializeEmbedded_iff embedded).2 ⟨hembedded, rfl⟩, rfl⟩

/-- So is what an object embeds. -/
theorem materializeEmbedded_iff : (embedded : List (EmbeddedPlace × EntityShape)) →
    {path : String} → {fields : Fields} → {parts : List (String × Materialized)} →
    (materializeEmbedded path fields embedded = .ok parts ↔
      embeddedConform (.object fields) embedded ∧ parts = embeddedContent (.object fields) embedded)
  | [], path, fields, parts => by
      simp [materializeEmbedded, embeddedConform, embeddedContent, eq_comm]
  | e :: es, path, fields, parts => by
      rw [materializeEmbedded, embeddedConform, embeddedContent, Computation.bind_eq_ok]
      constructor
      · rintro ⟨part, hmade, h⟩
        obtain ⟨rest, hmore, h⟩ := Computation.bind_eq_ok.1 h
        cases h
        obtain ⟨hpart, rfl⟩ := (materializePart_iff e).1 hmade
        obtain ⟨hrest, rfl⟩ := (materializeEmbedded_iff es).1 hmore
        exact ⟨⟨hpart, hrest⟩, rfl⟩
      · rintro ⟨⟨hpart, hrest⟩, rfl⟩
        exact ⟨_, (materializePart_iff e).2 ⟨hpart, rfl⟩, Computation.bind_eq_ok.2
          ⟨_, (materializeEmbedded_iff es).2 ⟨hrest, rfl⟩, rfl⟩⟩

/-- So is an embedded entity, or the array of them. -/
theorem materializePart_iff : (e : EmbeddedPlace × EntityShape) → {path : String} →
    {fields : Fields} → {part : String × Materialized} →
    (materializePart path fields e = .ok part ↔
      partConforms (.object fields) e ∧ part = partContent (.object fields) e)
  | (place, shape), path, fields, part => by
      rw [partConforms, partContent]
      cases hmany : place.many with
      | true =>
          rw [materializePart_many hmany, valuedField_eq_none]
          have hitems : ∀ (items : List Document) entities,
              (items.zipIdx.mapM fun (item, i) => shape.materialize
                (joinPath path place.field ++ "[" ++ toString i ++ "]") item) = .ok entities ↔
                (∀ item ∈ items, shape.Conforms item) ∧
                  entities = items.map fun item => shape.content item :=
            fun items entities =>
              Computation.mapM_zipIdx_iff fun a m => EntityShape.materialize_iff shape
          simp only [hitems, valuedField_eq_some]
          cases (Document.object fields).field? place.field with
          | none => simp [isValued]
          | some d => cases d <;> simp [isValued, Document.isNull]
      | false =>
          rw [materializePart_single hmany, valuedField_eq_none]
          have hpart : ∀ d m, shape.materialize (joinPath path place.field) d = .ok m ↔
              shape.Conforms d ∧ m = shape.content d := fun d m => EntityShape.materialize_iff shape
          simp only [hpart, valuedField_eq_some]
          cases (Document.object fields).field? place.field with
          | none => simp [isValued]
          | some d =>
              have hobject : shape.Conforms d → d.isNull = false := fun h => h.isNull
              cases hnull : d.isNull <;> simp_all [isValued, and_assoc]

end

/-- A row that conforms is null only if it may be absent. -/
lemma RowShape.Conforms.mayBeAbsent {shape : RowShape} {d : Document} (h : shape.Conforms d)
    (hnull : d.isNull = true) (optional : Bool) : shape.mayBeAbsent optional = true := by
  cases shape with
  | entity shape =>
      have hobject : d.isNull = false := EntityShape.Conforms.isNull h
      rw [hnull] at hobject
      cases hobject
  | scalar slot =>
      rw [RowShape.mayBeAbsent]
      cases hnullable : slot.nullable with
      | true => rfl
      | false =>
          rw [RowShape.Conforms, hnullable] at h
          obtain ⟨d', v, heq, hd', -⟩ := h
          cases heq
          rw [hnull] at hd'
          cases hd'
  | record slots =>
      obtain ⟨⟨fields, rfl⟩, -⟩ := h
      cases hnull

/-- What is made of a field of a record that is there. -/
def RowShape.materializeAt (name : String) : RowShape → Document → Materializing Materialized
  | .entity shape, d => shape.materialize name d
  | .scalar slot, d => slot.materialize name (some d)
  | .record slots, d => (RowShape.record slots).materialize d

/-- A field of a record is made of what is there, and null if it is absent and may be so. -/
lemma materializeSlot_eq (place : RecordPlace) (shape : RowShape) :
    ∃ error : MaterializationError, ∀ fields : Fields, materializeSlot fields (place, shape) =
      match valuedField place.name fields with
      | some d => shape.materializeAt place.name d >>= fun m => .ok (place.name, m)
      | none =>
        if shape.mayBeAbsent place.optional then .ok (place.name, .null) else .error error := by
  cases shape with
  | entity shape => exact ⟨_, fun fields => rfl⟩
  | record slots => exact ⟨_, fun fields => rfl⟩
  | scalar slot =>
      refine ⟨.missing (displayPath place.name), fun fields => ?_⟩
      change (slot.materialize place.name (valuedField place.name fields) >>= _) = _
      cases valuedField place.name fields with
      | some d => rfl
      | none =>
          rw [ScalarSlot.materialize, RowShape.mayBeAbsent]
          cases slot.nullable <;> rfl

/-- A field of a record is materialized if what is there is, or if it is absent and may be so. -/
lemma materializeSlot_iff_of {place : RecordPlace} {shape : RowShape} {made : String × Materialized}
    (h : ∀ d m, shape.materializeAt place.name d = .ok m ↔ shape.Conforms d ∧ m = shape.content d) :
    materializeSlot fields (place, shape) = .ok made ↔
      slotConforms (.object fields) (place, shape) ∧
        made = slotContent (.object fields) (place, shape) := by
  obtain ⟨error, hmade⟩ := materializeSlot_eq place shape
  rw [hmade, valuedField, slotConforms, slotContent, Document.field?]
  cases Fields.get? place.name fields with
  | none => cases shape.mayBeAbsent place.optional <;> simp [isValued, eq_comm (a := made)]
  | some d =>
      rw [Option.filter_some]
      cases hnull : d.isNull with
      | false =>
          have hpart : (shape.materializeAt place.name d >>= fun m => .ok (place.name, m)) =
              .ok made ↔ shape.Conforms d ∧ made = (place.name, shape.content d) := by
            simp only [Computation.bind_eq_ok, h, Except.ok.injEq, eq_comm (b := made)]
            constructor
            · rintro ⟨_, ⟨hd, rfl⟩, hmade⟩
              exact ⟨hd, hmade⟩
            · rintro ⟨hd, hmade⟩
              exact ⟨_, ⟨hd, rfl⟩, hmade⟩
          simpa [isValued, hnull] using hpart
      | true =>
          cases hoptional : shape.mayBeAbsent place.optional with
          | true => simp [isValued, hnull, eq_comm (a := made)]
          | false =>
              have habsent : ¬ shape.Conforms d := fun h => by
                rw [h.mayBeAbsent hnull] at hoptional
                cases hoptional
              simp [isValued, hnull, habsent]

mutual

/-- **A row is materialized if and only if it conforms**, and then as what it holds. -/
theorem RowShape.materialize_iff : (shape : RowShape) → {d : Document} → {m : Materialized} →
    (shape.materialize d = .ok m ↔ shape.Conforms d ∧ m = shape.content d)
  | .entity shape, d, m => by
      rw [RowShape.materialize, RowShape.Conforms, RowShape.content]
      cases hnull : d.isNull with
      | false => exact EntityShape.materialize_iff shape
      | true =>
          have hobject : shape.Conforms d → d.isNull = false := fun h => h.isNull
          simp_all
  | .scalar slot, d, m => ScalarSlot.materialize_iff
  | .record slots, d, m => by
      rw [RowShape.Conforms, RowShape.content]
      cases d with
      | object fields =>
          rw [RowShape.materialize, Computation.map_eq_ok]
          constructor
          · rintro ⟨made, hmade, rfl⟩
            obtain ⟨hslots, rfl⟩ := (materializeSlots_iff slots).1 hmade
            exact ⟨⟨⟨fields, rfl⟩, hslots⟩, rfl⟩
          · rintro ⟨⟨-, hslots⟩, rfl⟩
            exact ⟨_, (materializeSlots_iff slots).2 ⟨hslots, rfl⟩, rfl⟩
      | _ => simp [RowShape.materialize, Document.IsObject]

/-- So are the fields of a record. -/
theorem materializeSlots_iff : (slots : List (RecordPlace × RowShape)) → {fields : Fields} →
    {made : List (String × Materialized)} →
    (materializeSlots fields slots = .ok made ↔
      slotsConform (.object fields) slots ∧ made = slotsContent (.object fields) slots)
  | [], fields, made => by simp [materializeSlots, slotsConform, slotsContent, eq_comm]
  | s :: ss, fields, made => by
      rw [materializeSlots, slotsConform, slotsContent, Computation.bind_eq_ok]
      constructor
      · rintro ⟨first, hfirst, h⟩
        obtain ⟨rest, hrest, h⟩ := Computation.bind_eq_ok.1 h
        cases h
        obtain ⟨hslot, rfl⟩ := (materializeSlot_iff s).1 hfirst
        obtain ⟨hslots, rfl⟩ := (materializeSlots_iff ss).1 hrest
        exact ⟨⟨hslot, hslots⟩, rfl⟩
      · rintro ⟨⟨hslot, hslots⟩, rfl⟩
        exact ⟨_, (materializeSlot_iff s).2 ⟨hslot, rfl⟩, Computation.bind_eq_ok.2
          ⟨_, (materializeSlots_iff ss).2 ⟨hslots, rfl⟩, rfl⟩⟩

/-- So is a field of a record. -/
theorem materializeSlot_iff : (s : RecordPlace × RowShape) → {fields : Fields} →
    {made : String × Materialized} →
    (materializeSlot fields s = .ok made ↔
      slotConforms (.object fields) s ∧ made = slotContent (.object fields) s)
  | (place, shape), fields, made => by
      have hshape : ∀ d m, shape.materialize d = .ok m ↔ shape.Conforms d ∧ m = shape.content d :=
        fun d m => RowShape.materialize_iff shape
      refine materializeSlot_iff_of fun d m => ?_
      cases shape with
      | entity shape => exact EntityShape.materialize_iff shape
      | scalar slot => exact ScalarSlot.materialize_iff
      | record slots => exact hshape d m

end

/-! ## Parts of what conforms -/

lemma embeddedConform_iff {d : Document} {embedded : List (EmbeddedPlace × EntityShape)} :
    embeddedConform d embedded ↔ ∀ e ∈ embedded, partConforms d e := by
  induction embedded with
  | nil => simp [embeddedConform]
  | cons e es ih => rw [embeddedConform, ih, List.forall_mem_cons]

lemma embeddedContent_eq_map (d : Document) (embedded : List (EmbeddedPlace × EntityShape)) :
    embeddedContent d embedded = embedded.map (partContent d) := by
  induction embedded with
  | nil => rfl
  | cons e es ih => rw [embeddedContent, ih, List.map_cons]

/-- What is embedded has the name of its place. -/
lemma fst_partContent (d : Document) (e : EmbeddedPlace × EntityShape) :
    (partContent d e).1 = e.1.name := by
  rw [partContent]
  split <;> rfl

lemma eq_null_of_not_isValued {o : Datum} (h : isValued o = false) {d : Document}
    (hd : o = some d) : d = .null := by
  subst hd
  cases d with
  | null => rfl
  | _ => cases h

/-- What is missing or null is null. -/
lemma Codec.content_of_not_isValued {c : Codec} {o : Datum} (h : isValued o = false) :
    c.content o = .null := by
  cases o with
  | none => rfl
  | some d =>
      rw [eq_null_of_not_isValued h rfl]
      rfl

/-- What is accepted as required is accepted. -/
lemma Codec.Accepts.of_required {c : Codec} {o : Datum} (h : c.Accepts true o) (required : Bool) :
    c.Accepts required o := by
  cases required with
  | true => exact h
  | false =>
      obtain ⟨d, v, rfl, -, hv, -⟩ := h
      exact .inr ⟨d, v, rfl, hv⟩

/-! ## What is not mentioned does not matter

Two documents agree if they hold the same in all places that the shape mentions.  They may differ in
the order of their fields, too, since fields are looked up by name. -/

/-- Lists that are related member by member are so with the places of the members. -/
lemma forall₂_zipIdx {α : Type} {r : α → α → Prop} {as bs : List α} (h : List.Forall₂ r as bs)
    (n : ℕ) : List.Forall₂ (fun a b => r a.1 b.1 ∧ a.2 = b.2) (as.zipIdx n) (bs.zipIdx n) := by
  induction h generalizing n with
  | nil => exact .nil
  | cons hab _ ih => exact .cons ⟨hab, rfl⟩ (ih (n + 1))

/-- Documents that agree are null both or not at all. -/
lemma EntityShape.Agree.isNull {shape : EntityShape} {d d' : Document} (h : shape.Agree d d') :
    d.isNull = d'.isNull := by
  obtain ⟨_, _, _⟩ := shape
  rcases h with rfl | ⟨⟨fields, rfl⟩, ⟨fields', rfl⟩, -⟩ <;> rfl

lemma valuedField_congr {name : String} {fields fields' : Fields}
    (h : (Document.object fields).field? name = (Document.object fields').field? name) :
    valuedField name fields = valuedField name fields' :=
  congrArg (Option.filter fun d : Document => !d.isNull) h

lemma valuedField_of_field? {name : String} {d : Document}
    (h : (Document.object fields).field? name = some d) :
    valuedField name fields = if d.isNull then none else some d := by
  have hget : Fields.get? name fields = some d := h
  rw [valuedField, hget, Option.filter_some]
  cases d.isNull <;> rfl

mutual

/-- **Documents that agree are materialized alike.** -/
theorem EntityShape.materialize_congr : (shape : EntityShape) → {path : String} →
    {d d' : Document} → shape.Agree d d' → shape.materialize path d = shape.materialize path d'
  | ⟨name, properties, embedded⟩, path, d, d', h => by
      rw [EntityShape.Agree] at h
      rcases h with rfl | ⟨⟨fields, rfl⟩, ⟨fields', rfl⟩, hproperties, hembedded⟩
      · rfl
      · have hown : properties.mapM (PropertySlot.materialize path fields) =
            properties.mapM (PropertySlot.materialize path fields') := by
          refine Computation.mapM_congr (List.forall₂_same.2 fun p hp => ?_)
          have hfield : Fields.get? p.field fields = Fields.get? p.field fields' := hproperties p hp
          rw [PropertySlot.materialize, PropertySlot.materialize, hfield]
        rw [EntityShape.materialize, EntityShape.materialize]
        simp only [hown, materializeEmbedded_congr embedded hembedded]

/-- So is what they embed. -/
theorem materializeEmbedded_congr : (embedded : List (EmbeddedPlace × EntityShape)) →
    {path : String} → {fields fields' : Fields} →
    embeddedAgree (.object fields) (.object fields') embedded →
    materializeEmbedded path fields embedded = materializeEmbedded path fields' embedded
  | [], path, fields, fields', _ => rfl
  | e :: es, path, fields, fields', h => by
      rw [materializeEmbedded, materializeEmbedded, materializePart_congr e h.1,
        materializeEmbedded_congr es h.2]

/-- So is an embedded entity, or the array of them. -/
theorem materializePart_congr : (e : EmbeddedPlace × EntityShape) → {path : String} →
    {fields fields' : Fields} → partAgrees (.object fields) (.object fields') e →
    materializePart path fields e = materializePart path fields' e
  | (place, shape), path, fields, fields', h => by
      rw [partAgrees] at h
      rw [materializePart, materializePart]
      rcases h with h | h
      · rw [valuedField_congr h]
      · cases hmany : place.many with
        | true =>
            rw [hmany] at h
            obtain ⟨items, items', hitems, hitems', hagree⟩ := h
            rw [valuedField_of_get? hitems rfl, valuedField_of_get? hitems' rfl]
            have hmade : (items.zipIdx.mapM fun (item, i) => shape.materialize
                (joinPath path place.field ++ "[" ++ toString i ++ "]") item) =
                  items'.zipIdx.mapM fun (item, i) => shape.materialize
                    (joinPath path place.field ++ "[" ++ toString i ++ "]") item := by
              refine Computation.mapM_congr ((forall₂_zipIdx hagree 0).imp ?_)
              rintro ⟨item, i⟩ ⟨item', i'⟩ ⟨hitem, rfl⟩
              exact EntityShape.materialize_congr shape hitem
            simp only [if_true, hmade]
        | false =>
            rw [hmany] at h
            obtain ⟨part, part', hpart, hpart', hagree⟩ := h
            rw [valuedField_of_field? hpart, valuedField_of_field? hpart', hagree.isNull]
            cases part'.isNull with
            | true => rfl
            | false => simp [EntityShape.materialize_congr shape hagree]

end

/-- Rows that agree are null both or not at all. -/
lemma RowShape.Agree.isNull {shape : RowShape} {d d' : Document} (h : shape.Agree d d') :
    d.isNull = d'.isNull := by
  cases shape with
  | entity shape => exact EntityShape.Agree.isNull h
  | scalar slot => exact congrArg Document.isNull h
  | record slots => rcases h with rfl | ⟨⟨fields, rfl⟩, ⟨fields', rfl⟩, -⟩ <;> rfl

mutual

/-- **Rows that agree are materialized alike.** -/
theorem RowShape.materialize_congr : (shape : RowShape) → {d d' : Document} → shape.Agree d d' →
    shape.materialize d = shape.materialize d'
  | .entity shape, d, d', h => by
      rw [RowShape.Agree] at h
      rw [RowShape.materialize, RowShape.materialize, h.isNull, shape.materialize_congr h]
  | .scalar slot, d, d', h => congrArg (RowShape.scalar slot).materialize h
  | .record slots, d, d', h => by
      rw [RowShape.Agree] at h
      rcases h with rfl | ⟨⟨fields, rfl⟩, ⟨fields', rfl⟩, hslots⟩
      · rfl
      · rw [RowShape.materialize, RowShape.materialize, materializeSlots_congr slots hslots]

/-- So are the fields of a record. -/
theorem materializeSlots_congr : (slots : List (RecordPlace × RowShape)) →
    {fields fields' : Fields} → slotsAgree (.object fields) (.object fields') slots →
    materializeSlots fields slots = materializeSlots fields' slots
  | [], fields, fields', _ => rfl
  | s :: ss, fields, fields', h => by
      rw [materializeSlots, materializeSlots, materializeSlot_congr s h.1,
        materializeSlots_congr ss h.2]

/-- So is a field of a record. -/
theorem materializeSlot_congr : (s : RecordPlace × RowShape) → {fields fields' : Fields} →
    slotAgrees (.object fields) (.object fields') s →
    materializeSlot fields s = materializeSlot fields' s
  | (place, shape), fields, fields', h => by
      obtain ⟨error, hmade⟩ := materializeSlot_eq place shape
      have hshape : ∀ part part', shape.Agree part part' →
          shape.materialize part = shape.materialize part' := fun part part' hagree =>
        RowShape.materialize_congr shape hagree
      rw [slotAgrees] at h
      rw [hmade, hmade]
      rcases h with h | ⟨part, part', hpart, hpart', hagree⟩
      · rw [valuedField_congr h]
      · have hat : shape.materializeAt place.name part = shape.materializeAt place.name part' := by
          cases shape with
          | entity shape => exact shape.materialize_congr hagree
          | scalar slot => exact congrArg (fun d => slot.materialize place.name (some d)) hagree
          | record slots => exact hshape part part' hagree
        rw [valuedField_of_field? hpart, valuedField_of_field? hpart', hagree.isNull]
        cases part'.isNull with
        | true => rfl
        | false => simp [hat]

end

/-! ## Fields that are not mentioned -/

lemma embeddedAgree_of_fields {d d' : Document} {embedded : List (EmbeddedPlace × EntityShape)}
    (h : ∀ e ∈ embedded, d.field? e.1.field = d'.field? e.1.field) :
    embeddedAgree d d' embedded := by
  induction embedded with
  | nil => trivial
  | cons e es ih =>
      refine ⟨?_, ih fun e' he' => h e' (.tail _ he')⟩
      rw [partAgrees]
      exact .inl (h e (.head _))

lemma slotsAgree_of_fields {d d' : Document} {slots : List (RecordPlace × RowShape)}
    (h : ∀ s ∈ slots, d.field? s.1.name = d'.field? s.1.name) : slotsAgree d d' slots := by
  induction slots with
  | nil => trivial
  | cons s ss ih =>
      refine ⟨?_, ih fun s' hs' => h s' (.tail _ hs')⟩
      rw [slotAgrees]
      exact .inl (h s (.head _))

/-- A row agrees with the row that has one more field, or another value in it, if the field is not
mentioned. -/
theorem RowShape.agree_put {shape : RowShape} {name : String} (h : ¬ shape.Mentions name)
    (fields : Fields) (value : Document) :
    shape.Agree (.object fields) (.object (fields.put name value)) := by
  have hfield : ∀ other, name ≠ other → (Document.object fields).field? other =
      (Document.object (fields.put name value)).field? other := fun other hne => by
    rw [Document.field?, Document.field?, Fields.get?_put, if_neg hne]
  cases shape with
  | entity shape =>
      obtain ⟨_, properties, embedded⟩ := shape
      rw [Mentions, EntityShape.Mentions] at h
      push Not at h
      exact .inr ⟨⟨_, rfl⟩, ⟨_, rfl⟩, fun p hp => hfield _ (h.1 p hp).symm,
        embeddedAgree_of_fields fun e he => hfield _ (h.2 e he).symm⟩
  | scalar slot => exact absurd trivial h
  | record slots =>
      rw [Mentions] at h
      push Not at h
      exact .inr ⟨⟨_, rfl⟩, ⟨_, rfl⟩, slotsAgree_of_fields fun s hs => hfield _ (h s hs).symm⟩

end

/-! ## The theorem -/

/-- **Materialization is exact.**  A row is materialized if and only if it conforms to its shape,
and then as its content: the fields of the shape in order, each with its decoded value or null.
What the shape does not mention never matters, be it in the row or inside of it. -/
theorem materialize_exact (shape : RowShape) :
    (∀ row m, shape.materialize row = .ok m ↔ shape.Conforms row ∧ m = shape.content row) ∧
      (∀ row row', shape.Agree row row' → shape.materialize row = shape.materialize row') ∧
      ∀ fields name value, ¬ shape.Mentions name →
        shape.materialize (.object (Fields.put name value fields)) =
          shape.materialize (.object fields) :=
  ⟨fun _ _ => RowShape.materialize_iff shape, fun _ _ h => RowShape.materialize_congr shape h,
    fun fields _ value h => (RowShape.materialize_congr shape (shape.agree_put h fields value)).symm⟩

namespace Sample

/-- An address, which has a town. -/
def addressShape : EntityShape := ⟨"Address", [⟨"city", "town", .string, true⟩], []⟩

/-- A person with a nickname and a home, if there are any, and the addresses of the past. -/
def tenantShape : EntityShape :=
  ⟨"Person", [⟨"id", "id", .string, true⟩, ⟨"nickname", "nick", .string, false⟩],
    [(⟨"home", "home_address", false, true⟩, addressShape),
      (⟨"past", "past_addresses", true, false⟩, addressShape)]⟩

/-- A person with the address of an order, if there is one, and with what the order says. -/
def tenancyShape : RowShape :=
  .record [(⟨"person", false⟩, .entity tenantShape), (⟨"delivery", true⟩, .entity addressShape),
    (⟨"remark", false⟩, .scalar ⟨.string, true, none⟩)]

/-- An address in a town. -/
def addressIn (town : String) : Document := .object [("town", .string town)]

/-- A person without a home, of whom the row says how old they are. -/
def tenancy : Document :=
  .object [("delivery", .null), ("person", .object [("age", .number (.int 40)),
    ("id", .string "1"), ("past_addresses", .array [addressIn "Oslo", addressIn "Rome"])])]

end Sample

open Sample in
/-- The row is materialized in the order of its shape, and so is the row with a field more. -/
theorem materialize_exact_tenancy :
    tenancyShape.materialize tenancy = .ok (.record
      [("person", .entity "Person"
          [("id", .scalar (.string "1")), ("nickname", .null), ("home", .null),
            ("past", .list [.entity "Address" [("city", .scalar (.string "Oslo"))],
              .entity "Address" [("city", .scalar (.string "Rome"))]])]),
        ("delivery", .null), ("remark", .null)]) ∧
      ∀ fields, tenancy = .object fields →
        tenancyShape.materialize (.object (Fields.put "age" .null fields)) =
          tenancyShape.materialize tenancy := by
  have hconforms : tenancyShape.Conforms tenancy := by
    simp [tenancyShape, tenantShape, addressShape, tenancy, addressIn, RowShape.Conforms,
      slotsConform, slotConforms, RowShape.mayBeAbsent, EntityShape.Conforms, embeddedConform,
      partConforms, PropertySlot.Conforms, Codec.Accepts, Codec.string, Codec.decode,
      Codec.expectString, Except.map, Document.IsObject, Document.field?, Fields.get?, isValued,
      Document.isNull, Value.isNull]
  have hmentions : ¬ tenancyShape.Mentions "age" := by
    simp [tenancyShape, RowShape.Mentions]
  constructor
  · exact ((materialize_exact tenancyShape).1 tenancy _).2 ⟨hconforms, rfl⟩
  · intro fields hfields
    rw [hfields]
    exact (materialize_exact tenancyShape).2.2 fields "age" .null hmentions

open Sample in
/-- Where a field of a record may be missing there need not be an object: the row that holds null
for the entity is materialized. -/
theorem materialize_without_object : ¬ ∀ slots row m,
    (RowShape.record slots).materialize row = .ok m → ∀ place entity,
      (place, RowShape.entity entity) ∈ slots →
        ∃ part, row.field? place.name = some part ∧ part.IsObject := by
  intro h
  obtain ⟨part, hpart, fields, rfl⟩ := h [(⟨"delivery", true⟩, .entity addressShape)]
    (.object [("delivery", .null)]) (.record [("delivery", .null)]) rfl _ _ (.head _)
  cases hpart

end EntityQuery
