import EntityQuery.Proofs.Model.Members
import EntityQuery.Proofs.Result.Content
import EntityQuery.Proofs.Translation.Expansion
import EntityQuery.Proofs.Translation.Paths

/-!
# Paths of properties in results

A path of members is resolved to fields of a document when a query is built, and the document is
materialized under the names of the members.  Both ways lead to the same value: the entities that
the path passes are those whose shapes are inside one another, and the members of an entity of a
valid model have different names.

* `Materialized.follow`: what the names of members lead to in a result.
* `followPath_content`: the induction over the names of a path.
* `property_paths_read`: a path of fields reads what the names of the members lead to.
-/

namespace EntityQuery

/-- What the names of members lead to, one inside of the other.  Nothing but null is inside of null.
-/
def Materialized.follow : List String → Materialized → Option Materialized
  | [], m => some m
  | name :: names, m => if m.isNull then some .null else (m.get? name).bind (follow names)

lemma Materialized.follow_null (names : List String) : Materialized.null.follow names = some .null := by
  cases names <;> rfl

/-! ## Expansions by name

A shape lists the slots of an entity, and an expansion says from which member each of them comes.
Names lead from the one to the other. -/

section

variable {registry : Registry} {ps : List Property} {slots : List PropertySlot}

/-- The slots of properties have their names. -/
lemma names_of_slots (h : List.Forall₂ (Property.HasSlot registry) ps slots) :
    slots.map PropertySlot.name = ps.map Property.name := by
  induction h with
  | nil => rfl
  | cons hslot _ ih =>
      obtain ⟨codec, -, rfl⟩ := hslot
      rw [List.map_cons, List.map_cons, ih]

lemma exists_slot (h : List.Forall₂ (Property.HasSlot registry) ps slots) {p : Property}
    (hp : p ∈ ps) : ∃ slot ∈ slots, p.HasSlot registry slot := by
  induction h with
  | nil => cases hp
  | cons hslot _ ih =>
      rcases List.mem_cons.1 hp with rfl | hp
      · exact ⟨_, .head _, hslot⟩
      · obtain ⟨slot, hmem, hhas⟩ := ih hp
        exact ⟨slot, .tail _ hmem, hhas⟩

end

/-! ## Members of results

The members of a materialized entity are found under their names, the first one of each.  In a valid
model the first one is the only one. -/

/-- What is among the members of an entity is found under its name, if names differ. -/
lemma Materialized.get?_entity {entity name : String} {fields : List (String × Materialized)}
    {m : Materialized} (hnames : (fields.map Prod.fst).Nodup) (h : (name, m) ∈ fields) :
    (Materialized.entity entity fields).get? name = some m := by
  have hfind : fields.find? (fun f => f.1 == name) = some (name, m) := find?_of_nodup hnames h
  rw [get?, hfind, Option.map_some]

section

variable {m : Model} {registry : Registry} {e : Entity} {shape : EntityShape}

/-- **A shape has the members of an entity**: what conforms to it holds each of its properties and
each of its embedded navigations, which are found in its content. -/
structure EntityShape.Holds (m : Model) (registry : Registry) (e : Entity) (shape : EntityShape) :
    Prop where
  property : ∀ p ∈ e.properties, ∃ codec, registry.find p.scalarType = .ok codec ∧
    ∀ d, shape.Conforms d → codec.Accepts (!p.nullable) (d.field? p.fieldName) ∧
      (shape.content d).get? p.name = some (codec.content (d.field? p.fieldName))
  part : ∀ n ∈ e.navigations, ∀ many, n.kind = .embedded many →
    ∃ inner, inner.Expands m registry n.target ∧
      ∀ d, shape.Conforms d → partConforms d (n.place many, inner) ∧
        (shape.content d).get? n.name = some (partContent d (n.place many, inner)).2

/-- The expansion of an entity has its members, as these differ. -/
theorem EntityShape.Expands.holds (hnames : m.names.Nodup) (he : e ∈ m.entities)
    (hmembers : e.MembersDiffer) (h : shape.Expands m registry e.name) :
    shape.Holds m registry e := by
  generalize hname : e.name = name at h
  cases h with
  | @entity e' properties embedded he' hproperties hembedded =>
      obtain rfl := List.inj_on_of_nodup_map hnames he' he hname.symm
      have hdiffer : ∀ d, ((properties.map (fun p => p.content d) ++
          embedded.map (partContent d)).map Prod.fst).Nodup := fun d => by
        have hown : (properties.map fun p => p.content d).map Prod.fst =
            e'.properties.map Property.name := by
          rw [List.map_map, ← names_of_slots hproperties]
          rfl
        have hparts : (embedded.map (partContent d)).map Prod.fst =
            embedded.map fun e => e.1.name := by
          rw [List.map_map]
          exact List.map_congr_left fun e _ => fst_partContent d e
        rw [List.map_append, hown, hparts]
        exact hmembers.names.sublist (hembedded.names.append_left _)
      refine ⟨fun p hp => ?_, fun n hn many hkind => ?_⟩
      · obtain ⟨slot, hslot, codec, hcodec, rfl⟩ := exists_slot hproperties hp
        refine ⟨codec, hcodec, fun d hd => ⟨hd.2.1 _ hslot, ?_⟩⟩
        rw [EntityShape.content, embeddedContent_eq_map]
        exact Materialized.get?_entity (hdiffer d)
          (List.mem_append_left _ (List.mem_map_of_mem hslot))
      · obtain ⟨inner, hinner, hexpands⟩ := hembedded.exists_part hkind hn
        refine ⟨inner, hexpands, fun d hd => ⟨embeddedConform_iff.1 hd.2.2 _ hinner, ?_⟩⟩
        rw [EntityShape.content, embeddedContent_eq_map]
        have hpart : (n.name, (partContent d (n.place many, inner)).2) =
            partContent d (n.place many, inner) :=
          Prod.ext (fst_partContent d (n.place many, inner)).symm rfl
        refine Materialized.get?_entity (hdiffer d) (List.mem_append_right _ ?_)
        rw [hpart]
        exact List.mem_map_of_mem hinner

/-- What is in the place of a single entity: nothing, or what conforms to its shape. -/
lemma partContent_single {n : Navigation} {inner : EntityShape} {d : Document}
    (h : partConforms d (n.place false, inner)) :
    n.optional = true ∧ isValued (d.field? n.fieldName) = false ∧
        (partContent d (n.place false, inner)).2 = .null ∨
      ∃ part, d.field? n.fieldName = some part ∧ inner.Conforms part ∧
        (partContent d (n.place false, inner)).2 = inner.content part := by
  simp only [partConforms, partContent, Navigation.place] at h ⊢
  rcases h with ⟨hoptional, habsent⟩ | ⟨part, hpart, hconforms⟩
  · refine .inl ⟨hoptional, habsent, ?_⟩
    cases hfield : d.field? n.fieldName with
    | none => rfl
    | some part =>
        rw [eq_null_of_not_isValued habsent hfield]
        rfl
  · refine .inr ⟨part, hpart, hconforms, ?_⟩
    simp only [hpart, hconforms.isNull, Bool.false_eq_true, if_false]

end

/-! ## Following a path -/

section

variable {m : Model} {registry : Registry} {defaults : DefaultKeyspace} {vm : ValidModel}

/-- **The fields of a path lead to what the names of its members lead to.**  The induction is on the
names, which pass through the entities whose shapes are inside one another. -/
theorem followPath_content (h : m.validate registry defaults = .ok vm) {s : EntitySet}
    {member : String} {names path : List String} {nullable : Bool} {p : PropertyPath} {e : Entity}
    (he : e ∈ m.entities) {shape : EntityShape} (hshape : shape.Expands m registry e.name)
    (hp : vm.followPath s member e path nullable names = .ok p) :
    ∃ fields codec, p.path = path ++ fields ∧ registry.find p.scalarType = .ok codec ∧
      (p.nullable = false → nullable = false) ∧ ∀ d, shape.Conforms d →
        codec.Accepts (!p.nullable) (followFields fields (some d)) ∧
        (shape.content d).follow names = some (codec.content (followFields fields (some d))) := by
  have hcomplete := Model.isComplete_of_validate h
  induction names generalizing e path nullable shape with
  | nil => cases hp
  | cons name names ih =>
      have hholds := hshape.holds hcomplete.nodup he (Model.membersDiffer_of_validate h he)
      have hinside : ∀ d, (shape.content d).follow (name :: names) =
          ((shape.content d).get? name).bind (Materialized.follow names) := fun d => by
        obtain ⟨_, _, _⟩ := shape
        rw [EntityShape.content]
        rfl
      obtain ⟨q, hproperty, rfl, rfl⟩ | ⟨n, target, hnavigation, hkind, htarget, hp⟩ :=
        ValidModel.followPath_cons_eq_ok hp
      · have hname : q.name = name := by simpa using List.find?_some hproperty
        obtain ⟨codec, hcodec, hread⟩ := hholds.property q (List.mem_of_find?_eq_some hproperty)
        refine ⟨[q.fieldName], codec, rfl, hcodec, fun h => (Bool.or_eq_false_iff.1 h).1,
          fun d hd => ?_⟩
        obtain ⟨haccepts, hget⟩ := hread d hd
        rw [hname] at hget
        rw [hinside, hget, followFields_cons]
        refine ⟨?_, rfl⟩
        -- the property may be asked for less than it has to be
        cases hrequired : q.nullable with
        | true =>
            rw [hrequired] at haccepts
            rw [Bool.or_true]
            exact haccepts
        | false =>
            rw [hrequired] at haccepts
            exact haccepts.of_required _
      · have hname : n.name = name := by simpa using List.find?_some hnavigation
        rw [Model.entity?_of_validate h] at htarget
        obtain ⟨hmem, hinner⟩ := Model.mem_of_entity? htarget
        obtain ⟨inner, hexpands, hread⟩ :=
          hholds.part n (List.mem_of_find?_eq_some hnavigation) false hkind
        obtain ⟨fields, codec, hpath, hcodec, hnullable, hrest⟩ := ih hmem (hinner ▸ hexpands) hp
        refine ⟨n.fieldName :: fields, codec, by simp [hpath], hcodec,
          fun h => (Bool.or_eq_false_iff.1 (hnullable h)).1, fun d hd => ?_⟩
        obtain ⟨hpart, hget⟩ := hread d hd
        rw [hname] at hget
        rw [hinside, hget, followFields_cons, Option.bind_some]
        obtain ⟨hoptional, habsent, hnull⟩ | ⟨part, hfield, hconforms, hcontent⟩ :=
          partContent_single hpart
        · -- past an object that is absent there is null, and nothing
          have hmissing : isValued (followFields fields (d.field? n.fieldName)) = false :=
            isValued_followFields fields fun _ => eq_null_of_not_isValued habsent
          rw [hnull, Materialized.follow_null, Codec.content_of_not_isValued hmissing]
          have hmay : p.nullable = true := by
            rw [hoptional, Bool.or_true] at hnullable
            cases hp : p.nullable with
            | true => rfl
            | false => cases hnullable hp
          rw [hmay]
          exact ⟨.inl hmissing, rfl⟩
        · rw [hfield, hcontent]
          exact hrest part hconforms

end

/-- **Property paths read what is materialized.**  If a path of members is resolved for an entity of
a valid model, and a document is materialized as the entity, then what the fields of the path lead
to is decoded with the codec of the property to what the names of the members lead to in the result,
where what is missing is null.  If the property is not nullable, there is a value, and it is not
null. -/
theorem property_paths_read {m : Model} {registry : Registry} {defaults : DefaultKeyspace}
    {vm : ValidModel} (h : m.validate registry defaults = .ok vm) {functions : FunctionTable}
    {s : EntitySet} {member : String} {p : PropertyPath} (hp : vm.property s member = .ok p)
    {shape : EntityShape}
    (hshape : Translator.entityShape ⟨vm, registry, functions⟩ s.entity = .ok shape)
    {d : Document} {r : Materialized} (hr : (RowShape.entity shape).materialize d = .ok r) :
    ∃ codec v, registry.find p.scalarType = .ok codec ∧
      decodeAt codec member (followFields p.path (some d)) = .ok v ∧
      r.follow (member.splitOn ".") = some (.ofValue v) ∧
      (p.nullable = false →
        isValued (followFields p.path (some d)) = true ∧ v.isNull = false) := by
  obtain ⟨e, he, hp⟩ := Computation.bind_eq_ok.1 hp
  rw [ValidModel.entityOf_eq_ok, Model.entity?_of_validate h] at he
  obtain ⟨hmem, hname⟩ := Model.mem_of_entity? he
  have hexpands : shape.Expands m registry e.name := by
    have hexpands := Translator.expands_of_entityShapeWithin hshape
    rw [(Model.validate_eq_ok.1 h).2] at hexpands
    exact hname ▸ hexpands
  obtain ⟨hconforms, rfl⟩ := (RowShape.materialize_iff _).1 hr
  obtain ⟨fields, codec, hpath, hcodec, -, hread⟩ := followPath_content h hmem hexpands hp
  rw [List.nil_append] at hpath
  obtain ⟨haccepts, hfollow⟩ := hread d hconforms
  rw [hpath]
  obtain ⟨v, hv, hvalue⟩ := Codec.accepts_iff.1 haccepts
  refine ⟨codec, v, hcodec, hv, ?_, fun hnullable => ?_⟩
  · rw [RowShape.content, hfollow, Codec.content_of_decodeAt hv]
  · rw [hnullable] at haccepts hvalue
    obtain ⟨d', _, hd', hnull, -⟩ := haccepts
    exact ⟨isValued_iff.2 ⟨d', hd', hnull⟩, hvalue rfl⟩

namespace Sample

/-- Persons work somewhere and may have a home. -/
def tenants : Model where
  entities :=
    [{ name := "Person", properties := [{ name := "id", scalarType := .string, isKey := true }],
       navigations := [
         { name := "home", target := "Address", field := some "home_address", kind := .embedded false,
           optional := true },
         { name := "work", target := "Address", kind := .embedded false }] },
     { name := "Address", owned := true,
       properties := [{ name := "city", field := some "town", scalarType := .string }] }]

/-- A person without a home, who works in Oslo. -/
def commuter : Document :=
  .object [("id", .string "1"), ("work", .object [("town", .string "Oslo")])]

lemma splitOn_workCity : "work.city".splitOn "." = ["work", "city"] := by
  rw [String.splitOn, if_neg (by decide)]
  iterate 4 rw [String.splitOnAux, if_neg (by decide), if_neg (by decide)]
  rw [String.splitOnAux, if_neg (by decide), if_pos (by decide)]
  dsimp only
  rw [if_pos (by decide)]
  iterate 4 rw [String.splitOnAux, if_neg (by decide), if_neg (by decide)]
  rw [String.splitOnAux, if_pos (by decide)]
  decide

end Sample

/-- The city where a person works is the town in the document of the work. -/
theorem property_paths_read_tenants : ∃ vm p shape r,
    Sample.tenants.validate .standard { bucket := some "app" } = .ok vm ∧
    vm.property ⟨"Person", "p"⟩ "work.city" = .ok p ∧ p.path = ["work", "town"] ∧
    p.nullable = false ∧ Translator.entityShape ⟨vm, .standard, .standard⟩ "Person" = .ok shape ∧
    (RowShape.entity shape).materialize Sample.commuter = .ok r ∧
    ∃ codec v, Registry.find .standard p.scalarType = .ok codec ∧
      decodeAt codec "work.city" (followFields p.path (some Sample.commuter)) = .ok v ∧
      r.follow ["work", "city"] = some (.ofValue v) ∧ v.isNull = false := by
  obtain ⟨vm, hvalid, hp, shape, hshape, r, hr⟩ : ∃ vm,
      Sample.tenants.validate .standard { bucket := some "app" } = .ok vm ∧
      vm.property ⟨"Person", "p"⟩ "work.city" =
        .ok ⟨"p", "Person", "work.city", ["work", "town"], .string, false⟩ ∧
      ∃ shape, Translator.entityShape ⟨vm, .standard, .standard⟩ "Person" = .ok shape ∧
        ∃ r, (RowShape.entity shape).materialize Sample.commuter = .ok r := by
    refine ⟨_, rfl, ?_, _, rfl, _, rfl⟩
    rw [ValidModel.property, Sample.splitOn_workCity]
    rfl
  obtain ⟨codec, v, hcodec, hv, hfollow, hvalue⟩ := property_paths_read hvalid hp hshape hr
  rw [Sample.splitOn_workCity] at hfollow
  exact ⟨vm, _, shape, r, hvalid, hp, rfl, rfl, hshape, hr, codec, v, hcodec, hv, hfollow,
    (hvalue rfl).2⟩

end EntityQuery
