import EntityQuery.Proofs.Model.Validity
import EntityQuery.Proofs.Translation.Conformance
import EntityQuery.Proofs.Translation.Correlating
import EntityQuery.Proofs.Translation.Elements
import EntityQuery.Proofs.Translation.Paging

/-!
# Expansions of entities

The rows of the query for an entity hold its documents, with all that they embed.  Entities with
documents of their own may be embedded as well as owned ones; a valid model has no cycle of owned
entities only, but may have one through the others.

* `Model.Embeds` is the graph of what is embedded, and `Model.IsFiniteAt` says that no cycle of it
  is reached from an entity.
* `EntityShape.Expands` is the expansion of an entity, without a bound on its depth.
* `EntityShape.Expands.isFiniteAt`: what has an expansion reaches no cycle.
* `ExpandsAll.exists_part`: what is embedded is expanded in its place.
* `Translator.exists_shape_or_endless`: the shape of an entity is made, or a cycle is found.
* `entities_queryable`: when the query for an entity has a translation.
-/

namespace EntityQuery

/-! ## What is embedded

An expansion is defined by recursion on what comes out, so it is finite by itself.  Whether an
entity has one is asked of the model alone. -/

/-- Where the target of a navigation is in the document of its source, if it is embedded. -/
def Navigation.place (n : Navigation) (many : Bool) : EmbeddedPlace :=
  ⟨n.name, n.fieldName, many, n.optional⟩

namespace Model

/-- An entity embeds another one, which may have documents of its own. -/
def Embeds (m : Model) (outer inner : String) : Prop :=
  ∃ e ∈ m.entities, e.name = outer ∧ ∃ n ∈ e.navigations, n.isEmbedded = true ∧ n.target = inner

/-- Nothing that is embedded in an entity, however deep, embeds itself. -/
def IsFiniteAt (m : Model) (name : String) : Prop :=
  ∀ inner, Relation.ReflTransGen m.Embeds name inner → ¬ Relation.TransGen m.Embeds inner inner

end Model

lemma Registry.contains_iff_find {registry : Registry} {t : ScalarType} :
    registry.contains t = true ↔ ∃ codec, registry.find t = .ok codec := by
  rw [contains, find]
  cases registry.find? t <;> simp

/-- The slot of a property, with the codec of its type. -/
def Property.HasSlot (registry : Registry) (p : Property) (slot : PropertySlot) : Prop :=
  ∃ codec, registry.find p.scalarType = .ok codec ∧ slot = ⟨p.name, p.fieldName, codec, !p.nullable⟩

mutual

/-- **The expansion of an entity**: its properties, and the expansions of what it embeds. -/
inductive EntityShape.Expands (m : Model) (registry : Registry) : String → EntityShape → Prop
  | entity {e : Entity} {properties : List PropertySlot}
      {embedded : List (EmbeddedPlace × EntityShape)} (he : e ∈ m.entities)
      (hproperties : List.Forall₂ (Property.HasSlot registry) e.properties properties)
      (hembedded : ExpandsAll m registry e.navigations embedded) :
      EntityShape.Expands m registry e.name ⟨e.name, properties, embedded⟩

/-- The expansions of the targets of navigations, of those that are embedded. -/
inductive ExpandsAll (m : Model) (registry : Registry) :
    List Navigation → List (EmbeddedPlace × EntityShape) → Prop
  | nil : ExpandsAll m registry [] []
  | apart {n : Navigation} {ns : List Navigation} {embedded : List (EmbeddedPlace × EntityShape)}
      (happart : n.isEmbedded = false) (rest : ExpandsAll m registry ns embedded) :
      ExpandsAll m registry (n :: ns) embedded
  | inside {n : Navigation} {ns : List Navigation} {many : Bool} {shape : EntityShape}
      {embedded : List (EmbeddedPlace × EntityShape)} (hkind : n.kind = .embedded many)
      (inner : EntityShape.Expands m registry n.target shape)
      (rest : ExpandsAll m registry ns embedded) :
      ExpandsAll m registry (n :: ns) ((n.place many, shape) :: embedded)

end

/-! ## Expansions are finite

Because an expansion is finite, embedding is well-founded below an entity that has one.  What embeds
itself would have an infinite descent. -/

section

variable {m : Model} {registry : Registry}

mutual

/-- What is embedded in an entity with an expansion comes to an end. -/
theorem EntityShape.Expands.acc (hnames : m.names.Nodup) : {name : String} → {shape : EntityShape} →
    EntityShape.Expands m registry name shape → Acc (fun inner outer => m.Embeds outer inner) name
  | _, _, .entity he _ hembedded => by
      refine Acc.intro _ fun inner hinner => ?_
      obtain ⟨e', he', hname, n, hn, hembeds, rfl⟩ := hinner
      obtain rfl := List.inj_on_of_nodup_map hnames he' he hname
      exact hembedded.acc hnames n hn hembeds

/-- So does what is embedded in the targets of its navigations. -/
theorem ExpandsAll.acc (hnames : m.names.Nodup) : {ns : List Navigation} →
    {embedded : List (EmbeddedPlace × EntityShape)} → ExpandsAll m registry ns embedded →
    ∀ n ∈ ns, n.isEmbedded = true → Acc (fun inner outer => m.Embeds outer inner) n.target
  | _, _, .nil => by
      intro n hn
      cases hn
  | _, _, .apart happart rest => by
      refine List.forall_mem_cons.2 ⟨fun hembedded => ?_, rest.acc hnames⟩
      rw [happart] at hembedded
      cases hembedded
  | _, _, .inside _ inner rest =>
      List.forall_mem_cons.2 ⟨fun _ => inner.acc hnames, rest.acc hnames⟩

end

/-- What comes to an end does not come back to itself. -/
lemma Model.isFiniteAt_of_acc {name : String}
    (h : Acc (fun inner outer => m.Embeds outer inner) name) : m.IsFiniteAt name := by
  induction h with
  | intro name _ ih =>
      intro inner hreach hcycle
      rcases Relation.ReflTransGen.cases_head hreach with rfl | ⟨next, hnext, hrest⟩
      · obtain ⟨next, hnext, hback⟩ := Relation.TransGen.head'_iff.1 hcycle
        exact ih next hnext name hback hcycle
      · exact ih next hnext inner hrest hcycle

/-- **What has an expansion reaches no cycle.** -/
theorem EntityShape.Expands.isFiniteAt {name : String} {shape : EntityShape}
    (h : EntityShape.Expands m registry name shape) (hnames : m.names.Nodup) : m.IsFiniteAt name :=
  Model.isFiniteAt_of_acc (h.acc hnames)

mutual

/-- Each scalar in an expansion has a codec. -/
theorem EntityShape.Expands.contains_scalarType : {name : String} → {shape : EntityShape} →
    EntityShape.Expands m registry name shape → (path : String) →
    ∀ leaf ∈ shape.leavesAt path, registry.contains leaf.scalarType = true
  | _, _, .entity _ hproperties hembedded, path => by
      intro leaf hleaf
      rw [EntityShape.leavesAt] at hleaf
      rcases List.mem_append.1 hleaf with hleaf | hleaf
      · obtain ⟨slot, hslot, rfl⟩ := List.mem_map.1 hleaf
        obtain ⟨i, hi, rfl⟩ := List.getElem_of_mem hslot
        obtain ⟨codec, hcodec, heq⟩ := hproperties.get (hproperties.length_eq ▸ hi) hi
        rw [List.get_eq_getElem] at heq
        rw [heq, Registry.scalarType_of_find hcodec]
        exact Registry.contains_iff_find.2 ⟨codec, hcodec⟩
      · exact hembedded.contains_scalarType path leaf hleaf

/-- So has each scalar in what is embedded. -/
theorem ExpandsAll.contains_scalarType : {ns : List Navigation} →
    {embedded : List (EmbeddedPlace × EntityShape)} → ExpandsAll m registry ns embedded →
    (path : String) →
    ∀ leaf ∈ embeddedLeaves path embedded, registry.contains leaf.scalarType = true
  | _, _, .nil, _ => by
      intro leaf hleaf
      cases hleaf
  | _, _, .apart _ rest, path => rest.contains_scalarType path
  | _, _, .inside _ inner rest, path => by
      intro leaf hleaf
      rw [embeddedLeaves, partLeaves] at hleaf
      rcases List.mem_append.1 hleaf with hleaf | hleaf
      · exact inner.contains_scalarType _ leaf hleaf
      · exact rest.contains_scalarType path leaf hleaf

end

/-! ## Parts of expansions -/

/-- The places of what is embedded have the names of the navigations. -/
theorem ExpandsAll.names {ns : List Navigation} {embedded : List (EmbeddedPlace × EntityShape)}
    (h : ExpandsAll m registry ns embedded) :
    (embedded.map fun e => e.1.name).Sublist (ns.map Navigation.name) := by
  induction ns generalizing embedded with
  | nil =>
      cases h
      exact .slnil
  | cons _ _ ih =>
      cases h with
      | apart _ rest => exact (ih rest).cons _
      | inside _ _ rest => exact (ih rest).cons_cons _

/-- The target of a navigation is expanded in its place. -/
theorem ExpandsAll.exists_part {ns : List Navigation}
    {embedded : List (EmbeddedPlace × EntityShape)} (h : ExpandsAll m registry ns embedded)
    {n : Navigation} {many : Bool} (hkind : n.kind = .embedded many) (hn : n ∈ ns) :
    ∃ shape, (n.place many, shape) ∈ embedded ∧ shape.Expands m registry n.target := by
  induction ns generalizing embedded with
  | nil => cases hn
  | cons _ _ ih =>
      cases h with
      | apart happart rest =>
          rcases List.mem_cons.1 hn with rfl | hn
          · simp [Navigation.isEmbedded, hkind] at happart
          · exact ih rest hn
      | inside hkind' inner rest =>
          rcases List.mem_cons.1 hn with rfl | hn
          · rw [hkind] at hkind'
            cases hkind'
            exact ⟨_, .head _, inner⟩
          · obtain ⟨shape, hmem, hshape⟩ := ih rest hn
            exact ⟨shape, .tail _ hmem, hshape⟩

end

/-! ## The shapes of entities

The program makes a shape with the names of the entities around it and fails if one comes back.  In
a complete model nothing else can fail, and each name leads back to where it was first met. -/

/-- An entity cannot be expanded, as it embeds itself. -/
def TranslationError.endless (name : String) : TranslationError :=
  .unsupported "embedded" ("'" ++ name ++ "' embeds itself")

/-- An entity that embeds itself, and is reached from another one. -/
def Model.EndlessAt (m : Model) (name inner : String) : Prop :=
  Relation.ReflTransGen m.Embeds name inner ∧ Relation.TransGen m.Embeds inner inner

namespace Translator

variable {tr : Translator}

lemma propertySlot_eq_ok {p : Property} {slot : PropertySlot} :
    tr.propertySlot p = .ok slot ↔ p.HasSlot tr.registry slot := by
  simp only [propertySlot, shapeCodec, Computation.bind_eq_ok, Computation.mapError_eq_ok,
    Except.ok.injEq, Property.HasSlot, eq_comm (a := slot)]

lemma exists_propertySlots {defaults : DefaultKeyspace}
    (hm : tr.model.model.IsComplete tr.registry defaults) {e : Entity}
    (he : e ∈ tr.model.model.entities) :
    ∃ properties, e.properties.mapM tr.propertySlot = .ok properties := by
  refine Computation.exists_mapM fun p hp => ?_
  obtain ⟨codec, hcodec⟩ := Registry.contains_iff_find.1 (hm.registered e he p hp)
  exact ⟨_, propertySlot_eq_ok.2 ⟨codec, hcodec, rfl⟩⟩

/-- What is embedded is expanded navigation by navigation. -/
lemma expandsAll_of_embeddedSlot {depth : Nat} {outer : List String} {ns : List Navigation}
    {os : List (Option (EmbeddedPlace × EntityShape))}
    (hinner : ∀ n ∈ ns, ∀ shape, tr.entityShapeWithin depth outer n.target = .ok shape →
      shape.Expands tr.model.model tr.registry n.target)
    (h : List.Forall₂ (fun n o => tr.embeddedSlot depth outer n = .ok o) ns os) :
    ExpandsAll tr.model.model tr.registry ns (os.filterMap id) := by
  induction h with
  | nil => exact .nil
  | @cons n o ns os hslot _ ih =>
      have hrest := ih fun n hn => hinner n (List.mem_cons_of_mem _ hn)
      rw [embeddedSlot] at hslot
      split at hslot
      · rename_i many hkind
        obtain ⟨shape, hshape, hslot⟩ := Computation.bind_eq_ok.1 hslot
        cases hslot
        exact .inside hkind (hinner n List.mem_cons_self shape hshape) hrest
      · rename_i hapart
        cases hslot
        refine .apart ?_ hrest
        grind [Navigation.isEmbedded]

/-- **The shape of an entity is its expansion.** -/
theorem expands_of_entityShapeWithin {depth : Nat} {outer : List String} {name : String}
    {shape : EntityShape} (h : tr.entityShapeWithin depth outer name = .ok shape) :
    shape.Expands tr.model.model tr.registry name := by
  induction depth generalizing outer name shape with
  | zero => cases h
  | succ depth ih =>
      obtain ⟨e, os, he, -, hproperties, hos, hembedded, hentity⟩ := entityShapeWithin_eq_ok h
      obtain ⟨hmem, rfl⟩ := Model.mem_of_entity? he
      obtain ⟨_, properties, embedded⟩ := shape
      cases hentity
      cases hembedded
      have hslots := (Computation.mapM_eq_ok.1 hproperties).imp fun _ _ => propertySlot_eq_ok.1
      refine .entity hmem hslots ?_
      exact expandsAll_of_embeddedSlot (fun n _ shape => ih) (Computation.mapM_eq_ok.1 hos)

/-- An entity that is not inside of itself is expanded part by part. -/
lemma entityShapeWithin_succ {depth : Nat} {outer : List String} {name : String} {e : Entity}
    (he : tr.model.entity? name = some e) (hnew : name ∉ outer) :
    tr.entityShapeWithin (depth + 1) outer name = (do
      let properties ← e.properties.mapM tr.propertySlot
      let embedded ← e.navigations.filterMapM (tr.embeddedSlot depth (name :: outer))
      .ok ⟨e.name, properties, embedded⟩) := by
  rw [entityShapeWithin, List.contains_eq_mem, decide_eq_false hnew, he]
  rfl

/-- Nothing but what it embeds fails in the slot of a navigation. -/
lemma embeddedSlot_eq_error {depth : Nat} {outer : List String} {n : Navigation}
    {error : TranslationError} (h : tr.embeddedSlot depth outer n = .error error) :
    n.isEmbedded = true ∧ tr.entityShapeWithin depth outer n.target = .error error := by
  rw [embeddedSlot] at h
  cases hkind : n.kind with
  | embedded many =>
      simp only [hkind] at h
      rcases Computation.bind_eq_error.1 h with h | ⟨shape, -, h⟩
      · exact ⟨by rw [Navigation.isEmbedded, hkind], h⟩
      · cases h
  | _ => simp [hkind] at h

/-- **The shape of an entity of a complete model is made, or a cycle is found.**  The names of the
entities around one lead to it, so a name that comes back among them is on a cycle. -/
theorem exists_shape_or_endless {defaults : DefaultKeyspace}
    (hm : tr.model.model.IsComplete tr.registry defaults) {depth : Nat} {outer : List String}
    {e : Entity} (he : e ∈ tr.model.model.entities) (hnodup : outer.Nodup)
    (houter : outer ⊆ tr.model.model.names)
    (hleads : ∀ other ∈ outer, Relation.TransGen tr.model.model.Embeds other e.name)
    (hdepth : tr.model.model.entities.length < depth + outer.length) :
    (∃ shape, tr.entityShapeWithin depth outer e.name = .ok shape) ∨
      ∃ inner, tr.model.model.EndlessAt e.name inner ∧
        tr.entityShapeWithin depth outer e.name = .error (.endless inner) := by
  induction depth generalizing outer e with
  | zero =>
      have hle := (List.subperm_of_subset hnodup houter).length_le
      simp only [Model.names, List.length_map] at hle
      omega
  | succ depth ih =>
      by_cases hnew : e.name ∈ outer
      · refine .inr ⟨e.name, ⟨.refl, hleads _ hnew⟩, ?_⟩
        rw [entityShapeWithin, List.contains_eq_mem, decide_eq_true hnew]
        rfl
      · rw [entityShapeWithin_succ (Model.entity?_of_mem hm.nodup he) hnew]
        obtain ⟨properties, hproperties⟩ := exists_propertySlots hm he
        cases hembedded : e.navigations.filterMapM (tr.embeddedSlot depth (e.name :: outer)) with
        | ok embedded =>
            exact .inl ⟨_, Computation.bind_eq_ok.2 ⟨properties, hproperties,
              Computation.bind_eq_ok.2 ⟨embedded, rfl, rfl⟩⟩⟩
        | error error =>
            obtain ⟨n, hn, hslot⟩ := Computation.filterMapM_eq_error hembedded
            obtain ⟨hinside, hinner⟩ := embeddedSlot_eq_error hslot
            obtain ⟨t, ht, htarget⟩ := hm.targets e he n hn
            have hstep : tr.model.model.Embeds e.name t.name :=
              ⟨e, he, rfl, n, hn, hinside, htarget.symm⟩
            rw [← htarget] at hinner
            have hcases := ih ht (List.nodup_cons.2 ⟨hnew, hnodup⟩)
              (List.cons_subset.2 ⟨List.mem_map_of_mem he, houter⟩)
              (List.forall_mem_cons.2 ⟨.single hstep, fun other hother =>
                .tail (hleads other hother) hstep⟩)
              (by rw [List.length_cons]; omega)
            rcases hcases with ⟨shape, hshape⟩ | ⟨inner, ⟨hreach, hcycle⟩, herror⟩
            · rw [hinner] at hshape
              cases hshape
            · cases hinner.symm.trans herror
              exact .inr ⟨inner, ⟨.head hstep hreach, hcycle⟩, Computation.bind_eq_error.2
                (.inr ⟨properties, hproperties, Computation.bind_eq_error.2 (.inl rfl)⟩)⟩

/-- The query for an entity yields the documents of its keyspace as they are. -/
lemma translate_source {name : String} {k : Keyspace} (hk : tr.model.keyspace? name = some k)
    (aliasName : String) :
    tr.translate (.source name aliasName) = (tr.entityShape name).map fun shape =>
      ⟨⟨(Stage.frame (.ofKeyspace k name aliasName)).statement, .empty⟩, .entity shape⟩ := by
  have hstage : tr.stage (.source name aliasName) {} =
      .ok (.frame (.ofKeyspace k name aliasName), {}) := stage_source_iff.2 ⟨k, hk, rfl⟩
  refine (Computation.bind_of_eq_ok hstage).trans ?_
  change (tr.rowShape (.entity ⟨aliasName, name, .ident aliasName, false⟩) >>= _) = _
  rw [rowShape]
  cases tr.entityShape name <;> rfl

/-- **The query for a root has a translation, or a cycle is found.** -/
theorem translate_source_or_endless (hm : tr.model.model.IsComplete tr.registry tr.model.defaults)
    {e : Entity} (he : e ∈ tr.model.model.entities) (hroot : e.isRoot = true) (aliasName : String) :
    (∃ query shape, tr.translate (.source e.name aliasName) = .ok ⟨query, .entity shape⟩ ∧
      shape.Expands tr.model.model tr.registry e.name) ∨
    ∃ inner, tr.model.model.EndlessAt e.name inner ∧
      tr.translate (.source e.name aliasName) = .error (.endless inner) := by
  obtain ⟨k, hk⟩ := hm.placed e he hroot
  have hkeyspace : tr.model.keyspace? e.name = some k := by
    rw [ValidModel.keyspace?, ValidModel.entity?, Model.entity?_of_mem hm.nodup he]
    exact hk
  rw [translate_source hkeyspace]
  rcases tr.exists_shape_or_endless hm he List.nodup_nil (List.nil_subset _)
    (List.forall_mem_nil _) (Nat.lt_succ_self _) with ⟨shape, hshape⟩ | ⟨inner, hinner, herror⟩
  · refine .inl ⟨⟨(Stage.frame (.ofKeyspace k e.name aliasName)).statement, .empty⟩, shape, ?_,
      expands_of_entityShapeWithin hshape⟩
    rw [entityShape, hshape]
    rfl
  · refine .inr ⟨inner, hinner, ?_⟩
    rw [entityShape, herror]
    rfl

end Translator

/-! ## Cycles through roots

The validation of a model excludes the cycles of owned entities.  What is left goes through an
entity with documents of its own, of which the validation merely warns. -/

namespace Model

variable {m : Model} {registry : Registry} {defaults : DefaultKeyspace}

/-- The name is that of an owned entity. -/
def NamesOwned (m : Model) (name : String) : Prop :=
  ∃ e ∈ m.entities, e.name = name ∧ e.owned = true

/-- If only owned entities are embedded, an owned entity owns what it embeds. -/
lemma transGen_owns (hnames : m.names.Nodup)
    (howned : ∀ outer inner, m.Embeds outer inner → m.NamesOwned inner) {outer inner : String}
    (h : Relation.TransGen m.Embeds outer inner) (houter : m.NamesOwned outer) :
    Relation.TransGen m.Owns outer inner := by
  have hedge : ∀ outer inner, m.NamesOwned outer → m.Embeds outer inner → m.Owns outer inner := by
    rintro outer inner ⟨e, he, rfl, heowned⟩ hembeds
    obtain ⟨t, ht, rfl, htowned⟩ := howned _ _ hembeds
    obtain ⟨e', he', hname, n, hn, hembedded, htarget⟩ := hembeds
    obtain rfl := List.inj_on_of_nodup_map hnames he' he hname
    exact ⟨e', he, t, ht, rfl, rfl, heowned, htowned, n, hn, hembedded, htarget⟩
  induction h with
  | single hembeds => exact .single (hedge _ _ houter hembeds)
  | tail hbefore hembeds ih =>
      obtain ⟨_, -, hlast⟩ := Relation.TransGen.tail'_iff.1 hbefore
      exact .tail ih (hedge _ _ (howned _ _ hlast) hembeds)

/-- **A cycle of embedded entities goes through a root**: where only owned entities are embedded, a
complete model has none. -/
theorem IsComplete.isFiniteAt (hm : m.IsComplete registry defaults)
    (howned : ∀ outer inner, m.Embeds outer inner → m.NamesOwned inner) (name : String) :
    m.IsFiniteAt name := by
  intro inner _ hcycle
  obtain ⟨_, -, hlast⟩ := Relation.TransGen.tail'_iff.1 hcycle
  exact hm.acyclic inner (transGen_owns hm.nodup howned hcycle (howned _ _ hlast))

/-- Entities that are all embedded in larger ones only have finite documents. -/
lemma isFiniteAt_of_rank (rank : String → Nat)
    (h : ∀ e ∈ m.entities, ∀ n ∈ e.navigations, n.isEmbedded = true → rank n.target < rank e.name)
    (name : String) : m.IsFiniteAt name := by
  refine isFiniteAt_of_acc (Subrelation.accessible ?_ ((measure rank).wf.apply name))
  rintro inner outer ⟨e, he, rfl, n, hn, hembedded, rfl⟩
  exact h e he n hn hembedded

end Model

/-- **The query for a root entity of a valid model has a translation if and only if nothing that is
embedded in the entity embeds itself.**  Then its rows are the expansion of the entity, each scalar
of which has a codec; else an entity that embeds itself is named.  If the model does not warn of a
root that is embedded, nothing embeds itself. -/
theorem entities_queryable {m : Model} {registry : Registry} {defaults : DefaultKeyspace}
    {vm : ValidModel} (h : m.validate registry defaults = .ok vm) {e : Entity} (he : e ∈ m.entities)
    (hroot : e.isRoot = true) :
    vm.entitySet e.name = .ok ⟨e.name, lowerCase e.name⟩ ∧
    (∀ functions aliasName, m.IsFiniteAt e.name →
      ∃ query shape, Translator.translate ⟨vm, registry, functions⟩
          (EntitySet.query ⟨e.name, aliasName⟩) = .ok ⟨query, .entity shape⟩ ∧
        shape.Expands m registry e.name ∧
        ∀ leaf ∈ (RowShape.entity shape).leaves, registry.contains leaf.scalarType = true) ∧
    (∀ functions aliasName, ¬ m.IsFiniteAt e.name →
      ∃ inner, m.EndlessAt e.name inner ∧ Translator.translate ⟨vm, registry, functions⟩
        (EntitySet.query ⟨e.name, aliasName⟩) = .error (.endless inner)) ∧
    ((∀ i ∈ vm.warnings, ∀ target, i.defect ≠ .embeddedRoot target) → m.IsFiniteAt e.name) := by
  have hm := Model.isComplete_of_validate h
  obtain ⟨-, hvm⟩ := Model.validate_eq_ok.1 h
  have hentity : vm.entity? e.name = some e := by
    rw [hvm]
    exact Model.entity?_of_mem hm.nodup he
  have htranslated : ∀ functions aliasName, (∃ query shape,
      Translator.translate ⟨vm, registry, functions⟩ (.source e.name aliasName) =
        .ok ⟨query, .entity shape⟩ ∧ shape.Expands m registry e.name) ∨
      ∃ inner, m.EndlessAt e.name inner ∧
        Translator.translate ⟨vm, registry, functions⟩ (.source e.name aliasName) =
          .error (.endless inner) := by
    intro functions aliasName
    subst hvm
    exact Translator.translate_source_or_endless hm he hroot aliasName
  refine ⟨?_, fun functions aliasName hfinite => ?_, fun functions aliasName hendless => ?_, ?_⟩
  · rw [ValidModel.entitySet, hentity]
    simp only [Entity.isRoot, Bool.not_eq_true'] at hroot
    simp only [hroot, Bool.false_eq_true, if_false]
  · rcases htranslated functions aliasName with ⟨query, shape, ht, hexpands⟩ | ⟨inner, hinner, -⟩
    · exact ⟨query, shape, ht, hexpands, hexpands.contains_scalarType ""⟩
    · exact absurd hinner.2 (hfinite inner hinner.1)
  · rcases htranslated functions aliasName with ⟨query, shape, -, hexpands⟩ | hcycle
    · exact absurd (hexpands.isFiniteAt hm.nodup) hendless
    · exact hcycle
  · intro hwarnings
    refine hm.isFiniteAt ?_ e.name
    rintro outer inner ⟨e, he, rfl, n, hn, hembedded, rfl⟩
    obtain ⟨t, ht, hname⟩ := hm.targets e he n hn
    refine ⟨t, ht, hname, ?_⟩
    by_contra howned
    have hwarning := Model.warns_of_embedded_root h he hn hembedded ht hname
      (by simpa [Entity.isRoot] using howned)
    exact hwarnings _ hwarning t.name rfl

namespace Sample

/-- Clerks have a boss, who is a person, and persons have an address.  If the boss of a person is a
clerk, there is no end of bosses. -/
def staff (boss : String) : Model where
  entities :=
    [{ name := "Clerk", properties := [{ name := "id", scalarType := .string, isKey := true }],
       navigations := [{ name := "boss", target := boss, kind := .embedded false }] },
     { name := "Person", properties := [{ name := "id", scalarType := .string, isKey := true }],
       navigations := [{ name := "addresses", target := "Address", kind := .embedded true },
         { name := "clerks", target := "Clerk", kind := .reference "id" }] },
     { name := "Address", owned := true,
       properties := [{ name := "street", scalarType := .string, nullable := true }] }]

/-- The documents of entities are in one bucket. -/
def inBucket : DefaultKeyspace where bucket := some "app"

end Sample

/-- A clerk embeds the boss, a person, who embeds the addresses. -/
theorem entities_queryable_staff :
    ∃ vm, (Sample.staff "Person").validate .standard Sample.inBucket = .ok vm ∧
      (∃ e ∈ (Sample.staff "Person").entities, e.name = "Clerk" ∧ e.isRoot = true) ∧
      (∃ i ∈ vm.warnings, i.defect = .embeddedRoot "Person") ∧
      ∃ query shape, Translator.translate ⟨vm, .standard, .standard⟩
          (EntitySet.query ⟨"Clerk", "clerk"⟩) = .ok ⟨query, .entity shape⟩ ∧
        shape.Expands (Sample.staff "Person") .standard "Clerk" ∧
        ∀ leaf ∈ (RowShape.entity shape).leaves,
          Registry.contains .standard leaf.scalarType = true := by
  have hfinite : (Sample.staff "Person").IsFiniteAt "Clerk" :=
    Model.isFiniteAt_of_rank (fun name => ["Address", "Person", "Clerk"].idxOf name) (by decide)
      "Clerk"
  have hvalid : (Sample.staff "Person").validate .standard Sample.inBucket = .ok _ := rfl
  have hclerk : (Sample.staff "Person").entities[0] ∈ (Sample.staff "Person").entities :=
    List.mem_cons_self
  obtain ⟨-, hqueryable, -⟩ := entities_queryable hvalid hclerk rfl
  exact ⟨_, hvalid, ⟨_, hclerk, rfl, rfl⟩, by decide, hqueryable .standard "clerk" hfinite⟩

/-- A clerk whose boss is a clerk has no end of bosses; the model is valid. -/
theorem entities_not_queryable :
    ∃ vm, (Sample.staff "Clerk").validate .standard Sample.inBucket = .ok vm ∧
      vm.entitySet "Clerk" = .ok ⟨"Clerk", "clerk"⟩ ∧
      Translator.translate ⟨vm, .standard, .standard⟩ (EntitySet.query ⟨"Clerk", "clerk"⟩) =
        .error (.unsupported "embedded" "'Clerk' embeds itself") :=
  ⟨_, rfl, by decide +kernel, rfl⟩

end EntityQuery
