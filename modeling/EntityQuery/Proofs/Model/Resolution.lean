import EntityQuery.Proofs.Model.Lookups
import EntityQuery.Proofs.Model.Members

/-!
# Resolution of references and collections

Which of two entities holds a foreign key, and which one the key, is decided twice: by the
validation of a model, and when a navigation is correlated with the rows of a query.  The validation
accepts what can be resolved, but for one case.  It asks for the key of an entity only if the entity
has documents of its own, since an owned target is an error anyway; but the entity is the source of
a collection, and a source may be owned.

* `Navigation.LacksKey`: the collection of an owned entity without a key.
* `sound_of_lookupDefects`: what a lookup without errors has.
* `lookups_resolved`: the references and collections of valid models are resolved, but for those
  that lack a key.
* `lookups_unresolved`: a valid model with such a collection.
-/

namespace EntityQuery

/-- Whether a navigation joins documents by a foreign key. -/
def Navigation.IsLookup (n : Navigation) : Prop :=
  ∃ foreignKey, n.kind = .reference foreignKey ∨ n.kind = .collection foreignKey

/-- Whether a navigation is by the key of its source, which is owned and has none. -/
def Navigation.LacksKey (n : Navigation) (source : Entity) : Prop :=
  (∃ foreignKey, n.kind = .collection foreignKey) ∧ source.owned = true ∧ source.key? = none

/-! ## What the validation asks for

The lookup that the validation accepts is taken apart into a foreign key, which is among the
properties of one of the two entities, and the key of the other one. -/

/-- A lookup without errors is one of documents, and by a foreign key; and if there is no key, that
is because its entity is owned. -/
lemma sound_of_lookupDefects {target owner keyOwner : Entity} {foreignKey : String}
    (h : ∀ defect ∈ lookupDefects target owner foreignKey keyOwner, defect.isError = false) :
    target.owned = false ∧ (∃ p, owner.property? foreignKey = some p) ∧
      (keyOwner.key? = none → keyOwner.owned = true) := by
  refine ⟨?_, ?_, fun hkey => ?_⟩
  · by_contra howned
    have hmem : Defect.referenceToOwned target.name ∈
        lookupDefects target owner foreignKey keyOwner := by
      simp [lookupDefects, Entity.isRoot, howned]
    cases h _ hmem
  · by_contra hnone
    have hproperty : owner.property? foreignKey = none :=
      Option.eq_none_iff_forall_ne_some.2 fun p hp => hnone ⟨p, hp⟩
    have hmem : Defect.missingForeignKey foreignKey owner.name ∈
        lookupDefects target owner foreignKey keyOwner := by
      simp [lookupDefects, hproperty]
    cases h _ hmem
  · by_contra hroot
    have howned : keyOwner.owned = false := Bool.eq_false_iff.2 hroot
    have hmem : Defect.missingLookupKey keyOwner.name ∈
        lookupDefects target owner foreignKey keyOwner := by
      simp [lookupDefects, Entity.isRoot, hkey, howned]
    cases h _ hmem

section

variable {m : Model} {registry : Registry} {defaults : DefaultKeyspace} {vm : ValidModel}

/-- **The properties that a navigation of a valid model compares are there**, unless the navigation
lacks a key. -/
theorem Model.exists_keys (h : m.validate registry defaults = .ok vm) {e target : Entity}
    (he : e ∈ m.entities) {n : Navigation} (hn : n ∈ e.navigations) (hlookup : n.IsLookup)
    (htarget : m.entity? n.target = some target) (hkey : ¬ n.LacksKey e) :
    ∃ p k, n.keys? e target = some (p, k) := by
  have herrors : ∀ defect ∈ m.navigationDefects e n, defect.isError = false :=
    fun defect hdefect => (mem_warnings_of_defect h he hn hdefect).2
  simp only [navigationDefects, htarget] at herrors
  obtain ⟨foreignKey, hkind | hkind⟩ := hlookup
  · simp only [hkind] at herrors
    obtain ⟨howned, ⟨p, hp⟩, htargetKey⟩ := sound_of_lookupDefects herrors
    -- an owned target is an error, so a target without a key is one as well
    cases hk : target.key? with
    | none =>
        rw [htargetKey hk] at howned
        cases howned
    | some k => exact ⟨p, k, by simp [Navigation.keys?, hkind, hp, hk]⟩
  · simp only [hkind] at herrors
    obtain ⟨-, ⟨p, hp⟩, hsourceKey⟩ := sound_of_lookupDefects herrors
    cases hk : e.key? with
    | none => exact absurd ⟨⟨foreignKey, hkind⟩, hsourceKey hk, hk⟩ hkey
    | some k => exact ⟨k, p, by simp [Navigation.keys?, hkind, hp, hk]⟩

/-- The kind of a navigation whose properties are there. -/
lemma ValidModel.correlationKind_of_keys {source target : Entity} {n : Navigation} {p k : Property}
    (h : n.keys? source target = some (p, k)) :
    correlationKind source target n = .ok (.lookup [p.fieldName] [k.fieldName]) := by
  rw [Navigation.keys?] at h
  rw [correlationKind]
  cases hkind : n.kind with
  | embedded many => simp [hkind] at h
  | through => simp [hkind] at h
  | reference foreignKey =>
      simp only [hkind] at h ⊢
      obtain ⟨p, hp, h⟩ := Option.bind_eq_some_iff.1 h
      obtain ⟨k, hk, h⟩ := Option.bind_eq_some_iff.1 h
      cases h
      simp only [hp, hk]
  | collection foreignKey =>
      simp only [hkind] at h ⊢
      obtain ⟨k, hk, h⟩ := Option.bind_eq_some_iff.1 h
      obtain ⟨p, hp, h⟩ := Option.bind_eq_some_iff.1 h
      cases h
      simp only [hp, hk]

/-- A navigation of a valid model is correlated as its kind says. -/
lemma ValidModel.correlation_of_mem (h : m.validate registry defaults = .ok vm) {e target : Entity}
    (he : e ∈ m.entities) {n : Navigation} (hn : n ∈ e.navigations)
    (htarget : m.entity? n.target = some target) {s : EntitySet} (hs : s.entity = e.name) :
    vm.correlation s n.name =
      match correlationKind e target n with
      | .ok kind => .ok ⟨s.aliasName, n.name, n.target, n.name, kind, false⟩
      | .error reason => .error (.unsupportedNavigation e.name n.name reason) := by
  have hmodel := Model.entity?_of_validate h
  have hname : target.name = n.target := (Model.mem_of_entity? htarget).2
  have hsource : vm.entityOf s = .ok e := by
    rw [entityOf_eq_ok, hs, hmodel]
    exact Model.entity?_of_mem (Model.isComplete_of_validate h).nodup he
  have hnavigation : e.navigation? n.name = some n :=
    (Model.membersDiffer_of_validate h he).navigation? hn
  rw [correlation, Computation.bind_of_eq_ok hsource]
  cases hkind : correlationKind e target n <;>
    simp only [hnavigation, hmodel, htarget, hname, hkind]

end

/-! ## What is resolved -/

/-- **Validated lookups are resolved**, unless they lack a key.  A reference or a collection of any
entity of a valid model is correlated as a lookup, from the field of the one property that it
compares to that of the other, and the two are of comparable types; and a collection of an owned
entity without a key is refused. -/
theorem lookups_resolved {m : Model} {registry : Registry} {defaults : DefaultKeyspace}
    {vm : ValidModel} (h : m.validate registry defaults = .ok vm) {e : Entity} (he : e ∈ m.entities)
    {n : Navigation} (hn : n ∈ e.navigations) (hlookup : n.IsLookup) (s : EntitySet)
    (hs : s.entity = e.name) :
    (¬ n.LacksKey e → ∃ target ∈ m.entities, target.name = n.target ∧ ∃ p k,
      n.keys? e target = some (p, k) ∧ p.scalarType.comparable k.scalarType = true ∧
      vm.correlation s n.name = .ok ⟨s.aliasName, n.name, n.target, n.name,
        .lookup [p.fieldName] [k.fieldName], false⟩) ∧
    (n.LacksKey e → vm.correlation s n.name =
      .error (.unsupportedNavigation e.name n.name "source has no key")) := by
  obtain ⟨target, hmem, hname⟩ := (Model.isComplete_of_validate h).targets e he n hn
  have htarget : m.entity? n.target = some target :=
    hname ▸ Model.entity?_of_mem (Model.isComplete_of_validate h).nodup hmem
  rw [ValidModel.correlation_of_mem h he hn htarget hs]
  constructor
  · intro hkey
    obtain ⟨p, k, hkeys⟩ := Model.exists_keys h he hn hlookup htarget hkey
    refine ⟨target, hmem, hname, p, k, hkeys, Model.comparable_keys h he hn htarget hkeys, ?_⟩
    rw [ValidModel.correlationKind_of_keys hkeys]
  · rintro ⟨⟨foreignKey, hkind⟩, -, hkey⟩
    have herrors : ∀ defect ∈ m.navigationDefects e n, defect.isError = false :=
      fun defect hdefect => (Model.mem_warnings_of_defect h he hn hdefect).2
    simp only [Model.navigationDefects, htarget, hkind] at herrors
    obtain ⟨-, ⟨p, hp⟩, -⟩ := sound_of_lookupDefects herrors
    simp only [ValidModel.correlationKind, hkind, hp, hkey]

namespace Sample

/-- Orders have lines, which name the article that is ordered, and offers are of an article.  A line
may be known by its article or not. -/
def catalogue (keyed : Bool) : Model where
  entities :=
    [{ name := "Order", properties := [{ name := "id", scalarType := .string, isKey := true }],
       navigations := [{ name := "lines", target := "Line", kind := .embedded true }] },
     { name := "Line", owned := true,
       properties := [{ name := "sku", field := some "article", scalarType := .string, isKey := keyed }],
       navigations := [{ name := "offers", target := "Offer", kind := .collection "lineSku" }] },
     { name := "Offer",
       properties := [{ name := "id", scalarType := .string, isKey := true },
         { name := "lineSku", field := some "line", scalarType := .string }] }]

end Sample

/-- The offers for a line are found by its article if that is the key of lines. -/
theorem lookups_resolved_catalogue :
    ∃ vm, (Sample.catalogue true).validate .standard { bucket := some "app" } = .ok vm ∧
      vm.correlation ⟨"Line", "lines"⟩ "offers" =
        .ok ⟨"lines", "offers", "Offer", "offers", .lookup ["article"] ["line"], false⟩ ∧
      ∃ p k : Property, p.scalarType.comparable k.scalarType = true ∧
        vm.correlation ⟨"Line", "lines"⟩ "offers" =
          .ok ⟨"lines", "offers", "Offer", "offers", .lookup [p.fieldName] [k.fieldName], false⟩ := by
  have hvalid : (Sample.catalogue true).validate .standard { bucket := some "app" } = .ok _ := rfl
  have hline : (Sample.catalogue true).entities[1] ∈ (Sample.catalogue true).entities :=
    List.getElem_mem _
  have hoffers : (Sample.catalogue true).entities[1].navigations[0] ∈
      (Sample.catalogue true).entities[1].navigations := List.getElem_mem _
  have hkey : ¬ (Sample.catalogue true).entities[1].navigations[0].LacksKey
      (Sample.catalogue true).entities[1] := by
    rintro ⟨-, -, hkey⟩
    cases hkey
  obtain ⟨-, -, -, p, k, -, hcomparable, hresolved⟩ :=
    (lookups_resolved hvalid hline hoffers ⟨"lineSku", .inr rfl⟩ ⟨"Line", "lines"⟩ rfl).1 hkey
  exact ⟨_, hvalid, rfl, p, k, hcomparable, hresolved⟩

/-- A line without a key.  The model is valid, and says that the offers are looked up; but from the
lines of an order, there is no way to them. -/
theorem lookups_unresolved :
    ∃ vm c, (Sample.catalogue false).validate .standard { bucket := some "app" } = .ok vm ∧
      ⟨"Line", some "offers", .correlatedLookup "Offer"⟩ ∈ vm.warnings ∧
      vm.correlation ⟨"Order", "order"⟩ "lines" = .ok c ∧ c.targetSet = ⟨"Line", "lines"⟩ ∧
      vm.correlation c.targetSet "offers" =
        .error (.unsupportedNavigation "Line" "offers" "source has no key") :=
  ⟨_, _, rfl, by decide, rfl, rfl, rfl⟩

end EntityQuery
