import EntityQuery.Proofs.Computation
import EntityQuery.Proofs.Model.Validity
import EntityQuery.Query.EntitySet

/-!
# Navigations of valid models

A reference or a collection compares a foreign key of one entity with the key of another.  A model
is valid only if the two can be compared, for each navigation of each of its entities.

* `Navigation.keys?`: the properties that a navigation compares, of its source and of its target.
* `ValidModel.lookupKeys`: the two properties as formulas over a set and over the set that a
  navigation leads to.
* `Model.comparable_keys`: in a valid model the two can be compared.
* `ValidModel.correlation_lookup`: a correlated navigation looks documents up by these properties.
-/

namespace EntityQuery

/-- The properties that a reference or collection compares: one of its source, and one of its
target. -/
def Navigation.keys? (n : Navigation) (source target : Entity) : Option (Property × Property) :=
  match n.kind with
  | .reference foreignKey => do
    let p ← source.property? foreignKey
    let k ← target.key?
    some (p, k)
  | .collection foreignKey => do
    let k ← source.key?
    let p ← target.property? foreignKey
    some (k, p)
  | .embedded _ | .through _ => none

/-- The path of a property of the entity of a set. -/
def EntitySet.path (s : EntitySet) (p : Property) : PropertyPath :=
  ⟨s.aliasName, s.entity, p.name, [p.fieldName], p.scalarType, p.nullable⟩

/-- The properties that a navigation from a set to another one compares, as formulas. -/
def ValidModel.lookupKeys (m : ValidModel) (s : EntitySet) (name : String) (target : EntitySet) :
    Option (Formula × Formula) := do
  let source ← m.entity? s.entity
  let n ← source.navigation? name
  let targetEntity ← m.entity? target.entity
  let keys ← n.keys? source targetEntity
  some (.property (s.path keys.1), .property (target.path keys.2))

/-! ## Properties by name -/

/-- The entity of a set is the one of its name. -/
lemma ValidModel.entityOf_eq_ok {m : ValidModel} {s : EntitySet} {e : Entity} :
    m.entityOf s = .ok e ↔ m.entity? s.entity = some e := by
  rw [entityOf]
  cases m.entity? s.entity <;> simp

/-! ## Issues of navigations

The validation of a navigation reports what it finds and goes on, so that its result is a list of
issues.  That a navigation has no errors among them is turned here into what its keys are. -/

/-- A lookup without errors compares a foreign key and a key that can be compared. -/
lemma comparable_of_lookupDefects {target owner keyOwner : Entity} {foreignKey : String}
    (h : ∀ defect ∈ lookupDefects target owner foreignKey keyOwner, defect.isError = false)
    {p k : Property} (hp : owner.property? foreignKey = some p) (hk : keyOwner.key? = some k) :
    p.scalarType.comparable k.scalarType = true := by
  by_contra hcomparable
  have hmem : Defect.foreignKeyType p.scalarType k.scalarType ∈
      lookupDefects target owner foreignKey keyOwner := by
    rw [lookupDefects]
    simp only [hp, hk, if_neg hcomparable]
    rw [if_neg (by simp)]
    exact List.mem_append_right _ (List.mem_singleton_self _)
  cases h _ hmem

/-- **In a valid model the properties that a navigation compares can be compared.** -/
theorem Model.comparable_keys {m : Model} {registry : Registry} {defaults : DefaultKeyspace}
    {vm : ValidModel} (h : m.validate registry defaults = .ok vm) {e target : Entity}
    (he : e ∈ m.entities) {n : Navigation} (hn : n ∈ e.navigations)
    (htarget : m.entity? n.target = some target) {p k : Property}
    (hkeys : n.keys? e target = some (p, k)) : p.scalarType.comparable k.scalarType = true := by
  have herrors : ∀ defect ∈ m.navigationDefects e n, defect.isError = false :=
    fun defect hdefect => (mem_warnings_of_defect h he hn hdefect).2
  simp only [navigationDefects, htarget] at herrors
  rw [Navigation.keys?] at hkeys
  cases hkind : n.kind with
  | embedded | through => simp [hkind] at hkeys
  | reference foreignKey =>
      simp only [hkind] at hkeys herrors
      obtain ⟨p, hp, hkeys⟩ := Option.bind_eq_some_iff.1 hkeys
      obtain ⟨k, hk, hkeys⟩ := Option.bind_eq_some_iff.1 hkeys
      cases hkeys
      exact comparable_of_lookupDefects herrors hp hk
  | collection foreignKey =>
      simp only [hkind] at hkeys herrors
      obtain ⟨k, hk, hkeys⟩ := Option.bind_eq_some_iff.1 hkeys
      obtain ⟨p, hp, hkeys⟩ := Option.bind_eq_some_iff.1 hkeys
      cases hkeys
      rw [ScalarType.comparable_comm]
      exact comparable_of_lookupDefects herrors hp hk

/-! ## Correlated navigations

A correlation is built from a model and a set when an application writes the query, long after the
validation.  It finds the same two properties, because it looks them up under the same names. -/

/-- The kind of a navigation that looks documents up names the fields of the properties that it
compares. -/
lemma ValidModel.keys_of_correlationKind {source target : Entity} {n : Navigation}
    {sourceField targetField : List String}
    (h : correlationKind source target n = .ok (.lookup sourceField targetField)) :
    ∃ p k : Property, n.keys? source target = some (p, k) ∧ sourceField = [p.fieldName] ∧
      targetField = [k.fieldName] := by
  rw [correlationKind] at h
  rw [Navigation.keys?]
  cases hkind : n.kind with
  | embedded many => cases many <;> simp [hkind] at h
  | through => simp [hkind] at h
  | reference foreignKey =>
      simp only [hkind] at h ⊢
      cases hp : source.property? foreignKey with
      | none => simp [hp] at h
      | some p =>
          cases hk : target.key? with
          | none => simp [hp, hk] at h
          | some k =>
              simp only [hp, hk] at h
              cases h
              exact ⟨p, k, rfl, rfl, rfl⟩
  | collection foreignKey =>
      simp only [hkind] at h ⊢
      cases hp : target.property? foreignKey with
      | none => simp [hp] at h
      | some p =>
          cases hk : source.key? with
          | none => simp [hp, hk] at h
          | some k =>
              simp only [hp, hk] at h
              cases h
              exact ⟨k, p, rfl, rfl, rfl⟩

/-- A correlated navigation leads from the entity of its set to the entity that it names. -/
lemma ValidModel.correlation_eq_ok {m : ValidModel} {s : EntitySet} {name : String} {c : Correlation}
    (h : m.correlation s name = .ok c) :
    ∃ source n target kind, m.entity? s.entity = some source ∧ source.navigation? name = some n ∧
      m.entity? n.target = some target ∧ correlationKind source target n = .ok kind ∧
      c = ⟨s.aliasName, name, target.name, name, kind, false⟩ := by
  obtain ⟨source, hsource, h⟩ := Computation.bind_eq_ok.1 h
  split at h
  case h_1 => cases h
  case h_2 n hn =>
    split at h
    case h_1 => cases h
    case h_2 target htarget =>
      split at h
      case h_2 => cases h
      case h_1 kind hkind =>
        cases h
        exact ⟨source, n, target, kind, entityOf_eq_ok.1 hsource, hn, htarget, hkind, rfl⟩

/-- **A correlated reference or collection looks documents up by the properties that it compares**,
which can be compared if the model is valid. -/
theorem ValidModel.correlation_lookup {m : Model} {registry : Registry} {defaults : DefaultKeyspace}
    {vm : ValidModel} (h : m.validate registry defaults = .ok vm) {s : EntitySet} {name : String}
    {c : Correlation} (hc : vm.correlation s name = .ok c) {sourceField targetField : List String}
    (hkind : c.kind = .lookup sourceField targetField) :
    c.sourceAlias = s.aliasName ∧ ∃ p k : Property, sourceField = [p.fieldName] ∧
      targetField = [k.fieldName] ∧ p.scalarType.comparable k.scalarType = true ∧
      ∀ aliasName, vm.lookupKeys s name ⟨c.target, aliasName⟩ =
        some (.property (s.path p), .property (EntitySet.path ⟨c.target, aliasName⟩ k)) := by
  obtain ⟨source, n, target, kind, hsource, hn, htarget, hk, rfl⟩ := correlation_eq_ok hc
  cases hkind
  obtain ⟨p, k, hkeys, rfl, rfl⟩ := keys_of_correlationKind hk
  have hname : target.name = n.target := by simpa using List.find?_some htarget
  refine ⟨rfl, p, k, rfl, rfl, ?_, fun aliasName => ?_⟩
  · have hmodel : vm.model = m := by
      simp only [Model.validate] at h
      split at h <;> cases h
      rfl
    rw [entity?, hmodel] at hsource htarget
    exact Model.comparable_keys h (List.mem_of_find?_eq_some hsource)
      (List.mem_of_find?_eq_some hn) htarget hkeys
  · simp only [lookupKeys, hsource, hn, hname, htarget, hkeys, Option.bind_eq_bind,
      Option.bind_some]

end EntityQuery
