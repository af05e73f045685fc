import EntityQuery.Proofs.Evaluation.Kinds
import EntityQuery.Proofs.Model.Lookups
import EntityQuery.Proofs.Translation.Conformance

/-!
# Properties at the end of paths

A property of an entity may be inside of objects that the documents of the entity embed.  Its path
leads from object to object, and past an object that is absent nothing is found.

* `Expression.eval_path`: the value of a path is what the fields lead to from the value of its base.
* `ValidModel.followPath_cons_eq_ok`: where the first name of a path leads.
* `Translator.property_conforms`: in a document that conforms to an entity, the path of a property
  leads to a value of its type; it is missing or null only if the property may be so.
-/

namespace EntityQuery

/-- What some fields lead to, one inside of the other. -/
def followFields (names : List String) (v : Datum) : Datum :=
  names.foldl (fun v name => v.bind (Document.field? name)) v

lemma followFields_none (names : List String) : followFields names none = none := by
  induction names with
  | nil => rfl
  | cons name names ih => exact ih

lemma followFields_cons (name : String) (names : List String) (d : Document) :
    followFields (name :: names) (some d) = followFields names (d.field? name) := rfl

/-- Nothing is inside of what is missing or null. -/
lemma isValued_followFields (names : List String) {v : Datum} (hv : ∀ d, v = some d → d = .null) :
    isValued (followFields names v) = false := by
  cases v with
  | none => simp [followFields_none, isValued]
  | some d =>
      rw [hv d rfl]
      cases names with
      | nil => rfl
      | cons name names => exact congrArg isValued (followFields_none names)

/-- **The value of a path is what its fields lead to.** -/
theorem Expression.eval_path {env : Environment} {scope : Scope} (base : Expression)
    (names : List String) : (base.path names).eval env scope =
      (base.eval env scope).map (followFields names) := by
  induction names generalizing base with
  | nil => cases h : base.eval env scope <;> simp [path, followFields, h, Except.map]
  | cons name names ih =>
      rw [path, List.foldl_cons, ← path, ih, Expression.eval]
      cases base.eval env scope <;> rfl

/-- **A step on a path** ends at a property, or leads through a single object that is embedded. -/
theorem ValidModel.followPath_cons_eq_ok {m : ValidModel} {s : EntitySet} {member name : String}
    {e : Entity} {path names : List String} {nullable : Bool} {p : PropertyPath}
    (h : m.followPath s member e path nullable (name :: names) = .ok p) :
    (∃ q, e.property? name = some q ∧ names = [] ∧ p = ⟨s.aliasName, s.entity, member,
      path ++ [q.fieldName], q.scalarType, nullable || q.nullable⟩) ∨
    ∃ n target, e.navigation? name = some n ∧ n.kind = .embedded false ∧
      m.entity? n.target = some target ∧
      m.followPath s member target (path ++ [n.fieldName]) (nullable || n.optional) names =
        .ok p := by
  rw [followPath] at h
  cases hproperty : e.property? name with
  | some q =>
      simp only [hproperty] at h
      split at h
      · rename_i hlast
        cases h
        exact .inl ⟨q, rfl, List.isEmpty_iff.1 hlast, rfl⟩
      · cases h
  | none =>
      simp only [hproperty] at h
      cases hnavigation : e.navigation? name with
      | none => simp [hnavigation] at h
      | some n =>
          simp only [hnavigation] at h
          split at h
          · cases h
          · rename_i hkind
            split at h
            · cases h
            · cases htarget : m.entity? n.target with
              | none => simp [htarget] at h
              | some target =>
                  simp only [htarget] at h
                  exact .inr ⟨n, target, rfl, hkind, htarget, h⟩
          · cases h

namespace Translator

variable {tr : Translator}

/-- **What the fields of a property lead to** in a document that conforms. -/
theorem followPath_conforms {entity : String} {e : Entity} {s : EntitySet} {member : String}
    {path names : List String} {nullable : Bool} {p : PropertyPath}
    (he : tr.model.entity? entity = some e)
    (hp : tr.model.followPath s member e path nullable names = .ok p) :
    ∃ fields, p.path = path ++ fields ∧ (p.nullable = false → nullable = false) ∧
      ∀ d, tr.Conforms entity d →
        tr.registry.Fits p.scalarType (followFields fields (some d)) ∧
        (p.nullable = false → isValued (followFields fields (some d)) = true) := by
  induction names generalizing entity e path nullable with
  | nil => cases hp
  | cons name names ih =>
      obtain ⟨property, hproperty, rfl, rfl⟩ | ⟨n, target, hnavigation, hkind, htarget, hp⟩ :=
        ValidModel.followPath_cons_eq_ok hp
      · refine ⟨[property.fieldName], rfl, fun h => (Bool.or_eq_false_iff.1 h).1, ?_⟩
        intro d hd
        obtain ⟨hvalue, hpresent⟩ := hd.property he (List.mem_of_find?_eq_some hproperty)
        exact ⟨fun d' hd' _ => hvalue d' hd',
          fun h => isValued_iff.2 (hpresent (Bool.or_eq_false_iff.1 h).2)⟩
      · have hn : n ∈ e.navigations := List.mem_of_find?_eq_some hnavigation
        obtain ⟨fields, hpath, hnullable, hinner⟩ := ih htarget hp
        refine ⟨n.fieldName :: fields, by simp [hpath],
          fun h => (Bool.or_eq_false_iff.1 (hnullable h)).1, ?_⟩
        intro d hd
        rw [followFields_cons]
        rcases hd.part he hn hkind with ⟨d', hd', hconforms⟩ | ⟨hoptional, habsent⟩
        · rw [hd']
          exact hinner d' hconforms
        · -- past an object that is absent nothing is found
          refine ⟨Registry.fits_of_not_isValued (isValued_followFields fields habsent), ?_⟩
          intro h
          rw [hoptional, Bool.or_true] at hnullable
          cases hnullable h

/-- **What a property leads to** in a document that conforms to its entity. -/
theorem property_conforms {s : EntitySet} {member : String} {p : PropertyPath}
    (hp : tr.model.property s member = .ok p) {d : Document} (hd : tr.Conforms s.entity d) :
    tr.registry.Fits p.scalarType (followFields p.path (some d)) ∧
      (p.nullable = false → isValued (followFields p.path (some d)) = true) := by
  obtain ⟨e, he, hp⟩ := Computation.bind_eq_ok.1 hp
  obtain ⟨fields, hpath, -, h⟩ := followPath_conforms (ValidModel.entityOf_eq_ok.1 he) hp
  rw [List.nil_append] at hpath
  rw [hpath]
  exact h d hd

end Translator
end EntityQuery
