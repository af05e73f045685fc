import EntityQuery.Proofs.Model.Validity

/-!
# Members of entities

In a valid model the members of an entity have different names, and those that are part of its
document are in different fields.  So a name stands for one member, and a field holds one.

* `Members.Distinct`: no name and no field occurs twice so far.
* `Entity.MembersDiffer`: the names and the fields of the members of an entity.
* `Model.membersDiffer_of_validate`: they are different in a valid model.
-/

namespace EntityQuery

/-! ## Issues of members

Properties and navigations are validated one by one with the names and fields so far.  The induction
carries that these are different, which an error would report otherwise. -/

/-- Whether no name and no field of the members so far occurs twice. -/
structure Members.Distinct (ms : Members) : Prop where
  names : ms.names.Nodup
  fields : (ms.fields.map Prod.fst).Nodup

namespace Members

variable {ms : Members} {entity name field : String}

/-- A name that another member has is an error. -/
lemma notMem_names (h : ∀ i ∈ ms.nameIssues entity name, i.isError = false) : name ∉ ms.names := by
  intro hmem
  have hissue : ⟨entity, some name, .duplicateMember⟩ ∈ ms.nameIssues entity name := by
    simp [nameIssues, hmem]
  cases h _ hissue

/-- A field that another member is in is an error. -/
lemma notMem_fields (h : ∀ i ∈ ms.fieldIssues entity name field, i.isError = false) :
    field ∉ ms.fields.map Prod.fst := by
  intro hmem
  obtain ⟨f, hf, rfl⟩ := List.mem_map.1 hmem
  rw [fieldIssues] at h
  cases hfind : ms.fields.find? fun f' => f'.1 == f.1 with
  | none => simpa using List.find?_eq_none.1 hfind f hf
  | some other =>
      rw [hfind] at h
      cases h _ (List.mem_singleton_self _)

end Members

/-- Properties without errors keep names and fields different. -/
lemma Members.Distinct.properties {registry : Registry} {entity : String} {ps : List Property}
    {ms : Members} (hms : ms.Distinct)
    (h : ∀ i ∈ (propertyIssues registry entity ps ms).1, i.isError = false) :
    Distinct ⟨(ps.map Property.name).reverse ++ ms.names,
      (ps.map fun p => (p.fieldName, p.name)).reverse ++ ms.fields⟩ := by
  induction ps generalizing ms with
  | nil => exact hms
  | cons p ps ih =>
      simp only [propertyIssues, List.mem_append, or_imp, forall_and] at h
      obtain ⟨⟨⟨hname, hfield⟩, -⟩, hrest⟩ := h
      have hp : Distinct ⟨p.name :: ms.names, (p.fieldName, p.name) :: ms.fields⟩ :=
        ⟨List.nodup_cons.2 ⟨notMem_names hname, hms.names⟩,
          List.nodup_cons.2 ⟨notMem_fields hfield, hms.fields⟩⟩
      simpa using ih hp hrest

/-- The members behind the properties. -/
lemma snd_propertyIssues {registry : Registry} {entity : String} (ps : List Property)
    (ms : Members) : (propertyIssues registry entity ps ms).2 =
      ⟨(ps.map Property.name).reverse ++ ms.names,
        (ps.map fun p => (p.fieldName, p.name)).reverse ++ ms.fields⟩ := by
  induction ps generalizing ms with
  | nil => rfl
  | cons p ps ih => simp [propertyIssues, ih]

/-- The fields of the document that navigations are in. -/
def embeddedFields (ns : List Navigation) : List String :=
  (ns.filter Navigation.isEmbedded).map Navigation.fieldName

/-- Navigations without errors have names and fields that are different, from one another and from
those of the members before. -/
lemma Members.Distinct.navigations {entity : String} {ns : List Navigation} {ms : Members}
    (hms : ms.Distinct) (h : ∀ i ∈ navigationNameIssues entity ns ms, i.isError = false) :
    ((ns.map Navigation.name).reverse ++ ms.names).Nodup ∧
      ((embeddedFields ns).reverse ++ ms.fields.map Prod.fst).Nodup := by
  induction ns generalizing ms with
  | nil => exact ⟨hms.names, hms.fields⟩
  | cons n ns ih =>
      simp only [navigationNameIssues, List.mem_append, or_imp, forall_and] at h
      obtain ⟨⟨hname, hfield⟩, hrest⟩ := h
      have hnames : (n.name :: ms.names).Nodup := List.nodup_cons.2 ⟨notMem_names hname, hms.names⟩
      cases hembedded : n.isEmbedded with
      | true =>
          simp only [hembedded, if_true] at hfield hrest
          have hn : Distinct ⟨n.name :: ms.names, (n.fieldName, n.name) :: ms.fields⟩ :=
            ⟨hnames, List.nodup_cons.2 ⟨notMem_fields hfield, hms.fields⟩⟩
          simpa [embeddedFields, hembedded] using ih hn hrest
      | false =>
          simp only [hembedded, Bool.false_eq_true, if_false] at hrest
          have hn : Distinct ⟨n.name :: ms.names, ms.fields⟩ := ⟨hnames, hms.fields⟩
          simpa [embeddedFields, hembedded] using ih hn hrest

/-! ## Members of valid models

A path of members is resolved by names, and documents are materialized by fields.  Since both are
different, what is found under a name is the member that was meant. -/

/-- **Whether the members of an entity have different names**, and are in different fields as far as
they are part of its document. -/
structure Entity.MembersDiffer (e : Entity) : Prop where
  names : (e.properties.map Property.name ++ e.navigations.map Navigation.name).Nodup
  fields : (e.properties.map Property.fieldName ++ embeddedFields e.navigations).Nodup

/-- **The members of the entities of a valid model differ.** -/
theorem Model.membersDiffer_of_validate {m : Model} {registry : Registry}
    {defaults : DefaultKeyspace} {vm : ValidModel} (h : m.validate registry defaults = .ok vm)
    {e : Entity} (he : e ∈ m.entities) : e.MembersDiffer := by
  have herrors : ∀ i ∈ e.memberIssues registry, i.isError = false := fun i hi =>
    (mem_warnings h he (List.mem_append_left _ (List.mem_append_right _ hi))).2
  simp only [Entity.memberIssues, List.mem_append, or_imp, forall_and, snd_propertyIssues]
    at herrors
  have hnone : Members.Distinct {} := ⟨List.nodup_nil, List.nodup_nil⟩
  obtain ⟨hnames, hfields⟩ := (hnone.properties herrors.1).navigations herrors.2
  simp only [List.append_nil, List.map_reverse, ← List.reverse_append, List.nodup_reverse,
    List.map_map] at hnames hfields
  exact ⟨hnames, hfields⟩

namespace Entity.MembersDiffer

variable {e : Entity}

/-- A property is found under its name. -/
lemma property? (h : e.MembersDiffer) {p : Property} (hp : p ∈ e.properties) :
    e.property? p.name = some p :=
  find?_of_nodup (List.nodup_append.1 h.names).1 hp

/-- A navigation is found under its name. -/
lemma navigation? (h : e.MembersDiffer) {n : Navigation} (hn : n ∈ e.navigations) :
    e.navigation? n.name = some n :=
  find?_of_nodup (List.nodup_append.1 h.names).2.1 hn

end Entity.MembersDiffer
end EntityQuery
