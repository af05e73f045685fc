import EntityQuery.Proofs.Model.Ownership

/-!
# Valid models

What queries need of a model, each promised by the absence of one kind of error.

* `Model.validate_eq_ok`: a model is valid if none of its issues is an error.
* `Model.IsComplete`: names are different, types have codecs, targets are known, roots have
  keyspaces, and no entity owns itself.
* `Model.isComplete_of_validate`: a valid model is complete.
* `Model.warns_of_embedded_root`: a valid model warns of the roots that are embedded.
-/

namespace EntityQuery

namespace Model

variable {m : Model} {registry : Registry} {defaults : DefaultKeyspace} {vm : ValidModel}

/-- **A model is valid** if none of its issues is an error.  It keeps the others as warnings. -/
theorem validate_eq_ok : m.validate registry defaults = .ok vm ↔
    (∀ i ∈ m.issues registry defaults, i.isError = false) ∧
      vm = ⟨m, defaults, m.issues registry defaults⟩ := by
  have hnone : (m.issues registry defaults).any Issue.isError = false ↔
      ∀ i ∈ m.issues registry defaults, i.isError = false := by simp
  rw [← hnone]
  simp only [validate]
  cases (m.issues registry defaults).any Issue.isError <;> simp [eq_comm]

/-- A valid model has the entities of the model. -/
lemma entity?_of_validate (h : m.validate registry defaults = .ok vm) (name : String) :
    vm.entity? name = m.entity? name := by
  rw [(validate_eq_ok.1 h).2, ValidModel.entity?]

/-! ## Issues of entities -/

/-- Entities with one name are an error. -/
lemma nodup_of_issuesOf {es : List Entity} {seen : List String}
    (h : ∀ i ∈ m.issuesOf registry defaults seen es, i.isError = false) :
    (es.map Entity.name).Nodup ∧ ∀ e ∈ es, e.name ∉ seen := by
  induction es generalizing seen with
  | nil => simp
  | cons e es ih =>
      rw [issuesOf] at h
      split at h
      · cases h _ List.mem_cons_self
      · rename_i hnew
        obtain ⟨hnodup, hlater⟩ := ih fun i hi => h i (List.mem_append_right _ hi)
        constructor
        · rw [List.map_cons, List.nodup_cons, List.mem_map]
          refine ⟨?_, hnodup⟩
          rintro ⟨e', he', hname⟩
          exact hlater e' he' (hname ▸ List.mem_cons_self)
        · intro e' he'
          rcases List.mem_cons.1 he' with rfl | he'
          · simpa using hnew
          · exact fun hmem => hlater e' he' (List.mem_cons_of_mem _ hmem)

/-- If names are different, the issues of each entity are issues of the model. -/
lemma mem_issuesOf {es : List Entity} {seen : List String} {e : Entity} {i : Issue}
    (hnodup : (es.map Entity.name).Nodup) (hseen : ∀ e ∈ es, e.name ∉ seen) (he : e ∈ es)
    (hi : i ∈ m.entityIssues registry defaults e) : i ∈ m.issuesOf registry defaults seen es := by
  induction es generalizing seen with
  | nil => cases he
  | cons e' es ih =>
      rw [List.map_cons, List.nodup_cons] at hnodup
      have hnew : seen.contains e'.name = false := by simpa using hseen e' List.mem_cons_self
      rw [issuesOf, hnew, if_neg Bool.false_ne_true, List.mem_append]
      rcases List.mem_cons.1 he with rfl | he
      · exact .inl hi
      · refine .inr (ih hnodup.2 (fun e he hmem => ?_) he)
        rcases List.mem_cons.1 hmem with hname | hmem
        · exact hnodup.1 (hname ▸ List.mem_map_of_mem he)
        · exact hseen e (List.mem_cons_of_mem _ he) hmem

/-- A property whose type has no codec is an issue, whatever its name and its field. -/
lemma exists_unmapped {ps : List Property} {p : Property} (hp : p ∈ ps)
    (h : registry.contains p.scalarType = false) (entity : String) (ms : Members) :
    ⟨entity, some p.name, .unmappedProperty p.scalarType⟩ ∈
      (propertyIssues registry entity ps ms).1 := by
  induction ps generalizing ms with
  | nil => cases hp
  | cons p' ps ih =>
      rw [propertyIssues]
      rcases List.mem_cons.1 hp with rfl | hp
      · simp [h]
      · exact List.mem_append_right _ (ih hp _)

end Model

/-! ## What is promised

An issue is an error or a warning by its kind alone, so a valid model has only issues of some kinds.
Each part of what queries need is violated only with an issue of another kind. -/

/-- **What queries need of a model.** -/
structure Model.IsComplete (m : Model) (registry : Registry) (defaults : DefaultKeyspace) :
    Prop where
  nodup : m.names.Nodup
  registered : ∀ e ∈ m.entities, ∀ p ∈ e.properties, registry.contains p.scalarType = true
  targets : ∀ e ∈ m.entities, ∀ n ∈ e.navigations, ∃ t ∈ m.entities, t.name = n.target
  placed : ∀ e ∈ m.entities, e.isRoot = true → ∃ k, defaults.resolve e = some k
  acyclic : ∀ name, ¬ Relation.TransGen m.Owns name name

section

variable {m : Model} {registry : Registry} {defaults : DefaultKeyspace} {vm : ValidModel}

/-- The issues of the entities of a valid model are warnings. -/
lemma Model.mem_warnings (h : m.validate registry defaults = .ok vm) {e : Entity}
    (he : e ∈ m.entities) {i : Issue} (hi : i ∈ m.entityIssues registry defaults e) :
    i ∈ vm.warnings ∧ i.isError = false := by
  obtain ⟨herrors, rfl⟩ := validate_eq_ok.1 h
  obtain ⟨hnodup, hseen⟩ :=
    nodup_of_issuesOf fun i hi => herrors i (List.mem_append_left _ hi)
  have hmem : i ∈ m.issues registry defaults :=
    List.mem_append_left _ (mem_issuesOf hnodup hseen he hi)
  exact ⟨hmem, herrors i hmem⟩

/-- The issues of the navigations of a valid model are warnings. -/
lemma Model.mem_warnings_of_defect (h : m.validate registry defaults = .ok vm) {e : Entity}
    (he : e ∈ m.entities) {n : Navigation} (hn : n ∈ e.navigations) {defect : Defect}
    (hdefect : defect ∈ m.navigationDefects e n) :
    ⟨e.name, some n.name, defect⟩ ∈ vm.warnings ∧ defect.isError = false :=
  mem_warnings h he (List.mem_append_right _
    (List.mem_flatMap.2 ⟨n, hn, List.mem_map_of_mem hdefect⟩))

/-- **A valid model is complete.** -/
theorem Model.isComplete_of_validate (h : m.validate registry defaults = .ok vm) :
    m.IsComplete registry defaults := by
  obtain ⟨herrors, -⟩ := validate_eq_ok.1 h
  have hnodup : m.names.Nodup :=
    (nodup_of_issuesOf fun i hi => herrors i (List.mem_append_left _ hi)).1
  refine ⟨hnodup, fun e he p hp => ?_, fun e he n hn => ?_, fun e he hroot => ?_,
    fun name hcycle => ?_⟩
  · by_contra hcontains
    have hissue := exists_unmapped hp (Bool.eq_false_iff.2 hcontains) e.name {}
    have hwarning := mem_warnings h he (List.mem_append_left _
      (List.mem_append_right _ (List.mem_append_left _ hissue)))
    cases hwarning.2
  · cases htarget : m.entity? n.target with
    | some t =>
        obtain ⟨ht, hname⟩ := mem_of_entity? htarget
        exact ⟨t, ht, hname⟩
    | none =>
        have hdefect : .unknownTarget n.target ∈ m.navigationDefects e n := by
          simp [navigationDefects, htarget]
        cases (mem_warnings_of_defect h he hn hdefect).2
  · cases hkeyspace : defaults.resolve e with
    | some k => exact ⟨k, rfl⟩
    | none =>
        have hissue : ⟨e.name, none, .missingKeyspace⟩ ∈ e.placeIssues defaults := by
          simp_all [Entity.placeIssues, Entity.isRoot]
        have hwarning := mem_warnings h he (List.mem_append_left _ (List.mem_append_left _ hissue))
        cases hwarning.2
  · obtain ⟨i, hi, cycle, hdefect, -⟩ := exists_reported hnodup hcycle
    have herror := herrors i hi
    rw [Issue.isError, hdefect] at herror
    cases herror

/-- **A valid model warns of the roots that are embedded.** -/
theorem Model.warns_of_embedded_root (h : m.validate registry defaults = .ok vm) {e t : Entity}
    (he : e ∈ m.entities) {n : Navigation} (hn : n ∈ e.navigations) (hembedded : n.isEmbedded = true)
    (ht : t ∈ m.entities) (hname : t.name = n.target) (hroot : t.isRoot = true) :
    ⟨e.name, some n.name, .embeddedRoot t.name⟩ ∈ vm.warnings := by
  have htarget := entity?_of_mem (isComplete_of_validate h).nodup ht
  refine (mem_warnings_of_defect h he hn ?_).1
  cases hkind : n.kind with
  | embedded many => simp [navigationDefects, ← hname, htarget, hkind, hroot]
  | _ => simp [Navigation.isEmbedded, hkind] at hembedded

end

end EntityQuery
