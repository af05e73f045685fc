import EntityQuery.Proofs.Plan.Binding
import EntityQuery.Proofs.Translation.Relocation
import EntityQuery.Proofs.Translation.Slots

/-!
# Binding the constants of a right operand

A query that is translated behind another one has the slots of its constants further on, in a table
that is shared with other queries.  Its parameters have the values there that they have when the
query stands alone.

* `ParameterTable.Embeds`: a table has the entries of another one, those of slots further on.
* `ParameterTable.embeds_of_binds`: the table of a query has the entries of each part of its inputs.
* `Plan.shifts_bind`: the values of an embedded table are found further on.
* `Query.HasRows.follows`: a query that is a right operand does what it does on its own.
-/

namespace EntityQuery

namespace ParameterTable

/-- A table has the entries of another one: those of slots further on by a number, and those of
parameters under their names. -/
structure Embeds (t' t : ParameterTable) (shift : Nat) : Prop where
  slots : ∀ e ∈ t.entries, ∀ k, e.origin = .constant k →
    ∃ e', t'.find? (slotName (k + shift)) = some e' ∧
      e'.origin = .constant (k + shift) ∧ e'.scalarType = e.scalarType
  named : ∀ e ∈ t.entries, e.origin = .named → ∃ e', t'.find? e.name = some e' ∧
    e'.origin = .named ∧ e'.scalarType = e.scalarType

/-- An entry of a parameter was there before, or has been read. -/
lemma Binds.parameter_of_mem {n : Nat} {is : List Input} {t t' : ParameterTable}
    (h : Binds n is t t') {e : ParameterEntry} (he : e ∈ t'.entries) (hnamed : e.origin = .named) :
    (∃ e' ∈ t.entries, e'.origin = .named ∧ e'.name = e.name ∧ e'.scalarType = e.scalarType) ∨
      .parameter e.name e.scalarType ∈ is := by
  induction h with
  | refl => exact .inl ⟨e, he, hnamed, rfl, rfl⟩
  | @bound n c is t t' _ ih =>
      rcases ih he with ⟨e', he', hnamed', hsame⟩ | hmem
      · rw [bindSlot] at he'
        split at he'
        · exact .inl ⟨e', he', hnamed', hsame⟩
        · rcases List.mem_append.1 he' with he' | he'
          · exact .inl ⟨e', he', hnamed', hsame⟩
          · rw [List.mem_singleton.1 he'] at hnamed'
            cases hnamed'
      · exact .inr (.tail _ hmem)
  | tested _ ih => exact (ih he).imp_right (.tail _)
  | @named n name type is t t₁ t' hname _ ih =>
      rcases ih he with ⟨e', he', hnamed', hsame⟩ | hmem
      · obtain ⟨-, ⟨_, -, -, rfl⟩ | ⟨-, rfl⟩⟩ := bindNamed_eq_ok hname
        · exact .inl ⟨e', he', hnamed', hsame⟩
        · rcases List.mem_append.1 he' with he' | he'
          · exact .inl ⟨e', he', hnamed', hsame⟩
          · rw [List.mem_singleton.1 he'] at hsame
            obtain ⟨rfl, rfl⟩ := hsame
            exact .inr List.mem_cons_self
      · exact .inr (.tail _ hmem)
  | marked _ ih =>
      rcases ih he with ⟨e', he', hnamed', hsame⟩ | hmem
      · obtain ⟨e₀, he₀, rfl | rfl⟩ := mem_markFirst he'
        · exact .inl ⟨e', he₀, hnamed', hsame⟩
        · exact .inl ⟨e₀, he₀, hnamed', hsame⟩
      · exact .inr hmem

/-- A parameter that has been read has an entry of its type. -/
lemma Binds.find?_parameter {n : Nat} {is : List Input} {t t' : ParameterTable}
    (h : Binds n is t t') {name : String} {type : ScalarType} (hmem : .parameter name type ∈ is) :
    ∃ e, t'.find? name = some e ∧ e.scalarType = type := by
  have hfind : ∀ {t t₁ : ParameterTable}, t.bindNamed name type = .ok (t₁, name) →
      ∃ e, t₁.find? name = some e ∧ e.scalarType = type := by
    intro t t₁ hname
    obtain ⟨-, ⟨e, he, htype, rfl⟩ | ⟨hnone, rfl⟩⟩ := bindNamed_eq_ok hname
    · exact ⟨e, he, htype⟩
    · refine ⟨⟨name, type, .named, false⟩, ?_, rfl⟩
      rw [find?, push] at *
      rw [List.find?_append, hnone]
      simp
  induction h with
  | refl => cases hmem
  | bound _ ih | tested _ ih =>
      rcases List.mem_cons.1 hmem with hmem | hmem
      · cases hmem
      · exact ih hmem
  | named hname hrest ih =>
      rcases List.mem_cons.1 hmem with hmem | hmem
      · cases hmem
        obtain ⟨e, he, htype⟩ := hfind hname
        obtain ⟨rowCount, he'⟩ := hrest.extends name e he
        exact ⟨_, he', htype⟩
      · exact ih hmem
  | marked _ ih => exact ih hmem

/-- Where each name occurs once, an entry is found by its name. -/
lemma find?_of_mem {t : ParameterTable} (hnodup : t.names.Nodup) {e : ParameterEntry}
    (he : e ∈ t.entries) : t.find? e.name = some e := by
  obtain ⟨entries⟩ := t
  simp only [names, find?] at *
  induction entries with
  | nil => cases he
  | cons first entries ih =>
      rw [List.map_cons, List.nodup_cons] at hnodup
      rw [List.find?_cons]
      rcases List.mem_cons.1 he with rfl | he
      · rw [beq_self_eq_true]
      · have hne : (first.name == e.name) = false := by
          refine beq_eq_false_iff_ne.2 fun heq => hnodup.1 ?_
          rw [heq]
          exact List.mem_map_of_mem he
        rw [hne]
        exact ih hnodup.2 he

section

variable {is : List Input} {t : ParameterTable}

/-- A slot that has been read and is not tested has an entry of its type. -/
lemma Binds.find?_slot (h : Binds 0 is empty t) {k : Nat} {c : Captured}
    (hk : (slotsOf is)[k]? = some ⟨c, false⟩) :
    ∃ e, t.find? (slotName k) = some e ∧ e.origin = .constant k ∧ e.scalarType = c.scalarType := by
  have haligned : Aligned (slotsOf is) t := aligned_empty.binds h
  obtain ⟨e, he, hslot⟩ := haligned.covered k c hk
  obtain ⟨hname, c', hk', htype⟩ := haligned.fits e he k hslot
  cases hk.symm.trans hk'
  exact ⟨e, hname ▸ find?_of_mem haligned.nodup he, ParameterEntry.slot?_eq_some.1 hslot, htype.symm⟩

/-- A parameter that has been read has an entry of its type, which is not that of a slot. -/
lemma Binds.find?_named (h : Binds 0 is empty t) {name : String} {type : ScalarType}
    (hmem : .parameter name type ∈ is) :
    ∃ e, t.find? name = some e ∧ e.origin = .named ∧ e.scalarType = type := by
  obtain ⟨e, hfind, htype⟩ := h.find?_parameter hmem
  obtain ⟨he, hname⟩ := find?_eq_some hfind
  have hapart := h.namesApart name type hmem
  rw [← hname] at hapart
  have haligned : Aligned (slotsOf is) t := aligned_empty.binds h
  exact ⟨e, hfind, haligned.origin_of_name he hapart, htype⟩

end

/-- **The table of some inputs has the entries of a part of them**, whose slots come behind those of
the part before. -/
theorem embeds_of_binds {before is after : List Input} {t t' : ParameterTable}
    (h : Binds 0 is empty t) (h' : Binds 0 (before ++ is ++ after) empty t') :
    t'.Embeds t (slotsOf before).length := by
  have haligned : Aligned (slotsOf is) t := aligned_empty.binds h
  constructor
  · intro e he k hk
    obtain ⟨-, c, hc, htype⟩ := haligned.fits e he k (ParameterEntry.slot?_eq_some.2 hk)
    have hc' : (slotsOf (before ++ is ++ after))[k + (slotsOf before).length]? = some ⟨c, false⟩ := by
      rw [slotsOf_append, slotsOf_append, List.append_assoc,
        List.getElem?_append_right (Nat.le_add_left ..), Nat.add_sub_cancel,
        List.getElem?_append_left (List.getElem?_eq_some_iff.1 hc).1, hc]
    obtain ⟨e', hfind, horigin, htype'⟩ := h'.find?_slot hc'
    exact ⟨e', hfind, horigin, htype'.trans htype⟩
  · intro e he hnamed
    obtain ⟨e', he', -⟩ | hmem := h.parameter_of_mem he hnamed
    · cases he'
    · exact h'.find?_named (List.mem_append_left _ (List.mem_append_right _ hmem))

end ParameterTable

/-! ## Values

A placeholder of a slot is looked up further on by the number of constants in front, and one of a
parameter under its own name.  So an embedded statement is evaluated as before, with the one change
in the numbers of its slots. -/

namespace Plan

variable {registry : Registry} {key key' : PlanKey} {number number' : Nat} {t t' : Translation}
  {plan plan' : Plan} {before cs after : List Captured} {c : Context}
  {parameters parameters' : List (String × Document)}

/-- **The values of an embedded table are found further on**, if its constants come behind as many
others. -/
theorem shifts_bind {slots : List Slot} (haligned : t.query.parameters.Aligned slots)
    (hembeds : t'.query.parameters.Embeds t.query.parameters before.length)
    (hplan : compile registry key number t = .ok plan) (hbind : plan.bind cs c = .ok parameters)
    (hplan' : compile registry key' number' t' = .ok plan')
    (hbind' : plan'.bind (before ++ cs ++ after) c = .ok parameters') (collections : Collections) :
    Environment.Shifts ⟨collections, parameters⟩ ⟨collections, parameters'⟩ before.length := by
  refine ⟨rfl, fun k d hd => ?_, fun name d hname hd => ?_⟩
  · obtain ⟨e, value, he, hvalue, hdocument⟩ := exists_entry_of_parameter? hplan hbind hd
    obtain ⟨hmem, hname⟩ := ParameterTable.find?_eq_some he
    have horigin := haligned.origin_of_slotName hmem hname
    obtain ⟨e', he', horigin', htype⟩ := hembeds.slots e hmem k horigin
    obtain ⟨value', d', hvalue', hdocument', hd'⟩ :=
      parameter?_of_entry hplan' hbind' he' collections
    -- the constant of the slot is the one that comes behind the others
    obtain ⟨captured, hcaptured, rfl⟩ := ParameterEntry.exists_of_supply hvalue horigin
    have hlt : k < cs.length := (List.getElem?_eq_some_iff.1 hcaptured).1
    have hcaptured' : (before ++ cs ++ after)[k + before.length]? = some captured := by
      rw [List.append_assoc, List.getElem?_append_right (Nat.le_add_left ..), Nat.add_sub_cancel,
        List.getElem?_append_left hlt, hcaptured]
    rw [ParameterEntry.eq_value_of_supply hvalue' horigin' hcaptured', htype] at hdocument'
    exact hd'.trans (hdocument'.symm.trans hdocument)
  · obtain ⟨e, value, he, hvalue, hdocument⟩ := exists_entry_of_parameter? hplan hbind hd
    obtain ⟨hmem, rfl⟩ := ParameterTable.find?_eq_some he
    have horigin := haligned.origin_of_name hmem hname
    obtain ⟨e', he', horigin', htype⟩ := hembeds.named e hmem horigin
    obtain ⟨value', d', hvalue', hdocument', hd'⟩ :=
      parameter?_of_entry hplan' hbind' he' collections
    have hsupplied := ParameterEntry.parameter?_of_supply hvalue horigin
    have hsupplied' := ParameterEntry.parameter?_of_supply hvalue' horigin'
    rw [(ParameterTable.find?_eq_some he').2, hsupplied] at hsupplied'
    cases hsupplied'
    rw [htype] at hdocument'
    exact hd'.trans (hdocument'.symm.trans hdocument)

end Plan

/-- **A query that is translated behind another one does what it does on its own**, if it takes its
slots behind those of the other one and its constants are bound there. -/
theorem Query.HasRows.follows {tr : Translator} {c : Context} {q : Query} {t t' : Translation}
    {collections : Collections} {parameters parameters' : List (String × Document)}
    {rows : List Document} (h : q.HasRows tr c t ⟨collections, parameters⟩ rows) {p p' : Progress}
    {s' : Stage} (hstage' : tr.stage q p = .ok (s', p')) {before more : List Captured}
    (hnext : p.nextSlot = before.length) {is js : List Input}
    (hslots : (slotsOf is).length = before.length)
    (hbinds : ParameterTable.Binds 0 (is ++ q.inputs ++ js) .empty t'.query.parameters)
    {key : PlanKey} {number : Nat} {plan : Plan}
    (hplan : Plan.compile tr.registry key number t' = .ok plan)
    (hbind : plan.bind (before ++ q.constants ++ more) c = .ok parameters') :
    ∃ s p₀, tr.stage q {} = .ok (s, p₀) ∧ t.query.statement = s.statement ∧
      s.Follows ⟨collections, parameters⟩ ⟨collections, parameters'⟩ s' := by
  obtain ⟨s, p₀, hstage, hquery, -⟩ := Translator.translate_eq_ok h.translated
  obtain ⟨hlowered, hreads⟩ := Translator.stage_eq_ok hstage
  obtain ⟨hlowered', -⟩ := Translator.stage_eq_ok hstage'
  obtain ⟨_, _, plan₀, hplan₀, hbind₀⟩ := h.bound
  have htable : ParameterTable.Binds 0 q.inputs .empty t.query.parameters := by
    rw [hquery]
    exact hreads.parameters
  have hembeds : t'.query.parameters.Embeds t.query.parameters before.length :=
    hslots ▸ ParameterTable.embeds_of_binds htable hbinds
  have hshift : Environment.Shifts ⟨collections, parameters⟩ ⟨collections, parameters'⟩
      before.length :=
    Plan.shifts_bind (ParameterTable.aligned_empty.binds htable) hembeds hplan₀ hbind₀ hplan hbind
      collections
  have hstart : p.nextSlot = 0 + before.length := by rw [hnext, Nat.zero_add]
  rw [hstart] at hlowered'
  exact ⟨s, p₀, hstage, by rw [hquery],
    hlowered.follows hlowered' (hshift.moves hreads.parameters.namesApart 0)⟩

/-- Behind another query, a query has the rows that it has on its own. -/
lemma Query.HasRows.behind {tr : Translator} {c : Context} {q₁ q : Query} {t t' : Translation}
    {collections : Collections} {parameters parameters' : List (String × Document)}
    {rows : List Document} (hq : q₁.WellFormed)
    (h : q.HasRows tr c t ⟨collections, parameters⟩ rows) {s₁ s : Stage} {p₁ p : Progress}
    (hstage₁ : tr.stage q₁ {} = .ok (s₁, p₁)) (hstage : tr.stage q p₁ = .ok (s, p))
    {js : List Input} {more : List Captured}
    (hbinds : ParameterTable.Binds 0 (q₁.inputs ++ q.inputs ++ js) .empty t'.query.parameters)
    (hbound : ∃ key number plan, Plan.compile tr.registry key number t' = .ok plan ∧
      plan.bind (q₁.constants ++ q.constants ++ more) c = .ok parameters') :
    s.statement.run ⟨collections, parameters'⟩ = .ok rows := by
  obtain ⟨key, number, plan, hplan, hbind⟩ := hbound
  obtain ⟨-, hreads⟩ := Translator.stage_eq_ok hstage₁
  have hnext : p₁.nextSlot = q₁.constants.length := by
    rw [hreads.nextSlot, ← hq.length_slots]
    exact Nat.zero_add _
  obtain ⟨s₀, -, -, hquery, hfollows⟩ := h.follows hstage hnext hq.length_slots hbinds hplan hbind
  exact hfollows.statement _ (hquery ▸ h.run)

end EntityQuery
