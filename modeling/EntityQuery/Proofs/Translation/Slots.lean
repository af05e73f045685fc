import EntityQuery.Plan.Basic
import EntityQuery.Proofs.Computation
import EntityQuery.Proofs.Translation.Lowering

/-!
# Alignment of slots

The constants of a query are collected by one walk and translated by another one.  This file ties
the two walks together: the parameter table of a translation belongs, slot by slot, to the constants
that are collected.

* `SlotsAligned`: what it means for a translation to be aligned with the constants of its query.
* `slots_aligned`: each translation of a well-formed query is.
* `Plan.bind_own_constants`: the constants of an aligned query are neither missing nor of another
  type when they are bound.
-/

namespace EntityQuery

/-! ## Tested slots

A comparison with null is translated to a test.  The constant keeps its slot, and has neither a
placeholder nor an entry. -/

namespace Formula

lemma isNull_of_mem_testedInputs {f : Formula} (hf : f.isNullConstant = true) :
    ∀ s ∈ slotsOf f.testedInputs, s.captured.value.isNull = true := by
  cases f with
  | constant value t =>
      intro s hs
      rw [List.mem_singleton.1 hs]
      exact hf
  | _ => simp [isNullConstant] at hf

mutual

/-- A slot that is tested is that of a null constant. -/
theorem isNull_of_tested : (f : Formula) → ∀ s ∈ slotsOf f.inputs, s.tested = true →
    s.captured.value.isNull = true
  | .constant .. => by
      intro s hs htested
      rw [List.mem_singleton.1 hs] at htested
      cases htested
  | .parameter .. | .property _ | .member .. | .element .. => by
      intro s hs
      cases hs
  | .binary op left right => by
      intro s hs htested
      rw [inputs, slotsOf_append, List.mem_append] at hs
      rcases hs with hs | hs
      · split at hs
        · rename_i hnull
          exact isNull_of_mem_testedInputs (Bool.and_eq_true_iff.1 hnull).2 s hs
        · exact isNull_of_tested left s hs htested
      · split at hs
        · rename_i hnull
          exact isNull_of_mem_testedInputs (Bool.and_eq_true_iff.1 hnull).2 s hs
        · exact isNull_of_tested right s hs htested
  | .not f => isNull_of_tested f
  | .negate f => isNull_of_tested f
  | .isNull f => isNull_of_tested f
  | .isNotNull f => isNull_of_tested f
  | .inList f list => by
      intro s hs
      rw [inputs, slotsOf_append, List.mem_append] at hs
      rcases hs with hs | hs
      · exact isNull_of_tested f s hs
      · exact isNull_of_testedOf list s hs
  | .like f pattern => by
      intro s hs
      rw [inputs, slotsOf_append, List.mem_append] at hs
      rcases hs with hs | hs
      · exact isNull_of_tested f s hs
      · exact isNull_of_tested pattern s hs
  | .builtin _ args => isNull_of_testedOf args
  | .call _ args _ => isNull_of_testedOf args
  | .caseWhen c t o => by
      intro s hs
      rw [inputs, slotsOf_append, slotsOf_append, List.mem_append, List.mem_append] at hs
      rcases hs with (hs | hs) | hs
      · exact isNull_of_tested c s hs
      · exact isNull_of_tested t s hs
      · exact isNull_of_tested o s hs
  | .coalesce values => isNull_of_testedOf values

theorem isNull_of_testedOf : (fs : List Formula) → ∀ s ∈ slotsOf (inputsOf fs), s.tested = true →
    s.captured.value.isNull = true
  | [] => by
      intro s hs
      cases hs
  | f :: fs => by
      intro s hs
      rw [inputsOf, slotsOf_append, List.mem_append] at hs
      rcases hs with hs | hs
      · exact isNull_of_tested f s hs
      · exact isNull_of_testedOf fs s hs

end

end Formula

/-- A slot of a query that is tested is that of a null constant. -/
lemma Query.isNull_of_tested {q : Query} : ∀ s ∈ q.slots, s.tested = true →
    s.captured.value.isNull = true := by
  rw [slots]
  induction q with
  | source => exact Formula.isNull_of_testedOf _
  | filter _ _ ih | project _ _ ih | orderBy _ _ _ ih | thenBy _ _ _ ih | groupBy _ _ _ ih
  | correlate _ _ ih | skip _ _ ih | take _ _ ih | distinct _ ih | conclude _ _ _ ih =>
      intro s hs
      rw [inputs, slotsOf_append, List.mem_append] at hs
      rcases hs with hs | hs
      · exact ih s hs
      · exact Formula.isNull_of_testedOf _ s hs
  | join _ _ _ _ _ ihl ihr | combine _ _ _ ihl ihr =>
      intro s hs
      rw [inputs, slotsOf_append, slotsOf_append, List.mem_append, List.mem_append] at hs
      rcases hs with (hs | hs) | hs
      · exact ihl s hs
      · exact ihr s hs
      · exact Formula.isNull_of_testedOf _ s hs

/-! ## Binding

The values of constants are found by the places of their slots.  Binding fails only for a reason
that lies in a value or in a missing parameter. -/

/-- The entries of a plan are those of its translation. -/
lemma Plan.entries_compile {registry : Registry} {key : PlanKey} {number : Nat} {t : Translation}
    {plan : Plan} (h : Plan.compile registry key number t = .ok plan) :
    plan.entries = t.query.parameters.entries := by
  obtain ⟨parameters, hparameters, hplan⟩ := Computation.bind_eq_ok.1 h
  cases hplan
  refine Computation.map_eq_of_mapM (fun e parameter h => ?_) hparameters
  obtain ⟨codec, -, h⟩ := Computation.bind_eq_ok.1 h
  cases h
  rfl

/-- Why the value of an entry of a table that is aligned with some constants cannot be bound. -/
lemma ParameterEntry.bind_eq_error {e : ParameterEntry} {codec : Codec} {cs : List Captured}
    {c : Context} {error : BindingError}
    (haligned : ∀ k, e.origin = .constant k → ∃ c, cs[k]? = some c ∧ c.scalarType = e.scalarType)
    (h : e.bind codec cs c = .error error) :
    (∀ slot, error ≠ .missingConstant slot) ∧
      ∀ name expected actual, error = .typeMismatch name expected actual →
        name = e.name ∧ e.origin = .named := by
  rcases Computation.bind_eq_error.1 h with h | ⟨value, -, h⟩
  · rw [supply] at h
    cases horigin : e.origin with
    | constant k =>
        obtain ⟨c, hc, htype⟩ := haligned k horigin
        simp [horigin, hc, htype] at h
    | named =>
        simp only [horigin] at h
        split at h
        · cases h
          simp
        · split at h
          · cases h
            simp
          · cases h
  · rcases Computation.bind_eq_error.1 h with h | ⟨_, -, h⟩
    · rw [check] at h
      split at h
      · cases h
        simp
      · split at h
        · cases h
          simp
        · cases h
    · rcases Computation.bind_eq_error.1 h with h | ⟨d, -, h⟩
      · obtain ⟨cause, -, rfl⟩ := Computation.mapError_eq_error.1 h
        simp
      · cases h

/-! ## Alignment of translations

What was shown of tables is put together with the walk that collects constants.  A gap in the slots
is a null constant that is tested. -/

/-- A translation is aligned with the constants of its query. -/
structure SlotsAligned (tr : Translator) (q : Query) (t : Translation) : Prop where
  /-- The translation takes as many slots as the query has constants, and lowers the query so that
  the constant at place `k` of the canonical walk becomes the placeholder of slot `k`. -/
  lowered : ∃ stage progress, tr.stage q {} = .ok (stage, progress) ∧
    t.query = ⟨stage.statement, progress.parameters⟩ ∧ progress.nextSlot = q.constants.length ∧
    tr.Lowered 0 q stage q.constants.length
  /-- An entry of a constant has the name of its slot and the type of its constant. -/
  fits : ∀ e ∈ t.query.parameters.entries, ∀ k, e.origin = .constant k →
    e.name = slotName k ∧ k < q.constants.length ∧
      ∃ c, q.constants[k]? = some c ∧ c.scalarType = e.scalarType
  /-- The slots increase along the table. -/
  increasing : (t.query.parameters.entries.filterMap ParameterEntry.slot?).Pairwise (· < ·)
  /-- Each name occurs once. -/
  nodup : t.query.parameters.names.Nodup
  /-- A slot without an entry is that of a null constant that is an operand of a comparison. -/
  tested : ∀ k < q.constants.length,
    (∀ e ∈ t.query.parameters.entries, e.origin ≠ .constant k) →
    ∃ c, q.constants[k]? = some c ∧ q.slots[k]? = some ⟨c, true⟩ ∧ c.value.isNull = true
  /-- The constants of the query are neither missing nor of another type when they are bound. -/
  binds : ∀ registry key number plan c, Plan.compile registry key number t = .ok plan →
    (∀ slot, plan.bind q.constants c ≠ .error (.missingConstant slot)) ∧
    ∀ e ∈ plan.entries, ∀ k, e.origin = .constant k →
      ∀ expected actual, plan.bind q.constants c ≠ .error (.typeMismatch e.name expected actual)

lemma ParameterEntry.slot?_eq_some {e : ParameterEntry} {k : Nat} :
    e.slot? = some k ↔ e.origin = .constant k := by
  rw [slot?]
  cases e.origin <;> simp

lemma ParameterEntry.slot?_eq_none {e : ParameterEntry} : e.slot? = none ↔ e.origin = .named := by
  rw [slot?]
  cases e.origin <;> simp

namespace ParameterTable.Aligned

variable {slots : List Slot} {t : ParameterTable} {e : ParameterEntry}

/-- An entry under a name that is not that of a slot is that of a parameter. -/
lemma origin_of_name (h : Aligned slots t) (he : e ∈ t.entries)
    (hname : isSlotName e.name = false) : e.origin = .named := by
  cases horigin : e.origin with
  | named => rfl
  | constant k =>
      rw [(h.fits e he k (ParameterEntry.slot?_eq_some.2 horigin)).1, isSlotName_slotName] at hname
      cases hname

/-- An entry under the name of a slot is that of the slot. -/
lemma origin_of_slotName (h : Aligned slots t) (he : e ∈ t.entries) {k : Nat}
    (hname : e.name = slotName k) : e.origin = .constant k := by
  cases horigin : e.origin with
  | named =>
      have hapart := h.apart e he (ParameterEntry.slot?_eq_none.2 horigin)
      rw [hname, isSlotName_slotName] at hapart
      cases hapart
  | constant k' =>
      have hslot := (h.fits e he k' (ParameterEntry.slot?_eq_some.2 horigin)).1
      rw [hname, slotName_inj] at hslot
      rw [hslot]

end ParameterTable.Aligned

/-- A translation comes from a stage. -/
lemma Translator.translate_eq_ok {tr : Translator} {q : Query} {t : Translation}
    (h : tr.translate q = .ok t) :
    ∃ stage progress, tr.stage q {} = .ok (stage, progress) ∧
      t.query = ⟨stage.statement, progress.parameters⟩ ∧
      tr.rowShape stage.yield = .ok t.shape := by
  obtain ⟨⟨stage, progress⟩, hstage, h⟩ := Computation.bind_eq_ok.1 h
  obtain ⟨shape, hshape, h⟩ := Computation.bind_eq_ok.1 h
  cases h
  exact ⟨stage, progress, hstage, rfl, hshape⟩

/-- Binding the constants of a query fails neither for want of one nor for the type of one, if the
entries fit them. -/
lemma Plan.bind_own_constants {plan : Plan} {cs : List Captured} {c : Context}
    (hfits : ∀ e ∈ plan.entries, ∀ k, e.origin = .constant k →
      e.name = slotName k ∧ ∃ c, cs[k]? = some c ∧ c.scalarType = e.scalarType)
    (hapart : ∀ e ∈ plan.entries, e.origin = .named → isSlotName e.name = false) :
    (∀ slot, plan.bind cs c ≠ .error (.missingConstant slot)) ∧
      ∀ e ∈ plan.entries, ∀ k, e.origin = .constant k →
        ∀ expected actual, plan.bind cs c ≠ .error (.typeMismatch e.name expected actual) := by
  have hentry : ∀ parameter ∈ plan.parameters, parameter.1 ∈ plan.entries :=
    fun _ h => List.mem_map.2 ⟨_, h, rfl⟩
  constructor
  · intro slot h
    obtain ⟨⟨e, codec⟩, he, h⟩ := Computation.mapM_eq_error h
    exact (ParameterEntry.bind_eq_error (fun k hk => (hfits e (hentry _ he) k hk).2) h).1 slot rfl
  · intro e he k hk expected actual h
    obtain ⟨⟨e', codec⟩, he', h⟩ := Computation.mapM_eq_error h
    obtain ⟨hname, hnamed⟩ := (ParameterEntry.bind_eq_error
      (fun k hk => (hfits e' (hentry _ he') k hk).2) h).2 _ _ _ rfl
    -- the entry that is refused is that of a parameter, whose name is not that of a slot
    have hslot := hapart e' (hentry _ he') hnamed
    rw [← hname, (hfits e he k hk).1, isSlotName_slotName] at hslot
    cases hslot

/-- **Alignment of slots.**  Each translation of a well-formed query is aligned with the constants
that are collected from the query. -/
theorem slots_aligned {tr : Translator} {q : Query} {t : Translation} (hq : q.WellFormed)
    (ht : tr.translate q = .ok t) : SlotsAligned tr q t := by
  obtain ⟨stage, progress, hstage, hquery, -⟩ := Translator.translate_eq_ok ht
  obtain ⟨hlowered, hreads⟩ := Translator.stage_eq_ok hstage
  have hslots : q.slots.map Slot.captured = q.constants := Query.captured_slots hq
  have hlength : q.slots.length = q.constants.length := hq.length_slots
  have hnext : progress.nextSlot = q.constants.length := by
    rw [hreads.nextSlot, ← hlength]
    exact Nat.zero_add _
  have htable : t.query.parameters = progress.parameters := by rw [hquery]
  have haligned : ParameterTable.Aligned q.slots t.query.parameters := by
    rw [htable]
    exact ParameterTable.aligned_empty.binds hreads.parameters
  have hcaptured : ∀ (k : Nat) (s : Slot), q.slots[k]? = some s → q.constants[k]? = some s.captured := by
    intro k s hk
    rw [← hslots, List.getElem?_map, hk]
    rfl
  have hfits : ∀ e ∈ t.query.parameters.entries, ∀ k, e.origin = .constant k →
      e.name = slotName k ∧ k < q.constants.length ∧
        ∃ c, q.constants[k]? = some c ∧ c.scalarType = e.scalarType := by
    intro e he k hk
    have hk := ParameterEntry.slot?_eq_some.2 hk
    obtain ⟨hname, c, hc, htype⟩ := haligned.fits e he k hk
    exact ⟨hname, hlength ▸ haligned.slot_lt he hk, c, hcaptured k _ hc, htype⟩
  refine
    { lowered := ⟨stage, progress, hstage, hquery, hnext, hnext ▸ hlowered⟩
      fits := hfits
      increasing := haligned.increasing
      nodup := haligned.nodup
      tested := ?_
      binds := ?_ }
  · intro k hk hnone
    obtain ⟨⟨c, tested⟩, hs⟩ : ∃ s, q.slots[k]? = some s := by
      rw [← hlength] at hk
      exact ⟨_, List.getElem?_eq_getElem hk⟩
    cases tested with
    | true =>
        exact ⟨c, hcaptured k _ hs, hs,
          Query.isNull_of_tested _ (List.mem_of_getElem? hs) rfl⟩
    | false =>
        obtain ⟨e, he, hslot⟩ := haligned.covered k c hs
        exact absurd (ParameterEntry.slot?_eq_some.1 hslot) (hnone e he)
  · intro registry key number plan c hplan
    have hentries := Plan.entries_compile hplan
    refine Plan.bind_own_constants (fun e he k hk => ?_) (fun e he hnamed => ?_)
    · obtain ⟨hname, -, hc⟩ := hfits e (hentries ▸ he) k hk
      exact ⟨hname, hc⟩
    · exact haligned.apart e (hentries ▸ he) (ParameterEntry.slot?_eq_none.2 hnamed)

namespace Sample

/-- A model of persons with a name and an age. -/
def people : ValidModel where
  model := ⟨[
    { name := "Person"
      keyspace := some ⟨"app", "_default", "person"⟩
      properties := [
        { name := "name", scalarType := .string, isKey := true },
        { name := "age", scalarType := .int64, nullable := true }] }]⟩
  defaults := {}
  warnings := []

/-- A translator for the model. -/
def translator : Translator := ⟨people, .standard, .standard⟩

/-- The age of a person. -/
def age : Formula := .property ⟨"p", "Person", "age", ["age"], .int64, true⟩

/-- The persons whose age is known and above 17. -/
def adults : Query :=
  .filter (.source "Person" "p")
    (.binary .and (.binary .ne age (.ofValue .null)) (.binary .gt age (.ofValue (.int64 17))))

end Sample

-- Null is compared with the age, so only the second constant is bound.
example : Sample.adults.slots.map Slot.tested = [true, false] := rfl

/-- The translation of the sample query is aligned. -/
theorem slots_aligned_adults : ∃ t, Translator.translate Sample.translator Sample.adults = .ok t ∧
    SlotsAligned Sample.translator Sample.adults t :=
  ⟨_, rfl, slots_aligned ⟨⟩ rfl⟩

end EntityQuery
