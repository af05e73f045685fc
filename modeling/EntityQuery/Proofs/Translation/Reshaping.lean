import EntityQuery.Proofs.Translation.Combining
import EntityQuery.Proofs.Translation.Counting
import EntityQuery.Proofs.Translation.Elements
import EntityQuery.Proofs.Translation.Materializing

/-!
# Materializing rows of both operands

The rows of a set operation have the shape of its left operand.  The right operand is compatible
with it: it has the same entities, and scalars of the same types under the same names.  So its rows
are materialized under the shape of the left operand as they are under its own one, unless the
former asks for a value that the latter lets be null or absent, which compatibility does not
compare.

* `RowShape.AsksNoMore`: a shape lets be absent what another one does.
* `Translator.materialize_compatible`: rows are materialized under a compatible shape that asks for
  no more as under their own one.
* `rows_combine_materialize`: the rows of a set operation are materialized if those of its operands
  are.
* `rows_combine_materialize_differ`: a scalar that may be null behind one that may not.
-/

namespace EntityQuery

/-- Whether what a field of a record holds may be null or absent. -/
def slotMayMiss : RecordPlace × RowShape → Bool
  | (_, .scalar slot) => slot.nullable
  | (place, _) => place.optional

namespace RowShape

/-- Which of the parts of a row may be null or absent, in order. -/
def mayMiss : RowShape → List Bool
  | .entity _ => []
  | .scalar slot => [slot.nullable]
  | .record slots => slots.map slotMayMiss

/-- A shape asks for no value that another one does not ask for: what may be absent under the other
one may be so under it. -/
def AsksNoMore (shape other : RowShape) : Prop :=
  List.Forall₂ (fun may may' => may' = true → may = true) shape.mayMiss other.mayMiss

end RowShape

/-- Whether rows of the right operand are among those of an operation. -/
def SetOperation.takesRight : SetOperation → Bool
  | .union | .unionAll => true
  | .intersect | .except => false

/-! ## Compatible shapes

The shapes of two operands are compared slot by slot.  They have the same codecs, so that a
difference can only come from what may be absent. -/

/-- A scalar is materialized as under a slot that asks for a value if it does. -/
lemma ScalarSlot.materialize_of_nullable {s s' : ScalarSlot} (hcodec : s.codec = s'.codec)
    (hnullable : s'.nullable = true → s.nullable = true) {path : String} {d : Option Document}
    {m : Materialized} (h : s'.materialize path d = .ok m) : s.materialize path d = .ok m := by
  obtain ⟨value, hvalue, h⟩ := Computation.bind_eq_ok.1 h
  refine Computation.bind_eq_ok.2 ⟨value, hcodec ▸ hvalue, ?_⟩
  cases hnull : value.isNull with
  | false => simpa [hnull] using h
  | true =>
      cases hmay : s'.nullable with
      | true => simpa [hnull, hmay, hnullable hmay] using h
      | false => simp [hnull, hmay] at h

namespace Translator

variable {tr : Translator}

/-- Scalars of one type are decoded alike. -/
lemma codec_scalarSlot {s s' : YieldedScalar} {slot slot' : ScalarSlot}
    (h : tr.scalarSlot s = .ok slot) (h' : tr.scalarSlot s' = .ok slot')
    (htype : s.scalarType = s'.scalarType) : slot.codec = slot'.codec := by
  obtain ⟨codec, hcodec, h⟩ := Computation.bind_eq_ok.1 h
  obtain ⟨codec', hcodec', h'⟩ := Computation.bind_eq_ok.1 h'
  cases h
  cases h'
  rw [htype] at hcodec
  exact Except.ok.inj (hcodec.symm.trans hcodec')

/-- A field is materialized as under a compatible place that asks for a value if its own one does.
-/
lemma materializeSlot_compatible {field field' : String × FieldYield}
    {slot slot' : RecordPlace × RowShape} (h : tr.recordSlot field = .ok slot)
    (h' : tr.recordSlot field' = .ok slot')
    (hcompatible : ElementType.isCompatibleField (field.1, field.2.element)
      (field'.1, field'.2.element) = true)
    (hmay : slotMayMiss slot' = true → slotMayMiss slot = true) {values : Fields}
    {r : String × Materialized} (hr : materializeSlot values slot' = .ok r) :
    materializeSlot values slot = .ok r := by
  obtain ⟨name, y⟩ := field
  obtain ⟨name', y'⟩ := field'
  rw [ElementType.isCompatibleField, Bool.and_eq_true, beq_iff_eq] at hcompatible
  obtain ⟨rfl, hcompatible⟩ := hcompatible
  cases y with
  | scalar s =>
      cases y' with
      | entity b => cases hcompatible
      | scalar s' =>
          obtain ⟨scalar, hscalar, h⟩ := Computation.bind_eq_ok.1 h
          obtain ⟨scalar', hscalar', h'⟩ := Computation.bind_eq_ok.1 h'
          cases h
          cases h'
          have hcodec := codec_scalarSlot hscalar hscalar' (beq_iff_eq.1 hcompatible)
          obtain ⟨m, hm, hr⟩ := Computation.bind_eq_ok.1 hr
          exact Computation.bind_eq_ok.2 ⟨m, ScalarSlot.materialize_of_nullable hcodec hmay hm, hr⟩
  | entity b =>
      cases y' with
      | scalar s' => cases hcompatible
      | entity b' =>
          obtain ⟨shape, hshape, h⟩ := Computation.bind_eq_ok.1 h
          obtain ⟨shape', hshape', h'⟩ := Computation.bind_eq_ok.1 h'
          cases h
          cases h'
          have hentity : b.entity = b'.entity := beq_iff_eq.1 hcompatible
          cases hshape.symm.trans (hentity ▸ hshape')
          rw [materializeSlot_entity] at hr ⊢
          cases hvalue : valuedField name values with
          | some d =>
              rw [hvalue] at hr
              exact hr
          | none =>
              rw [hvalue] at hr
              cases hoptional : b'.optional with
              | false =>
                  rw [hoptional] at hr
                  cases hr
              | true =>
                  have hmayLeft : b.optional = true := hmay hoptional
                  rw [hoptional] at hr
                  rw [hmayLeft]
                  exact hr

/-- Fields are materialized as under compatible places that ask for values if their own ones do. -/
lemma materializeSlots_compatible {fields fields' : List (String × FieldYield)}
    {slots slots' : List (RecordPlace × RowShape)} (h : fields.mapM tr.recordSlot = .ok slots)
    (h' : fields'.mapM tr.recordSlot = .ok slots')
    (hcompatible : ElementType.areCompatible (fields.map fun f => (f.1, f.2.element))
      (fields'.map fun f => (f.1, f.2.element)) = true)
    (hmay : List.Forall₂ (fun may may' => may' = true → may = true) (slots.map slotMayMiss)
      (slots'.map slotMayMiss)) {values : Fields} {rs : List (String × Materialized)}
    (hrs : materializeSlots values slots' = .ok rs) : materializeSlots values slots = .ok rs := by
  rw [Computation.mapM_eq_ok] at h h'
  induction h generalizing fields' slots' rs with
  | nil =>
      cases h' with
      | nil => exact hrs
      | cons => cases hcompatible
  | cons hslot _ ih =>
      cases h' with
      | nil => cases hcompatible
      | cons hslot' hslots' =>
          obtain ⟨hfield, hcompatible⟩ := Bool.and_eq_true_iff.1 hcompatible
          cases hmay with
          | cons hmay hmays =>
              obtain ⟨r, hr, hrs⟩ := Computation.bind_eq_ok.1 hrs
              obtain ⟨rs, hrest, hrs⟩ := Computation.bind_eq_ok.1 hrs
              refine Computation.bind_eq_ok.2
                ⟨r, materializeSlot_compatible hslot hslot' hfield hmay hr, ?_⟩
              exact Computation.bind_eq_ok.2 ⟨rs, ih hslots' hcompatible hmays hrest, hrs⟩

/-- **Rows are materialized under a compatible shape that asks for no more** as under their own
one. -/
theorem materialize_compatible {y y' : Yield} {shape shape' : RowShape}
    (h : tr.rowShape y = .ok shape) (h' : tr.rowShape y' = .ok shape')
    (hcompatible : y.element.isCompatible y'.element = true) (hasks : shape.AsksNoMore shape')
    {d : Document} {m : Materialized} (hm : shape'.materialize d = .ok m) :
    shape.materialize d = .ok m := by
  cases y with
  | entity b =>
      cases y' with
      | scalar | record => cases hcompatible
      | entity b' =>
          have hentity : b.entity = b'.entity := beq_iff_eq.1 hcompatible
          have hsame : tr.rowShape (.entity b) = tr.rowShape (.entity b') := by
            rw [rowShape, rowShape, hentity]
          cases h.symm.trans (hsame.trans h')
          exact hm
  | scalar s =>
      cases y' with
      | entity | record => cases hcompatible
      | scalar s' =>
          obtain ⟨slot, hslot, h⟩ := Computation.bind_eq_ok.1 h
          obtain ⟨slot', hslot', h'⟩ := Computation.bind_eq_ok.1 h'
          cases h
          cases h'
          have hcodec := codec_scalarSlot hslot hslot' (beq_iff_eq.1 hcompatible)
          cases hasks with
          | cons hmay _ => exact ScalarSlot.materialize_of_nullable hcodec hmay hm
  | record fields =>
      cases y' with
      | entity | scalar => cases hcompatible
      | record fields' =>
          obtain ⟨slots, hslots, h⟩ := Computation.bind_eq_ok.1 h
          obtain ⟨slots', hslots', h'⟩ := Computation.bind_eq_ok.1 h'
          cases h
          cases h'
          cases d with
          | object values =>
              obtain ⟨rs, hrs, rfl⟩ := Computation.map_eq_ok.1 hm
              exact Computation.map_eq_ok.2
                ⟨rs, materializeSlots_compatible hslots hslots' hcompatible hasks hrs, rfl⟩
          | _ => cases hm

end Translator

/-! ## Set operations on queries

The rows of a set operation are rows of its operands.  A difference has none of the right one, and
what its shape asks for does not matter then. -/

section

variable {tr : Translator} {c : Context} {op : SetOperation} {q₁ q₂ : Query}
  {t₁ t₂ t : Translation} {collections : Collections}
  {parameters₁ parameters₂ parameters : List (String × Document)} {rows₁ rows₂ : List Document}

/-- The rows of an operation are rows of the left operand, or of the right one if it takes any. -/
lemma SetOperation.mem_left_or_right_of_takesRight {left right : List Document} {d : Document}
    (h : d ∈ op.combine left right) : d ∈ left ∨ op.takesRight = true ∧ d ∈ right := by
  cases op with
  | unionAll | union => exact (mem_of_mem_combine h).imp_right fun hd => ⟨rfl, hd⟩
  | intersect | except => exact .inl (mem_of_mem_dedupe (List.mem_of_mem_filter h))

/-- The steps of a set operation: its operands are compatible, and translated one after the other.
-/
lemma Translator.combine_eq_ok {s : Stage} {p p' : Progress}
    (h : tr.stage (.combine op q₁ q₂) p = .ok (s, p')) :
    ∃ left p₁ right, tr.stage q₁ p = .ok (left, p₁) ∧ tr.stage q₂ p₁ = .ok (right, p') ∧
      q₁.element.isCompatible q₂.element = true ∧
      s = .compound (.compound op left.statement right.statement) left.yield := by
  obtain ⟨hcompatible, h⟩ := Translating.refuse_bind_eq_ok.1 h
  obtain ⟨left, p₁, hleft, h⟩ := Translating.bind_eq_ok.1 h
  obtain ⟨right, p₂, hright, h⟩ := Translating.bind_eq_ok.1 h
  cases Translating.pure_eq_ok.1 h
  exact ⟨left, p₁, right, hleft, hright, by simpa using hcompatible, rfl⟩

/-- A set operation on queries with rows has the rows of the operation on theirs, in the shape of
the left operand.  The operands yield what has the shape of the queries. -/
lemma Query.HasRows.combine (hq : q₁.WellFormed)
    (h₁ : q₁.HasRows tr c t₁ ⟨collections, parameters₁⟩ rows₁)
    (h₂ : q₂.HasRows tr c t₂ ⟨collections, parameters₂⟩ rows₂)
    (htranslated : tr.translate (.combine op q₁ q₂) = .ok t)
    (hbound : ∃ key number plan, Plan.compile tr.registry key number t = .ok plan ∧
      plan.bind (Query.combine op q₁ q₂).constants c = .ok parameters) :
    (Query.combine op q₁ q₂).HasRows tr c t ⟨collections, parameters⟩ (op.combine rows₁ rows₂) ∧
      t.shape = t₁.shape := by
  obtain ⟨left, p₁, hleft, hquery₁, hshape₁, hrows₁⟩ := h₁.staged
  obtain ⟨stage, p, hstage, hquery, hshape⟩ := Translator.translate_eq_ok htranslated
  obtain ⟨-, hreads⟩ := Translator.stage_eq_ok hstage
  obtain ⟨left', p₁', right, hleft', hright, -, rfl⟩ := Translator.combine_eq_ok hstage
  cases hleft.symm.trans hleft'
  have hrun₁ : left.statement.run ⟨collections, parameters⟩ = .ok rows₁ := by
    refine Statement.run_persists (h₁.extends ?_ (List.append_assoc ..) hbound) _ _ hrows₁
    rw [hquery, hquery₁]
    exact (Translator.stage_eq_ok hright).2.parameters.extends
  have hrun₂ : right.statement.run ⟨collections, parameters⟩ = .ok rows₂ := by
    have hbinds : ParameterTable.Binds 0 (q₁.inputs ++ q₂.inputs ++ []) .empty
        t.query.parameters := by
      rw [hquery]
      exact hreads.parameters
    exact h₂.behind hq hleft hright hbinds hbound
  refine ⟨⟨htranslated, hbound, ?_⟩, Except.ok.inj (hshape.symm.trans hshape₁)⟩
  rw [hquery]
  exact Computation.bind_eq_ok.2 ⟨rows₁, hrun₁, Computation.bind_eq_ok.2 ⟨rows₂, hrun₂, rfl⟩⟩

/-- **Set operations keep rows materializable.**  If the rows of two queries can be materialized, so
can those of a set operation on them, provided that the left operand asks for no more than the right
one, and that projections name the entities that their aliases are bound to.  An operation that only
takes rows of the left operand needs neither. -/
theorem rows_combine_materialize (hq : q₁.WellFormed)
    (h₁ : q₁.HasRows tr c t₁ ⟨collections, parameters₁⟩ rows₁)
    (h₂ : q₂.HasRows tr c t₂ ⟨collections, parameters₂⟩ rows₂)
    (htranslated : tr.translate (.combine op q₁ q₂) = .ok t)
    (hbound : ∃ key number plan, Plan.compile tr.registry key number t = .ok plan ∧
      plan.bind (Query.combine op q₁ q₂).constants c = .ok parameters)
    (hrows₁ : ∀ d ∈ rows₁, ∃ m, t₁.shape.materialize d = .ok m)
    (hrows₂ : ∀ d ∈ rows₂, ∃ m, t₂.shape.materialize d = .ok m)
    (hright : op.takesRight = true →
      q₁.NamesBound ∧ q₂.NamesBound ∧ t₁.shape.AsksNoMore t₂.shape) :
    ∃ rows, (Query.combine op q₁ q₂).HasRows tr c t ⟨collections, parameters⟩ rows ∧
      ∀ d ∈ rows, ∃ m, t.shape.materialize d = .ok m := by
  obtain ⟨hrows, hshape⟩ := h₁.combine hq h₂ htranslated hbound
  refine ⟨_, hrows, fun d hd => ?_⟩
  rw [hshape]
  rcases SetOperation.mem_left_or_right_of_takesRight hd with hd | ⟨htakes, hd⟩
  · exact hrows₁ d hd
  · obtain ⟨hnames₁, hnames₂, hasks⟩ := hright htakes
    obtain ⟨left, _, hleft, -, hshape₁, -⟩ := h₁.staged
    obtain ⟨right, _, hright, -, hshape₂, -⟩ := h₂.staged
    obtain ⟨stage, _, hstage, -⟩ := Translator.translate_eq_ok htranslated
    obtain ⟨-, -, -, -, -, hcompatible, -⟩ := Translator.combine_eq_ok hstage
    rw [← Query.boundElement_eq hnames₁, ← Query.boundElement_eq hnames₂,
      ← (Translator.stage_eq_ok hleft).1.element, ← (Translator.stage_eq_ok hright).1.element]
      at hcompatible
    obtain ⟨m, hm⟩ := hrows₂ d hd
    exact ⟨m, Translator.materialize_compatible hshape₁ hshape₂ hcompatible hasks hm⟩

end

namespace Sample

/-- Zero for each person. -/
def zeros : Query := .project (.source "Person" "p") (.scalar (.ofValue (.int64 0)))

/-- A person of 30 years, and one whose age is null. -/
def nullAge : Collections :=
  collectionsOf [aged 30, .object [("age", .null), ("name", .string "Bea")]]

end Sample

/-- A zero for each person is materialized behind ages that may be null. -/
theorem rows_combine_materialize_zeros : ∃ t₁ t₂ t parameters₁ parameters₂ parameters,
    Sample.knownAges.HasRows Sample.translator {} t₁ ⟨Sample.nullAge, parameters₁⟩ [.ofInt 30, .null] ∧
    Sample.zeros.HasRows Sample.translator {} t₂ ⟨Sample.nullAge, parameters₂⟩
      [.ofInt 0, .ofInt 0] ∧
    Sample.translator.translate (.combine .unionAll Sample.knownAges Sample.zeros) = .ok t ∧
    (∀ d ∈ [Document.ofInt 30, .null], ∃ m, t₁.shape.materialize d = .ok m) ∧
    (∀ d ∈ [Document.ofInt 0, .ofInt 0], ∃ m, t₂.shape.materialize d = .ok m) ∧
    Sample.knownAges.NamesBound ∧ Sample.zeros.NamesBound ∧ t₁.shape.AsksNoMore t₂.shape ∧
    ∃ rows, (Query.combine .unionAll Sample.knownAges Sample.zeros).HasRows Sample.translator {} t
        ⟨Sample.nullAge, parameters⟩ rows ∧
      ∀ d ∈ rows, ∃ m, t.shape.materialize d = .ok m := by
  obtain ⟨t₁, parameters₁, h₁, hrows₁, hshape₁⟩ : ∃ t parameters,
      Sample.knownAges.HasRows Sample.translator {} t ⟨Sample.nullAge, parameters⟩ [.ofInt 30, .null] ∧
      (∀ d ∈ [Document.ofInt 30, .null], ∃ m, t.shape.materialize d = .ok m) ∧
      t.shape.mayMiss = [true] := by
    refine ⟨_, _, ⟨rfl, ⟨⟨[]⟩, 0, _, rfl, rfl⟩, rfl⟩, ?_, rfl⟩
    simp only [List.forall_mem_cons]
    exact ⟨⟨_, rfl⟩, ⟨_, rfl⟩, fun _ hd => nomatch hd⟩
  obtain ⟨t₂, parameters₂, h₂, hrows₂, hshape₂⟩ : ∃ t parameters,
      Sample.zeros.HasRows Sample.translator {} t ⟨Sample.nullAge, parameters⟩
        [.ofInt 0, .ofInt 0] ∧
      (∀ d ∈ [Document.ofInt 0, .ofInt 0], ∃ m, t.shape.materialize d = .ok m) ∧
      t.shape.mayMiss = [false] := by
    refine ⟨_, _, ⟨rfl, ⟨⟨[]⟩, 0, _, rfl, rfl⟩, rfl⟩, ?_, rfl⟩
    simp only [List.forall_mem_cons]
    exact ⟨⟨_, rfl⟩, ⟨_, rfl⟩, fun _ hd => nomatch hd⟩
  obtain ⟨t, parameters, htranslated, hbound⟩ : ∃ t parameters,
      Sample.translator.translate (.combine .unionAll Sample.knownAges Sample.zeros) = .ok t ∧
      ∃ key number plan, Plan.compile Sample.translator.registry key number t = .ok plan ∧
        plan.bind (Query.combine .unionAll Sample.knownAges Sample.zeros).constants {} =
          .ok parameters :=
    ⟨_, _, rfl, ⟨[]⟩, 0, _, rfl, rfl⟩
  have hq : Sample.knownAges.WellFormed := ⟨⟩
  have hnames₁ : Sample.knownAges.NamesBound := ⟨trivial, fun _ he => nomatch he⟩
  have hnames₂ : Sample.zeros.NamesBound := ⟨trivial, fun _ he => nomatch he⟩
  have hasks : t₁.shape.AsksNoMore t₂.shape := by
    rw [RowShape.AsksNoMore, hshape₁, hshape₂]
    exact .cons (fun h => rfl) .nil
  exact ⟨t₁, t₂, t, parameters₁, parameters₂, parameters, h₁, h₂, htranslated, hrows₁, hrows₂,
    hnames₁, hnames₂, hasks, rows_combine_materialize hq h₁ h₂ htranslated hbound hrows₁ hrows₂
      fun _ => ⟨hnames₁, hnames₂, hasks⟩⟩

/-- An age that is null is materialized among the ages, but not behind the zeros. -/
theorem rows_combine_materialize_differ : ∃ t₁ t₂ t parameters₁ parameters₂ parameters rows,
    Sample.zeros.HasRows Sample.translator {} t₁ ⟨Sample.nullAge, parameters₁⟩
      [.ofInt 0, .ofInt 0] ∧
    Sample.knownAges.HasRows Sample.translator {} t₂ ⟨Sample.nullAge, parameters₂⟩ [.ofInt 30, .null] ∧
    (Query.combine .unionAll Sample.zeros Sample.knownAges).HasRows Sample.translator {} t
      ⟨Sample.nullAge, parameters⟩ rows ∧
    (∀ d ∈ [Document.ofInt 0, .ofInt 0], ∃ m, t₁.shape.materialize d = .ok m) ∧
    (∀ d ∈ [Document.ofInt 30, .null], ∃ m, t₂.shape.materialize d = .ok m) ∧
    ∃ d ∈ rows, t.shape.materialize d = .error (.missing "$") := by
  refine ⟨_, _, _, _, _, _, [.ofInt 0, .ofInt 0, .ofInt 30, .null],
    ⟨rfl, ⟨⟨[]⟩, 0, _, rfl, rfl⟩, rfl⟩, ⟨rfl, ⟨⟨[]⟩, 0, _, rfl, rfl⟩, rfl⟩,
    ⟨rfl, ⟨⟨[]⟩, 0, _, rfl, rfl⟩, rfl⟩, ?_, ?_, .null, by simp, rfl⟩
  · simp only [List.forall_mem_cons]
    exact ⟨⟨_, rfl⟩, ⟨_, rfl⟩, fun _ hd => nomatch hd⟩
  · simp only [List.forall_mem_cons]
    exact ⟨⟨_, rfl⟩, ⟨_, rfl⟩, fun _ hd => nomatch hd⟩

end EntityQuery
