import EntityQuery.Proofs.Query.Lengths
import EntityQuery.Proofs.Query.Form

/-!
# Queries with other leaves

A relabeling changes the leaves of the formulas of a query: the values of constants, the types that
are written out and the written names of properties.  The tree above the leaves stays.

* `Formula.relabel` and `Query.relabel` change the leaves.
* `Query.form_eq_relabel`: the form of a query is one of its relabelings.
* `Query.relabel_relabel`: two relabelings one after the other are one.
* `Query.encoding_relabel`: the encoding sees types by their names only.
-/

namespace EntityQuery

/-- A change of leaves.  What is null stays null, and nothing becomes null. -/
@[ext]
structure Relabeling where
  value : Value → Value
  scalarType : ScalarType → ScalarType
  /-- What becomes of the written name of a property. -/
  member : String → String
  isNull_value : ∀ v, (value v).isNull = v.isNull

namespace Relabeling

/-- Of a value only whether it is null is kept. -/
def nullness (v : Value) : Value := if v.isNull then .null else .bool true

/-- The relabeling that makes forms. -/
def form : Relabeling := ⟨nullness, id, fun _ => "", Formula.isNull_form⟩

/-- The relabeling that forgets the values of constants and nothing else. -/
def withoutValues : Relabeling := ⟨nullness, id, id, Formula.isNull_form⟩

/-- The relabeling that forgets all that an encoding leaves out: besides what forms leave out, the
types of one name are taken for one. -/
def erase : Relabeling := ⟨nullness, fun t => .custom t.name, fun _ => "", Formula.isNull_form⟩

/-- Two relabelings one after the other. -/
def comp (r' r : Relabeling) : Relabeling where
  value := r'.value ∘ r.value
  scalarType := r'.scalarType ∘ r.scalarType
  member := r'.member ∘ r.member
  isNull_value v := (r'.isNull_value _).trans (r.isNull_value v)

/-- Types keep their names. -/
def KeepsNames (r : Relabeling) : Prop := ∀ t, (r.scalarType t).name = t.name

lemma nullness_value (r : Relabeling) (v : Value) : nullness (r.value v) = nullness v := by
  rw [nullness, nullness, r.isNull_value]

lemma keepsNames_erase : erase.KeepsNames := fun _ => rfl

/-- Values are forgotten by forms anyway. -/
lemma form_comp_withoutValues : form.comp withoutValues = form := by
  ext1
  · exact funext withoutValues.nullness_value
  · rfl
  · rfl

/-- What is erased has no more to forget. -/
lemma form_comp_erase : form.comp erase = erase := by
  ext1
  · exact funext erase.nullness_value
  · rfl
  · rfl

end Relabeling

/-! ## Formulas

Forms, queries without values and what encodings leave out are all changes of leaves.  What is shown
of a relabeling is shown of each of them, and two of them one after the other are one again. -/

namespace Formula

mutual

/-- A formula with other leaves. -/
def relabel (r : Relabeling) : Formula → Formula
  | .property p =>
    .property { p with member := r.member p.member, scalarType := r.scalarType p.scalarType }
  | .member name t nullable => .member name (r.scalarType t) nullable
  | .element t nullable => .element (r.scalarType t) nullable
  | .constant value t => .constant (r.value value) (r.scalarType t)
  | .parameter name t => .parameter name (r.scalarType t)
  | .binary op left right => .binary op (left.relabel r) (right.relabel r)
  | .not f => .not (f.relabel r)
  | .negate f => .negate (f.relabel r)
  | .isNull f => .isNull (f.relabel r)
  | .isNotNull f => .isNotNull (f.relabel r)
  | .inList f list => .inList (f.relabel r) (relabels r list)
  | .like f pattern => .like (f.relabel r) (pattern.relabel r)
  | .builtin function args => .builtin function (relabels r args)
  | .caseWhen c t o => .caseWhen (c.relabel r) (t.relabel r) (o.relabel r)
  | .coalesce values => .coalesce (relabels r values)
  | .call function args t => .call function (relabels r args) (r.scalarType t)

/-- Several formulas with other leaves. -/
def relabels (r : Relabeling) : List Formula → List Formula
  | [] => []
  | f :: fs => f.relabel r :: relabels r fs

end

variable {r r' : Relabeling}

@[simp] lemma length_relabels (fs : List Formula) : (relabels r fs).length = fs.length := by
  induction fs with
  | nil => rfl
  | cons f fs ih => rw [relabels, List.length_cons, List.length_cons, ih]

mutual

/-- The form of a formula is a relabeling of it. -/
theorem form_eq_relabel : (f : Formula) → f.form = f.relabel .form
  | .property _ | .member .. | .element .. | .constant .. | .parameter .. => rfl
  | .binary _ left right | .like left right => by
      rw [form, relabel, form_eq_relabel left, form_eq_relabel right]
  | .not f | .negate f | .isNull f | .isNotNull f => by rw [form, relabel, form_eq_relabel f]
  | .inList f list => by rw [form, relabel, form_eq_relabel f, forms_eq_relabels list]
  | .builtin _ fs | .coalesce fs => by rw [form, relabel, forms_eq_relabels fs]
  | .call _ fs _ => by
      rw [form, relabel, forms_eq_relabels fs]
      rfl
  | .caseWhen c t o => by
      rw [form, relabel, form_eq_relabel c, form_eq_relabel t, form_eq_relabel o]

theorem forms_eq_relabels : (fs : List Formula) → forms fs = relabels .form fs
  | [] => rfl
  | f :: fs => by rw [forms, relabels, form_eq_relabel f, forms_eq_relabels fs]

end

mutual

theorem relabel_relabel : (f : Formula) → (f.relabel r).relabel r' = f.relabel (r'.comp r)
  | .property _ | .member .. | .element .. | .constant .. | .parameter .. => rfl
  | .binary _ left right | .like left right => by
      simp only [relabel, relabel_relabel left, relabel_relabel right]
  | .not f | .negate f | .isNull f | .isNotNull f => by simp only [relabel, relabel_relabel f]
  | .inList f list => by simp only [relabel, relabel_relabel f, relabels_relabels list]
  | .builtin _ fs | .coalesce fs => by simp only [relabel, relabels_relabels fs]
  | .call _ fs _ => by
      simp only [relabel, relabels_relabels fs]
      rfl
  | .caseWhen c t o => by
      simp only [relabel, relabel_relabel c, relabel_relabel t, relabel_relabel o]

theorem relabels_relabels : (fs : List Formula) →
    relabels r' (relabels r fs) = relabels (r'.comp r) fs
  | [] => rfl
  | f :: fs => by simp only [relabels, relabel_relabel f, relabels_relabels fs]

end

mutual

/-- A formula is encoded as before if types keep their names. -/
theorem encoding_relabel (hr : r.KeepsNames) : (f : Formula) → (f.relabel r).encoding = f.encoding
  | .property _ | .member .. | .element .. | .parameter .. => by
      simp only [relabel, encoding, Encoding.scalarType, hr _]
  | .constant .. => by
      simp only [relabel, encoding, Encoding.scalarType, hr _, r.isNull_value]
  | .binary _ left right | .like left right => by
      simp only [relabel, encoding, encoding_relabel hr left, encoding_relabel hr right]
  | .not f | .negate f | .isNull f | .isNotNull f => by
      simp only [relabel, encoding, encoding_relabel hr f]
  | .inList f list => by
      simp only [relabel, encoding, length_relabels, encoding_relabel hr f,
        encodings_relabels hr list]
  | .builtin _ fs | .coalesce fs => by
      simp only [relabel, encoding, length_relabels, encodings_relabels hr fs]
  | .call _ fs _ => by
      simp only [relabel, encoding, Encoding.scalarType, hr _, length_relabels,
        encodings_relabels hr fs]
  | .caseWhen c t o => by
      simp only [relabel, encoding, encoding_relabel hr c, encoding_relabel hr t,
        encoding_relabel hr o]

theorem encodings_relabels (hr : r.KeepsNames) : (fs : List Formula) →
    formulaEncodings (relabels r fs) = formulaEncodings fs
  | [] => rfl
  | f :: fs => by
      simp only [relabels, formulaEncodings, encoding_relabel hr f, encodings_relabels hr fs]

end

mutual

/-- So are the lengths in its encoding. -/
theorem lengths_relabel (hr : r.KeepsNames) : (f : Formula) → (f.relabel r).lengths = f.lengths
  | .property _ | .member .. | .element .. | .constant .. | .parameter .. => by
      simp only [relabel, lengths, hr _]
  | .binary _ left right | .like left right => by
      simp only [relabel, lengths, lengths_relabel hr left, lengths_relabel hr right]
  | .not f | .negate f | .isNull f | .isNotNull f => by
      simp only [relabel, lengths, lengths_relabel hr f]
  | .inList f list => by
      simp only [relabel, lengths, length_relabels, lengths_relabel hr f, lengths_relabels hr list]
  | .builtin _ fs | .coalesce fs => by
      simp only [relabel, lengths, length_relabels, lengths_relabels hr fs]
  | .call _ fs _ => by
      simp only [relabel, lengths, hr _, length_relabels, lengths_relabels hr fs]
  | .caseWhen c t o => by
      simp only [relabel, lengths, lengths_relabel hr c, lengths_relabel hr t,
        lengths_relabel hr o]

theorem lengths_relabels (hr : r.KeepsNames) : (fs : List Formula) →
    formulaLengths (relabels r fs) = formulaLengths fs
  | [] => rfl
  | f :: fs => by
      simp only [relabels, formulaLengths, lengths_relabel hr f, lengths_relabels hr fs]

end

mutual

/-- The types of a formula are relabeled with it. -/
theorem types_relabel : (f : Formula) → (f.relabel r).types = f.types.map r.scalarType
  | .property _ | .member .. | .element .. | .constant .. | .parameter .. => rfl
  | .binary _ left right | .like left right => by
      simp only [relabel, types, types_relabel left, types_relabel right, List.map_append]
  | .not f | .negate f | .isNull f | .isNotNull f => by simp only [relabel, types, types_relabel f]
  | .inList f list => by
      simp only [relabel, types, types_relabel f, types_relabels list, List.map_append]
  | .builtin _ fs | .coalesce fs => by simp only [relabel, types, types_relabels fs]
  | .call _ fs _ => by simp only [relabel, types, types_relabels fs, List.map_cons]
  | .caseWhen c t o => by
      simp only [relabel, types, types_relabel c, types_relabel t, types_relabel o,
        List.map_append]

theorem types_relabels : (fs : List Formula) →
    formulaTypes (relabels r fs) = (formulaTypes fs).map r.scalarType
  | [] => rfl
  | f :: fs => by
      simp only [relabels, formulaTypes, types_relabel f, types_relabels fs, List.map_append]

end

end Formula

/-! ## Queries -/

/-- A summary with other leaves. -/
def Summary.relabel (r : Relabeling) (s : Summary) : Summary :=
  ⟨s.function, s.arg.map (Formula.relabel r)⟩

/-- What a field holds, with other leaves. -/
def Projected.relabel (r : Relabeling) : Projected → Projected
  | .scalar f => .scalar (f.relabel r)
  | .entity name aliasName => .entity name aliasName

/-- A projection with other leaves. -/
def Projection.relabel (r : Relabeling) : Projection → Projection
  | .scalar f => .scalar (f.relabel r)
  | .record fields => .record (fields.map fun f => (f.1, f.2.relabel r))
  | .entity name aliasName => .entity name aliasName

/-- A query with other leaves. -/
@[simp] def Query.relabel (r : Relabeling) : Query → Query
  | .source entity aliasName => .source entity aliasName
  | .filter input predicate => .filter (input.relabel r) (predicate.relabel r)
  | .project input projection => .project (input.relabel r) (projection.relabel r)
  | .orderBy input key descending => .orderBy (input.relabel r) (key.relabel r) descending
  | .thenBy input key descending => .thenBy (input.relabel r) (key.relabel r) descending
  | .groupBy input keys summaries =>
    .groupBy (input.relabel r) (keys.map fun k => (k.1, k.2.relabel r))
      (summaries.map fun s => (s.1, s.2.relabel r))
  | .join kind left right leftKey rightKey =>
    .join kind (left.relabel r) (right.relabel r) (leftKey.relabel r) (rightKey.relabel r)
  | .correlate input correlation => .correlate (input.relabel r) correlation
  | .skip input count => .skip (input.relabel r) (count.relabel r)
  | .take input count => .take (input.relabel r) (count.relabel r)
  | .distinct input => .distinct (input.relabel r)
  | .combine op left right => .combine op (left.relabel r) (right.relabel r)
  | .conclude input terminal arg =>
    .conclude (input.relabel r) terminal (arg.map (Formula.relabel r))

section Queries

variable {r r' : Relabeling}

lemma Summary.form_eq_relabel (s : Summary) : s.form = s.relabel .form := by
  rw [form, relabel, funext Formula.form_eq_relabel]

lemma Projected.form_eq_relabel (p : Projected) : p.form = p.relabel .form := by
  cases p with
  | scalar f => rw [form, relabel, f.form_eq_relabel]
  | entity => rfl

lemma Projection.form_eq_relabel (p : Projection) : p.form = p.relabel .form := by
  cases p with
  | scalar f => rw [form, relabel, f.form_eq_relabel]
  | record fields => simp only [form, relabel, Projected.form_eq_relabel]
  | entity => rfl

lemma Summary.relabel_relabel (s : Summary) : (s.relabel r).relabel r' = s.relabel (r'.comp r) := by
  simp only [relabel, Option.map_map, Function.comp_def, Formula.relabel_relabel]

lemma Projected.relabel_relabel (p : Projected) :
    (p.relabel r).relabel r' = p.relabel (r'.comp r) := by
  cases p with
  | scalar f => simp only [relabel, Formula.relabel_relabel]
  | entity => rfl

lemma Projection.relabel_relabel (p : Projection) :
    (p.relabel r).relabel r' = p.relabel (r'.comp r) := by
  cases p with
  | scalar f => simp only [relabel, Formula.relabel_relabel]
  | record fields =>
      simp only [relabel, List.map_map, Function.comp_def, Projected.relabel_relabel]
  | entity => rfl

namespace Query

/-- The form of a query is a relabeling of it. -/
theorem form_eq_relabel (q : Query) : q.form = q.relabel .form := by
  induction q with
  | source | correlate _ _ ih | distinct _ ih => simp only [form, relabel, *]
  | filter _ _ ih | orderBy _ _ _ ih | thenBy _ _ _ ih | skip _ _ ih | take _ _ ih =>
      simp only [form, relabel, ih, Formula.form_eq_relabel]
  | project _ _ ih => simp only [form, relabel, ih, Projection.form_eq_relabel]
  | groupBy _ _ _ ih =>
      simp only [form, relabel, ih, Formula.form_eq_relabel, Summary.form_eq_relabel]
  | join _ _ _ _ _ ihl ihr => simp only [form, relabel, ihl, ihr, Formula.form_eq_relabel]
  | combine _ _ _ ihl ihr => simp only [form, relabel, ihl, ihr]
  | conclude _ _ _ ih => rw [form, relabel, ih, funext Formula.form_eq_relabel]

/-- Two relabelings of a query one after the other are one. -/
theorem relabel_relabel (q : Query) : (q.relabel r).relabel r' = q.relabel (r'.comp r) := by
  induction q with
  | source => rfl
  | correlate _ _ ih | distinct _ ih => simp only [relabel, ih]
  | filter _ _ ih | orderBy _ _ _ ih | thenBy _ _ _ ih | skip _ _ ih | take _ _ ih =>
      simp only [relabel, ih, Formula.relabel_relabel]
  | project _ _ ih => simp only [relabel, ih, Projection.relabel_relabel]
  | groupBy _ _ _ ih =>
      simp only [relabel, ih, List.map_map, Function.comp_def, Formula.relabel_relabel,
        Summary.relabel_relabel]
  | join _ _ _ _ _ ihl ihr => simp only [relabel, ihl, ihr, Formula.relabel_relabel]
  | combine _ _ _ ihl ihr => simp only [relabel, ihl, ihr]
  | conclude _ _ _ ih =>
      simp only [relabel, ih, Option.map_map, Function.comp_def, Formula.relabel_relabel]

end Query

/-! ## Encodings

An encoding has the names of types, the fields of properties, and of a value only whether it is
null.  A relabeling that keeps the names leaves it as it is. -/

section Encodings

variable (hr : r.KeepsNames)

include hr

lemma optionalEncoding_relabel (arg : Option Formula) :
    optionalEncoding (arg.map (Formula.relabel r)) = optionalEncoding arg := by
  cases arg with
  | none => rfl
  | some f => rw [Option.map_some, optionalEncoding, f.encoding_relabel hr, optionalEncoding]

lemma Summary.encoding_relabel (s : Summary) : (s.relabel r).encoding = s.encoding := by
  rw [encoding, relabel, optionalEncoding_relabel hr, encoding]

lemma Projected.encoding_relabel (p : Projected) : (p.relabel r).encoding = p.encoding := by
  cases p with
  | scalar f => exact f.encoding_relabel hr
  | entity => rfl

lemma Projection.encoding_relabel (p : Projection) : (p.relabel r).encoding = p.encoding := by
  cases p with
  | scalar f => rw [relabel, encoding, f.encoding_relabel hr, encoding]
  | record fields =>
      simp only [relabel, encoding, List.length_map, List.flatMap_map,
        Projected.encoding_relabel hr]
  | entity => rfl

/-- **A query is encoded as before if types keep their names.** -/
theorem Query.encoding_relabel (q : Query) : (q.relabel r).encoding = q.encoding := by
  induction q with
  | source => rfl
  | correlate _ _ ih | distinct _ ih => simp only [relabel, encoding, ih]
  | filter _ _ ih | orderBy _ _ _ ih | thenBy _ _ _ ih | skip _ _ ih | take _ _ ih =>
      simp only [relabel, encoding, ih, Formula.encoding_relabel hr]
  | project _ _ ih => simp only [relabel, encoding, ih, Projection.encoding_relabel hr]
  | groupBy _ _ _ ih =>
      simp only [relabel, encoding, ih, List.length_map, List.flatMap_map,
        Formula.encoding_relabel hr, Summary.encoding_relabel hr]
  | join _ _ _ _ _ ihl ihr => simp only [relabel, encoding, ihl, ihr, Formula.encoding_relabel hr]
  | combine _ _ _ ihl ihr => simp only [relabel, encoding, ihl, ihr]
  | conclude _ _ _ ih => simp only [relabel, encoding, ih, optionalEncoding_relabel hr]

lemma formulaLengths_relabel (arg : Option Formula) :
    formulaLengths (arg.map (Formula.relabel r)).toList = formulaLengths arg.toList := by
  cases arg with
  | none => rfl
  | some f =>
      simp only [Option.map_some, Option.toList_some, formulaLengths, f.lengths_relabel hr]

lemma Projected.lengths_relabel (p : Projected) : (p.relabel r).lengths = p.lengths := by
  cases p with
  | scalar f => exact f.lengths_relabel hr
  | entity => rfl

lemma Projection.lengths_relabel (p : Projection) : (p.relabel r).lengths = p.lengths := by
  cases p with
  | scalar f => exact f.lengths_relabel hr
  | record fields =>
      simp only [relabel, lengths, List.length_map, List.flatMap_map, Projected.lengths_relabel hr]
  | entity => rfl

/-- So are the lengths in its encoding. -/
theorem Query.lengths_relabel (q : Query) : (q.relabel r).lengths = q.lengths := by
  induction q with
  | source => rfl
  | correlate _ _ ih | distinct _ ih => simp only [relabel, lengths, ih]
  | filter _ _ ih | orderBy _ _ _ ih | thenBy _ _ _ ih | skip _ _ ih | take _ _ ih =>
      simp only [relabel, lengths, ih, Formula.lengths_relabel hr]
  | project _ _ ih => simp only [relabel, lengths, ih, Projection.lengths_relabel hr]
  | groupBy _ _ _ ih =>
      simp only [relabel, lengths, ih, List.length_map, List.flatMap_map, Summary.relabel,
        Formula.lengths_relabel hr, formulaLengths_relabel hr]
  | join _ _ _ _ _ ihl ihr => simp only [relabel, lengths, ihl, ihr, Formula.lengths_relabel hr]
  | combine _ _ _ ihl ihr => simp only [relabel, lengths, ihl, ihr]
  | conclude _ _ _ ih => simp only [relabel, lengths, ih, formulaLengths_relabel hr]

end Encodings

/-! ## Types -/

lemma Projection.formulas_relabel (p : Projection) :
    (p.relabel r).formulas = p.formulas.map (Formula.relabel r) := by
  cases p with
  | scalar | entity => rfl
  | record fields =>
      simp only [relabel, formulas, List.filterMap_map, List.map_filterMap]
      refine List.filterMap_congr fun f _ => ?_
      cases hf : f.2 <;> simp [hf, Projected.relabel]

lemma Formula.relabels_eq_map (fs : List Formula) : relabels r fs = fs.map (relabel r) := by
  induction fs with
  | nil => rfl
  | cons f fs ih => rw [relabels, List.map_cons, ih]

namespace Query

/-- The formulas of an operator are relabeled with it. -/
lemma formulas_relabel (q : Query) :
    (q.relabel r).formulas = q.formulas.map (Formula.relabel r) := by
  cases q with
  | project _ projection => exact projection.formulas_relabel
  | groupBy _ keys summaries =>
      simp only [relabel, formulas, List.map_append, List.map_map, Function.comp_def,
        List.filterMap_map, List.map_filterMap]
      rfl
  | conclude _ _ arg => cases arg <;> rfl
  | _ => rfl

/-- The types of a query are relabeled with it. -/
theorem types_relabel (q : Query) : (q.relabel r).types = q.types.map r.scalarType := by
  have hown : ∀ q : Query, formulaTypes (q.relabel r).formulas =
      (formulaTypes q.formulas).map r.scalarType := by
    intro q
    rw [formulas_relabel, ← Formula.relabels_eq_map, Formula.types_relabels]
  induction q with
  | source entity aliasName => exact hown (.source entity aliasName)
  | filter _ _ ih | project _ _ ih | orderBy _ _ _ ih | thenBy _ _ _ ih | groupBy _ _ _ ih
  | correlate _ _ ih | skip _ _ ih | take _ _ ih | distinct _ ih | conclude _ _ _ ih =>
      rw [relabel, types, ← relabel, hown, types, ih, List.map_append]
  | join _ _ _ _ _ ihl ihr | combine _ _ _ ihl ihr =>
      rw [relabel, types, ← relabel, hown, types, ihl, ihr, List.map_append, List.map_append]

end Query

end Queries
end EntityQuery
