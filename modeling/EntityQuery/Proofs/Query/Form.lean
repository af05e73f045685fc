import EntityQuery.Proofs.Computation
import EntityQuery.Query.Encoding
import EntityQuery.Translation.Formula

/-!
# Forms of queries

The form of a query is what its plan may depend on: the values of its constants count only as null
or not, and the written names of its properties do not count, since their fields decide.

* `Formula.form` and `Query.form` are the forms.
* `Formula.scalarType_form`, `Formula.isNullable_form`, `Query.element_form`: a query has the types
  of its form.
* `Query.types` are the types that a query writes out.
-/

namespace EntityQuery

/-! ## Formulas

All that is asked of a formula in translation is asked of its form here: its type, whether it may be
null, whether it is null. -/

namespace Formula

mutual

/-- A formula without the values of constants and the written names of properties. -/
def form : Formula → Formula
  | .property p => .property { p with member := "" }
  | .member name t nullable => .member name t nullable
  | .element t nullable => .element t nullable
  | .constant value t => .constant (if value.isNull then .null else .bool true) t
  | .parameter name t => .parameter name t
  | .binary op left right => .binary op left.form right.form
  | .not f => .not f.form
  | .negate f => .negate f.form
  | .isNull f => .isNull f.form
  | .isNotNull f => .isNotNull f.form
  | .inList f list => .inList f.form (forms list)
  | .like f pattern => .like f.form pattern.form
  | .builtin function args => .builtin function (forms args)
  | .caseWhen c t o => .caseWhen c.form t.form o.form
  | .coalesce values => .coalesce (forms values)
  | .call function args t => .call function (forms args) t

/-- The forms of several formulas. -/
def forms : List Formula → List Formula
  | [] => []
  | f :: fs => f.form :: forms fs

end

lemma forms_eq_map (fs : List Formula) : forms fs = fs.map form := by
  induction fs with
  | nil => rfl
  | cons f fs ih => rw [forms, ih, List.map_cons]

@[simp] lemma length_forms (fs : List Formula) : (forms fs).length = fs.length := by
  rw [forms_eq_map, List.length_map]

mutual

/-- A formula has the type of its form. -/
theorem scalarType_form : (f : Formula) → f.form.scalarType = f.scalarType
  | .property _ | .member .. | .element .. | .constant .. | .parameter .. | .isNull _
  | .isNotNull _ | .not _ | .inList .. | .like .. | .call .. => rfl
  | .binary op left right => by
      simp only [form, scalarType, scalarType_form left, scalarType_form right]
  | .negate f => scalarType_form f
  | .builtin function args => by simp only [form, scalarType, firstType_forms args]
  | .caseWhen _ t _ => scalarType_form t
  | .coalesce values => firstType_forms values

theorem firstType_forms : (fs : List Formula) → firstType (forms fs) = firstType fs
  | [] => rfl
  | f :: _ => scalarType_form f

end

/-- Whether a value is null is a part of the form. -/
lemma isNull_form (value : Value) :
    (if value.isNull then Value.null else .bool true).isNull = value.isNull := by
  cases h : value.isNull <;> rfl

mutual

/-- A formula may be null if its form may. -/
theorem isNullable_form : (f : Formula) → f.form.isNullable = f.isNullable
  | .property _ | .member .. | .element .. | .parameter .. | .isNull _ | .isNotNull _
  | .call .. => rfl
  | .constant value _ => isNull_form value
  | .binary _ left right => by
      simp only [form, isNullable, isNullable_form left, isNullable_form right]
  | .not f | .negate f | .inList f _ => isNullable_form f
  | .like f pattern => by
      simp only [form, isNullable, isNullable_form f, isNullable_form pattern]
  | .builtin _ args => anyNullable_forms args
  | .caseWhen _ t o => by simp only [form, isNullable, isNullable_form t, isNullable_form o]
  | .coalesce values => allNullable_forms values

theorem anyNullable_forms : (fs : List Formula) → anyNullable (forms fs) = anyNullable fs
  | [] => rfl
  | f :: fs => by simp only [forms, anyNullable, isNullable_form f, anyNullable_forms fs]

theorem allNullable_forms : (fs : List Formula) → allNullable (forms fs) = allNullable fs
  | [] => rfl
  | f :: fs => by simp only [forms, allNullable, isNullable_form f, allNullable_forms fs]

end

/-- A formula is the constant null if its form is. -/
lemma isNullConstant_form (f : Formula) : f.form.isNullConstant = f.isNullConstant := by
  cases f with
  | constant value t => exact isNull_form value
  | _ => rfl

/-- The element of a formula is that of its form. -/
lemma ofFormula_form (f : Formula) : ElementType.ofFormula f.form = .ofFormula f := by
  rw [ElementType.ofFormula, scalarType_form, isNullable_form, ElementType.ofFormula]

end Formula

/-! ## Queries -/

/-- The form of a summary. -/
def Summary.form (s : Summary) : Summary := ⟨s.function, s.arg.map Formula.form⟩

lemma Summary.scalarType_form (s : Summary) : s.form.scalarType = s.scalarType := by
  obtain ⟨function, arg⟩ := s
  cases arg with
  | none => rfl
  | some f =>
      cases function <;>
        simp only [form, scalarType, Option.map_some, Formula.scalarType_form]

lemma Summary.isNullable_form (s : Summary) : s.form.isNullable = s.isNullable := rfl

/-- The form of what a field holds. -/
def Projected.form : Projected → Projected
  | .scalar f => .scalar f.form
  | .entity name aliasName => .entity name aliasName

lemma Projected.element_form (p : Projected) : p.form.element = p.element := by
  cases p with
  | scalar f => exact Formula.ofFormula_form f
  | entity => rfl

/-- The form of a projection. -/
def Projection.form : Projection → Projection
  | .scalar f => .scalar f.form
  | .record fields => .record (fields.map fun f => (f.1, f.2.form))
  | .entity name aliasName => .entity name aliasName

lemma Projection.element_form (p : Projection) : p.form.element = p.element := by
  cases p with
  | scalar f => exact Formula.ofFormula_form f
  | entity => rfl
  | record fields =>
      simp only [form, element, List.map_map, Function.comp_def, Projected.element_form]

namespace Query

/-- A query without the values of constants and the written names of properties. -/
def form : Query → Query
  | .source entity aliasName => .source entity aliasName
  | .filter input predicate => .filter input.form predicate.form
  | .project input projection => .project input.form projection.form
  | .orderBy input key descending => .orderBy input.form key.form descending
  | .thenBy input key descending => .thenBy input.form key.form descending
  | .groupBy input keys summaries =>
    .groupBy input.form (keys.map fun k => (k.1, k.2.form)) (summaries.map fun s => (s.1, s.2.form))
  | .join kind left right leftKey rightKey =>
    .join kind left.form right.form leftKey.form rightKey.form
  | .correlate input correlation => .correlate input.form correlation
  | .skip input count => .skip input.form count.form
  | .take input count => .take input.form count.form
  | .distinct input => .distinct input.form
  | .combine op left right => .combine op left.form right.form
  | .conclude input terminal arg => .conclude input.form terminal (arg.map Formula.form)

/-- A query has the elements of its form. -/
theorem element_form (q : Query) : q.form.element = q.element := by
  induction q with
  | source => rfl
  | filter _ _ ih | orderBy _ _ _ ih | thenBy _ _ _ ih | skip _ _ ih | take _ _ ih
  | distinct _ ih => exact ih
  | project _ projection _ => exact projection.element_form
  | groupBy _ keys summaries _ =>
      simp only [form, element, List.map_map, Function.comp_def, Formula.ofFormula_form,
        Summary.scalarType_form, Summary.isNullable_form]
  | join _ _ _ _ _ ihl ihr => simp only [form, element, ihl, ihr]
  | correlate _ _ ih => simp only [form, element, ih]
  | combine _ _ _ ihl _ => exact ihl
  | conclude _ terminal arg _ =>
      have hsummary : ∀ function, (Summary.mk function (arg.map Formula.form)).scalarType =
          (Summary.mk function arg).scalarType :=
        fun function => Summary.scalarType_form ⟨function, arg⟩
      simp only [form, element, concludedElement, hsummary]

end Query

/-! ## Types

A form still has all types that a formula writes out.  They are collected because an encoding has
only their names. -/

mutual

/-- The types that a formula writes out. -/
def Formula.types : Formula → List ScalarType
  | .property p => [p.scalarType]
  | .member _ t _ | .element t _ | .constant _ t | .parameter _ t => [t]
  | .binary _ left right => left.types ++ right.types
  | .not f | .negate f | .isNull f | .isNotNull f => f.types
  | .inList f list => f.types ++ formulaTypes list
  | .like f pattern => f.types ++ pattern.types
  | .builtin _ args => formulaTypes args
  | .caseWhen c t o => c.types ++ t.types ++ o.types
  | .coalesce values => formulaTypes values
  | .call _ args t => t :: formulaTypes args

/-- The types that several formulas write out. -/
def formulaTypes : List Formula → List ScalarType
  | [] => []
  | f :: fs => f.types ++ formulaTypes fs

end

/-- The types that a query writes out. -/
def Query.types (q : Query) : List ScalarType :=
  let own := formulaTypes q.formulas
  match q with
  | .source .. => own
  | .filter input _ | .project input _ | .orderBy input _ _ | .thenBy input _ _
  | .groupBy input _ _ | .correlate input _ | .skip input _ | .take input _ | .distinct input
  | .conclude input _ _ => input.types ++ own
  | .join _ left right _ _ => left.types ++ right.types ++ own
  | .combine _ left right => left.types ++ right.types ++ own

end EntityQuery
