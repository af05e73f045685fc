import EntityQuery.Proofs.Query.Relabeling
import EntityQuery.Proofs.Translation.Form
import EntityQuery.Proofs.Translation.Slots

/-!
# Values of constants in translations

A translation never looks at the value of a constant, but for whether it is null.  Queries that
differ in nothing else therefore have one translation, or are refused with one error: what a caller
puts into a constant cannot get into a statement.

* `Formula.withoutValues` and `Query.withoutValues` forget the values.
* `Translator.formula_withoutValues` and `Translator.stage_withoutValues`: formulas and queries are
  translated as without them, step by step.
* `translate_ignores_values`: so queries that differ in values only are translated alike.
-/

namespace EntityQuery

/-- A formula without the values of its constants; only whether they are null is kept. -/
abbrev Formula.withoutValues (f : Formula) : Formula := f.relabel .withoutValues

/-- Formulas without the values of their constants. -/
abbrev Formula.allWithoutValues (fs : List Formula) : List Formula := relabels .withoutValues fs

/-- A query without the values of its constants; only whether they are null is kept. -/
abbrev Query.withoutValues (q : Query) : Query := q.relabel .withoutValues

/-! ## What is known of formulas

Types and nullness are those of the form of a formula, which has no values. -/

namespace Formula

lemma form_withoutValues (f : Formula) : f.withoutValues.form = f.form := by
  rw [form_eq_relabel, relabel_relabel, Relabeling.form_comp_withoutValues, form_eq_relabel]

lemma forms_withoutValues (fs : List Formula) : forms (allWithoutValues fs) = forms fs := by
  rw [forms_eq_relabels, relabels_relabels, Relabeling.form_comp_withoutValues, forms_eq_relabels]

lemma scalarType_withoutValues (f : Formula) : f.withoutValues.scalarType = f.scalarType := by
  rw [← scalarType_form, form_withoutValues, scalarType_form]

lemma firstType_withoutValues (fs : List Formula) :
    firstType (allWithoutValues fs) = firstType fs := by
  rw [← firstType_forms, forms_withoutValues, firstType_forms]

lemma isNullable_withoutValues (f : Formula) : f.withoutValues.isNullable = f.isNullable := by
  rw [← isNullable_form, form_withoutValues, isNullable_form]

lemma isNullConstant_withoutValues (f : Formula) :
    f.withoutValues.isNullConstant = f.isNullConstant := by
  rw [← isNullConstant_form, form_withoutValues, isNullConstant_form]

end Formula

lemma Query.form_withoutValues (q : Query) : q.withoutValues.form = q.form := by
  rw [form_eq_relabel, relabel_relabel, Relabeling.form_comp_withoutValues, form_eq_relabel]

lemma Query.element_withoutValues (q : Query) : q.withoutValues.element = q.element := by
  rw [← element_form, form_withoutValues, element_form]

lemma Summary.scalarType_withoutValues (s : Summary) :
    (s.relabel .withoutValues).scalarType = s.scalarType := by
  rw [← scalarType_form, form_eq_relabel, relabel_relabel, Relabeling.form_comp_withoutValues,
    ← form_eq_relabel, scalarType_form]

/-! ## Checks

A check asks for types and for whether a formula is null.  Each gives the same answer, and the same
error, without the values. -/

section Checks

lemma expectOperand_withoutValues (construct wanted : String) (accepts : ScalarType → Bool)
    (f : Formula) :
    expectOperand construct wanted accepts f.withoutValues =
      expectOperand construct wanted accepts f := by
  rw [← expectOperand_form, Formula.form_withoutValues, expectOperand_form]

lemma checkOperands_withoutValues (op : Operator) (left right : Formula) :
    checkOperands op left.withoutValues right.withoutValues = checkOperands op left right := by
  rw [← checkOperands_form, Formula.form_withoutValues, Formula.form_withoutValues,
    checkOperands_form]

lemma checkComparable_withoutValues (construct found between : String) (first : ScalarType)
    (fs : List Formula) :
    checkComparable construct found between first (Formula.allWithoutValues fs) =
      checkComparable construct found between first fs := by
  rw [← checkComparable_form, Formula.forms_withoutValues, checkComparable_form]

lemma BuiltinFunction.check_withoutValues (function : BuiltinFunction) (args : List Formula) :
    function.check (Formula.allWithoutValues args) = function.check args := by
  rw [← check_form, Formula.forms_withoutValues, check_form]

end Checks

/-! ## Formulas -/

section Formulas

variable {tr : Translator} {frame : Frame}

namespace Translator

mutual

/-- **A formula is translated as without its values.** -/
theorem formula_withoutValues : (f : Formula) →
    tr.formula frame f.withoutValues = tr.formula frame f
  | .property _ | .member .. | .element .. | .constant .. | .parameter .. => rfl
  | .binary op left right => by
      simp only [Formula.relabel, formula, Formula.isNullConstant_withoutValues,
        checkOperands_withoutValues, formula_withoutValues left, formula_withoutValues right]
  | .not f | .negate f => by
      simp only [Formula.relabel, formula, expectBool, expectNumber, expectOperand_withoutValues,
        formula_withoutValues f]
  | .isNull f | .isNotNull f => by
      simp only [Formula.relabel, formula, formula_withoutValues f]
  | .inList f list => by
      simp only [Formula.relabel, formula, checkComparable_withoutValues,
        Formula.scalarType_withoutValues, formula_withoutValues f, formulas_withoutValues list]
  | .like f pattern => by
      simp only [Formula.relabel, formula, expectText, expectOperand_withoutValues,
        formula_withoutValues f, formula_withoutValues pattern]
  | .builtin function args => by
      simp only [Formula.relabel, formula, BuiltinFunction.check_withoutValues,
        formulas_withoutValues args]
  | .caseWhen c t o => by
      have ho := checkComparable_withoutValues "conditional" "branches have types " "and"
        t.scalarType [o]
      simp only [Formula.relabels] at ho
      simp only [Formula.relabel, formula, expectBool, expectOperand_withoutValues,
        Formula.scalarType_withoutValues, ho, formula_withoutValues c, formula_withoutValues t,
        formula_withoutValues o]
  | .coalesce values => by
      have hempty : (Formula.allWithoutValues values).isEmpty = values.isEmpty := by
        cases values <;> rfl
      simp only [Formula.relabel, formula, hempty, Formula.firstType_withoutValues,
        checkComparable_withoutValues, formulas_withoutValues values]
  | .call function args t => by
      simp only [Formula.relabel, formula, Formula.length_relabels, formulas_withoutValues args]
      rfl

theorem formulas_withoutValues : (fs : List Formula) →
    tr.formulas frame (Formula.allWithoutValues fs) = tr.formulas frame fs
  | [] => rfl
  | f :: fs => by
      simp only [Formula.relabels, formulas, formula_withoutValues f, formulas_withoutValues fs]

end

end Translator

lemma Frame.originOf_withoutValues (f : Formula) :
    frame.originOf f.withoutValues = frame.originOf f := by
  cases f <;> rfl

/-! ## Parts of operators -/

namespace Translator

lemma condition_withoutValues (construct : String) (f : Formula) :
    tr.condition frame construct f.withoutValues = tr.condition frame construct f := by
  simp only [condition, expectBool, expectOperand_withoutValues, formula_withoutValues]

lemma yielded_withoutValues (f : Formula) :
    tr.yielded frame f.withoutValues = tr.yielded frame f := by
  simp only [yielded, formula_withoutValues, Formula.scalarType_withoutValues,
    Formula.isNullable_withoutValues, Frame.originOf_withoutValues]

lemma projectedField_withoutValues (field : String × Projected) :
    tr.projectedField frame (field.1, field.2.relabel .withoutValues) =
      tr.projectedField frame field := by
  obtain ⟨name, p⟩ := field
  cases p with
  | scalar f => simp only [Projected.relabel, projectedField, yielded_withoutValues]
  | entity => rfl

lemma projection_withoutValues (p : Projection) :
    tr.projection frame (p.relabel .withoutValues) = tr.projection frame p := by
  cases p with
  | scalar f => simp only [Projection.relabel, projection, yielded_withoutValues]
  | entity => rfl
  | record fields =>
      have hnames : (fields.map fun f => (f.1, f.2.relabel .withoutValues)).map Prod.fst =
          fields.map Prod.fst := by
        rw [List.map_map]
        rfl
      simp only [Projection.relabel, projection, List.isEmpty_map, hnames, List.mapM_map,
        Function.comp_def, projectedField_withoutValues]

lemma rowCount_withoutValues (construct : String) (count : Formula) :
    tr.rowCount frame construct count.withoutValues = tr.rowCount frame construct count := by
  simp only [rowCount, Formula.scalarType_withoutValues, formula_withoutValues]

lemma groupKey_withoutValues (key : String × Formula) :
    tr.groupKey frame (key.1, key.2.withoutValues) = tr.groupKey frame key := by
  simp only [groupKey, yielded_withoutValues]

lemma groupSummary_withoutValues (s : String × Summary) :
    tr.groupSummary frame (s.1, s.2.relabel .withoutValues) = tr.groupSummary frame s := by
  have hsummary : tr.summary frame (s.2.relabel .withoutValues) = tr.summary frame s.2 := by
    obtain ⟨_, function, arg⟩ := s
    cases arg with
    | none => rfl
    | some f =>
        simp only [summary, Summary.relabel, Option.map_some, expectNumber,
          expectOperand_withoutValues, formula_withoutValues]
  simp only [groupSummary, hsummary, Summary.scalarType_withoutValues]
  rfl

lemma terminal_withoutValues (terminal : Terminal) (arg : Option Formula) :
    tr.terminal frame terminal (arg.map Formula.withoutValues) =
      tr.terminal frame terminal arg := by
  cases arg with
  | none => rfl
  | some f =>
      simp only [Translator.terminal, Option.map_some, terminalArgument, pure_bind,
        Formula.scalarType_withoutValues, formula_withoutValues, condition_withoutValues]

end Translator

end Formulas

/-! ## Queries

Both translations are computations that are equal step by step, errors included.  So the statement
is an equation, and not merely one about translations that succeed. -/

namespace Translator

variable {tr : Translator}

/-- **A query is translated as without its values.** -/
theorem stage_withoutValues (q : Query) : tr.stage q.withoutValues = tr.stage q := by
  induction q with
  | source => rfl
  | filter input predicate ih => simp only [Query.relabel, stage, ih, condition_withoutValues]
  | project input projection ih => simp only [Query.relabel, stage, ih, projection_withoutValues]
  | orderBy input key _ ih | thenBy input key _ ih =>
      simp only [Query.relabel, stage, ih, formula_withoutValues]
  | groupBy input keys summaries ih =>
      simp only [Query.relabel, stage, ih, List.mapM_map, Function.comp_def,
        groupKey_withoutValues, groupSummary_withoutValues]
  | join kind left right leftKey rightKey ihl ihr =>
      simp only [Query.relabel, stage, ihl, ihr, Formula.scalarType_withoutValues,
        formula_withoutValues]
  | correlate input c ih | distinct input ih => simp only [Query.relabel, stage, ih]
  | skip input count ih | take input count ih =>
      simp only [Query.relabel, stage, ih, rowCount_withoutValues]
  | combine op left right ihl ihr =>
      simp only [Query.relabel, stage, ihl, ihr, Query.element_withoutValues]
  | conclude input terminal arg ih =>
      simp only [Query.relabel, stage, ih, terminal_withoutValues]

end Translator

/-- **Values of constants never influence a translation.**  Queries that differ in nothing but the
values of constants, those that are null apart, are refused with the same error or have the same
statement, parameters and shape of rows. -/
theorem translate_ignores_values {tr : Translator} {q q' : Query}
    (h : q.withoutValues = q'.withoutValues) : tr.translate q = tr.translate q' := by
  rw [Translator.translate, ← Translator.stage_withoutValues, h, Translator.stage_withoutValues,
    Translator.translate]

namespace Sample

/-- The persons above an age. -/
def olderThan (bound : Int64) : Query :=
  .filter (.source "Person" "p") (.binary .gt age (.ofValue (.int64 bound)))

end Sample

/-- Persons above 17 and persons above 64 are asked for by one statement. -/
theorem translate_ignores_values_ages : ∃ t,
    Sample.translator.translate (Sample.olderThan 17) = .ok t ∧
      Sample.translator.translate (Sample.olderThan 64) = .ok t ∧
      t.query.statement.text =
        "SELECT RAW `p` FROM `app`.`_default`.`person` AS `p` WHERE `p`.`age` > $p0" := by
  have hsame : (Sample.olderThan 17).withoutValues = (Sample.olderThan 64).withoutValues := rfl
  exact ⟨_, rfl, (translate_ignores_values hsame).symm, by decide +kernel⟩

end EntityQuery
