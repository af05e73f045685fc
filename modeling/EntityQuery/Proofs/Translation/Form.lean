import EntityQuery.Proofs.Query.Form
import EntityQuery.Proofs.Translation.Similar

/-!
# Translations of forms

A query and its form have the same translation, but for the written names of properties from which
scalars of the rows come.  Which error a query without a translation has is left aside, since such
a name may occur in its text.

* `Translator.formula_form`, `Translator.stage_form`: formulas and queries have the translations of
  their forms.
* `Translator.translate_form`: so has a query as a whole.
-/

namespace EntityQuery

open Translating (Similar results results_pure results_bind results_unsupported results_ite)

/-! ## Origins

A scalar remembers the property from which it was taken.  This is all of a frame in which the
written name of a property shows. -/

/-- A scalar whose property is not named. -/
def YieldedScalar.withoutOrigin (s : YieldedScalar) : YieldedScalar := { s with origin := none }

/-- A field whose property is not named. -/
def FieldYield.withoutOrigin : FieldYield → FieldYield
  | .scalar s => .scalar s.withoutOrigin
  | .entity b => .entity b

/-- Rows whose properties are not named. -/
def Yield.withoutOrigins : Yield → Yield
  | .entity b => .entity b
  | .scalar s => .scalar s.withoutOrigin
  | .record fields => .record (fields.map fun f => (f.1, f.2.withoutOrigin))

/-- A frame whose rows have properties that are not named. -/
def Frame.withoutOrigins (f : Frame) : Frame := { f with yield := f.yield.withoutOrigins }

namespace Yield

@[simp] lemma selection_withoutOrigins (y : Yield) : y.withoutOrigins.selection = y.selection := by
  cases y with
  | record fields =>
      simp only [withoutOrigins, selection, List.map_map]
      congr 1
      refine List.map_congr_left fun f _ => ?_
      cases hf : f.2 <;> simp [hf, FieldYield.withoutOrigin, FieldYield.expression,
        YieldedScalar.withoutOrigin]
  | _ => rfl

@[simp] lemma bindings_withoutOrigins (y : Yield) : y.withoutOrigins.bindings = y.bindings := by
  cases y with
  | record fields =>
      simp only [withoutOrigins, bindings, List.filterMap_map]
      congr 1
      funext f
      cases hf : f.2 <;> simp [hf, FieldYield.withoutOrigin, FieldYield.binding?]
  | _ => rfl

lemma rebase_withoutOrigins (y : Yield) (aliasName : String) :
    y.withoutOrigins.rebase aliasName = (y.rebase aliasName).withoutOrigins := by
  cases y with
  | record fields =>
      simp only [withoutOrigins, rebase, List.map_map]
      congr 1
      refine List.map_congr_left fun f _ => ?_
      cases hf : f.2 <;> simp [hf, FieldYield.withoutOrigin, FieldYield.withBase,
        YieldedScalar.withoutOrigin]
  | _ => rfl

lemma scopeFields?_withoutOrigins (y : Yield) :
    y.withoutOrigins.scopeFields? =
      y.scopeFields?.map (List.map fun f => (f.1, f.2.withoutOrigin)) := by
  cases y <;> rfl

lemma field?_withoutOrigins (name : String) (fields : List (String × FieldYield)) :
    field? name (fields.map fun f => (f.1, f.2.withoutOrigin)) =
      (field? name fields).map FieldYield.withoutOrigin := by
  induction fields with
  | nil => rfl
  | cons f fs ih =>
      rw [List.map_cons, field?, field?, ih]
      split <;> rfl

end Yield

namespace Frame

@[simp] lemma finish_withoutOrigins (f : Frame) : f.withoutOrigins.finish = f.finish := by
  simp only [finish, clauses, withoutOrigins, Yield.selection_withoutOrigins]

lemma ofStatement_withoutOrigins (s : Statement) (y : Yield) (aliasName : String) :
    ofStatement s y.withoutOrigins aliasName = (ofStatement s y aliasName).withoutOrigins := by
  simp only [ofStatement, withoutOrigins, Yield.rebase_withoutOrigins,
    Yield.bindings_withoutOrigins]

end Frame

/-! ## Formulas -/

section Formulas

variable {tr : Translator} {frame : Frame}

lemma expectOperand_form (construct wanted : String) (accepts : ScalarType → Bool) (f : Formula) :
    expectOperand construct wanted accepts f.form = expectOperand construct wanted accepts f := by
  simp only [expectOperand, Formula.scalarType_form]

lemma checkOperands_form (op : Operator) (left right : Formula) :
    checkOperands op left.form right.form = checkOperands op left right := by
  simp only [checkOperands, expectBool, expectText, expectOperand_form, Formula.scalarType_form]

lemma checkComparable_form (construct found between : String) (first : ScalarType)
    (fs : List Formula) :
    checkComparable construct found between first (Formula.forms fs) =
      checkComparable construct found between first fs := by
  rw [Formula.forms_eq_map, checkComparable, checkComparable, List.find?_map]
  have hcomp : ((fun f : Formula => !first.comparable f.scalarType) ∘ Formula.form) =
      fun f => !first.comparable f.scalarType := by
    funext f
    rw [Function.comp_apply, Formula.scalarType_form]
  rw [hcomp]
  cases fs.find? _ with
  | none => rfl
  | some f => simp only [Option.map_some, Formula.scalarType_form]

lemma BuiltinFunction.check_form (function : BuiltinFunction) (args : List Formula) :
    function.check (Formula.forms args) = function.check args := by
  have heach : ∀ check : Formula → Translating Unit, (∀ f : Formula, check f.form = check f) →
      (Formula.forms args).forM check = args.forM check := by
    intro check hcheck
    induction args with
    | nil => rfl
    | cons f fs ih =>
        change (check f.form >>= fun _ => (Formula.forms fs).forM check) =
          (check f >>= fun _ => fs.forM check)
        rw [hcheck, ih]
  rw [check, check, Formula.length_forms, heach]
  intro f
  cases function.isNumeric <;> simp [expectNumber, expectText, expectOperand_form]

lemma Frame.property_form (p : PropertyPath) :
    results (frame.withoutOrigins.property { p with member := "" }) =
      results (frame.property p) := by
  have hbinding : frame.withoutOrigins.binding? = frame.binding? := rfl
  simp only [property, hbinding]
  cases frame.binding? p.aliasName with
  | none => rfl
  | some b => simp only [results_ite, results_unsupported]

lemma Frame.member_form (name : String) :
    results (frame.withoutOrigins.member name) = results (frame.member name) := by
  simp only [member, withoutOrigins]
  cases frame.yield with
  | record fields =>
      simp only [Yield.withoutOrigins, Yield.field?_withoutOrigins]
      cases Yield.field? name fields with
      | none => rfl
      | some f => cases f <;> rfl
  | _ => rfl

lemma Frame.element_form : results frame.withoutOrigins.element = results frame.element := by
  simp only [element, withoutOrigins]
  cases frame.yield <;> rfl

namespace Translator

mutual

/-- **A formula is translated as its form is.** -/
theorem formula_form : (f : Formula) →
    results (tr.formula frame.withoutOrigins f.form) = results (tr.formula frame f)
  | .property p => frame.property_form p
  | .member name _ _ => frame.member_form name
  | .element _ _ => frame.element_form
  | .constant _ _ | .parameter _ _ => rfl
  | .binary op left right => by
      simp only [Formula.form, formula, Formula.isNullConstant_form, checkOperands_form,
        results_ite, results_bind, results_pure, formula_form left, formula_form right]
  | .not f | .negate f => by
      simp only [Formula.form, formula, expectBool, expectNumber, expectOperand_form, results_bind,
        results_pure, formula_form f]
  | .isNull f | .isNotNull f => by
      simp only [Formula.form, formula, results_bind, results_pure, formula_form f]
  | .inList f list => by
      simp only [Formula.form, formula, checkComparable_form, Formula.scalarType_form, results_bind,
        results_pure, formula_form f, formulas_form list]
  | .like f pattern => by
      simp only [Formula.form, formula, expectText, expectOperand_form, results_bind, results_pure,
        formula_form f, formula_form pattern]
  | .builtin function args => by
      simp only [Formula.form, formula, BuiltinFunction.check_form, results_bind, results_pure,
        formulas_form args]
  | .caseWhen c t o => by
      have ho := checkComparable_form "conditional" "branches have types " "and" t.scalarType [o]
      simp only [Formula.forms] at ho
      simp only [Formula.form, formula, expectBool, expectOperand_form, Formula.scalarType_form,
        ho, results_bind, results_pure, formula_form c, formula_form t, formula_form o]
  | .coalesce values => by
      have hempty : (Formula.forms values).isEmpty = values.isEmpty := by
        cases values <;> rfl
      simp only [Formula.form, formula, hempty, Formula.firstType_forms, checkComparable_form,
        results_ite, results_bind, formulas_form values]
  | .call function args t => by
      simp only [Formula.form, formula, Formula.length_forms, results_bind, results_pure,
        formulas_form args]

theorem formulas_form : (fs : List Formula) →
    results (tr.formulas frame.withoutOrigins (Formula.forms fs)) =
      results (tr.formulas frame fs)
  | [] => rfl
  | f :: fs => by
      simp only [Formula.forms, formulas, results_bind, results_pure, formula_form f,
        formulas_form fs]

end

end Translator

end Formulas

/-! ## Frames that differ in origins only

The frames of a query and of its form are not equal but alike.  All that operators read off them is
the same. -/

namespace Yield

@[simp] lemma withoutOrigins_idem (y : Yield) : y.withoutOrigins.withoutOrigins = y.withoutOrigins := by
  cases y with
  | record fields =>
      simp only [withoutOrigins, List.map_map]
      congr 1
      refine List.map_congr_left fun f _ => ?_
      cases hf : f.2 <;> simp [hf, FieldYield.withoutOrigin, YieldedScalar.withoutOrigin]
  | _ => rfl

end Yield

/-- Frames that are the same but for the origins of scalars. -/
def Frame.Alike (f g : Frame) : Prop := f.withoutOrigins = g.withoutOrigins

/-- Stages that are the same but for the origins of scalars. -/
inductive Stage.Alike : Stage → Stage → Prop
  | frame {f g} (h : f.Alike g) : Alike (.frame f) (.frame g)
  | compound {s y y'} (h : y.withoutOrigins = y'.withoutOrigins) :
      Alike (.compound s y) (.compound s y')

section Alike

variable {tr : Translator} {f g : Frame} {s t : Stage} {y y' : Yield}

namespace Frame.Alike

/-- A formula has one translation over frames that are alike. -/
lemma formula (h : f.Alike g) (e : Formula) :
    Similar Eq (tr.formula f e.form) (tr.formula g e) := by
  have horigins : ∀ (frame : Frame) (e : Formula),
      results (tr.formula frame.withoutOrigins e) = results (tr.formula frame e) := by
    intro frame e
    have hidem : frame.withoutOrigins.withoutOrigins = frame.withoutOrigins := by
      simp [withoutOrigins]
    have hwithout := @Translator.formula_form tr frame.withoutOrigins e
    rw [hidem, Translator.formula_form] at hwithout
    exact hwithout.symm
  refine .of_results ?_
  rw [← horigins f, h, Translator.formula_form]

lemma of_yield (f : Frame) (h : y.withoutOrigins = y'.withoutOrigins) :
    Alike { f with yield := y } { f with yield := y' } := by
  simp only [Alike, withoutOrigins, h]

/-- Frames that are alike differ in their rows only. -/
lemma exists_yield (h : f.Alike g) :
    ∃ y, g = { f with yield := y } ∧ f.yield.withoutOrigins = y.withoutOrigins := by
  obtain ⟨source, terms, predicate, groupBy, orderBy, distinct, offset, limit, yield, scope,
    grouped, concluded⟩ := g
  simp only [Alike, withoutOrigins, Frame.mk.injEq] at h
  obtain ⟨rfl, rfl, rfl, rfl, rfl, rfl, rfl, rfl, hy, rfl, rfl, rfl⟩ := h
  exact ⟨yield, rfl, hy⟩

lemma finish (h : f.Alike g) : f.finish = g.finish := by
  rw [← f.finish_withoutOrigins, h, g.finish_withoutOrigins]

lemma ofStatement (s : Statement) (h : y.withoutOrigins = y'.withoutOrigins) (aliasName : String) :
    (Frame.ofStatement s y aliasName).Alike (.ofStatement s y' aliasName) := by
  rw [Alike, ← ofStatement_withoutOrigins, h, ofStatement_withoutOrigins]

end Frame.Alike

namespace Stage.Alike

lemma yield (h : s.Alike t) : s.yield.withoutOrigins = t.yield.withoutOrigins := by
  cases h with
  | frame h => exact congrArg Frame.yield h
  | compound h => exact h

lemma statement (h : s.Alike t) : s.statement = t.statement := by
  cases h with
  | frame h => exact h.finish
  | compound => rfl

/-- Stages that are alike are entered alike. -/
lemma enter (h : s.Alike t) {closed : Frame → Bool}
    (hclosed : ∀ f y, closed { f with yield := y } = closed f) :
    Similar Frame.Alike (s.enter closed) (t.enter closed) := by
  cases h with
  | @frame f g h =>
      have hg : closed g = closed f := by
        obtain ⟨y, rfl, -⟩ := h.exists_yield
        exact hclosed f y
      simp only [Stage.enter, hg]
      split
      · refine .step fun aliasName => .pure ?_
        rw [h.finish]
        exact .ofStatement _ (congrArg Frame.yield h) _
      · exact .pure h
  | compound h => exact .step fun aliasName => .pure (.ofStatement _ h _)

end Stage.Alike

/-! ## Parts of operators -/

/-- Scalars that are the same but for their origins. -/
def YieldedScalar.Alike (s t : YieldedScalar) : Prop := s.withoutOrigin = t.withoutOrigin

/-- Fields that are the same but for the origins of scalars. -/
def AlikeFields (fs gs : List (String × FieldYield)) : Prop :=
  (fs.map fun f => (f.1, f.2.withoutOrigin)) = gs.map fun f => (f.1, f.2.withoutOrigin)

lemma Frame.Alike.fieldsFor (h : f.Alike g) (construct reason : String) :
    Similar AlikeFields (f.fieldsFor construct reason) (g.fieldsFor construct reason) := by
  have hfields := congrArg Yield.scopeFields? (congrArg Frame.yield h)
  simp only [withoutOrigins, Yield.scopeFields?_withoutOrigins] at hfields
  simp only [Frame.fieldsFor]
  cases hf : f.yield.scopeFields? <;> cases hg : g.yield.scopeFields? <;>
    simp only [hf, hg, Option.map_none, Option.map_some, reduceCtorEq, Option.some.injEq] at hfields
  · exact .unsupported _ _ _ _
  · exact .pure hfields

lemma Frame.Alike.extend (h : f.Alike g) {fs gs : List (String × FieldYield)}
    (hfields : AlikeFields fs gs) (t : Term) (b : Binding) :
    (f.extend fs t b).Alike (g.extend gs t b) := by
  obtain ⟨y, rfl, -⟩ := h.exists_yield
  refine Frame.Alike.of_yield { f with terms := f.terms ++ [t], scope := f.scope ++ [b] } ?_
  simp only [Yield.withoutOrigins, List.map_append]
  rw [hfields]

lemma Stage.Alike.joinSource (h : s.Alike t) (optional : Bool) :
    Similar Eq (s.joinSource optional) (t.joinSource optional) := by
  have hyield := h.yield
  have hbare : ∀ {f g : Frame}, f.Alike g → f.bareKeyspace? = g.bareKeyspace? := by
    intro f g h
    obtain ⟨y, rfl, hy⟩ := h.exists_yield
    obtain ⟨source, terms, predicate, groupBy, orderBy, distinct, offset, limit, yield, scope,
      grouped, concluded⟩ := f
    cases source <;> cases yield <;> cases y <;>
      simp only [Yield.withoutOrigins, reduceCtorEq, Yield.entity.injEq] at hy <;>
      first | rfl | (subst hy; rfl)
  simp only [Stage.joinSource]
  cases hs : s.yield <;> cases ht : t.yield <;>
    simp only [hs, ht, Yield.withoutOrigins, reduceCtorEq, Yield.entity.injEq] at hyield
  · subst hyield
    cases h with
    | frame h =>
        refine .pure ?_
        simp only [hbare h, Stage.statement, h.finish]
    | compound => exact .pure rfl
  · exact .unsupported _ _ _ _
  · exact .unsupported _ _ _ _

lemma Frame.Alike.condition (h : f.Alike g) (construct : String) (e : Formula) :
    Similar Eq (tr.condition f construct e.form) (tr.condition g construct e) := by
  rw [Translator.condition, Translator.condition, expectBool, expectOperand_form]
  exact .step fun _ => h.formula e

lemma Frame.Alike.yielded (h : f.Alike g) (e : Formula) :
    Similar YieldedScalar.Alike (tr.yielded f e.form) (tr.yielded g e) := by
  refine (h.formula e).bind fun l r hlr => .pure ?_
  rw [YieldedScalar.Alike, YieldedScalar.withoutOrigin, hlr, Formula.scalarType_form,
    Formula.isNullable_form]
  rfl

lemma Frame.Alike.projected (h : f.Alike g) (aliasName : String) :
    Similar Eq (f.projected aliasName) (g.projected aliasName) := by
  obtain ⟨y, rfl, -⟩ := h.exists_yield
  exact .of_results rfl

/-- A relation between the members of lists that is an equality makes one between the lists. -/
lemma map_eq_of_forall₂ {α β γ : Type} {k : α → γ} {l : β → γ} {as : List α} {bs : List β}
    (h : List.Forall₂ (fun a b => k a = l b) as bs) : as.map k = bs.map l := by
  induction h with
  | nil => rfl
  | cons hab _ ih => rw [List.map_cons, List.map_cons, hab, ih]

lemma Frame.Alike.projectedField (h : f.Alike g) (field : String × Projected) :
    Similar (fun a b => (a.1, a.2.withoutOrigin) = (b.1, b.2.withoutOrigin))
      (tr.projectedField f (field.1, field.2.form)) (tr.projectedField g field) := by
  obtain ⟨name, p⟩ := field
  cases p with
  | scalar e =>
      refine (h.yielded e).bind fun s t hst => .pure ?_
      simp only [FieldYield.withoutOrigin]
      rw [hst]
  | entity name aliasName =>
      refine (h.projected aliasName).bind fun b c hbc => .pure ?_
      rw [hbc]

lemma Frame.Alike.projection (h : f.Alike g) (p : Projection) :
    Similar (fun y y' => y.withoutOrigins = y'.withoutOrigins) (tr.projection f p.form)
      (tr.projection g p) := by
  cases p with
  | scalar e =>
      refine (h.yielded e).bind fun s t hst => .pure ?_
      rw [Yield.withoutOrigins, Yield.withoutOrigins, hst]
  | entity name aliasName =>
      refine (h.projected aliasName).bind fun b c hbc => .pure ?_
      rw [hbc]
  | record fields =>
      have hfields : Similar
          (List.Forall₂ fun a b => (a.1, a.2.withoutOrigin) = (b.1, b.2.withoutOrigin))
          ((fields.map fun f => (f.1, f.2.form)).mapM (tr.projectedField f))
          (fields.mapM (tr.projectedField g)) := by
        rw [List.mapM_map]
        exact .mapM fun field _ => h.projectedField field
      have hnames : (fields.map fun f => (f.1, f.2.form)).map Prod.fst = fields.map Prod.fst := by
        rw [List.map_map]
        rfl
      simp only [Projection.form, Translator.projection, hnames, List.isEmpty_map]
      split
      · exact .unsupported _ _ _ _
      · refine .step fun _ => hfields.bind fun fs gs hfg => .pure ?_
        rw [Yield.withoutOrigins, Yield.withoutOrigins, map_eq_of_forall₂ hfg]

lemma Frame.Alike.rowCount (h : f.Alike g) (construct : String) (count : Formula) :
    Similar Eq (tr.rowCount f construct count.form) (tr.rowCount g construct count) := by
  simp only [Translator.rowCount, Formula.scalarType_form]
  split
  · exact .unsupported _ _ _ _
  · refine (h.formula count).bind ?_
    rintro e _ rfl
    exact .of_results rfl

lemma Frame.Alike.groupKey (h : f.Alike g) (key : String × Formula) :
    Similar (fun a b => (a.1, a.2.withoutOrigin) = (b.1, b.2.withoutOrigin))
      (tr.groupKey f (key.1, key.2.form)) (tr.groupKey g key) := by
  refine (h.yielded key.2).bind fun s t hst => .pure ?_
  simp only
  rw [hst]

lemma Frame.Alike.groupSummary (h : f.Alike g) (s : String × Summary) :
    Similar (fun a b => (a.1, a.2.withoutOrigin) = (b.1, b.2.withoutOrigin))
      (tr.groupSummary f (s.1, s.2.form)) (tr.groupSummary g s) := by
  obtain ⟨name, function, arg⟩ := s
  have hsummary : Similar Eq (tr.summary f (Summary.form ⟨function, arg⟩))
      (tr.summary g ⟨function, arg⟩) := by
    cases arg with
    | none => exact .of_results rfl
    | some e =>
        simp only [Translator.summary, Summary.form, Option.map_some, expectNumber,
          expectOperand_form]
        split
        · refine .step fun _ => (h.formula e).bind ?_
          rintro l _ rfl
          exact .pure rfl
        · refine (h.formula e).bind ?_
          rintro l _ rfl
          exact .pure rfl
  refine hsummary.bind ?_
  rintro l _ rfl
  refine .pure ?_
  rw [Summary.scalarType_form]
  rfl

lemma Frame.Alike.restrict (h : f.Alike g) (e : Expression) :
    (f.restrict e).Alike (g.restrict e) := by
  obtain ⟨y, rfl, hy⟩ := h.exists_yield
  exact .of_yield (f.restrict e) hy

lemma Frame.Alike.terminal (h : f.Alike g) (terminal : Terminal) (arg : Option Formula) :
    Similar (fun a b => a.1.Alike b.1 ∧ a.2 = b.2) (tr.terminal f terminal (arg.map Formula.form))
      (tr.terminal g terminal arg) := by
  have harg : Similar (fun a b => a = b.form)
      (Translator.terminalArgument terminal (arg.map Formula.form))
      (Translator.terminalArgument terminal arg) := by
    cases arg with
    | none => exact .unsupported _ _ _ _
    | some e => exact .pure rfl
  simp only [Translator.terminal]
  cases terminal.function? with
  | some function =>
      refine harg.bind ?_
      rintro _ e rfl
      rw [Formula.scalarType_form]
      refine .step fun _ => (h.formula e).bind ?_
      rintro l _ rfl
      exact .pure ⟨h, rfl⟩
  | none =>
      cases terminal with
      | count => exact .pure ⟨h, rfl⟩
      | any => exact .pure ⟨h, rfl⟩
      | _ =>
          refine harg.bind ?_
          rintro _ e rfl
          refine (h.condition _ e).bind ?_
          rintro l _ rfl
          exact .pure ⟨h.restrict _, rfl⟩

/-! ## Queries -/

/-- **A query is translated as its form is**, but for the origins of the scalars of its rows. -/
theorem Translator.stage_form (q : Query) : Similar Stage.Alike (tr.stage q.form) (tr.stage q) := by
  induction q with
  | source => exact .step fun k => .pure (.frame rfl)
  | filter input predicate ih =>
      refine ih.bind fun s t h => (h.enter fun _ _ => rfl).bind fun f g h => ?_
      refine (h.condition _ predicate).bind ?_
      rintro e _ rfl
      exact .pure (.frame (h.restrict e))
  | project input projection ih =>
      refine ih.bind fun s t h => (h.enter fun _ _ => rfl).bind fun f g h => ?_
      refine (h.projection projection).bind fun y y' hy => .pure (.frame ?_)
      have hscope : y.bindings = y'.bindings := by
        rw [← y.bindings_withoutOrigins, hy, y'.bindings_withoutOrigins]
      obtain ⟨_, rfl, -⟩ := h.exists_yield
      rw [hscope]
      exact .of_yield { f with scope := y'.bindings } hy
  | orderBy input key descending ih =>
      refine ih.bind fun s t h => (h.enter fun _ _ => rfl).bind fun f g h => ?_
      refine (h.formula key).bind ?_
      rintro e _ rfl
      obtain ⟨_, rfl, hy⟩ := h.exists_yield
      exact .pure (.frame (.of_yield { f with orderBy := [⟨e, descending⟩] } hy))
  | thenBy input key descending ih =>
      refine ih.bind fun s t h => ?_
      cases h with
      | compound => exact .unsupported _ _ _ _
      | @frame f g h =>
          obtain ⟨y, rfl, hy⟩ := h.exists_yield
          refine .ite ((h.formula key).bind ?_) (.unsupported _ _ _ _)
          rintro e _ rfl
          exact .pure
            (.frame (.of_yield { f with orderBy := f.orderBy ++ [⟨e, descending⟩] } hy))
  | groupBy input keys summaries ih =>
      refine ih.bind fun s t h => (h.enter fun _ _ => rfl).bind fun f g h => ?_
      rw [List.mapM_map, List.mapM_map]
      refine (Similar.mapM fun key _ => h.groupKey key).bind fun ks ks' hks => ?_
      refine (Similar.mapM fun s _ => h.groupSummary s).bind fun ss ss' hss => ?_
      have hks := map_eq_of_forall₂ hks
      have hss := map_eq_of_forall₂ hss
      have hnames : ((ks ++ ss).map fun f => (f.1, FieldYield.scalar f.2)).map Prod.fst =
          ((ks' ++ ss').map fun f => (f.1, FieldYield.scalar f.2)).map Prod.fst := by
        have hnames := congrArg (List.map Prod.fst) (congrArg₂ (· ++ ·) hks hss)
        simpa only [List.map_append, List.map_map, Function.comp_def] using hnames
      have hgroups : (ks.map fun k => k.2.expression) = ks'.map fun k => k.2.expression := by
        have hgroups := congrArg (List.map fun k => k.2.expression) hks
        simpa only [List.map_map, Function.comp_def, YieldedScalar.withoutOrigin] using hgroups
      have hyield : Yield.withoutOrigins
            (.record ((ks ++ ss).map fun f => (f.1, FieldYield.scalar f.2))) =
          .withoutOrigins (.record ((ks' ++ ss').map fun f => (f.1, FieldYield.scalar f.2))) := by
        have hfields := congrArg (List.map fun f : String × YieldedScalar =>
          (f.1, FieldYield.scalar f.2)) (congrArg₂ (· ++ ·) hks hss)
        simp only [List.map_append, List.map_map, Function.comp_def] at hfields
        simp only [Yield.withoutOrigins, FieldYield.withoutOrigin, List.map_append, List.map_map,
          Function.comp_def, hfields]
      simp only [hnames, hgroups]
      refine .step fun _ => .pure (.frame ?_)
      obtain ⟨_, rfl, -⟩ := h.exists_yield
      exact .of_yield
        { f with
          groupBy := ks'.map fun k => k.2.expression
          scope := []
          isGrouped := true } hyield
  | join kind left right leftKey rightKey ihl ihr =>
      refine .step fun matching => ihl.bind fun ls lt hl => ihr.bind fun rs rt hr => ?_
      refine (hl.enter fun _ _ => rfl).bind fun f g h => ?_
      refine (h.fieldsFor _ _).bind fun fs gs hfields => ?_
      refine (hr.joinSource _).bind ?_
      rintro ⟨source, b⟩ _ rfl
      obtain ⟨y, rfl, hy⟩ := h.exists_yield
      have hwidened : Frame.Alike { f with scope := f.scope ++ [b] }
          { f with yield := y, scope := f.scope ++ [b] } :=
        .of_yield { f with scope := f.scope ++ [b] } hy
      simp only [Formula.scalarType_form]
      refine .step fun _ => ?_
      split
      · exact .unsupported _ _ _ _
      · refine (hwidened.formula leftKey).bind ?_
        rintro l _ rfl
        refine (hwidened.formula rightKey).bind ?_
        rintro r _ rfl
        exact .pure (.frame (h.extend hfields _ _))
  | correlate input c ih =>
      refine ih.bind fun s t h => (h.enter fun _ _ => rfl).bind fun f g h => ?_
      refine (h.fieldsFor _ _).bind fun fs gs hfields => ?_
      obtain ⟨y, rfl, hy⟩ := h.exists_yield
      have hbinding : ({ f with yield := y } : Frame).binding? = f.binding? := rfl
      rw [hbinding]
      cases f.binding? c.sourceAlias with
      | none => exact .unsupported _ _ _ _
      | some source =>
          refine .step fun _ => .step fun term => .pure (.frame (h.extend hfields _ _))
  | skip input count ih =>
      refine ih.bind fun s t h => (h.enter fun _ _ => rfl).bind fun f g h => ?_
      refine (h.rowCount _ count).bind ?_
      rintro e _ rfl
      obtain ⟨_, rfl, hy⟩ := h.exists_yield
      exact .pure (.frame (.of_yield { f with offset := some e } hy))
  | take input count ih =>
      refine ih.bind fun s t h => (h.enter fun _ _ => rfl).bind fun f g h => ?_
      refine (h.rowCount _ count).bind ?_
      rintro e _ rfl
      obtain ⟨_, rfl, hy⟩ := h.exists_yield
      exact .pure (.frame (.of_yield { f with limit := some e } hy))
  | distinct input ih =>
      refine ih.bind fun s t h => (h.enter fun _ _ => rfl).bind fun f g h => .pure (.frame ?_)
      obtain ⟨_, rfl, hy⟩ := h.exists_yield
      exact .of_yield { f with distinct := true } hy
  | combine op left right ihl ihr =>
      simp only [Query.form, stage, Query.element_form]
      split
      · exact .unsupported _ _ _ _
      · refine ihl.bind fun ls lt hl => ihr.bind fun rs rt hr => .pure ?_
        rw [hl.statement, hr.statement]
        exact .compound hl.yield
  | conclude input terminal arg ih =>
      refine ih.bind fun s t h => (h.enter fun _ _ => rfl).bind fun f g h => ?_
      refine (h.terminal terminal arg).bind ?_
      rintro ⟨f', s⟩ ⟨g', s'⟩ ⟨h', hs⟩
      obtain ⟨_, rfl, -⟩ := h'.exists_yield
      simp only at hs
      subst hs
      exact .pure (.frame rfl)

end Alike

/-! ## Shapes

At the end the origins appear once more, in the shape of rows that are bare scalars.  They are for
error messages. -/

/-- A slot whose property is not named. -/
def ScalarSlot.withoutOrigin (s : ScalarSlot) : ScalarSlot := { s with origin := none }

mutual

/-- A shape whose properties are not named where they are bare scalars. -/
def RowShape.withoutOrigins : RowShape → RowShape
  | .entity shape => .entity shape
  | .scalar slot => .scalar slot.withoutOrigin
  | .record slots => .record (slotsWithoutOrigins slots)

/-- The fields of a record whose properties are not named. -/
def slotsWithoutOrigins : List (RecordPlace × RowShape) → List (RecordPlace × RowShape)
  | [] => []
  | s :: ss => slotWithoutOrigins s :: slotsWithoutOrigins ss

/-- A field of a record whose properties are not named. -/
def slotWithoutOrigins : RecordPlace × RowShape → RecordPlace × RowShape
  | (place, shape) => (place, shape.withoutOrigins)

end

/-- Translations that are the same but for the origins of bare scalars. -/
structure Translation.Alike (t t' : Translation) : Prop where
  query : t.query = t'.query
  shape : t.shape.withoutOrigins = t'.shape.withoutOrigins

namespace Translator

variable {tr : Translator}

lemma scalarSlot_withoutOrigin (s : YieldedScalar) :
    tr.scalarSlot s.withoutOrigin = (tr.scalarSlot s).map ScalarSlot.withoutOrigin := by
  change (tr.shapeCodec s.scalarType >>= _) = _
  rw [scalarSlot]
  cases tr.shapeCodec s.scalarType <;> rfl

lemma recordSlot_withoutOrigin (field : String × FieldYield) :
    tr.recordSlot (field.1, field.2.withoutOrigin) =
      (tr.recordSlot field).map slotWithoutOrigins := by
  obtain ⟨name, y⟩ := field
  cases y with
  | scalar s =>
      simp only [recordSlot, FieldYield.withoutOrigin, scalarSlot_withoutOrigin]
      cases tr.scalarSlot s <;> rfl
  | entity b =>
      simp only [recordSlot, FieldYield.withoutOrigin]
      cases tr.entityShape b.entity <;> rfl

lemma recordSlots_withoutOrigin (fields : List (String × FieldYield)) :
    (fields.map fun f => (f.1, f.2.withoutOrigin)).mapM tr.recordSlot =
      (fields.mapM tr.recordSlot).map slotsWithoutOrigins := by
  induction fields with
  | nil => rfl
  | cons field fields ih =>
      rw [List.map_cons, List.mapM_cons, List.mapM_cons, recordSlot_withoutOrigin, ih]
      cases tr.recordSlot field with
      | error => rfl
      | ok slot => cases fields.mapM tr.recordSlot <;> rfl

/-- The shape of rows depends on the origins of their scalars in its own origins only. -/
lemma rowShape_withoutOrigins (y : Yield) :
    tr.rowShape y.withoutOrigins = (tr.rowShape y).map RowShape.withoutOrigins := by
  cases y with
  | entity b =>
      simp only [rowShape, Yield.withoutOrigins]
      cases tr.entityShape b.entity <;> rfl
  | scalar s =>
      simp only [rowShape, Yield.withoutOrigins, scalarSlot_withoutOrigin]
      cases tr.scalarSlot s <;> rfl
  | record fields =>
      simp only [rowShape, Yield.withoutOrigins, recordSlots_withoutOrigin]
      cases fields.mapM tr.recordSlot <;> rfl

/-- **A query with a translation shares it with all queries of its form**, but for the origins of
bare scalars. -/
theorem translate_form {q q' : Query} (hform : q.form = q'.form) {t : Translation}
    (ht : tr.translate q = .ok t) : ∃ t', tr.translate q' = .ok t' ∧ t.Alike t' := by
  obtain ⟨⟨s, progress⟩, hstage, ht⟩ := Computation.bind_eq_ok.1 ht
  obtain ⟨shape, hshape, ht⟩ := Computation.bind_eq_ok.1 ht
  cases ht
  obtain ⟨s₀, hstage₀, halike₀⟩ := (stage_form q).symm.eq_ok hstage
  rw [hform] at hstage₀
  obtain ⟨s', hstage', halike'⟩ := (stage_form q').eq_ok hstage₀
  have hyield : s.yield.withoutOrigins = s'.yield.withoutOrigins :=
    halike₀.yield.symm.trans halike'.yield
  have hstatement : s.statement = s'.statement := halike₀.statement.symm.trans halike'.statement
  have hshapes : (tr.rowShape s'.yield).map RowShape.withoutOrigins = .ok shape.withoutOrigins := by
    rw [← rowShape_withoutOrigins, ← hyield, rowShape_withoutOrigins, hshape]
    rfl
  obtain ⟨shape', hshape', heq⟩ := Computation.map_eq_ok.1 hshapes
  refine ⟨⟨⟨s'.statement, progress.parameters⟩, shape'⟩, ?_, ?_⟩
  · exact Computation.bind_eq_ok.2 ⟨_, hstage', Computation.bind_eq_ok.2 ⟨_, hshape', rfl⟩⟩
  · exact ⟨by rw [hstatement], heq.symm⟩

end Translator
end EntityQuery
