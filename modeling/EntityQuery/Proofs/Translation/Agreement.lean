import EntityQuery.Proofs.Computation
import EntityQuery.Proofs.Translation.Run
import EntityQuery.Proofs.Translation.Similar
import EntityQuery.Evaluation.Expression

/-!
# Formulas over frames that agree

Two frames may hold the same rows in different expressions: one computes them from its sources, the
other reads them through the alias of a statement.  If the two agree on what they bind and yield, in
scopes that are related, then they agree on all that is translated over them.

* `Expression.Agree`: two expressions have one value, or fail alike, in related scopes.
* `Frame.Agree`: two frames agree on what they bind and yield.
* `Frame.AgreesIn`: what a formula may refer to over a frame, it may refer to over another one.
* `Translator.formula_agree`: a formula over the former is translated over the latter as well, to an
  expression that agrees.
-/

namespace EntityQuery

open Translating (Leads)

/-- Two expressions have one value, or fail alike, in related scopes. -/
def Expression.Agree (env : Environment) (related : Scope → Scope → Prop) (e e' : Expression) :
    Prop :=
  ∀ s s', related s s' → e.eval env s = e'.eval env s'

section

variable {env : Environment} {related : Scope → Scope → Prop}

/-! ## Constructs

Agreement is a property of two expressions: in any two scopes that are related they have one value
or fail alike.  One lemma for each construct passes it on, and formulas need no others. -/

namespace Expression.Agree

variable {e e' l l' r r' : Expression} {es es' : List Expression}

lemma placeholder (name : String) :
    Agree env related (.placeholder name) (.placeholder name) := by
  intro s s' _
  rw [eval, eval]

lemma literal (value : Literal) : Agree env related (.literal value) (.literal value) := by
  intro s s' _
  rw [eval, eval]

lemma field (h : Agree env related e e') (name : String) :
    Agree env related (.field e name) (.field e' name) := by
  intro s s' hs
  rw [eval, eval, h s s' hs]

lemma path (h : Agree env related e e') (names : List String) :
    Agree env related (e.path names) (e'.path names) := by
  rw [Expression.path]
  induction names generalizing e e' with
  | nil => exact h
  | cons name names ih => exact ih (h.field name)

lemma binary (op : Operator) (hl : Agree env related l l') (hr : Agree env related r r') :
    Agree env related (.binary op l r) (.binary op l' r') := by
  intro s s' hs
  rw [eval, eval, hl s s' hs, hr s s' hs]

lemma not (h : Agree env related e e') : Agree env related (.not e) (.not e') := by
  intro s s' hs
  rw [eval, eval, h s s' hs]

lemma neg (h : Agree env related e e') : Agree env related (.neg e) (.neg e') := by
  intro s s' hs
  rw [eval, eval, h s s' hs]

lemma valued (h : Agree env related e e') : Agree env related (.valued e) (.valued e') := by
  intro s s' hs
  rw [eval, eval, h s s' hs]

lemma notValued (h : Agree env related e e') : Agree env related (.notValued e) (.notValued e') := by
  intro s s' hs
  rw [eval, eval, h s s' hs]

lemma like (h : Agree env related e e') (hr : Agree env related r r') :
    Agree env related (.like e r) (.like e' r') := by
  intro s s' hs
  rw [eval, eval, h s s' hs, hr s s' hs]

lemma caseWhen (h : Agree env related e e') (hl : Agree env related l l')
    (hr : Agree env related r r') : Agree env related (.caseWhen e l r) (.caseWhen e' l' r') := by
  intro s s' hs
  rw [eval, eval, h s s' hs, hl s s' hs, hr s s' hs]

/-- Expressions that agree one by one have the same values. -/
lemma evalList (h : List.Forall₂ (Agree env related) es es') {s s' : Scope} (hs : related s s') :
    evalList env es s = evalList env es' s' := by
  induction h with
  | nil => rfl
  | cons he _ ih => rw [EntityQuery.evalList, EntityQuery.evalList, he s s' hs, ih]

lemma evalIn (h : List.Forall₂ (Agree env related) es es') {s s' : Scope} (hs : related s s')
    (d : Document) : evalIn env d es s = evalIn env d es' s' := by
  induction h with
  | nil => rfl
  | cons he _ ih => rw [EntityQuery.evalIn, EntityQuery.evalIn, he s s' hs, ih]

lemma call (name : String) (h : List.Forall₂ (Agree env related) es es') :
    Agree env related (.call name es) (.call name es') := by
  intro s s' hs
  rw [eval, eval, evalList h hs]

lemma inList (h : Agree env related e e') (hes : List.Forall₂ (Agree env related) es es') :
    Agree env related (.inList e es) (.inList e' es') := by
  intro s s' hs
  rw [eval, eval, h s s' hs]
  congr 1
  funext d
  rcases d with _ | d
  · rfl
  · cases d <;> simp only [evalIn hes hs]

/-- The call of a built-in function agrees if its arguments do. -/
lemma builtin (function : BuiltinFunction) (h : List.Forall₂ (Agree env related) es es') :
    Agree env related (function.expression es) (function.expression es') := by
  have hget : ∀ i, Agree env related (es.getD i (.literal .null)) (es'.getD i (.literal .null)) := by
    intro i
    induction h generalizing i with
    | nil => exact literal _
    | cons he _ ih =>
        cases i with
        | zero => exact he
        | succ i => exact ih i
  cases function with
  | startsWith => exact .binary _ (.call _ h) (.literal _)
  | endsWith =>
      have hlength : ∀ i, Agree env related (.call "LENGTH" [es.getD i (.literal .null)])
          (.call "LENGTH" [es'.getD i (.literal .null)]) := fun i => .call _ (.cons (hget i) .nil)
      refine .binary _ (.call _ (.cons (hget 0) (.cons ?_ .nil))) (hget 1)
      exact .binary _ (hlength 0) (hlength 1)
  | _ => exact .call _ h

end Expression.Agree

/-! ## Frames

What a formula can refer to in a frame is an alias, a field of the elements or the element itself.
Frames agree if they offer the same of these, with expressions that agree. -/

section Related

variable {r : Expression → Expression → Prop}

/-- Two bindings are of one alias and entity, and the alias stands for related expressions. -/
structure Binding.Related (r : Expression → Expression → Prop) (b b' : Binding) : Prop where
  aliasName : b'.aliasName = b.aliasName
  entity : b'.entity = b.entity
  base : r b.base b'.base

/-- Two fields of records are of one kind, and hold related expressions. -/
inductive FieldYield.Related (r : Expression → Expression → Prop) : FieldYield → FieldYield → Prop
  | scalar {s s' : YieldedScalar} (h : r s.expression s'.expression) :
      Related r (.scalar s) (.scalar s')
  | entity {b b' : Binding} (h : b.Related r b') : Related r (.entity b) (.entity b')

/-- Two yields are of one kind, and hold related expressions. -/
inductive Yield.Related (r : Expression → Expression → Prop) : Yield → Yield → Prop
  | entity {b b' : Binding} (h : b.Related r b') : Related r (.entity b) (.entity b')
  | scalar {s s' : YieldedScalar} (h : r s.expression s'.expression) :
      Related r (.scalar s) (.scalar s')
  | record {fields fields' : List (String × FieldYield)}
      (h : List.Forall₂ (fun f f' => f'.1 = f.1 ∧ f.2.Related r f'.2) fields fields') :
      Related r (.record fields) (.record fields')

/-- Two frames bind and yield related expressions. -/
structure Frame.Related (r : Expression → Expression → Prop) (f g : Frame) : Prop where
  yield : f.yield.Related r g.yield
  scope : List.Forall₂ (Binding.Related r) f.scope g.scope

lemma Binding.Related.comp {r' r'' : Expression → Expression → Prop} {b b' b'' : Binding}
    (h : b.Related r b') (h' : b'.Related r' b'')
    (hr : ∀ e e' e'', r e e' → r' e' e'' → r'' e e'') : b.Related r'' b'' :=
  ⟨h'.aliasName.trans h.aliasName, h'.entity.trans h.entity, hr _ _ _ h.base h'.base⟩

namespace FieldYield.Related

variable {r' r'' : Expression → Expression → Prop} {f f' f'' : FieldYield}

lemma symm (h : f.Related r f') : f'.Related (fun e e' => r e' e) f := by
  cases h with
  | scalar h => exact .scalar h
  | entity h => exact .entity ⟨h.aliasName.symm, h.entity.symm, h.base⟩

lemma comp (h : f.Related r f') (h' : f'.Related r' f'')
    (hr : ∀ e e' e'', r e e' → r' e' e'' → r'' e e'') : f.Related r'' f'' := by
  cases h with
  | scalar h =>
      cases h' with
      | scalar h' => exact .scalar (hr _ _ _ h h')
  | entity h =>
      cases h' with
      | entity h' => exact .entity (h.comp h' hr)

end FieldYield.Related

namespace Yield.Related

variable {r' r'' : Expression → Expression → Prop} {y y' y'' : Yield}

lemma symm (h : y.Related r y') : y'.Related (fun e e' => r e' e) y := by
  cases h with
  | entity h => exact .entity ⟨h.aliasName.symm, h.entity.symm, h.base⟩
  | scalar h => exact .scalar h
  | record h => exact .record (h.flip.imp fun f f' hf => ⟨hf.1.symm, hf.2.symm⟩)

/-- Yields are related through a third one. -/
lemma comp (h : y.Related r y') (h' : y'.Related r' y'')
    (hr : ∀ e e' e'', r e e' → r' e' e'' → r'' e e'') : y.Related r'' y'' := by
  cases h with
  | entity h =>
      cases h' with
      | entity h' => exact .entity (h.comp h' hr)
  | scalar h =>
      cases h' with
      | scalar h' => exact .scalar (hr _ _ _ h h')
  | @record fields fields' h =>
      cases h' with
      | @record _ fields'' h' =>
          refine .record ?_
          induction h generalizing fields'' with
          | nil =>
              cases h'
              exact .nil
          | cons hf _ ih =>
              cases h' with
              | cons hf' h' => exact .cons ⟨hf'.1.trans hf.1, hf.2.comp hf'.2 hr⟩ (ih h')

lemma imp (h : y.Related r y') (himp : ∀ e e', r e e' → r' e e') : y.Related r' y' := by
  have hbinding : ∀ b b' : Binding, b.Related r b' → b.Related r' b' :=
    fun b b' hb => ⟨hb.aliasName, hb.entity, himp _ _ hb.base⟩
  cases h with
  | entity h => exact .entity (hbinding _ _ h)
  | scalar h => exact .scalar (himp _ _ h)
  | record h =>
      refine .record (h.imp fun f f' hf => ⟨hf.1, ?_⟩)
      obtain ⟨-, hf⟩ := hf
      generalize f.2 = y, f'.2 = y' at hf ⊢
      cases hf with
      | scalar h => exact .scalar (himp _ _ h)
      | entity h => exact .entity (hbinding _ _ h)

end Yield.Related

/-- Yields that are related bind what is related. -/
lemma Yield.Related.bindings {y y' : Yield} (h : y.Related r y') :
    List.Forall₂ (Binding.Related r) y.bindings y'.bindings := by
  cases h with
  | entity h => exact .cons h .nil
  | scalar => exact .nil
  | @record fields fields' h =>
      simp only [Yield.bindings]
      induction h with
      | nil => exact .nil
      | @cons f f' fields fields' hf _ ih =>
          obtain ⟨-, hf⟩ := hf
          rw [List.filterMap_cons, List.filterMap_cons]
          generalize f.2 = y, f'.2 = y' at hf ⊢
          cases hf with
          | scalar => exact ih
          | entity h => exact .cons h ih

/-- Of fields that are related, those of one name are. -/
lemma Yield.field?_related {fields fields' : List (String × FieldYield)}
    (h : List.Forall₂ (fun f f' => f'.1 = f.1 ∧ f.2.Related r f'.2) fields fields')
    (name : String) :
    Option.Rel (FieldYield.Related r) (Yield.field? name fields) (Yield.field? name fields') := by
  induction h with
  | nil => exact .none
  | @cons f f' fields fields' hf _ ih =>
      obtain ⟨hname, hf⟩ := hf
      rw [Yield.field?, Yield.field?, hname]
      split
      · exact .some hf
      · exact ih

lemma Frame.Related.binding? {f g : Frame} (h : f.Related r g) (aliasName : String) :
    Option.Rel (Binding.Related r) (f.binding? aliasName) (g.binding? aliasName) :=
  Computation.rel_find? h.scope fun b b' hb => by rw [hb.aliasName]

lemma Frame.Related.exists_binding {f g : Frame} (h : f.Related r g) {aliasName : String} {b : Binding}
    (hb : f.binding? aliasName = some b) :
    ∃ b', g.binding? aliasName = some b' ∧ b.Related r b' := by
  have hrel := h.binding? aliasName
  rw [hb] at hrel
  generalize g.binding? aliasName = b' at hrel ⊢
  cases hrel with
  | some hrel => exact ⟨_, rfl, hrel⟩

end Related

/-- Two yields hold the same rows. -/
abbrev Yield.Agree (env : Environment) (related : Scope → Scope → Prop) : Yield → Yield → Prop :=
  Yield.Related (Expression.Agree env related)

/-- Two frames agree on what they bind and yield. -/
abbrev Frame.Agree (env : Environment) (related : Scope → Scope → Prop) : Frame → Frame → Prop :=
  Frame.Related (Expression.Agree env related)

/-- What a formula refers to over a frame, it may refer to over another one, and means the same. -/
structure Frame.AgreesIn (env : Environment) (related : Scope → Scope → Prop) (f g : Frame) :
    Prop where
  property (p : PropertyPath) :
    Leads (Expression.Agree env related) (f.property p) (g.property p)
  member (name : String) : Leads (Expression.Agree env related) (f.member name) (g.member name)
  element : Leads (Expression.Agree env related) f.element g.element

/-- A property is read over another frame as well, if its alias is bound there to what agrees. -/
lemma Frame.property_agree {f g : Frame} {p : PropertyPath}
    (h : ∀ b, f.binding? p.aliasName = some b →
      ∃ b', g.binding? p.aliasName = some b' ∧ b.Related (Expression.Agree env related) b') :
    Leads (Expression.Agree env related) (f.property p) (g.property p) := by
  simp only [Frame.property]
  cases hb : f.binding? p.aliasName with
  | none => exact .unsupported _ _ _
  | some b =>
      obtain ⟨b', hb', hrelated⟩ := h b hb
      simp only [hb', hrelated.entity]
      split
      · exact .pure (hrelated.base.path p.path)
      · exact .unsupported _ _ _

/-- Formulas may refer to what frames agree on. -/
lemma Frame.Agree.agreesIn {f g : Frame} (h : f.Agree env related g) :
    f.AgreesIn env related g where
  property _ := Frame.property_agree fun _ hb => h.exists_binding hb
  member name := by
    have hy := h.yield
    simp only [Frame.member]
    generalize f.yield = y, g.yield = y' at hy ⊢
    cases hy with
    | entity | scalar => exact .unsupported _ _ _
    | @record fields fields' hfields =>
        have hfield := Yield.field?_related hfields name
        simp only
        generalize Yield.field? name fields = y, Yield.field? name fields' = y' at hfield ⊢
        cases hfield with
        | none => exact .unsupported _ _ _
        | @some y y' hy =>
            cases hy with
            | scalar h => exact .pure h
            | entity => exact .unsupported _ _ _
  element := by
    have hy := h.yield
    simp only [Frame.element]
    generalize f.yield = y, g.yield = y' at hy ⊢
    cases hy with
    | entity | record => exact .unsupported _ _ _
    | scalar h => exact .pure h

/-- A binding that is put behind those in scope takes no alias from them. -/
lemma Frame.Agree.widened {f g : Frame} (h : f.Agree env related g) (b : Binding) :
    f.AgreesIn env related { g with scope := g.scope ++ [b] } where
  property _ := by
    refine Frame.property_agree fun b₀ hb₀ => ?_
    obtain ⟨b', hb', hrelated⟩ := h.exists_binding hb₀
    refine ⟨b', ?_, hrelated⟩
    rw [Frame.binding?] at hb' ⊢
    rw [List.find?_append, hb']
    rfl
  member := h.agreesIn.member
  element := h.agreesIn.element

/-! ## Formulas

The induction is on the formula.  Its checks look at types only, which are the same, so the second
translation succeeds wherever the first does. -/

lemma nullTest_agree {e e' : Expression} (op : Operator) (h : Expression.Agree env related e e') :
    Leads (Expression.Agree env related) (nullTest op e) (nullTest op e') := by
  cases op with
  | eq => exact .pure h.notValued
  | ne => exact .pure h.valued
  | _ => exact .unsupported _ _ _

lemma nullsCompared_agree (op : Operator) :
    Leads (Expression.Agree env related) (nullsCompared op) (nullsCompared op) := by
  cases op with
  | eq | ne => exact .pure (.literal _)
  | _ => exact .unsupported _ _ _

namespace Translator

variable {tr : Translator} {f g : Frame}

lemma constant_agree (t : ScalarType) :
    Leads (Expression.Agree env related) (tr.constant t) (tr.constant t) := by
  refine .of_eq_ok fun p e p' h => ?_
  cases constant_eq_ok h
  exact .placeholder _

lemma parameter_agree (name : String) (t : ScalarType) :
    Leads (Expression.Agree env related) (tr.parameter name t) (tr.parameter name t) := by
  refine .of_eq_ok fun p e p' h => ?_
  obtain ⟨parameters, -, h⟩ := parameter_eq_ok h
  cases h
  exact .placeholder _

mutual

/-- **A formula is translated over a frame that agrees as well, to an expression that agrees.** -/
theorem formula_agree (h : f.AgreesIn env related g) : (a : Formula) →
    Leads (Expression.Agree env related) (tr.formula f a) (tr.formula g a)
  | .property p => h.property p
  | .member name _ _ => h.member name
  | .element _ _ => h.element
  | .constant _ t => constant_agree t
  | .parameter name t => parameter_agree name t
  | .binary op left right => by
      have hleft := formula_agree h left
      have hright := formula_agree h right
      refine .ite ?_ (.ite ?_ (.ite ?_ ?_))
      · exact .step fun _ => .step fun _ => nullsCompared_agree op
      · exact .step fun _ => hright.bind fun _ _ he => nullTest_agree op he
      · exact hleft.bind fun _ _ he => .step fun _ => nullTest_agree op he
      · exact .step fun _ => hleft.bind fun _ _ hl => hright.bind fun _ _ hr => .pure (.binary op hl hr)
  | .not a => .step fun _ => (formula_agree h a).bind fun _ _ he => .pure he.not
  | .negate a => .step fun _ => (formula_agree h a).bind fun _ _ he => .pure he.neg
  | .isNull a => (formula_agree h a).bind fun _ _ he => .pure he.notValued
  | .isNotNull a => (formula_agree h a).bind fun _ _ he => .pure he.valued
  | .inList a list =>
      .step fun _ => (formula_agree h a).bind fun _ _ he =>
        (formulas_agree h list).bind fun _ _ hes => .pure (he.inList hes)
  | .like a pattern =>
      .step fun _ => .step fun _ => (formula_agree h a).bind fun _ _ he =>
        (formula_agree h pattern).bind fun _ _ hp => .pure (he.like hp)
  | .builtin function args =>
      .step fun _ => (formulas_agree h args).bind fun _ _ hes => .pure (.builtin function hes)
  | .caseWhen c t o =>
      .step fun _ => .step fun _ => (formula_agree h c).bind fun _ _ hc =>
        (formula_agree h t).bind fun _ _ ht => (formula_agree h o).bind fun _ _ ho =>
          .pure (hc.caseWhen ht ho)
  | .coalesce values => by
      have hrest : Leads (Expression.Agree env related)
          (do
            checkComparable "coalesce" "operands have types " "and" (Formula.firstType values) values
            let es ← tr.formulas f values
            match es with
            | [e] => pure e
            | es => pure (.call "IFMISSINGORNULL" es))
          (do
            checkComparable "coalesce" "operands have types " "and" (Formula.firstType values) values
            let es ← tr.formulas g values
            match es with
            | [e] => pure e
            | es => pure (.call "IFMISSINGORNULL" es)) := by
        refine .step fun _ => (formulas_agree h values).bind fun es es' hes => ?_
        rcases hes with _ | ⟨he, _ | ⟨he', hes⟩⟩
        · exact .pure (.call _ .nil)
        · exact .pure he
        · exact .pure (.call _ (.cons he (.cons he' hes)))
      exact .ite (.step fun _ => hrest) hrest
  | .call function args t =>
      .step fun entry => (formulas_agree h args).bind fun _ _ hes => .pure (.call entry.storeName hes)

theorem formulas_agree (h : f.AgreesIn env related g) : (as : List Formula) →
    Leads (List.Forall₂ (Expression.Agree env related)) (tr.formulas f as) (tr.formulas g as)
  | [] => .pure .nil
  | a :: as =>
      (formula_agree h a).bind fun _ _ he =>
        (formulas_agree h as).bind fun _ _ hes => .pure (.cons he hes)

end

/-- So is a condition. -/
lemma condition_agree (h : f.AgreesIn env related g) (construct : String) (a : Formula) :
    Leads (Expression.Agree env related) (tr.condition f construct a)
      (tr.condition g construct a) :=
  .step fun _ => formula_agree h a

end Translator

end
end EntityQuery
