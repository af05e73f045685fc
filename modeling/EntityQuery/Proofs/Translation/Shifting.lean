import EntityQuery.Proofs.Evaluation.CorrespondingStatement
import EntityQuery.Proofs.Translation.Agreement
import EntityQuery.Proofs.Translation.Lowering

/-!
# Formulas whose slots are shifted

A query that is translated behind another one has its slots further on.  Where the values of its
placeholders are found further on as well, over frames that correspond, its formulas have the same
values.

* `Environment.Shifts`: all slots of an environment are found further on in another one.
* `EachInput`: a property of the placeholders of some inputs; `eachInput_append` splits it as the
  inputs of a formula are.
* `Environment.Moves`: the values of the placeholders of some inputs are found further on.
* `Translator.expression_follows`: a formula has the same values over frames that correspond.
-/

namespace EntityQuery

/-- No parameter has the name of a slot. -/
def NamesApart (is : List Input) : Prop :=
  ∀ name t, Input.parameter name t ∈ is → isSlotName name = false

/-- Parameters that have been read have names apart from those of slots. -/
lemma ParameterTable.Binds.namesApart {n : Nat} {is : List Input} {t t' : ParameterTable}
    (h : Binds n is t t') : NamesApart is := by
  have hskip : ∀ {s : Slot} {is : List Input}, NamesApart is → NamesApart (.slot s :: is) := by
    intro s is his name t hmem
    rcases List.mem_cons.1 hmem with hmem | hmem
    · cases hmem
    · exact his name t hmem
  induction h with
  | refl => exact fun _ _ hmem => by cases hmem
  | bound _ ih | tested _ ih => exact hskip ih
  | named hname _ ih =>
      intro name t hmem
      rcases List.mem_cons.1 hmem with hmem | hmem
      · cases hmem
        exact (bindNamed_eq_ok hname).1
      · exact ih name t hmem
  | marked _ ih => exact ih

/-- The slots of an environment are found in another one, further on by a number, and its parameters
under their names. -/
structure Environment.Shifts (env env' : Environment) (shift : Nat) : Prop where
  collections : env'.collections = env.collections
  slots : ∀ k d, env.parameter? (slotName k) = some d →
    env'.parameter? (slotName (k + shift)) = some d
  named : ∀ name d, isSlotName name = false → env.parameter? name = some d →
    env'.parameter? name = some d

/-! ## Inputs and their placeholders

The values of two environments are compared for the placeholders of some inputs only.  So the
environment of a larger query can be used for a part of it. -/

/-- Each input that needs a placeholder, with slots counted from `n` on, has a property: each slot
that is not tested, and each parameter. -/
structure EachInput (slot : Nat → Captured → Prop) (named : String → ScalarType → Prop) (n : Nat)
    (is : List Input) : Prop where
  slots : ∀ k c, (slotsOf is)[k]? = some ⟨c, false⟩ → slot (n + k) c
  parameters : ∀ name t, .parameter name t ∈ is → named name t

/-- Of inputs that are read one after the other, the later ones have their slots behind those of the
earlier ones. -/
lemma eachInput_append {slot : Nat → Captured → Prop} {named : String → ScalarType → Prop} {n : Nat}
    {is js : List Input} : EachInput slot named n (is ++ js) ↔
      EachInput slot named n is ∧ EachInput slot named (n + (slotsOf is).length) js := by
  constructor
  · intro h
    refine ⟨⟨fun k c hk => h.slots k c ?_, fun name t hmem => ?_⟩,
      ⟨fun k c hk => ?_, fun name t hmem => ?_⟩⟩
    · rw [slotsOf_append, List.getElem?_append_left (List.getElem?_eq_some_iff.1 hk).1, hk]
    · exact h.parameters name t (List.mem_append_left _ hmem)
    · rw [Nat.add_assoc]
      refine h.slots _ c ?_
      rw [slotsOf_append, List.getElem?_append_right (Nat.le_add_right ..),
        Nat.add_sub_cancel_left, hk]
    · exact h.parameters name t (List.mem_append_right _ hmem)
  · rintro ⟨his, hjs⟩
    refine ⟨fun k c hk => ?_, fun name t hmem => ?_⟩
    · rw [slotsOf_append] at hk
      rcases Nat.lt_or_ge k (slotsOf is).length with hlt | hge
      · rw [List.getElem?_append_left hlt] at hk
        exact his.slots k c hk
      · rw [List.getElem?_append_right hge] at hk
        have hslot := hjs.slots _ c hk
        rwa [Nat.add_assoc n, Nat.add_sub_cancel' hge] at hslot
    · exact (List.mem_append.1 hmem).elim (his.parameters name t) (hjs.parameters name t)

/-- The values of the placeholders of some inputs, whose slots are counted from `n` on, are found in
another environment: those of slots further on by a number, and those of parameters under their
names. -/
structure Environment.Moves (env env' : Environment) (shift n : Nat) (is : List Input) : Prop where
  collections : env'.collections = env.collections
  inputs : EachInput
    (fun k _ => ∀ d, env.parameter? (slotName k) = some d →
      env'.parameter? (slotName (k + shift)) = some d)
    (fun name _ => ∀ d, env.parameter? name = some d → env'.parameter? name = some d) n is

namespace Environment

variable {env env' : Environment} {shift n : Nat} {is js : List Input}

lemma Moves.refl (env : Environment) (n : Nat) (is : List Input) : env.Moves env 0 n is :=
  ⟨rfl, fun _ _ _ _ => id, fun _ _ _ _ => id⟩

lemma Shifts.moves (h : env.Shifts env' shift) (his : NamesApart is) (n : Nat) :
    env.Moves env' shift n is :=
  ⟨h.collections, fun k _ _ => h.slots (n + k), fun name t hmem d => h.named name d (his name t hmem)⟩

lemma moves_append : env.Moves env' shift n (is ++ js) ↔
    env.Moves env' shift n is ∧ env.Moves env' shift (n + (slotsOf is).length) js := by
  constructor
  · rintro ⟨hcollections, hinputs⟩
    obtain ⟨his, hjs⟩ := eachInput_append.1 hinputs
    exact ⟨⟨hcollections, his⟩, ⟨hcollections, hjs⟩⟩
  · rintro ⟨his, hjs⟩
    exact ⟨his.collections, eachInput_append.2 ⟨his.inputs, hjs.inputs⟩⟩

end Environment

/-! ## Formulas

The same formula is translated at two slots over two frames.  Its expressions differ in the names of
placeholders and aliases, and have the same values. -/

section Formulas

variable {env env' : Environment} {pairs : List (String × String)} {shift : Nat}

namespace Expression.Follows

variable {es es' : List Expression}

lemma builtin (function : BuiltinFunction) (h : List.Forall₂ (Follows env env' pairs) es es') :
    Follows env env' pairs (function.expression es) (function.expression es') := by
  have hget : ∀ i, Follows env env' pairs (es.getD i (.literal .null))
      (es'.getD i (.literal .null)) := by
    intro i
    induction h generalizing i with
    | nil => exact literal _
    | cons he _ ih =>
        cases i with
        | zero => exact he
        | succ i => exact ih i
  cases function with
  | startsWith => exact .binary _ (.call _ h) (.literal _)
  | endsWith =>
      have hlength : ∀ i, Follows env env' pairs (.call "LENGTH" [es.getD i (.literal .null)])
          (.call "LENGTH" [es'.getD i (.literal .null)]) := fun i => .call _ (.cons (hget i) .nil)
      refine .binary _ (.call _ (.cons (hget 0) (.cons ?_ .nil))) (hget 1)
      exact .binary _ (hlength 0) (hlength 1)
  | _ => exact .call _ h

lemma called (function : BuiltinFunction) (h : List.Forall₂ (Follows env env' pairs) es es') :
    Follows env env' pairs (function.called es) (function.called es') := by
  rw [BuiltinFunction.called, BuiltinFunction.called, h.length_eq]
  split
  · exact builtin function h
  · exact literal _

lemma firstValuedOf (h : List.Forall₂ (Follows env env' pairs) es es') :
    Follows env env' pairs (firstValuedOf es) (firstValuedOf es') := by
  rcases h with _ | ⟨he, _ | ⟨he', hes⟩⟩
  · exact literal _
  · exact he
  · exact call _ (.cons he (.cons he' hes))

lemma nullTested (op : Operator) {e e' : Expression} (h : Follows env env' pairs e e') :
    Follows env env' pairs (nullTested op e) (nullTested op e') := by
  rw [EntityQuery.nullTested, EntityQuery.nullTested]
  split
  · exact h.valued
  · exact h.notValued

end Expression.Follows

namespace Frame.Related

variable {r : Expression → Expression → Prop} {f g : Frame}

lemma bound (h : f.Related r g) (hnull : r (.literal .null) (.literal .null)) (aliasName : String) :
    (f.bound aliasName).Related r (g.bound aliasName) := by
  have hb := h.binding? aliasName
  rw [Frame.bound, Frame.bound]
  generalize f.binding? aliasName = b, g.binding? aliasName = b' at hb ⊢
  cases hb with
  | none => exact ⟨rfl, rfl, hnull⟩
  | some hb => exact hb

lemma fieldExpression (h : f.Related r g) (hnull : r (.literal .null) (.literal .null))
    (name : String) : r (f.fieldExpression name) (g.fieldExpression name) := by
  have hy := h.yield
  simp only [Frame.fieldExpression]
  generalize f.yield = y, g.yield = y' at hy ⊢
  cases hy with
  | entity | scalar => exact hnull
  | @record fields fields' hfields =>
      have hfield := Yield.field?_related hfields name
      simp only
      generalize Yield.field? name fields = y, Yield.field? name fields' = y' at hfield ⊢
      cases hfield with
      | none => exact hnull
      | @some y y' hy =>
          cases hy with
          | scalar h => exact h
          | entity h => exact h.base

lemma scalarExpression (h : f.Related r g) (hnull : r (.literal .null) (.literal .null)) :
    r f.scalarExpression g.scalarExpression := by
  have hy := h.yield
  rw [Frame.scalarExpression, Frame.scalarExpression]
  generalize f.yield = y, g.yield = y' at hy ⊢
  cases hy with
  | entity | record => exact hnull
  | scalar h => exact h

end Frame.Related

namespace Translator

variable {tr : Translator} {f g : Frame}

mutual

/-- **A formula has the same values over frames that correspond**, whichever slot its first constant
has. -/
theorem expression_follows (h : f.Related (Expression.Follows env env' pairs) g) :
    (a : Formula) → (n : Nat) → env.Moves env' shift n a.inputs →
    (tr.expression f n a).Follows env env' pairs (tr.expression g (n + shift) a)
  | .property p, n, _ => (h.bound (.literal _) p.aliasName).base.path p.path
  | .member name _ _, n, _ => h.fieldExpression (.literal _) name
  | .element _ _, n, _ => h.scalarExpression (.literal _)
  | .constant value t, n, ha => .placeholder (ha.inputs.slots 0 ⟨value, t⟩ rfl)
  | .parameter name t, n, ha => .placeholder (ha.inputs.parameters name t List.mem_cons_self)
  | .binary op left right, n, ha => by
      rw [Formula.inputs, Environment.moves_append, Formula.length_slots_operand] at ha
      obtain ⟨hal, har⟩ := ha
      rw [expression, expression]
      cases hl : op.isComparison && left.isNullConstant with
      | true =>
          cases hr : right.isNullConstant with
          | true => exact .literal _
          | false =>
              have hnull : left.isNullConstant = true := (Bool.and_eq_true_iff.1 hl).2
              simp only [hr, Bool.and_false, Bool.false_eq_true, if_false,
                Formula.length_constants_of_isNullConstant hnull] at har
              rw [Nat.add_right_comm]
              exact .nullTested op (expression_follows h right _ har)
      | false =>
          simp only [hl, Bool.false_eq_true, if_false] at hal
          have hleft := expression_follows h left n hal
          cases hr : op.isComparison && right.isNullConstant with
          | true => exact .nullTested op hleft
          | false =>
              simp only [hr, Bool.false_eq_true, if_false] at har
              rw [Nat.add_right_comm n shift left.constants.length]
              exact .binary op hleft (expression_follows h right _ har)
  | .not a, n, ha => (expression_follows h a n ha).not
  | .negate a, n, ha => (expression_follows h a n ha).neg
  | .isNull a, n, ha => (expression_follows h a n ha).notValued
  | .isNotNull a, n, ha => (expression_follows h a n ha).valued
  | .inList a list, n, ha => by
      rw [Formula.inputs, Environment.moves_append, Formula.length_slots] at ha
      rw [expression, expression, Nat.add_right_comm]
      exact (expression_follows h a n ha.1).inList (expressions_follow h list _ ha.2)
  | .like a pattern, n, ha => by
      rw [Formula.inputs, Environment.moves_append, Formula.length_slots] at ha
      rw [expression, expression, Nat.add_right_comm]
      exact (expression_follows h a n ha.1).like (expression_follows h pattern _ ha.2)
  | .builtin function args, n, ha => .called function (expressions_follow h args n ha)
  | .caseWhen c t o, n, ha => by
      rw [Formula.inputs, Environment.moves_append, Environment.moves_append, slotsOf_append,
        List.length_append, Formula.length_slots, Formula.length_slots, ← Nat.add_assoc] at ha
      obtain ⟨⟨hc, ht⟩, ho⟩ := ha
      have hslot : n + shift + c.constants.length = n + c.constants.length + shift :=
        Nat.add_right_comm ..
      have hslot' : n + c.constants.length + shift + t.constants.length =
          n + c.constants.length + t.constants.length + shift := Nat.add_right_comm ..
      rw [expression, expression, hslot, hslot']
      exact (expression_follows h c n hc).caseWhen (expression_follows h t _ ht)
        (expression_follows h o _ ho)
  | .coalesce values, n, ha => .firstValuedOf (expressions_follow h values n ha)
  | .call function args t, n, ha => .call _ (expressions_follow h args n ha)

theorem expressions_follow (h : f.Related (Expression.Follows env env' pairs) g) :
    (as : List Formula) → (n : Nat) → env.Moves env' shift n (Formula.inputsOf as) →
    List.Forall₂ (Expression.Follows env env' pairs) (tr.expressions f n as)
      (tr.expressions g (n + shift) as)
  | [], n, _ => .nil
  | a :: as, n, ha => by
      rw [Formula.inputsOf, Environment.moves_append, Formula.length_slots] at ha
      rw [expressions, expressions, Nat.add_right_comm]
      exact .cons (expression_follows h a n ha.1) (expressions_follow h as _ ha.2)

end

/-! ## What operators add -/

lemma yieldedScalar_follows (h : f.Related (Expression.Follows env env' pairs) g) (a : Formula)
    (n : Nat) (ha : env.Moves env' shift n a.inputs) :
    (tr.yieldedScalar f n a).expression.Follows env env' pairs
      (tr.yieldedScalar g (n + shift) a).expression :=
  expression_follows h a n ha

lemma projectedFields_follow (h : f.Related (Expression.Follows env env' pairs) g)
    (fields : List (String × Projected)) (n : Nat)
    (ha : env.Moves env' shift n (Formula.inputsOf (Projection.record fields).formulas)) :
    List.Forall₂
      (fun y y' => y'.1 = y.1 ∧ y.2.Related (Expression.Follows env env' pairs) y'.2)
      (tr.projectedFields f n fields) (tr.projectedFields g (n + shift) fields) := by
  induction fields generalizing n with
  | nil => exact .nil
  | cons field fields ih =>
      obtain ⟨name, a | ⟨entity, aliasName⟩⟩ := field
      · have hformulas : (Projection.record ((name, .scalar a) :: fields)).formulas =
            a :: (Projection.record fields).formulas := rfl
        rw [hformulas, Formula.inputsOf, Environment.moves_append, Formula.length_slots] at ha
        rw [projectedFields, projectedFields, Nat.add_right_comm]
        exact .cons ⟨rfl, .scalar (yieldedScalar_follows h a n ha.1)⟩ (ih _ ha.2)
      · exact .cons ⟨rfl, .entity (h.bound (.literal _) aliasName)⟩ (ih n ha)

lemma projectedYield_follows (h : f.Related (Expression.Follows env env' pairs) g)
    (projection : Projection) (n : Nat)
    (ha : env.Moves env' shift n (Formula.inputsOf projection.formulas)) :
    (tr.projectedYield f n projection).Related (Expression.Follows env env' pairs)
      (tr.projectedYield g (n + shift) projection) := by
  cases projection with
  | scalar a =>
      rw [Projection.formulas, Formula.inputsOf_singleton] at ha
      exact .scalar (yieldedScalar_follows h a n ha)
  | entity entity aliasName => exact .entity (h.bound (.literal _) aliasName)
  | record fields => exact .record (projectedFields_follow h fields n ha)

lemma groupKeys_follow (h : f.Related (Expression.Follows env env' pairs) g)
    (keys : List (String × Formula)) (n : Nat)
    (ha : env.Moves env' shift n (Formula.inputsOf (keys.map Prod.snd))) :
    List.Forall₂
      (fun k k' => k'.1 = k.1 ∧ k.2.expression.Follows env env' pairs k'.2.expression)
      (tr.groupKeys f n keys) (tr.groupKeys g (n + shift) keys) := by
  induction keys generalizing n with
  | nil => exact .nil
  | cons key keys ih =>
      rw [List.map_cons, Formula.inputsOf, Environment.moves_append, Formula.length_slots] at ha
      rw [groupKeys, groupKeys, Nat.add_right_comm]
      exact .cons ⟨rfl, yieldedScalar_follows h key.2 n ha.1⟩ (ih _ ha.2)

lemma groupSummaries_follow (h : f.Related (Expression.Follows env env' pairs) g)
    (summaries : List (String × Summary)) (n : Nat)
    (ha : env.Moves env' shift n (Formula.inputsOf (summaries.filterMap fun s => s.2.arg))) :
    List.Forall₂
      (fun s s' => s'.1 = s.1 ∧ s.2.expression.Follows env env' pairs s'.2.expression)
      (tr.groupSummaries f n summaries) (tr.groupSummaries g (n + shift) summaries) := by
  induction summaries generalizing n with
  | nil => exact .nil
  | cons summary summaries ih =>
      obtain ⟨name, function, arg⟩ := summary
      rw [groupSummaries, groupSummaries, Nat.add_right_comm]
      cases arg with
      | none => exact .cons ⟨rfl, .countRows⟩ (ih n ha)
      | some a =>
          have hformulas : ((name, (⟨function, some a⟩ : Summary)) :: summaries).filterMap
              (fun s => s.2.arg) = a :: summaries.filterMap fun s => s.2.arg := rfl
          have hslots : (Formula.constantsOf (some a).toList).length = a.constants.length :=
            congrArg List.length (List.append_nil a.constants)
          rw [hformulas, Formula.inputsOf, Environment.moves_append, Formula.length_slots] at ha
          rw [← hslots] at ha
          exact .cons ⟨rfl, .aggregate _ _ (expression_follows h a n ha.1)⟩ (ih _ ha.2)

end Translator
end Formulas

end EntityQuery
