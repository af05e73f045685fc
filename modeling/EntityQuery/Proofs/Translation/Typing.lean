import EntityQuery.Evaluation.Expression
import EntityQuery.Proofs.Scalar.Representation
import EntityQuery.Proofs.Translation.Expression
import EntityQuery.Query.EntitySet

/-!
# Typing of formulas

A formula that is translated has passed the checks of its operands.  Together with what its leaves
say about the model and about the elements of the frame, and with what is supplied for its constants
and parameters, this is a typing judgement, on which statements about the values of formulas rest.

* `Translator.Knows`: what a leaf says is so, and a registered function returns what it is said to.
* `Environment.Supplies`: constants and parameters stand for values of their types.
* `Formula.Typed`: the operands of a formula are of the types that it asks for, down to the leaves.
* `Translator.typed_of_formula`: a formula that is translated is typed.
-/

namespace EntityQuery

open Translating

/-! ## Checks

A check that has passed is turned into a statement on types.  The translation itself is not looked
at again. -/

/-- An operator takes operands of two types. -/
def Operator.Takes (op : Operator) (a b : ScalarType) : Prop :=
  if op.isComparison then a.comparable b = true
  else if op.isLogical then a = .bool ∧ b = .bool
  else if op.isArithmetic then (a.promote b).isSome = true
  else a = .string ∧ b = .string

/-- A built-in function takes arguments of a type. -/
def BuiltinFunction.Takes (function : BuiltinFunction) (t : ScalarType) : Prop :=
  if function.isNumeric then t.isNumeric = true else t = .string

section Checks

variable {p : Progress}

lemma takes_of_checkOperands {op : Operator} {left right : Formula} {r : Unit × Progress}
    (h : checkOperands op left right p = .ok r) : op.Takes left.scalarType right.scalarType := by
  rw [checkOperands] at h
  rw [Operator.Takes]
  split at h
  · rename_i hop
    rw [if_pos hop]
    exact (guard_eq_ok.1 h).1
  · rename_i hop
    rw [if_neg hop]
    split at h
    · rename_i hop
      rw [if_pos hop]
      obtain ⟨_, q, hl, hr⟩ := bind_eq_ok.1 h
      exact ⟨(expectBool_eq_ok.1 hl).1, (expectBool_eq_ok.1 hr).1⟩
    · rename_i hop
      rw [if_neg hop]
      split at h
      · rename_i hop
        rw [if_pos hop]
        exact (guard_eq_ok.1 h).1
      · rename_i hop
        rw [if_neg hop]
        obtain ⟨_, q, hl, hr⟩ := bind_eq_ok.1 h
        exact ⟨beq_iff_eq.1 (expectOperand_eq_ok.1 hl).1, beq_iff_eq.1 (expectOperand_eq_ok.1 hr).1⟩

lemma comparable_of_checkComparable {construct found between : String} {first : ScalarType}
    {fs : List Formula} {r : Unit × Progress}
    (h : checkComparable construct found between first fs p = .ok r) :
    ∀ f ∈ fs, first.comparable f.scalarType = true := by
  rw [checkComparable] at h
  cases hbad : fs.find? fun f => !first.comparable f.scalarType with
  | some bad => simp [hbad] at h
  | none => simpa using hbad

/-- Each member of a list passes a check if the list does. -/
lemma forall_of_forM {fs : List Formula} {check : Formula → Translating Unit} {P : Formula → Prop}
    {r : Unit × Progress} (hcheck : ∀ f s, check f p = .ok s → P f ∧ s = ((), p))
    (h : fs.forM check p = .ok r) : ∀ f ∈ fs, P f := by
  induction fs with
  | nil => simp
  | cons f fs ih =>
      obtain ⟨_, q, hf, hfs⟩ := bind_eq_ok.1 h
      obtain ⟨hP, hq⟩ := hcheck f _ hf
      cases hq
      exact List.forall_mem_cons.2 ⟨hP, ih hfs⟩

lemma takes_of_check {function : BuiltinFunction} {args : List Formula} {r : Unit × Progress}
    (h : function.check args p = .ok r) : ∀ f ∈ args, function.Takes f.scalarType := by
  obtain ⟨-, h⟩ := refuse_bind_eq_ok.1 h
  cases hnumeric : function.isNumeric with
  | true =>
      simp only [hnumeric, if_true, BuiltinFunction.Takes] at h ⊢
      exact forall_of_forM (fun f s hf => expectOperand_eq_ok.1 hf) h
  | false =>
      simp only [hnumeric, Bool.false_eq_true, if_false, BuiltinFunction.Takes] at h ⊢
      refine forall_of_forM (fun f s hf => ?_) h
      obtain ⟨hf, hs⟩ := expectOperand_eq_ok.1 hf
      exact ⟨beq_iff_eq.1 hf, hs⟩

/-- A call that passes its check has the type that its function returns. -/
lemma returnType_of_resolve {t : FunctionTable} {function : String} {count : Nat}
    {scalarType : ScalarType} {entry : FunctionEntry} {q : Progress}
    (h : t.resolve function count scalarType p = .ok (entry, q)) :
    t.find? function = some entry ∧ entry.returnType = scalarType := by
  rw [FunctionTable.resolve] at h
  cases hentry : t.find? function with
  | none => simp [hentry] at h
  | some entry' =>
      simp only [hentry] at h
      cases harity : entry'.arity.filter (· != count) with
      | some arity => simp [harity] at h
      | none =>
          rw [harity] at h
          obtain ⟨htype, h⟩ := guard_eq_ok.1 h
          cases pure_eq_ok.1 h
          exact ⟨rfl, htype⟩

end Checks

/-! ## Leaves

Formulas carry types in their leaves: those of properties, of fields and of functions.  That these
are the types of the model is known of formulas that were built for it. -/

/-- A formula is another one, or a part of it. -/
inductive Formula.PartOf : Formula → Formula → Prop
  | self (f : Formula) : PartOf f f
  | child {f g h : Formula} (hg : g ∈ h.children) (hf : PartOf f g) : PartOf f h

/-- What holds of all parts of a formula holds of itself and of all parts of its direct parts. -/
lemma Formula.forall_partOf {P : Formula → Prop} {f : Formula} :
    (∀ g, g.PartOf f → P g) ↔ P f ∧ ∀ h ∈ f.children, ∀ g, g.PartOf h → P g := by
  constructor
  · exact fun h => ⟨h f (.self f), fun k hk g hg => h g (.child hk hg)⟩
  · rintro ⟨hself, hchildren⟩ g hg
    cases hg with
    | self => exact hself
    | child hk hg => exact hchildren _ hk g hg

namespace Yield

/-- The scalar that elements are. -/
def scalar? : Yield → Option YieldedScalar
  | .scalar s => some s
  | _ => none

/-- The scalar that elements hold in a field. -/
def scalarField? (name : String) : Yield → Option YieldedScalar
  | .record fields =>
    match Yield.field? name fields with
    | some (.scalar s) => some s
    | _ => none
  | _ => none

end Yield

/-- A registered function returns values of the type that it is said to return. -/
def FunctionEntry.Returns (r : Registry) (entry : FunctionEntry) : Prop :=
  ∀ ds v, callFunction entry.storeName ds = .ok v → r.Fits entry.returnType.widened v

/-- What a formula says of the model, of the elements of a frame and of a registered function is so.
The operations that build formulas see to this. -/
def Translator.Knows (tr : Translator) (frame : Frame) : Formula → Prop
  | .property p => tr.model.property ⟨p.entity, p.aliasName⟩ p.member = .ok p
  | .member name t nullable =>
    ∀ s, frame.yield.scalarField? name = some s → s.scalarType = t ∧ s.nullable = nullable
  | .element t nullable =>
    ∀ s, frame.yield.scalar? = some s → s.scalarType = t ∧ s.nullable = nullable
  | .call function _ _ =>
    ∀ entry, tr.functions.find? function = some entry → entry.Returns tr.registry
  | _ => True

/-- A document stands for a value of a type: the codec of the type writes it for the value and reads
it back. -/
def Registry.Encodes (r : Registry) (t : ScalarType) (value : Value) (d : Document) : Prop :=
  ∃ codec v, r.find t = .ok codec ∧ codec.encode value = .ok d ∧ codec.decode d = .ok v

/-- What is bound for some inputs stands for them, if slots are counted from `n` on. -/
def Environment.Supplies (env : Environment) (r : Registry) : Nat → List Input → Prop
  | _, [] => True
  | n, .slot s :: is =>
    (s.tested = false → ∀ d, env.parameter? (slotName n) = some d →
      r.Encodes s.captured.scalarType s.captured.value d) ∧ env.Supplies r (n + 1) is
  | n, .parameter name t :: is =>
    (∀ d, env.parameter? name = some d → ∃ value, r.Encodes t value d) ∧ env.Supplies r n is

lemma Environment.supplies_append {env : Environment} {r : Registry} {n : Nat} {is js : List Input} :
    env.Supplies r n (is ++ js) ↔
      env.Supplies r n is ∧ env.Supplies r (n + (slotsOf is).length) js := by
  induction is generalizing n with
  | nil => simp [Supplies]
  | cons i is ih =>
      cases i with
      | slot s =>
          have hcount : n + 1 + (slotsOf is).length = n + (slotsOf (.slot s :: is)).length := by
            rw [slotsOf_slot, List.length_cons]
            omega
          simp only [List.cons_append, Supplies, ih, hcount, and_assoc]
      | parameter name t => simp only [List.cons_append, Supplies, ih, slotsOf_parameter, and_assoc]

/-! ## The judgement

The judgement is on formulas, and follows their structure.  What is bound for inputs is part of it,
since a constant is typed by its value. -/

namespace Formula

mutual

/-- The operands of a formula are of the types that it asks for, its leaves are what they say, and
what is bound for constants and parameters stands for them; `n` is the slot of the first constant.
Nothing is asked of operands that only tests look at. -/
def Typed (tr : Translator) (frame : Frame) (env : Environment) : Nat → Formula → Prop
  | _, .property p =>
    ∃ b ∈ frame.scope, frame.bound p.aliasName = b ∧ b.entity = p.entity ∧
      tr.model.property ⟨p.entity, p.aliasName⟩ p.member = .ok p
  | _, .member name t nullable =>
    ∃ s, frame.yield.scalarField? name = some s ∧ s.scalarType = t ∧ s.nullable = nullable
  | _, .element t nullable =>
    ∃ s, frame.yield.scalar? = some s ∧ s.scalarType = t ∧ s.nullable = nullable
  | n, .constant value t =>
    ∀ d, env.parameter? (slotName n) = some d → tr.registry.Encodes t value d
  | _, .parameter name t =>
    ∀ d, env.parameter? name = some d → ∃ value, tr.registry.Encodes t value d
  | n, .binary op left right =>
    (op.isComparison && (left.isNullConstant || right.isNullConstant)) = true ∨
      op.Takes left.scalarType right.scalarType ∧ left.Typed tr frame env n ∧
        right.Typed tr frame env (n + left.constants.length)
  | n, .not f => f.scalarType = .bool ∧ f.Typed tr frame env n
  | n, .negate f => f.scalarType.isNumeric = true ∧ f.Typed tr frame env n
  | _, .isNull _ | _, .isNotNull _ => True
  | n, .inList f _ => f.Typed tr frame env n
  | n, .like f pattern =>
    f.scalarType = .string ∧ pattern.scalarType = .string ∧ f.Typed tr frame env n ∧
      pattern.Typed tr frame env (n + f.constants.length)
  | n, .builtin function args =>
    args.length = function.arity ∧ (∀ f ∈ args, function.Takes f.scalarType) ∧
      AllTyped tr frame env n args
  | n, .caseWhen c t o =>
    t.scalarType.comparable o.scalarType = true ∧ t.Typed tr frame env (n + c.constants.length) ∧
      o.Typed tr frame env (n + c.constants.length + t.constants.length)
  | n, .coalesce values =>
    (∀ f ∈ values, (firstType values).comparable f.scalarType = true) ∧
      AllTyped tr frame env n values
  | _, .call function _ t =>
    ∃ entry, tr.functions.find? function = some entry ∧ entry.returnType = t ∧
      entry.Returns tr.registry

/-- Several formulas are typed. -/
def AllTyped (tr : Translator) (frame : Frame) (env : Environment) : Nat → List Formula → Prop
  | _, [] => True
  | n, f :: fs =>
    f.Typed tr frame env n ∧ AllTyped tr frame env (n + f.constants.length) fs

end

end Formula

namespace Frame

variable {frame : Frame} {p : Progress}

/-- A property that is translated is one of an entity in scope. -/
lemma bound_of_property {path : PropertyPath} {r : Expression × Progress}
    (h : frame.property path p = .ok r) :
    ∃ b ∈ frame.scope, frame.bound path.aliasName = b ∧ b.entity = path.entity := by
  rw [property] at h
  cases hb : frame.binding? path.aliasName with
  | none => simp [hb] at h
  | some b =>
      rw [hb] at h
      exact ⟨b, List.mem_of_find?_eq_some hb, by rw [bound, hb]; rfl, (guard_eq_ok.1 h).1⟩

/-- A field that is translated holds a scalar. -/
lemma scalarField_of_member {name : String} {r : Expression × Progress}
    (h : frame.member name p = .ok r) : ∃ s, frame.yield.scalarField? name = some s := by
  rw [member] at h
  cases hy : frame.yield with
  | record fields =>
      simp only [hy, Yield.scalarField?] at h ⊢
      cases hf : Yield.field? name fields with
      | none => simp [hf] at h
      | some y =>
          cases y with
          | scalar s => exact ⟨s, rfl⟩
          | entity b => simp [hf] at h
  | _ => simp [hy] at h

/-- The current element that is translated is a scalar. -/
lemma scalar_of_element {r : Expression × Progress} (h : frame.element p = .ok r) :
    ∃ s, frame.yield.scalar? = some s := by
  rw [element] at h
  cases hy : frame.yield with
  | scalar s => exact ⟨s, rfl⟩
  | _ => simp [hy] at h

end Frame

namespace Translator

variable {tr : Translator} {frame : Frame} {env : Environment}

/-- What is known of a formula is known of its direct parts. -/
lemma knows_child {f g : Formula} (h : ∀ k, k.PartOf f → tr.Knows frame k) (hg : g ∈ f.children) :
    ∀ k, k.PartOf g → tr.Knows frame k :=
  (Formula.forall_partOf.1 h).2 g hg

mutual

/-- **A formula that is translated is typed.** -/
theorem typed_of_formula : (f : Formula) → {p p' : Progress} → {e : Expression} →
    tr.formula frame f p = .ok (e, p') → (∀ g, g.PartOf f → tr.Knows frame g) →
    env.Supplies tr.registry p.nextSlot f.inputs → f.Typed tr frame env p.nextSlot
  | .property path, p, p', e, h, hknows, hsupplies => by
      obtain ⟨b, hb, hbound, hentity⟩ := Frame.bound_of_property h
      exact ⟨b, hb, hbound, hentity, hknows _ (.self _)⟩
  | .member name t nullable, p, p', e, h, hknows, hsupplies => by
      obtain ⟨s, hs⟩ := Frame.scalarField_of_member h
      exact ⟨s, hs, hknows _ (.self _) s hs⟩
  | .element t nullable, p, p', e, h, hknows, hsupplies => by
      obtain ⟨s, hs⟩ := Frame.scalar_of_element h
      exact ⟨s, hs, hknows _ (.self _) s hs⟩
  | .constant value t, p, p', e, h, hknows, hsupplies => hsupplies.1 rfl
  | .parameter name t, p, p', e, h, hknows, hsupplies => hsupplies.1
  | .binary op left right, p, p', e, h, hknows, hsupplies => by
      rw [Formula.Typed]
      rw [formula] at h
      rw [Formula.inputs] at hsupplies
      cases hl : op.isComparison && left.isNullConstant with
      | true =>
          rw [Bool.and_eq_true_iff] at hl
          exact .inl (by rw [hl.1, hl.2]; rfl)
      | false =>
          cases hr : op.isComparison && right.isNullConstant with
          | true =>
              rw [Bool.and_eq_true_iff] at hr
              exact .inl (by rw [hr.1, hr.2, Bool.or_true]; rfl)
          | false =>
              simp only [hl, hr, Bool.false_and, Bool.false_eq_true, if_false] at h hsupplies
              obtain ⟨_, q, hcheck, h⟩ := bind_eq_ok.1 h
              cases checkOperands_eq_ok hcheck
              obtain ⟨e₁, q, hf, h⟩ := bind_eq_ok.1 h
              obtain ⟨e₂, q₁, hf', h⟩ := bind_eq_ok.1 h
              obtain ⟨hsl, hsr⟩ := Environment.supplies_append.1 hsupplies
              rw [Formula.length_slots] at hsr
              have hslot := (formula_eq_ok left hf).2.nextSlot_formula
              rw [← hslot] at hsr ⊢
              exact .inr ⟨takes_of_checkOperands hcheck,
                typed_of_formula left hf (knows_child hknows (by simp [Formula.children])) hsl,
                typed_of_formula right hf' (knows_child hknows (by simp [Formula.children])) hsr⟩
  | .not f, p, p', e, h, hknows, hsupplies => by
      obtain ⟨_, q, hcheck, h⟩ := bind_eq_ok.1 h
      obtain ⟨htype, hq⟩ := expectBool_eq_ok.1 hcheck
      cases hq
      obtain ⟨e₁, q, hf, h⟩ := bind_eq_ok.1 h
      exact ⟨htype, typed_of_formula f hf (knows_child hknows (by simp [Formula.children])) hsupplies⟩
  | .negate f, p, p', e, h, hknows, hsupplies => by
      obtain ⟨_, q, hcheck, h⟩ := bind_eq_ok.1 h
      obtain ⟨htype, hq⟩ := expectOperand_eq_ok.1 hcheck
      cases hq
      obtain ⟨e₁, q, hf, h⟩ := bind_eq_ok.1 h
      exact ⟨htype, typed_of_formula f hf (knows_child hknows (by simp [Formula.children])) hsupplies⟩
  | .isNull f, p, p', e, h, hknows, hsupplies => trivial
  | .isNotNull f, p, p', e, h, hknows, hsupplies => trivial
  | .inList f list, p, p', e, h, hknows, hsupplies => by
      replace h := after_check (fun _ hs => checkComparable_eq_ok hs) h
      obtain ⟨e₁, q, hf, h⟩ := bind_eq_ok.1 h
      exact typed_of_formula f hf (knows_child hknows (by simp [Formula.children]))
        (Environment.supplies_append.1 hsupplies).1
  | .like f pattern, p, p', e, h, hknows, hsupplies => by
      obtain ⟨_, q, hcheck, h⟩ := bind_eq_ok.1 h
      obtain ⟨htype, hq⟩ := expectOperand_eq_ok.1 hcheck
      cases hq
      obtain ⟨_, q, hcheck, h⟩ := bind_eq_ok.1 h
      obtain ⟨htype', hq⟩ := expectOperand_eq_ok.1 hcheck
      cases hq
      obtain ⟨e₁, q, hf, h⟩ := bind_eq_ok.1 h
      obtain ⟨e₂, q₁, hpattern, h⟩ := bind_eq_ok.1 h
      obtain ⟨hs, hs'⟩ := Environment.supplies_append.1 hsupplies
      rw [Formula.length_slots] at hs'
      have hslot := (formula_eq_ok f hf).2.nextSlot_formula
      rw [Formula.Typed]
      rw [← hslot] at hs' ⊢
      exact ⟨beq_iff_eq.1 htype, beq_iff_eq.1 htype',
        typed_of_formula f hf (knows_child hknows (by simp [Formula.children])) hs,
        typed_of_formula pattern hpattern (knows_child hknows (by simp [Formula.children])) hs'⟩
  | .builtin function args, p, p', e, h, hknows, hsupplies => by
      obtain ⟨_, q, hcheck, h⟩ := bind_eq_ok.1 h
      obtain ⟨harity, hq⟩ := BuiltinFunction.check_eq_ok hcheck
      cases hq
      obtain ⟨es, q, hargs, h⟩ := bind_eq_ok.1 h
      exact ⟨harity, takes_of_check hcheck,
        typed_of_formulas args hargs (fun g hg => knows_child hknows hg) hsupplies⟩
  | .caseWhen c t o, p, p', e, h, hknows, hsupplies => by
      replace h := after_check (fun _ hs => (expectBool_eq_ok.1 hs).2) h
      obtain ⟨_, q, hcheck, h⟩ := bind_eq_ok.1 h
      cases checkComparable_eq_ok hcheck
      obtain ⟨e₁, q, hc, h⟩ := bind_eq_ok.1 h
      obtain ⟨e₂, q₁, ht, h⟩ := bind_eq_ok.1 h
      obtain ⟨e₃, q₂, ho, h⟩ := bind_eq_ok.1 h
      obtain ⟨hs, hso⟩ := Environment.supplies_append.1 hsupplies
      obtain ⟨-, hst⟩ := Environment.supplies_append.1 hs
      rw [slotsOf_append, List.length_append, Formula.length_slots, Formula.length_slots,
        ← Nat.add_assoc] at hso
      rw [Formula.length_slots] at hst
      have hslot := (formula_eq_ok c hc).2.nextSlot_formula
      have hslot' := (formula_eq_ok t ht).2.nextSlot_formula
      rw [Formula.Typed]
      rw [← hslot] at hst hso ⊢
      rw [← hslot'] at hso ⊢
      exact ⟨comparable_of_checkComparable hcheck o (List.mem_singleton_self o),
        typed_of_formula t ht (knows_child hknows (by simp [Formula.children])) hst,
        typed_of_formula o ho (knows_child hknows (by simp [Formula.children])) hso⟩
  | .coalesce values, p, p', e, h, hknows, hsupplies => by
      obtain ⟨-, h⟩ := refuse_bind_eq_ok.1 h
      obtain ⟨_, q, hcheck, h⟩ := bind_eq_ok.1 h
      cases checkComparable_eq_ok hcheck
      obtain ⟨es, q, hes, h⟩ := bind_eq_ok.1 h
      exact ⟨comparable_of_checkComparable hcheck,
        typed_of_formulas values hes (fun g hg => knows_child hknows hg) hsupplies⟩
  | .call function args t, p, p', e, h, hknows, hsupplies => by
      obtain ⟨entry, q, hentry, h⟩ := bind_eq_ok.1 h
      obtain ⟨hfind, htype⟩ := returnType_of_resolve hentry
      exact ⟨entry, hfind, htype, hknows _ (.self _) entry hfind⟩

/-- Formulas that are translated are typed. -/
theorem typed_of_formulas : (fs : List Formula) → {p p' : Progress} → {es : List Expression} →
    tr.formulas frame fs p = .ok (es, p') →
    (∀ f ∈ fs, ∀ g, g.PartOf f → tr.Knows frame g) →
    env.Supplies tr.registry p.nextSlot (Formula.inputsOf fs) →
    Formula.AllTyped tr frame env p.nextSlot fs
  | [], p, p', es, h, hknows, hsupplies => trivial
  | f :: fs, p, p', es, h, hknows, hsupplies => by
      obtain ⟨e, q, hf, h⟩ := bind_eq_ok.1 h
      obtain ⟨rest, q₁, hfs, h⟩ := bind_eq_ok.1 h
      obtain ⟨hfirst, hrest⟩ := List.forall_mem_cons.1 hknows
      obtain ⟨hs, hs'⟩ := Environment.supplies_append.1 hsupplies
      rw [Formula.length_slots] at hs'
      have hslot := (formula_eq_ok f hf).2.nextSlot_formula
      rw [Formula.AllTyped]
      rw [← hslot] at hs' ⊢
      exact ⟨typed_of_formula f hf hfirst hs, typed_of_formulas fs hfs hrest hs'⟩

end

end Translator
end EntityQuery
