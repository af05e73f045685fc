import EntityQuery.Proofs.Translation.Inputs

/-!
# The expression of a formula

Which expression a formula becomes depends on the frame and on the slot of its first constant only.
`Translator.expression` is that expression, without the progress of a translation: the slot at which
a part starts is counted by the constants of the parts before it.  What is out of reach is null
there, since a translation gives up on it.

* `Translator.formula_eq_ok`: a translation that succeeds gives that expression, takes one slot for
  each constant, and binds the inputs of the formula.
-/

namespace EntityQuery

namespace Frame

/-- What an alias is bound to, and null if it is not in scope. -/
def bound (f : Frame) (aliasName : String) : Binding :=
  (f.binding? aliasName).getD ⟨aliasName, "", .literal .null, false⟩

/-- What a field of the current record is, and null if there is none. -/
def fieldExpression (f : Frame) (name : String) : Expression :=
  match f.yield with
  | .record fields => ((Yield.field? name fields).map FieldYield.expression).getD (.literal .null)
  | _ => .literal .null

/-- What the current scalar is, and null if there is none. -/
def scalarExpression (f : Frame) : Expression :=
  match f.yield with
  | .scalar s => s.expression
  | _ => .literal .null

end Frame

/-- The test that a comparison with null is. -/
def nullTested (op : Operator) (e : Expression) : Expression :=
  if op = .ne then .valued e else .notValued e

/-- The outcome of a comparison of null with null. -/
def nullsDecided (op : Operator) : Expression := .literal (.bool (op != .ne))

/-- The call of a built-in function, and null if the number of arguments is wrong. -/
def BuiltinFunction.called (function : BuiltinFunction) (args : List Expression) : Expression :=
  if args.length = function.arity then function.expression args else .literal .null

/-- The first of some expressions that has a value, and null if there are none. -/
def firstValuedOf : List Expression → Expression
  | [] => .literal .null
  | [e] => e
  | es => .call "IFMISSINGORNULL" es

namespace Translator

mutual

/-- The expression of a formula over a frame, if `n` is the slot of its first constant. -/
def expression (tr : Translator) (frame : Frame) (n : Nat) : Formula → Expression
  | .property p => (frame.bound p.aliasName).base.path p.path
  | .member name _ _ => frame.fieldExpression name
  | .element _ _ => frame.scalarExpression
  | .constant _ _ => .placeholder (slotName n)
  | .parameter name _ => .placeholder name
  | .binary op left right =>
    if op.isComparison && left.isNullConstant && right.isNullConstant then nullsDecided op
    else if op.isComparison && left.isNullConstant then
      nullTested op (tr.expression frame (n + 1) right)
    else if op.isComparison && right.isNullConstant then
      nullTested op (tr.expression frame n left)
    else
      .binary op (tr.expression frame n left)
        (tr.expression frame (n + left.constants.length) right)
  | .not f => .not (tr.expression frame n f)
  | .negate f => .neg (tr.expression frame n f)
  | .isNull f => .notValued (tr.expression frame n f)
  | .isNotNull f => .valued (tr.expression frame n f)
  | .inList f list =>
    .inList (tr.expression frame n f) (tr.expressions frame (n + f.constants.length) list)
  | .like f pattern =>
    .like (tr.expression frame n f) (tr.expression frame (n + f.constants.length) pattern)
  | .builtin function args => function.called (tr.expressions frame n args)
  | .caseWhen c t o =>
    .caseWhen (tr.expression frame n c) (tr.expression frame (n + c.constants.length) t)
      (tr.expression frame (n + c.constants.length + t.constants.length) o)
  | .coalesce values => firstValuedOf (tr.expressions frame n values)
  | .call function args _ =>
    .call (((tr.functions.find? function).map FunctionEntry.storeName).getD function)
      (tr.expressions frame n args)

/-- The expressions of several formulas, if `n` is the slot of their first constant. -/
def expressions (tr : Translator) (frame : Frame) (n : Nat) : List Formula → List Expression
  | [] => []
  | f :: fs => tr.expression frame n f :: tr.expressions frame (n + f.constants.length) fs

end

end Translator

/-! ## Reading inputs

The progress of a translation says which slot comes next and what the parameter table has.  Reading
an input advances both, and nothing else of a formula does. -/

/-- A translation reads some inputs: each slot is taken, and the inputs are bound. -/
structure Progress.Reads (p : Progress) (is : List Input) (p' : Progress) : Prop where
  nextSlot : p'.nextSlot = p.nextSlot + (slotsOf is).length
  parameters : ParameterTable.Binds p.nextSlot is p.parameters p'.parameters

namespace Progress.Reads

variable {p p₁ p₂ : Progress} {is js : List Input}

lemma refl (p : Progress) : p.Reads [] p := ⟨rfl, .refl⟩

lemma trans (h₁ : p.Reads is p₁) (h₂ : p₁.Reads js p₂) : p.Reads (is ++ js) p₂ where
  nextSlot := by
    rw [h₂.nextSlot, h₁.nextSlot, slotsOf_append, List.length_append, Nat.add_assoc]
  parameters := h₁.parameters.append (h₁.nextSlot ▸ h₂.parameters)

/-- The slot of a null constant that is compared is taken and not bound. -/
lemma tested {f : Formula} (hf : f.isNullConstant = true) :
    p.Reads f.testedInputs { p with nextSlot := p.nextSlot + 1 } := by
  cases f with
  | constant value t => exact ⟨rfl, .tested .refl⟩
  | _ => simp [Formula.isNullConstant] at hf

/-- The slot at which the part behind a formula starts. -/
lemma nextSlot_formula {f : Formula} (h : p.Reads f.inputs p₁) :
    p₁.nextSlot = p.nextSlot + f.constants.length := by
  rw [h.nextSlot, Formula.length_slots]

lemma nextSlot_formulas {fs : List Formula} (h : p.Reads (Formula.inputsOf fs) p₁) :
    p₁.nextSlot = p.nextSlot + (Formula.constantsOf fs).length := by
  rw [h.nextSlot, Formula.length_slotsOf]

end Progress.Reads

open Translating

/-! ## Leaves -/

namespace Frame

variable {frame : Frame} {p : Progress}

lemma property_eq_ok {path : PropertyPath} {r : Expression × Progress}
    (h : frame.property path p = .ok r) : r = ((frame.bound path.aliasName).base.path path.path, p) := by
  rw [property] at h
  rw [bound]
  cases hb : frame.binding? path.aliasName with
  | none => simp [hb] at h
  | some b =>
      rw [hb] at h
      exact pure_eq_ok.1 (guard_eq_ok.1 h).2

lemma member_eq_ok {name : String} {r : Expression × Progress}
    (h : frame.member name p = .ok r) : r = (frame.fieldExpression name, p) := by
  rw [member] at h
  rw [fieldExpression]
  cases hy : frame.yield with
  | record fields =>
      simp only [hy] at h
      cases hf : Yield.field? name fields with
      | none => simp [hf] at h
      | some y =>
          cases y with
          | scalar s =>
              rw [hf] at h
              simp only [hf]
              exact pure_eq_ok.1 h
          | entity b => simp [hf] at h
  | _ => simp [hy] at h

lemma element_eq_ok {r : Expression × Progress} (h : frame.element p = .ok r) :
    r = (frame.scalarExpression, p) := by
  rw [element] at h
  rw [scalarExpression]
  cases hy : frame.yield with
  | scalar s =>
      rw [hy] at h
      exact pure_eq_ok.1 h
  | _ => simp [hy] at h

end Frame

namespace Translator

variable {tr : Translator} {frame : Frame}

/-! ## Formulas

A formula that is translated has an expression that can be written down without running the
translation.  Later files reason about this expression only. -/

@[simp] lemma length_expressions (n : Nat) (fs : List Formula) :
    (tr.expressions frame n fs).length = fs.length := by
  induction fs generalizing n with
  | nil => rfl
  | cons f fs ih => rw [expressions, List.length_cons, ih, List.length_cons]

lemma nullTest_eq_nullTested {op : Operator} {e : Expression} {p : Progress}
    {r : Expression × Progress} (h : nullTest op e p = .ok r) : r = (nullTested op e, p) := by
  rcases nullTest_eq_ok.1 h with ⟨rfl, rfl⟩ | ⟨rfl, rfl⟩ <;> rfl

lemma nullsCompared_eq_nullsDecided {op : Operator} {p : Progress} {r : Expression × Progress}
    (h : nullsCompared op p = .ok r) : r = (nullsDecided op, p) := by
  rcases nullsCompared_eq_ok.1 h with ⟨rfl, rfl⟩ | ⟨rfl, rfl⟩ <;> rfl

mutual

/-- **A formula that is translated becomes its expression, and its inputs are read.** -/
theorem formula_eq_ok : (f : Formula) → {p p' : Progress} → {e : Expression} →
    tr.formula frame f p = .ok (e, p') →
    e = tr.expression frame p.nextSlot f ∧ p.Reads f.inputs p'
  | .property path, p, p', e, h => by
      cases Frame.property_eq_ok h
      exact ⟨rfl, .refl p⟩
  | .member name t nullable, p, p', e, h => by
      cases Frame.member_eq_ok h
      exact ⟨rfl, .refl p⟩
  | .element t nullable, p, p', e, h => by
      cases Frame.element_eq_ok h
      exact ⟨rfl, .refl p⟩
  | .constant value t, p, p', e, h => by
      cases constant_eq_ok h
      exact ⟨rfl, rfl, .bound .refl⟩
  | .parameter name t, p, p', e, h => by
      obtain ⟨parameters, hbind, hr⟩ := parameter_eq_ok h
      cases hr
      exact ⟨rfl, rfl, .named hbind .refl⟩
  | .binary op left right, p, p', e, h => by
      rw [formula] at h
      rw [expression, Formula.inputs]
      cases hl : op.isComparison && left.isNullConstant with
      | true =>
          have hleft : left.isNullConstant = true := (Bool.and_eq_true_iff.1 hl).2
          cases hr : right.isNullConstant with
          | true =>
              have hop : op.isComparison = true := (Bool.and_eq_true_iff.1 hl).1
              simp only [hop, hleft, hr, Bool.and_self, if_true] at h ⊢
              obtain ⟨_, q, hslot, h⟩ := bind_eq_ok.1 h
              cases takeSlot_eq_ok.1 hslot
              obtain ⟨_, q, hslot', h⟩ := bind_eq_ok.1 h
              cases takeSlot_eq_ok.1 hslot'
              cases nullsCompared_eq_nullsDecided h
              exact ⟨rfl, (Progress.Reads.tested hleft).trans (Progress.Reads.tested hr)⟩
          | false =>
              simp only [hl, hr, Bool.and_false, Bool.false_eq_true, if_true, if_false] at h ⊢
              obtain ⟨_, q, hslot, h⟩ := bind_eq_ok.1 h
              cases takeSlot_eq_ok.1 hslot
              obtain ⟨e₁, q, hf, h⟩ := bind_eq_ok.1 h
              obtain ⟨rfl, hreads⟩ := formula_eq_ok right hf
              cases nullTest_eq_nullTested h
              exact ⟨rfl, (Progress.Reads.tested hleft).trans hreads⟩
      | false =>
          cases hr : op.isComparison && right.isNullConstant with
          | true =>
              have hright : right.isNullConstant = true := (Bool.and_eq_true_iff.1 hr).2
              simp only [hl, hr, Bool.false_and, Bool.false_eq_true, if_true, if_false] at h ⊢
              obtain ⟨e₁, q, hf, h⟩ := bind_eq_ok.1 h
              obtain ⟨rfl, hreads⟩ := formula_eq_ok left hf
              obtain ⟨_, q, hslot, h⟩ := bind_eq_ok.1 h
              cases takeSlot_eq_ok.1 hslot
              cases nullTest_eq_nullTested h
              exact ⟨rfl, hreads.trans (Progress.Reads.tested hright)⟩
          | false =>
              simp only [hl, hr, Bool.false_and, Bool.false_eq_true, if_false] at h ⊢
              replace h := after_check (fun _ hs => checkOperands_eq_ok hs) h
              obtain ⟨e₁, q, hf, h⟩ := bind_eq_ok.1 h
              obtain ⟨e₂, q₁, hf', h⟩ := bind_eq_ok.1 h
              cases pure_eq_ok.1 h
              obtain ⟨rfl, hreads⟩ := formula_eq_ok left hf
              obtain ⟨rfl, hreads'⟩ := formula_eq_ok right hf'
              refine ⟨?_, hreads.trans hreads'⟩
              rw [hreads.nextSlot_formula]
  | .not f, p, p', e, h => by
      replace h := after_check (fun _ hs => (expectBool_eq_ok.1 hs).2) h
      obtain ⟨e₁, q, hf, h⟩ := bind_eq_ok.1 h
      cases pure_eq_ok.1 h
      obtain ⟨rfl, hreads⟩ := formula_eq_ok f hf
      exact ⟨rfl, hreads⟩
  | .negate f, p, p', e, h => by
      replace h := after_check (fun _ hs => (expectOperand_eq_ok.1 hs).2) h
      obtain ⟨e₁, q, hf, h⟩ := bind_eq_ok.1 h
      cases pure_eq_ok.1 h
      obtain ⟨rfl, hreads⟩ := formula_eq_ok f hf
      exact ⟨rfl, hreads⟩
  | .isNull f, p, p', e, h => by
      obtain ⟨e₁, q, hf, h⟩ := bind_eq_ok.1 h
      cases pure_eq_ok.1 h
      obtain ⟨rfl, hreads⟩ := formula_eq_ok f hf
      exact ⟨rfl, hreads⟩
  | .isNotNull f, p, p', e, h => by
      obtain ⟨e₁, q, hf, h⟩ := bind_eq_ok.1 h
      cases pure_eq_ok.1 h
      obtain ⟨rfl, hreads⟩ := formula_eq_ok f hf
      exact ⟨rfl, hreads⟩
  | .inList f list, p, p', e, h => by
      replace h := after_check (fun _ hs => checkComparable_eq_ok hs) h
      obtain ⟨e₁, q, hf, h⟩ := bind_eq_ok.1 h
      obtain ⟨es, q₁, hlist, h⟩ := bind_eq_ok.1 h
      cases pure_eq_ok.1 h
      obtain ⟨rfl, hreads⟩ := formula_eq_ok f hf
      obtain ⟨rfl, hreads'⟩ := formulas_eq_ok list hlist
      refine ⟨?_, hreads.trans hreads'⟩
      rw [expression, hreads.nextSlot_formula]
  | .like f pattern, p, p', e, h => by
      replace h := after_check (fun _ hs => (expectOperand_eq_ok.1 hs).2) h
      replace h := after_check (fun _ hs => (expectOperand_eq_ok.1 hs).2) h
      obtain ⟨e₁, q, hf, h⟩ := bind_eq_ok.1 h
      obtain ⟨e₂, q₁, hpattern, h⟩ := bind_eq_ok.1 h
      cases pure_eq_ok.1 h
      obtain ⟨rfl, hreads⟩ := formula_eq_ok f hf
      obtain ⟨rfl, hreads'⟩ := formula_eq_ok pattern hpattern
      refine ⟨?_, hreads.trans hreads'⟩
      rw [expression, hreads.nextSlot_formula]
  | .builtin function args, p, p', e, h => by
      obtain ⟨_, q, hcheck, h⟩ := bind_eq_ok.1 h
      obtain ⟨harity, hq⟩ := BuiltinFunction.check_eq_ok hcheck
      cases hq
      obtain ⟨es, q, hargs, h⟩ := bind_eq_ok.1 h
      cases pure_eq_ok.1 h
      obtain ⟨rfl, hreads⟩ := formulas_eq_ok args hargs
      refine ⟨?_, hreads⟩
      rw [expression, BuiltinFunction.called, length_expressions, if_pos harity]
  | .caseWhen c t o, p, p', e, h => by
      replace h := after_check (fun _ hs => (expectBool_eq_ok.1 hs).2) h
      replace h := after_check (fun _ hs => checkComparable_eq_ok hs) h
      obtain ⟨e₁, q, hc, h⟩ := bind_eq_ok.1 h
      obtain ⟨e₂, q₁, ht, h⟩ := bind_eq_ok.1 h
      obtain ⟨e₃, q₂, ho, h⟩ := bind_eq_ok.1 h
      cases pure_eq_ok.1 h
      obtain ⟨rfl, hreads⟩ := formula_eq_ok c hc
      obtain ⟨rfl, hreads'⟩ := formula_eq_ok t ht
      obtain ⟨rfl, hreads''⟩ := formula_eq_ok o ho
      refine ⟨?_, (hreads.trans hreads').trans hreads''⟩
      rw [expression, hreads'.nextSlot_formula, hreads.nextSlot_formula]
  | .coalesce values, p, p', e, h => by
      obtain ⟨hvalues, h⟩ := refuse_bind_eq_ok.1 h
      replace h := after_check (fun _ hs => checkComparable_eq_ok hs) h
      obtain ⟨es, q, hes, h⟩ := bind_eq_ok.1 h
      obtain ⟨hexpressions, hreads⟩ := formulas_eq_ok values hes
      rw [expression, ← hexpressions]
      rcases es with _ | ⟨e₁, _ | ⟨e₂, es⟩⟩
      · have hnil : values.length = 0 := by rw [← length_expressions, ← hexpressions]; rfl
        simp [List.length_eq_zero_iff.1 hnil] at hvalues
      · cases pure_eq_ok.1 h
        exact ⟨rfl, hreads⟩
      · cases pure_eq_ok.1 h
        exact ⟨rfl, hreads⟩
  | .call function args t, p, p', e, h => by
      obtain ⟨entry, q, hentry, h⟩ := bind_eq_ok.1 h
      obtain ⟨_, hfind, hq⟩ := FunctionTable.resolve_eq_ok hentry
      cases hq
      obtain ⟨es, q, hargs, h⟩ := bind_eq_ok.1 h
      cases pure_eq_ok.1 h
      obtain ⟨rfl, hreads⟩ := formulas_eq_ok args hargs
      refine ⟨?_, hreads⟩
      rw [expression, hfind]
      rfl

/-- Formulas that are translated become their expressions, and their inputs are read. -/
theorem formulas_eq_ok : (fs : List Formula) → {p p' : Progress} → {es : List Expression} →
    tr.formulas frame fs p = .ok (es, p') →
    es = tr.expressions frame p.nextSlot fs ∧ p.Reads (Formula.inputsOf fs) p'
  | [], p, p', es, h => by
      cases pure_eq_ok.1 h
      exact ⟨rfl, .refl p⟩
  | f :: fs, p, p', es, h => by
      obtain ⟨e, q, hf, h⟩ := bind_eq_ok.1 h
      obtain ⟨rest, q₁, hfs, h⟩ := bind_eq_ok.1 h
      cases pure_eq_ok.1 h
      obtain ⟨rfl, hreads⟩ := formula_eq_ok f hf
      obtain ⟨rfl, hreads'⟩ := formulas_eq_ok fs hfs
      refine ⟨?_, hreads.trans hreads'⟩
      rw [expressions, hreads.nextSlot_formula]

end

end Translator
end EntityQuery
