import EntityQuery.Proofs.Computation
import EntityQuery.Translation.Formula
import Mathlib.Tactic.Common

/-!
# Formulas need no aliases

Only sources have aliases that are made up.  How many there are when a formula is translated neither
changes its translation nor is changed by it.

* `Translating.IgnoresAliases`: a translation does not look at the number of aliases.
* `Translator.formula_ignoresAliases`: the translation of a formula does not.
-/

namespace EntityQuery

/-- The progress with another number of aliases that have been made up. -/
def Progress.withAliases (p : Progress) (count : Nat) : Progress := { p with aliases := count }

/-- A translation does not look at the number of aliases, and hands it on. -/
structure Translating.IgnoresAliases {α : Type} (x : Translating α) : Prop where
  run_withAliases : ∀ (p : Progress) (count : Nat),
    x (p.withAliases count) = (x p).map fun r => (r.1, r.2.withAliases count)

namespace Translating.IgnoresAliases

variable {α β : Type}

protected lemma pure (a : α) : IgnoresAliases (pure a : Translating α) :=
  ⟨fun _ _ => rfl⟩

lemma unsupported (construct reason : String) :
    IgnoresAliases (EntityQuery.unsupported construct reason : Translating α) :=
  ⟨fun _ _ => rfl⟩

protected lemma bind {x : Translating α} {f : α → Translating β} (hx : IgnoresAliases x)
    (hf : ∀ a, IgnoresAliases (f a)) : IgnoresAliases (x >>= f) := by
  refine ⟨fun p count => ?_⟩
  change (x (p.withAliases count) >>= fun r => f r.1 r.2) = (x p >>= fun r => f r.1 r.2).map _
  rw [hx.run_withAliases p count]
  cases x p with
  | error e => rfl
  | ok r => exact (hf r.1).run_withAliases r.2 count

/-- What is translated does not depend on the number of aliases. -/
lemma eq_ok {x : Translating α} (hx : IgnoresAliases x) {p p' : Progress} {count : Nat} {a : α}
    (h : x (p.withAliases count) = .ok (a, p')) : ∃ p₁, x p = .ok (a, p₁) := by
  rw [hx.run_withAliases] at h
  obtain ⟨r, hr, heq⟩ := Computation.map_eq_ok.1 h
  cases heq
  exact ⟨r.2, hr⟩

lemma ite {c : Prop} [Decidable c] {x y : Translating α} (hx : IgnoresAliases x)
    (hy : IgnoresAliases y) : IgnoresAliases (if c then x else y) := by
  split
  · exact hx
  · exact hy

lemma forM {ι : Type} {f : ι → Translating Unit} (hf : ∀ i, IgnoresAliases (f i)) (is : List ι) :
    IgnoresAliases (is.forM f) := by
  induction is with
  | nil => exact .pure ()
  | cons i is ih => exact (hf i).bind fun _ => ih

end Translating.IgnoresAliases

open Translating (IgnoresAliases)

/-! ## Steps

A translation is made of small steps that take slots, bind parameters or check types.  None of them
makes up an alias, and sequences, branches and lists of such steps do not either. -/

lemma takeSlot_ignoresAliases : IgnoresAliases takeSlot := ⟨fun _ _ => rfl⟩

lemma expectOperand_ignoresAliases (construct wanted : String) (accepts : ScalarType → Bool)
    (f : Formula) : IgnoresAliases (expectOperand construct wanted accepts f) :=
  .ite (.pure ()) (.unsupported _ _)

lemma checkOperands_ignoresAliases (op : Operator) (left right : Formula) :
    IgnoresAliases (checkOperands op left right) := by
  refine .ite (.ite (.pure ()) (.unsupported _ _)) (.ite ?_ (.ite (.ite (.pure ()) ?_) ?_))
  · exact (expectOperand_ignoresAliases ..).bind fun _ => expectOperand_ignoresAliases ..
  · exact .unsupported _ _
  · exact (expectOperand_ignoresAliases ..).bind fun _ => expectOperand_ignoresAliases ..

lemma checkComparable_ignoresAliases (construct found between : String) (first : ScalarType)
    (fs : List Formula) : IgnoresAliases (checkComparable construct found between first fs) := by
  rw [checkComparable]
  split
  · exact .unsupported _ _
  · exact .pure ()

lemma nullTest_ignoresAliases (op : Operator) (e : Expression) : IgnoresAliases (nullTest op e) := by
  cases op with
  | eq | ne => exact .pure _
  | _ => exact .unsupported _ _

lemma nullsCompared_ignoresAliases (op : Operator) : IgnoresAliases (nullsCompared op) := by
  cases op with
  | eq | ne => exact .pure _
  | _ => exact .unsupported _ _

lemma BuiltinFunction.check_ignoresAliases (function : BuiltinFunction) (args : List Formula) :
    IgnoresAliases (function.check args) := by
  have heach : IgnoresAliases
      (args.forM (if function.isNumeric then expectNumber function.name
        else expectText function.name)) := by
    refine .forM (fun f => ?_) args
    split
    · exact expectOperand_ignoresAliases ..
    · exact expectOperand_ignoresAliases ..
  exact .ite ((IgnoresAliases.unsupported _ _).bind fun _ => heach) heach

lemma FunctionTable.resolve_ignoresAliases (t : FunctionTable) (function : String) (count : Nat)
    (scalarType : ScalarType) : IgnoresAliases (t.resolve function count scalarType) := by
  rw [FunctionTable.resolve]
  split
  · exact .unsupported _ _
  · split
    · exact .unsupported _ _
    · exact .ite (.pure _) (.unsupported _ _)

namespace Frame

variable (f : Frame)

lemma property_ignoresAliases (p : PropertyPath) : IgnoresAliases (f.property p) := by
  rw [property]
  split
  · exact .unsupported _ _
  · exact .ite (.pure _) (.unsupported _ _)

lemma member_ignoresAliases (name : String) : IgnoresAliases (f.member name) := by
  rw [member]
  split
  · split
    · exact .pure _
    · exact .unsupported _ _
    · exact .unsupported _ _
  · exact .unsupported _ _

lemma element_ignoresAliases : IgnoresAliases f.element := by
  rw [element]
  split
  · exact .pure _
  · exact .unsupported _ _

end Frame

/-! ## Formulas -/

namespace Translator

variable {tr : Translator} {frame : Frame}

lemma codec_ignoresAliases (t : ScalarType) : IgnoresAliases (tr.codec t) := by
  rw [codec]
  split
  · exact .pure _
  · exact ⟨fun _ _ => rfl⟩

lemma constant_ignoresAliases (t : ScalarType) : IgnoresAliases (tr.constant t) :=
  (codec_ignoresAliases t).bind fun _ => takeSlot_ignoresAliases.bind fun _ => ⟨fun _ _ => rfl⟩

lemma parameter_ignoresAliases (name : String) (t : ScalarType) :
    IgnoresAliases (tr.parameter name t) := by
  refine (codec_ignoresAliases t).bind fun _ => ⟨fun p count => ?_⟩
  have hget : ∀ (f : Progress → Translating Expression) (p : Progress), (get >>= f) p = f p p :=
    fun _ _ => rfl
  have hparameters : (p.withAliases count).parameters = p.parameters := rfl
  rw [hget, hget, hparameters]
  cases p.parameters.bindNamed name t <;> rfl

mutual

/-- **The translation of a formula does not look at the number of aliases.** -/
theorem formula_ignoresAliases : (f : Formula) → IgnoresAliases (tr.formula frame f)
  | .property p => frame.property_ignoresAliases p
  | .member name _ _ => frame.member_ignoresAliases name
  | .element _ _ => frame.element_ignoresAliases
  | .constant _ t => constant_ignoresAliases t
  | .parameter name t => parameter_ignoresAliases name t
  | .binary op left right => by
      have hleft := formula_ignoresAliases left
      have hright := formula_ignoresAliases right
      refine .ite ?_ (.ite ?_ (.ite ?_ ?_))
      · exact takeSlot_ignoresAliases.bind fun _ => takeSlot_ignoresAliases.bind fun _ =>
          nullsCompared_ignoresAliases op
      · exact takeSlot_ignoresAliases.bind fun _ => hright.bind fun e =>
          nullTest_ignoresAliases op e
      · exact hleft.bind fun e => takeSlot_ignoresAliases.bind fun _ => nullTest_ignoresAliases op e
      · exact (checkOperands_ignoresAliases ..).bind fun _ => hleft.bind fun _ => hright.bind fun _ =>
          .pure _
  | .not f | .negate f =>
      (expectOperand_ignoresAliases ..).bind fun _ => (formula_ignoresAliases f).bind fun _ => .pure _
  | .isNull f | .isNotNull f => (formula_ignoresAliases f).bind fun _ => .pure _
  | .inList f list =>
      (checkComparable_ignoresAliases ..).bind fun _ => (formula_ignoresAliases f).bind fun _ =>
        (formulas_ignoresAliases list).bind fun _ => .pure _
  | .like f pattern =>
      (expectOperand_ignoresAliases ..).bind fun _ => (expectOperand_ignoresAliases ..).bind fun _ =>
        (formula_ignoresAliases f).bind fun _ => (formula_ignoresAliases pattern).bind fun _ =>
          .pure _
  | .builtin function args =>
      (function.check_ignoresAliases args).bind fun _ => (formulas_ignoresAliases args).bind fun _ =>
        .pure _
  | .caseWhen c t o =>
      (expectOperand_ignoresAliases ..).bind fun _ => (checkComparable_ignoresAliases ..).bind fun _ =>
        (formula_ignoresAliases c).bind fun _ => (formula_ignoresAliases t).bind fun _ =>
          (formula_ignoresAliases o).bind fun _ => .pure _
  | .coalesce values => by
      have hrest : IgnoresAliases (do
          checkComparable "coalesce" "operands have types " "and" (Formula.firstType values) values
          let es ← tr.formulas frame values
          match es with
          | [e] => pure e
          | es => pure (.call "IFMISSINGORNULL" es)) := by
        refine (checkComparable_ignoresAliases ..).bind fun _ =>
          (formulas_ignoresAliases values).bind fun es => ?_
        split <;> exact .pure _
      exact .ite ((IgnoresAliases.unsupported _ _).bind fun _ => hrest) hrest
  | .call function args t =>
      (FunctionTable.resolve_ignoresAliases ..).bind fun _ =>
        (formulas_ignoresAliases args).bind fun _ => .pure _

theorem formulas_ignoresAliases : (fs : List Formula) → IgnoresAliases (tr.formulas frame fs)
  | [] => .pure _
  | f :: fs =>
      (formula_ignoresAliases f).bind fun _ => (formulas_ignoresAliases fs).bind fun _ => .pure _

end

/-- Nor does that of a condition. -/
lemma condition_ignoresAliases (construct : String) (f : Formula) :
    IgnoresAliases (tr.condition frame construct f) :=
  (expectOperand_ignoresAliases ..).bind fun _ => formula_ignoresAliases f

end Translator
end EntityQuery
