import EntityQuery.Proofs.Evaluation.Definedness
import EntityQuery.Proofs.Translation.Ranges
import EntityQuery.Translation.Shape

/-!
# Formulas that are not null

A formula that is not nullable has a value, if none of its operations lacks a result: a nullable
operand, a missing alias, and an operand on which an operation is not defined are the only sources
of null.

* `Formula.Defined`: the operations of a formula have results.
* `Translator.valued_of_defined`: a formula that is not nullable has a value.
* `formula_valued`: a slot for such a formula does not miss its value.
-/

namespace EntityQuery

open Registry (standard)

/-! ## Operations with results

Arithmetic with a result that is no number, and a part of a text from before its start, come to null
or to nothing.  They are named as conditions on the operands. -/

/-- On a row, the scalars of the current element that are not nullable have values. -/
def Frame.Filled (env : Environment) (scope : Scope) (f : Frame) : Prop :=
  ∀ s, f.yield.Holds s → s.nullable = false →
    ∀ v, s.expression.eval env scope = .ok v → isValued v = true

/-- A number on which a function of numbers has a result. -/
def DefinedOnNumber (f : Quantity → Document) (d : Document) : Prop :=
  DocumentKind.ofDocument d ≠ .string ∧
    ∀ q, Quantity.ofDocument? d = some q → (f q).isNull = false

/-- Arguments on which a built-in function has a result, if they are of the kinds that it asks for.
-/
def BuiltinFunction.DefinedOn : BuiltinFunction → List Document → Prop
  | .abs, [d] => DefinedOnNumber (fun q => q.magnitude.toDocument) d
  | .round, [d] => DefinedOnNumber (Quantity.rounded .nearest) d
  | .floor, [d] => DefinedOnNumber (Quantity.rounded .down) d
  | .ceil, [d] => DefinedOnNumber (Quantity.rounded .up) d
  | .endsWith, [.string text, .string suffix] =>
    fitsInt64 text.toList.length = true ∧ fitsInt64 suffix.toList.length = true ∧
      suffix.toList.length ≤ 2 * text.toList.length
  | _, _ => True

namespace Formula

mutual

/-- The operations of a formula have results on the values of their operands, and the aliases that
it reads are not missing.  Of the branches of a conditional only the one that is taken counts, and
of the operands of a choice some one that is not nullable. -/
def Defined (tr : Translator) (frame : Frame) (env : Environment) (scope : Scope) :
    Nat → Formula → Prop
  | _, .property p =>
    (frame.bound p.aliasName).optional = true →
      (frame.bound p.aliasName).base.eval env scope ≠ .ok none
  | _, .constant value _ => ∀ d, value = .json d → d.isNull = false
  | n, .binary op left right =>
    left.Defined tr frame env scope n ∧
      right.Defined tr frame env scope (n + left.constants.length) ∧
      ∀ a b, tr.value frame env scope n left = .ok (some a) →
        tr.value frame env scope (n + left.constants.length) right = .ok (some b) →
        op.DefinedOn a b
  | n, .not f | n, .inList f _ => f.Defined tr frame env scope n
  | n, .negate f =>
    f.Defined tr frame env scope n ∧
      ∀ d, tr.value frame env scope n f = .ok (some d) →
        DefinedOnNumber (fun q => q.negate.toDocument) d
  | n, .like f pattern =>
    f.Defined tr frame env scope n ∧ pattern.Defined tr frame env scope (n + f.constants.length)
  | n, .builtin function args =>
    AllDefined tr frame env scope n args ∧
      ∀ ds, evalList env (tr.expressions frame n args) scope = .ok (ds.map some) →
        function.DefinedOn ds
  | n, .caseWhen c t o =>
    ∀ v, tr.value frame env scope n c = .ok v →
      if isTrue v = true then t.Defined tr frame env scope (n + c.constants.length)
      else o.Defined tr frame env scope (n + c.constants.length + t.constants.length)
  | n, .coalesce values => SomeDefined tr frame env scope n values
  | _, .member .. | _, .element .. | _, .parameter .. | _, .call .. | _, .isNull _
  | _, .isNotNull _ => True

/-- The operations of several formulas have results. -/
def AllDefined (tr : Translator) (frame : Frame) (env : Environment) (scope : Scope) :
    Nat → List Formula → Prop
  | _, [] => True
  | n, f :: fs =>
    f.Defined tr frame env scope n ∧ AllDefined tr frame env scope (n + f.constants.length) fs

/-- The operations of one of some formulas, which is not nullable, have results. -/
def SomeDefined (tr : Translator) (frame : Frame) (env : Environment) (scope : Scope) :
    Nat → List Formula → Prop
  | _, [] => False
  | n, f :: fs =>
    f.isNullable = false ∧ f.Defined tr frame env scope n ∨
      SomeDefined tr frame env scope (n + f.constants.length) fs

end

/-- What is not nullable is not the constant null. -/
lemma isNullConstant_of_not_nullable {f : Formula} (h : f.isNullable = false) :
    f.isNullConstant = false := by
  cases f with
  | constant value t => exact h
  | _ => rfl

end Formula

section Values

variable {env : Environment} {scope : Scope} {v : Datum}

/-- An operator has a result on two values of the types that it asks for. -/
lemma Operator.isValued_of_takes {op : Operator} {s t : ScalarType} {a b : Document}
    (htakes : op.Takes s t) (ha : standard.Represents s.widened a)
    (hb : standard.Represents t.widened b) (hnull : a.isNull = false) (hnull' : b.isNull = false)
    (hdefined : op.DefinedOn a b) (h : op.apply (some a) (some b) = .ok v) : isValued v = true := by
  rw [Operator.Takes] at htakes
  split at htakes
  · rename_i hop
    exact isValued_of_comparison hop hnull hnull' h
  · split at htakes
    · rename_i hcomparison hop
      obtain ⟨rfl, rfl⟩ := htakes
      obtain ⟨x, rfl⟩ := Registry.exists_bool ha hnull
      obtain ⟨y, rfl⟩ := Registry.exists_bool hb hnull'
      cases op with
      | and | or =>
          cases h
          exact isValued_connective _ x y
      | _ => cases hop
    · split at htakes
      · rename_i hcomparison hlogical hop
        obtain ⟨r, hr⟩ := Option.isSome_iff_exists.1 htakes
        obtain ⟨hs, ht, -⟩ := ScalarType.isNumeric_of_promote hr
        rw [ScalarType.widened_of_isNumeric hs] at ha
        rw [ScalarType.widened_of_isNumeric ht] at hb
        exact isValued_of_arithmetic hop ha hb hnull hnull' hdefined h
      · rename_i hcomparison hlogical harithmetic
        obtain ⟨rfl, rfl⟩ := htakes
        obtain ⟨x, rfl⟩ := Registry.exists_string ha hnull
        obtain ⟨y, rfl⟩ := Registry.exists_string hb hnull'
        cases op with
        | concat =>
            cases h
            rfl
        | and | or => exact absurd rfl hlogical
        | add | sub | mul | div | mod => exact absurd rfl harithmetic
        | _ => exact absurd rfl hcomparison

/-- One of some values is not null, and so the first of these is not. -/
lemma isValued_firstValued {vs : List Datum} (h : ∃ v ∈ vs, isValued v = true) :
    isValued (some (StoreFunction.firstValued vs)) = true := by
  induction vs with
  | nil => simp at h
  | cons w vs ih =>
      rw [StoreFunction.some_firstValued_cons]
      split
      · assumption
      · rename_i hw
        obtain ⟨v, hv, hvalued⟩ := h
        rcases List.mem_cons.1 hv with rfl | hv
        · exact absurd hvalued hw
        · exact ih ⟨v, hv, hvalued⟩

/-- A function of numbers has a result where it is defined. -/
lemma DefinedOnNumber.exists_quantity {f : Quantity → Document} {d : Document}
    (h : DefinedOnNumber f d) (hd : standard.Represents .float64 d) (hnull : d.isNull = false) :
    ∃ q, Quantity.ofDocument? d = some q ∧ (f q).isNull = false := by
  obtain ⟨q, hq⟩ := exists_quantity_of_represents hd hnull h.1
  exact ⟨q, hq, h.2 q hq⟩

lemma DefinedOnNumber.isNull_onNumber {f : Quantity → Document} {d : Document}
    (h : DefinedOnNumber f d) (hd : standard.Represents .float64 d) (hnull : d.isNull = false) :
    (StoreFunction.onNumber f d).isNull = false := by
  obtain ⟨q, hq, hresult⟩ := h.exists_quantity hd hnull
  rw [StoreFunction.onNumber, hq]
  exact hresult

/-- The length of a text. -/
lemma eval_length {text : Expression} {s : String}
    (htext : text.eval env scope = .ok (some (.string s))) :
    (Expression.call "LENGTH" [text]).eval env scope = .ok (some (.ofInt s.toList.length)) := by
  have hargs : evalList env [text] scope = .ok ([Document.string s].map some) := by
    rw [evalList, htext]
    rfl
  have hnull : ∀ d ∈ [Document.string s], d.isNull = false := by
    intro d hd
    rw [List.mem_singleton.1 hd]
    rfl
  exact eval_call_of_valued (f := .length) rfl (by decide) rfl hnull hargs

/-- The part of a text from where a suffix would start. -/
lemma eval_lastPart {text suffix : Expression} {s t : String}
    (htext : text.eval env scope = .ok (some (.string s)))
    (hsuffix : suffix.eval env scope = .ok (some (.string t)))
    (hs : fitsInt64 s.toList.length = true) (ht : fitsInt64 t.toList.length = true) :
    (BuiltinFunction.lastPart text suffix).eval env scope = .ok (some
      (StoreFunction.substring s.toList ((s.toList.length : Int) - t.toList.length) none)) := by
  have hsub : fitsInt64 ((s.toList.length : Int) - t.toList.length) = true := by
    simp only [fitsInt64, Bool.and_eq_true, decide_eq_true_eq, int64Min, int64Max] at hs ht ⊢
    omega
  have hstart : (Expression.binary .sub (.call "LENGTH" [text]) (.call "LENGTH" [suffix])).eval env
      scope = .ok (some (.ofInt ((s.toList.length : Int) - t.toList.length))) := by
    rw [Expression.eval, eval_length htext, eval_length hsuffix]
    exact apply_sub_ofInt hs ht hsub
  have hargs : evalList env
      [text, .binary .sub (.call "LENGTH" [text]) (.call "LENGTH" [suffix])] scope =
      .ok ([.string s, .ofInt ((s.toList.length : Int) - t.toList.length)].map some) := by
    rw [evalList, htext, evalList, hstart]
    rfl
  have hnull : ∀ d ∈ [Document.string s, .ofInt ((s.toList.length : Int) - t.toList.length)],
      d.isNull = false := by
    intro d hd
    rcases List.mem_pair.1 hd with rfl | rfl <;> rfl
  have hcall : (BuiltinFunction.lastPart text suffix).eval env scope = .ok (some
      (StoreFunction.substr.compute
        [.string s, .ofInt ((s.toList.length : Int) - t.toList.length)])) :=
    eval_call_of_valued rfl (by decide) rfl hnull hargs
  rw [hcall, StoreFunction.compute, StoreFunction.substringOf_ofInt hsub]

/-- A function of one number has a result where it is defined. -/
lemma isValued_number {name : String} {f : StoreFunction} {g : Quantity → Document}
    {es : List Expression} {d : Document} (hname : StoreFunction.ofName? name = some f)
    (hstrict : f ≠ .ifMissingOrNull) (htakes : f.takes [d].length = true)
    (hcompute : f.compute [d] = StoreFunction.onNumber g d) (hnull : d.isNull = false)
    (hd : standard.Represents .float64 d) (hdefined : DefinedOnNumber g d)
    (hes : evalList env es scope = .ok ([d].map some))
    (h : (Expression.call name es).eval env scope = .ok v) : isValued v = true := by
  have hcall := eval_call_of_valued hname hstrict htakes
    (fun d' hd' => List.mem_singleton.1 hd' ▸ hnull) hes
  cases hcall.symm.trans h
  rw [hcompute]
  exact isValued_iff.2 ⟨_, rfl, hdefined.isNull_onNumber hd hnull⟩

/-- What a built-in function is evaluated to rests on the values of its arguments. -/
lemma BuiltinFunction.exists_evalList {function : BuiltinFunction} {es : List Expression}
    (hlength : es.length = function.arity) (h : (function.called es).eval env scope = .ok v) :
    ∃ vs, evalList env es scope = .ok vs := by
  rw [called, if_pos hlength] at h
  cases function with
  | startsWith =>
      obtain ⟨_, hl, -⟩ := Computation.bind_eq_ok.1 h
      obtain ⟨vs, hvs, -⟩ := Computation.bind_eq_ok.1 hl
      exact ⟨vs, hvs⟩
  | endsWith =>
      -- the suffix is an argument of its own only outside of the call
      obtain ⟨text, suffix, rfl⟩ := List.length_eq_two.1 hlength
      obtain ⟨_, hl, h⟩ := Computation.bind_eq_ok.1 h
      obtain ⟨vsuffix, hsuffix, -⟩ := Computation.bind_eq_ok.1 h
      obtain ⟨vs, hvs, -⟩ := Computation.bind_eq_ok.1 hl
      obtain ⟨vtext, htext, -⟩ := Computation.bind_eq_ok.1 hvs
      exact ⟨[vtext, vsuffix], evalList_eq_ok.2 (.cons htext (.cons hsuffix .nil))⟩
  | _ =>
      obtain ⟨vs, hvs, -⟩ := Computation.bind_eq_ok.1 h
      exact ⟨vs, hvs⟩

/-- Whether a text starts with a prefix is true or false. -/
lemma BuiltinFunction.isValued_startsWith {es : List Expression} {s t : String}
    (hes : evalList env es scope = .ok ([.string s, .string t].map some))
    (h : (BuiltinFunction.startsWith.expression es).eval env scope = .ok v) : isValued v = true := by
  have hnull : ∀ d ∈ [Document.string s, .string t], d.isNull = false := by
    intro d hd
    rcases List.mem_pair.1 hd with rfl | rfl <;> rfl
  obtain ⟨l, hl, h⟩ := Computation.bind_eq_ok.1 h
  obtain ⟨r, hr, h⟩ := Computation.bind_eq_ok.1 h
  cases (eval_call_of_valued rfl (by decide) rfl hnull hes).symm.trans hl
  cases hr
  exact Operator.isValued_of_comparison rfl rfl rfl h

/-- Whether a text ends with a suffix is true or false if the suffix is not too long. -/
lemma BuiltinFunction.isValued_endsWith {es : List Expression} {s t : String}
    (hlength : es.length = 2) (hes : evalList env es scope = .ok ([.string s, .string t].map some))
    (hdefined : BuiltinFunction.endsWith.DefinedOn [.string s, .string t])
    (h : (BuiltinFunction.endsWith.expression es).eval env scope = .ok v) : isValued v = true := by
  obtain ⟨text, suffix, rfl⟩ := List.length_eq_two.1 hlength
  obtain ⟨htext, hrest⟩ := List.forall₂_cons.1 (evalList_eq_ok.1 hes)
  obtain ⟨hsuffix, -⟩ := List.forall₂_cons.1 hrest
  obtain ⟨hs, ht, hlong⟩ := hdefined
  have hu := eval_lastPart htext hsuffix hs ht
  obtain ⟨u, hpart⟩ : ∃ u, StoreFunction.substring s.toList
      ((s.toList.length : Int) - t.toList.length) none = .string u :=
    StoreFunction.exists_substring (by omega) (by omega) none
  rw [hpart] at hu
  obtain ⟨l, hl, h⟩ := Computation.bind_eq_ok.1 h
  obtain ⟨r, hr, h⟩ := Computation.bind_eq_ok.1 h
  cases hu.symm.trans hl
  cases hsuffix.symm.trans hr
  exact Operator.isValued_of_comparison rfl rfl rfl h

/-- **A built-in function has a result** on values of the types that it asks for. -/
theorem BuiltinFunction.isValued_called {function : BuiltinFunction} {es : List Expression}
    {ds : List Document} (harity : ds.length = function.arity)
    (hds : ∀ d ∈ ds, d.isNull = false ∧ ∃ t, function.Takes t ∧ standard.Represents t.widened d)
    (hdefined : function.DefinedOn ds) (hes : evalList env es scope = .ok (ds.map some))
    (h : (function.called es).eval env scope = .ok v) : isValued v = true := by
  have hlength : es.length = function.arity := by
    rw [(evalList_eq_ok.1 hes).length_eq, List.length_map, harity]
  have hnull : ∀ d ∈ ds, d.isNull = false := fun d hd => (hds d hd).1
  rw [called, if_pos hlength] at h
  cases hnumeric : function.isNumeric with
  | true =>
      obtain ⟨d, rfl⟩ : ∃ d, ds = [d] := by
        cases function <;> first | exact List.length_eq_one_iff.1 harity | cases hnumeric
      obtain ⟨hd, t, ht, hrepresents⟩ := hds d List.mem_cons_self
      rw [Takes, if_pos hnumeric] at ht
      rw [ScalarType.widened_of_isNumeric ht] at hrepresents
      cases function with
      | abs | round | floor | ceil =>
          exact isValued_number rfl (by decide) rfl rfl hd hrepresents hdefined hes h
      | _ => cases hnumeric
  | false =>
      have htexts : ∀ d ∈ ds, ∃ s, d = .string s := by
        intro d hd
        obtain ⟨hvalued, t, ht, hrepresents⟩ := hds d hd
        rw [Takes, hnumeric] at ht
        cases ht
        exact Registry.exists_string hrepresents hvalued
      have hone : function.arity = 1 → ∃ s, ds = [.string s] := by
        intro hcount
        obtain ⟨d, rfl⟩ := List.length_eq_one_iff.1 (harity.trans hcount)
        obtain ⟨s, rfl⟩ := htexts d List.mem_cons_self
        exact ⟨s, rfl⟩
      have htwo : function.arity = 2 → ∃ s t, ds = [.string s, .string t] := by
        intro hcount
        obtain ⟨d, d', rfl⟩ := List.length_eq_two.1 (harity.trans hcount)
        obtain ⟨s, rfl⟩ := htexts d List.mem_cons_self
        obtain ⟨t, rfl⟩ := htexts d' (List.mem_cons_of_mem _ List.mem_cons_self)
        exact ⟨s, t, rfl⟩
      cases function with
      | lower | upper | trim | length =>
          obtain ⟨s, rfl⟩ := hone rfl
          cases (eval_call_of_valued rfl (by decide) rfl hnull hes).symm.trans h
          rfl
      | contains =>
          obtain ⟨s, t, rfl⟩ := htwo rfl
          cases (eval_call_of_valued rfl (by decide) rfl hnull hes).symm.trans h
          rfl
      | startsWith =>
          obtain ⟨s, t, rfl⟩ := htwo rfl
          exact isValued_startsWith hes h
      | endsWith =>
          obtain ⟨s, t, rfl⟩ := htwo rfl
          exact isValued_endsWith hlength hes hdefined h
      | _ => cases hnumeric

end Values

/-! ## Formulas

The induction is on the formula, together with its type: whether an operation has a result depends
on the types of its operands. -/

namespace Translator

variable {tr : Translator} {frame : Frame} {env : Environment} {scope : Scope}

/-- A property that is not nullable has a value unless its alias is missing. -/
lemma valued_property (hrow : frame.Conforms tr env scope) {path : PropertyPath} {n : Nat} {v : Datum}
    (htyped : (Formula.property path).Typed tr frame env n) (hnullable : path.nullable = false)
    (hdefined : (Formula.property path).Defined tr frame env scope n)
    (h : (tr.expression frame n (.property path)).eval env scope = .ok v) : isValued v = true := by
  obtain ⟨b, hb, hbound, hentity, hproperty⟩ := htyped
  rw [Formula.Defined, hbound] at hdefined
  rw [expression, hbound, Expression.eval_path] at h
  obtain ⟨base, hbase, rfl⟩ := Computation.map_eq_ok.1 h
  have haccepts := hrow.entities b hb base hbase
  cases base with
  | none => exact absurd hbase (hdefined haccepts)
  | some d =>
      have hconforms : tr.Conforms b.entity d := haccepts
      rw [hentity] at hconforms
      exact (property_conforms hproperty hconforms).2 hnullable

/-- What a typed formula has as its value represents a value of its type. -/
lemma exists_represented (hregistry : tr.registry = .standard) (hrow : frame.Conforms tr env scope)
    {f : Formula} {n : Nat} {v : Datum} (htyped : f.Typed tr frame env n)
    (h : (tr.expression frame n f).eval env scope = .ok v) (hv : isValued v = true) :
    ∃ d, v = some d ∧ d.isNull = false ∧ standard.Represents f.scalarType.widened d := by
  obtain ⟨d, rfl, hd⟩ := isValued_iff.1 hv
  exact ⟨d, rfl, hd, fits_widened hregistry hrow f htyped h d rfl hd⟩

/-- An operator whose operands are not nullable, which is no test then, is applied to their values.
-/
lemma operands_of_binary {op : Operator} {left right : Formula} {n : Nat} {v : Datum}
    (hl : left.isNullable = false) (hr : right.isNullable = false)
    (htyped : (Formula.binary op left right).Typed tr frame env n)
    (h : (tr.expression frame n (.binary op left right)).eval env scope = .ok v) :
    op.Takes left.scalarType right.scalarType ∧ left.Typed tr frame env n ∧
      right.Typed tr frame env (n + left.constants.length) ∧
      ∃ vl, (tr.expression frame n left).eval env scope = .ok vl ∧
      ∃ vr, (tr.expression frame (n + left.constants.length) right).eval env scope = .ok vr ∧
        op.apply vl vr = .ok v := by
  have htest : (op.isComparison && (left.isNullConstant || right.isNullConstant)) = false := by
    rw [Formula.isNullConstant_of_not_nullable hl, Formula.isNullConstant_of_not_nullable hr,
      Bool.or_false, Bool.and_false]
  obtain ⟨htakes, htl, htr⟩ := htyped.resolve_left (by simp [htest])
  rw [expression_binary htest] at h
  obtain ⟨vl, hvl, h⟩ := Computation.bind_eq_ok.1 h
  obtain ⟨vr, hvr, h⟩ := Computation.bind_eq_ok.1 h
  exact ⟨htakes, htl, htr, vl, hvl, vr, hvr, h⟩

mutual

/-- **A formula that is not nullable has a value** if its operations have results. -/
theorem valued_of_defined (hregistry : tr.registry = .standard) (hrow : frame.Conforms tr env scope)
    (hfilled : frame.Filled env scope) : (f : Formula) → {n : Nat} → {v : Datum} →
    f.Typed tr frame env n → f.isNullable = false → f.Defined tr frame env scope n →
    (tr.expression frame n f).eval env scope = .ok v → isValued v = true
  | .property path, n, v, htyped, hnullable, hdefined, h =>
      valued_property hrow htyped hnullable hdefined h
  | .member name t nullable, n, v, htyped, hnullable, hdefined, h => by
      obtain ⟨s, hs, -, rfl⟩ := htyped
      rw [expression, Frame.fieldExpression_of_scalarField? hs] at h
      exact hfilled s (.inr ⟨name, hs⟩) hnullable v h
  | .element t nullable, n, v, htyped, hnullable, hdefined, h => by
      obtain ⟨s, hs, -, rfl⟩ := htyped
      rw [expression, Frame.scalarExpression_of_scalar? hs] at h
      exact hfilled s (.inl hs) hnullable v h
  | .constant value t, n, v, htyped, hnullable, hdefined, h => by
      obtain ⟨d, hd, rfl⟩ := parameter_of_eval h
      obtain ⟨codec, v, hcodec, hencode, -⟩ := htyped d hd
      rw [hregistry] at hcodec
      exact isValued_iff.2 ⟨d, rfl, Registry.isNull_of_encode hcodec hencode hnullable hdefined⟩
  | .parameter name t, n, v, htyped, hnullable, hdefined, h => by cases hnullable
  | .call function args t, n, v, htyped, hnullable, hdefined, h => by cases hnullable
  | .binary op left right, n, v, htyped, hnullable, ⟨hleft, hright, hdefined⟩, h => by
      obtain ⟨hl, hr⟩ := Bool.or_eq_false_iff.1 hnullable
      obtain ⟨htakes, htl, htr, vl, hvl, vr, hvr, happly⟩ := operands_of_binary hl hr htyped h
      obtain ⟨a, rfl, ha, hrepresents⟩ := exists_represented hregistry hrow htl hvl
        (valued_of_defined hregistry hrow hfilled left htl hl hleft hvl)
      obtain ⟨b, rfl, hb, hrepresents'⟩ := exists_represented hregistry hrow htr hvr
        (valued_of_defined hregistry hrow hfilled right htr hr hright hvr)
      exact Operator.isValued_of_takes htakes hrepresents hrepresents' ha hb
        (hdefined a b hvl hvr) happly
  | .not f, n, v, ⟨htype, htyped⟩, hnullable, hdefined, h => by
      obtain ⟨v', hv', h⟩ := Computation.bind_eq_ok.1 h
      obtain ⟨d, rfl, hd, hrepresents⟩ := exists_represented hregistry hrow htyped hv'
        (valued_of_defined hregistry hrow hfilled f htyped hnullable hdefined hv')
      rw [htype] at hrepresents
      obtain ⟨b, rfl⟩ := Registry.exists_bool hrepresents hd
      cases h
      rfl
  | .negate f, n, v, ⟨hnumeric, htyped⟩, hnullable, ⟨hoperand, hdefined⟩, h => by
      obtain ⟨v', hv', h⟩ := Computation.bind_eq_ok.1 h
      obtain ⟨d, rfl, hd, hrepresents⟩ := exists_represented hregistry hrow htyped hv'
        (valued_of_defined hregistry hrow hfilled f htyped hnullable hoperand hv')
      rw [ScalarType.widened_of_isNumeric hnumeric] at hrepresents
      obtain ⟨q, hq, hresult⟩ := (hdefined d hv').exists_quantity hrepresents hd
      cases h
      rw [oppositeOf, hq]
      exact isValued_iff.2 ⟨_, rfl, hresult⟩
  | .isNull f, n, v, htyped, hnullable, hdefined, h => by
      obtain ⟨_, -, h⟩ := Computation.bind_eq_ok.1 h
      cases h
      rfl
  | .isNotNull f, n, v, htyped, hnullable, hdefined, h => by
      obtain ⟨_, -, h⟩ := Computation.bind_eq_ok.1 h
      cases h
      rfl
  | .inList f list, n, v, htyped, hnullable, hdefined, h => by
      obtain ⟨v', hv', h⟩ := Computation.bind_eq_ok.1 h
      obtain ⟨d, rfl, hd, -⟩ := exists_represented (f := f) hregistry hrow htyped hv'
        (valued_of_defined hregistry hrow hfilled f htyped hnullable hdefined hv')
      split at h
      · rename_i hnone
        cases hnone
      · rename_i hnull
        cases hnull
        cases hd
      · obtain ⟨found, -, rfl⟩ := Computation.map_eq_ok.1 h
        rfl
  | .like f pattern, n, v, ⟨htype, htype', htyped, htyped'⟩, hnullable, ⟨hdefined, hdefined'⟩, h => by
      obtain ⟨hf, hpattern⟩ := Bool.or_eq_false_iff.1 hnullable
      obtain ⟨vf, hvf, h⟩ := Computation.bind_eq_ok.1 h
      obtain ⟨vp, hvp, h⟩ := Computation.bind_eq_ok.1 h
      obtain ⟨a, rfl, ha, hrepresents⟩ := exists_represented hregistry hrow htyped hvf
        (valued_of_defined hregistry hrow hfilled f htyped hf hdefined hvf)
      obtain ⟨b, rfl, hb, hrepresents'⟩ := exists_represented hregistry hrow htyped' hvp
        (valued_of_defined hregistry hrow hfilled pattern htyped' hpattern hdefined' hvp)
      rw [htype] at hrepresents
      rw [htype'] at hrepresents'
      obtain ⟨x, rfl⟩ := Registry.exists_string hrepresents ha
      obtain ⟨y, rfl⟩ := Registry.exists_string hrepresents' hb
      cases h
      rfl
  | .builtin function args, n, v, ⟨harity, htakes, htyped⟩, hnullable, ⟨hargs, hdefined⟩, h => by
      have hlength : (tr.expressions frame n args).length = function.arity := by
        rw [length_expressions, harity]
      obtain ⟨vs, hvs⟩ := BuiltinFunction.exists_evalList hlength h
      obtain ⟨ds, rfl, hcount, hds⟩ :=
        all_valued hregistry hrow hfilled args htyped hnullable hargs hvs
      refine BuiltinFunction.isValued_called (hcount.trans harity) ?_ (hdefined ds hvs) hvs h
      intro d hd
      obtain ⟨f, hf, hnull, hrepresents⟩ := hds d hd
      exact ⟨hnull, f.scalarType, htakes f hf, hrepresents⟩
  | .caseWhen c t o, n, v, ⟨_, ht, ho⟩, hnullable, hdefined, h => by
      obtain ⟨hnt, hno⟩ := Bool.or_eq_false_iff.1 hnullable
      obtain ⟨b, hb, h⟩ := Computation.bind_eq_ok.1 h
      have hbranch := hdefined b hb
      split at h
      · rename_i htrue
        rw [if_pos htrue] at hbranch
        exact valued_of_defined hregistry hrow hfilled t ht hnt hbranch h
      · rename_i hfalse
        rw [if_neg hfalse] at hbranch
        exact valued_of_defined hregistry hrow hfilled o ho hno hbranch h
  | .coalesce values, n, v, ⟨_, htyped⟩, hnullable, hdefined, h => by
      obtain ⟨vs, hvs, -, hvalued⟩ := eval_firstValuedOf h
      rw [hvalued]
      exact isValued_firstValued (some_valued hregistry hrow hfilled values htyped hdefined hvs)

/-- Formulas that are not nullable have values. -/
theorem all_valued (hregistry : tr.registry = .standard) (hrow : frame.Conforms tr env scope)
    (hfilled : frame.Filled env scope) : (fs : List Formula) → {n : Nat} → {vs : List Datum} →
    Formula.AllTyped tr frame env n fs → Formula.anyNullable fs = false →
    Formula.AllDefined tr frame env scope n fs →
    evalList env (tr.expressions frame n fs) scope = .ok vs →
    ∃ ds : List Document, vs = ds.map some ∧ ds.length = fs.length ∧
      ∀ d ∈ ds, ∃ f ∈ fs, d.isNull = false ∧ standard.Represents f.scalarType.widened d
  | [], n, vs, htyped, hnullable, hdefined, h => by
      cases h
      exact ⟨[], rfl, rfl, by simp⟩
  | f :: fs, n, vs, ⟨hf, hfs⟩, hnullable, ⟨hdefined, hrest⟩, h => by
      obtain ⟨hn, hns⟩ := Bool.or_eq_false_iff.1 hnullable
      obtain ⟨v, hv, h⟩ := Computation.bind_eq_ok.1 h
      obtain ⟨vs, hvs, h⟩ := Computation.bind_eq_ok.1 h
      cases h
      obtain ⟨d, rfl, hd⟩ := exists_represented hregistry hrow hf hv
        (valued_of_defined hregistry hrow hfilled f hf hn hdefined hv)
      obtain ⟨ds, rfl, hcount, hds⟩ := all_valued hregistry hrow hfilled fs hfs hns hrest hvs
      refine ⟨d :: ds, rfl, congrArg (· + 1) hcount, List.forall_mem_cons.2 ⟨⟨f, ?_, hd⟩, ?_⟩⟩
      · exact List.mem_cons_self
      · intro d' hd'
        obtain ⟨g, hg, hd'⟩ := hds d' hd'
        exact ⟨g, List.mem_cons_of_mem _ hg, hd'⟩

/-- One of some formulas has a value if it is not nullable. -/
theorem some_valued (hregistry : tr.registry = .standard) (hrow : frame.Conforms tr env scope)
    (hfilled : frame.Filled env scope) : (fs : List Formula) → {n : Nat} → {vs : List Datum} →
    Formula.AllTyped tr frame env n fs → Formula.SomeDefined tr frame env scope n fs →
    evalList env (tr.expressions frame n fs) scope = .ok vs → ∃ v ∈ vs, isValued v = true
  | [], n, vs, htyped, hdefined, h => by cases hdefined
  | f :: fs, n, vs, ⟨hf, hfs⟩, hdefined, h => by
      obtain ⟨v, hv, h⟩ := Computation.bind_eq_ok.1 h
      obtain ⟨vs, hvs, h⟩ := Computation.bind_eq_ok.1 h
      cases h
      rcases hdefined with ⟨hn, hdefined⟩ | hrest
      · exact ⟨v, List.mem_cons_self, valued_of_defined hregistry hrow hfilled f hf hn hdefined hv⟩
      · obtain ⟨w, hw, hvalued⟩ := some_valued hregistry hrow hfilled fs hfs hrest hvs
        exact ⟨w, List.mem_cons_of_mem _ hw, hvalued⟩

end

/-- A slot does not miss a value that is there. -/
lemma materialize_ne_missing (hregistry : tr.registry = .standard) {s : YieldedScalar}
    {slot : ScalarSlot} (hslot : tr.scalarSlot s = .ok slot) {v : Datum} (hv : isValued v = true)
    (path place : String) : slot.materialize path v ≠ .error (.missing place) := by
  obtain ⟨codec, hcodec, h⟩ := Computation.bind_eq_ok.1 hslot
  cases h
  have hfind : standard.find s.scalarType = .ok codec := by
    rw [← hregistry]
    exact Computation.mapError_eq_ok.1 hcodec
  obtain ⟨d, rfl, hd⟩ := isValued_iff.1 hv
  intro hmissing
  rw [ScalarSlot.materialize, decodeAt] at hmissing
  cases hdecode : codec.decode d with
  | error e =>
      rw [hdecode] at hmissing
      cases hmissing
  | ok value =>
      rw [hdecode] at hmissing
      have hvalue : value.isNull = false := Registry.isNull_of_decode hfind hdecode hd
      simp [Except.mapError, bind, Except.bind, hvalue] at hmissing

end Translator

/-- **A formula that is not nullable has a value** as far as its operations have results: on a row
that conforms to the frame it is evaluated to something other than missing and null, and the slot
for its value never misses it. -/
theorem formula_valued {tr : Translator} {frame : Frame} {f : Formula} {p p' : Progress}
    {e : Expression} {env : Environment} {scope : Scope} {v : Datum}
    (hregistry : tr.registry = .standard) (hf : tr.formula frame f p = .ok (e, p'))
    (hknows : ∀ g, g.PartOf f → tr.Knows frame g) (hrow : frame.Conforms tr env scope)
    (hfilled : frame.Filled env scope) (hsupplies : env.Supplies tr.registry p.nextSlot f.inputs)
    (hnullable : f.isNullable = false) (hdefined : f.Defined tr frame env scope p.nextSlot)
    (h : e.eval env scope = .ok v) :
    isValued v = true ∧ ∀ origin slot path place,
      tr.scalarSlot ⟨e, f.scalarType, f.isNullable, origin⟩ = .ok slot →
        slot.materialize path v ≠ .error (.missing place) := by
  have htyped := Translator.typed_of_formula f hf hknows hsupplies
  obtain ⟨rfl, -⟩ := Translator.formula_eq_ok f hf
  have hv := Translator.valued_of_defined hregistry hrow hfilled f htyped hnullable hdefined h
  exact ⟨hv, fun origin slot path place hslot =>
    Translator.materialize_ne_missing hregistry hslot hv path place⟩

namespace Sample

/-- What is left of the age of a person after a division by zero. -/
def ageByZero : Formula := .binary .mod countedAge (.ofValue (.int32 0))

/-- The constant of the sample formula is zero. -/
def zero : Environment := ⟨⟨[]⟩, [("p0", .ofInt 0)]⟩

/-- The frame of persons yields no scalar. -/
lemma filled_personFrame {env : Environment} {scope : Scope} : personFrame.Filled env scope := by
  intro s hs
  rcases hs with hs | ⟨name, hs⟩ <;> cases hs

end Sample

/-- A year after the age of thirty, which is not nullable. -/
theorem formula_valued_nextAge : ∃ e p',
    Sample.censusTranslator.formula Sample.personFrame Sample.nextAge {} = .ok (e, p') ∧
    Sample.nextAge.isNullable = false ∧
    ∀ v, e.eval Sample.oneYear (Sample.personScope 30) = .ok v → isValued v = true := by
  obtain ⟨e, p', hf⟩ : ∃ e p',
      Sample.censusTranslator.formula Sample.personFrame Sample.nextAge {} = .ok (e, p') :=
    ⟨_, _, rfl⟩
  have hdefined : Sample.nextAge.Defined Sample.censusTranslator Sample.personFrame Sample.oneYear
      (Sample.personScope 30) 0 := by
    refine ⟨fun hoptional => Bool.noConfusion hoptional, fun d hd => Value.noConfusion hd, ?_⟩
    intro a b ha hb _
    cases ha
    cases hb
    refine ⟨by decide, by decide, fun x y hx hy => ?_⟩
    cases hx
    cases hy
    exact ⟨_, rfl, rfl⟩
  have hone : Sample.oneYear.Supplies .standard 0 Sample.nextAge.inputs :=
    ⟨fun _ d hd => by cases hd; exact ⟨_, _, rfl, rfl, rfl⟩, trivial⟩
  exact ⟨e, p', hf, rfl, fun v hv => (formula_valued rfl hf Sample.knows_binary_countedAge
    (Sample.conforms_personScope ⟨_, _, rfl, rfl⟩) Sample.filled_personFrame hone rfl hdefined
    hv).1⟩

/-- What is left after a division by zero is null, and the slot for it misses its value, though the
formula is not nullable. -/
theorem formula_valued_by_zero : ∃ e p' slot,
    Sample.censusTranslator.formula Sample.personFrame Sample.ageByZero {} = .ok (e, p') ∧
    Sample.personFrame.Conforms Sample.censusTranslator Sample.zero (Sample.personScope 7) ∧
    Sample.ageByZero.isNullable = false ∧
    e.eval Sample.zero (Sample.personScope 7) = .ok (some .null) ∧
    Sample.censusTranslator.scalarSlot
      ⟨e, Sample.ageByZero.scalarType, Sample.ageByZero.isNullable, none⟩ = .ok slot ∧
    slot.materialize "" (some .null) = .error (.missing "$") :=
  ⟨_, _, _, rfl, Sample.conforms_personScope ⟨_, _, rfl, rfl⟩, rfl, rfl, rfl, rfl⟩

end EntityQuery
