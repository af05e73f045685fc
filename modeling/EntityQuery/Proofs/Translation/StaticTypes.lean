import EntityQuery.Proofs.Evaluation.Kinds
import EntityQuery.Proofs.Translation.Paths
import EntityQuery.Proofs.Translation.Typing

/-!
# Static types of formulas

The type of a formula is that of its values, but for the widths of numbers.  Arithmetic leaves the
range of integers for doubles, and a conditional has the type of its first branch, so of a number no
more is known than that it is one.

* `Registry.Fits.of_isWithin`: a value of a type is one of each type that has all its values.
* `FunctionTable.returns_standard`: the functions of every store return what they are said to.
* `Frame.Conforms`: aliases stand for documents that conform, and scalars are of their types.
* `Translator.fits_property`: a property has a value of its own type.
* `Translator.fits_widened`: the value of a typed formula is of its type, but for the widths of
  numbers.
-/

namespace EntityQuery

open Registry (standard)

/-! ## Values that fit a type

The type of a formula says more than the kind of its values, as integers have widths.  A value fits
the type if it represents a value of it, and operations keep this but for the widths. -/

namespace Registry

variable {t : ScalarType} {v : Datum}

lemma Fits.widened (h : standard.Fits t v) : standard.Fits t.widened v :=
  fun d hv hd => represents_widened (h d hv hd) hd

/-- What fits a type fits each type that has all its values. -/
lemma Fits.of_isWithin {a b : ScalarType} (h : standard.Fits a v) (hab : a.isWithin b = true) :
    standard.Fits b v :=
  fun d hv hd => represents_of_isWithin (h d hv hd) hd hab

/-- What is of the kind of a plain type fits the widened type. -/
lemma fits_of_admits (ht : t.isPlain = true) (h : ∀ d, v = some d → t.defaultKind.Admits d) :
    standard.Fits t.widened v :=
  fun d hv hd => represents_of_kind ht ((h d hv).of_valued hd)

/-- What a document that stands for a value is read as. -/
lemma Encodes.fits {r : Registry} {value : Value} {d : Document} (h : r.Encodes t value d) :
    r.Fits t (some d) := by
  obtain ⟨codec, v, hfind, -, hdecode⟩ := h
  intro d' hd' _
  cases hd'
  exact ⟨codec, v, hfind, hdecode⟩

end Registry

/-! ## Kinds of formulas -/

/-- The kind of the results of a built-in function. -/
def BuiltinFunction.resultKind : BuiltinFunction → DocumentKind
  | .lower | .upper | .trim => .string
  | .length | .abs | .round | .floor | .ceil => .number
  | .contains | .startsWith | .endsWith => .boolean

/-- The result of a built-in function is of a plain type, and of the kind of the type. -/
lemma BuiltinFunction.kind_resultType {function : BuiltinFunction} {t : ScalarType}
    (h : function.Takes t) : (function.resultType t).isPlain = true ∧
      (function.resultType t).defaultKind = function.resultKind := by
  cases function with
  | abs =>
      have ht : t.isNumeric = true := h
      exact ⟨ScalarType.isPlain_of_isNumeric ht, ScalarType.defaultKind_of_isNumeric ht⟩
  | round | floor | ceil =>
      have ht : t.isNumeric = true := h
      rw [resultType]
      split
      · exact ⟨ScalarType.isPlain_of_isNumeric ht, ScalarType.defaultKind_of_isNumeric ht⟩
      · exact ⟨rfl, rfl⟩
  | _ => exact ⟨rfl, rfl⟩

/-- The result of an operator is of a plain type, and of the kind of the type. -/
lemma Formula.kind_binary {op : Operator} {left right : Formula}
    (h : op.Takes left.scalarType right.scalarType) :
    (Formula.binary op left right).scalarType.isPlain = true ∧
      (Formula.binary op left right).scalarType.defaultKind = op.resultKind := by
  rw [Formula.scalarType, Operator.resultKind]
  cases hop : op.isArithmetic with
  | true =>
      have hpromote : (left.scalarType.promote right.scalarType).isSome = true := by
        cases op <;> first | exact h | cases hop
      obtain ⟨t, ht⟩ := Option.isSome_iff_exists.1 hpromote
      obtain ⟨-, -, hnumeric⟩ := ScalarType.isNumeric_of_promote ht
      simp only [ht, Option.getD_some, if_true]
      exact ⟨ScalarType.isPlain_of_isNumeric hnumeric, ScalarType.defaultKind_of_isNumeric hnumeric⟩
  | false =>
      simp only [Bool.false_eq_true, if_false]
      split <;> exact ⟨rfl, rfl⟩

/-- A comparison is true or false. -/
lemma Formula.kind_comparison {op : Operator} {left right : Formula} (h : op.isComparison = true) :
    (Formula.binary op left right).scalarType.isPlain = true ∧
      (Formula.binary op left right).scalarType.defaultKind = .boolean := by
  cases op <;> first | exact ⟨rfl, rfl⟩ | cases h

/-- The result of a built-in function with suitable arguments. -/
lemma Formula.kind_builtin {function : BuiltinFunction} {args : List Formula}
    (harity : args.length = function.arity) (h : ∀ f ∈ args, function.Takes f.scalarType) :
    (Formula.builtin function args).scalarType.isPlain = true ∧
      (Formula.builtin function args).scalarType.defaultKind = function.resultKind := by
  rcases args with _ | ⟨f, fs⟩
  · cases function <;> cases harity
  · exact function.kind_resultType (h f List.mem_cons_self)

section Evaluation

variable {env : Environment} {scope : Scope}

/-- What a call returns is of the kind of the function. -/
lemma admits_of_call {name : String} {f : StoreFunction} {es : List Expression} {d : Document}
    (hname : StoreFunction.ofName? name = some f) (hstrict : f ≠ .ifMissingOrNull)
    (h : (Expression.call name es).eval env scope = .ok (some d)) : f.resultKind.Admits d := by
  obtain ⟨ds, -, h⟩ := Computation.bind_eq_ok.1 h
  cases hd : d.isNull with
  | true => exact .inl hd
  | false =>
      obtain ⟨vs, -, -, rfl⟩ := exists_of_callFunction hname hstrict h hd
      exact f.admits_compute vs

/-- What an operator returns is of its kind. -/
lemma admits_of_binary {op : Operator} {l r : Expression} {d : Document}
    (h : (Expression.binary op l r).eval env scope = .ok (some d)) : op.resultKind.Admits d := by
  obtain ⟨_, -, h⟩ := Computation.bind_eq_ok.1 h
  obtain ⟨_, -, h⟩ := Computation.bind_eq_ok.1 h
  exact Operator.admits_of_apply h

/-- **What a built-in function returns is of its kind.** -/
lemma admits_of_called {function : BuiltinFunction} {es : List Expression} {d : Document}
    (h : (function.called es).eval env scope = .ok (some d)) : function.resultKind.Admits d := by
  rw [BuiltinFunction.called] at h
  split at h
  · cases function with
    | lower | upper | trim | length | contains | abs | round | floor | ceil =>
        exact admits_of_call rfl (by decide) h
    | startsWith | endsWith => exact admits_of_binary h
  · cases h
    exact .inl rfl

/-- What an expression of membership returns is true or false, unless it is null. -/
lemma admits_of_inList {e : Expression} {list : List Expression} {d : Document}
    (h : (Expression.inList e list).eval env scope = .ok (some d)) :
    DocumentKind.boolean.Admits d := by
  obtain ⟨v, -, h⟩ := Computation.bind_eq_ok.1 h
  split at h
  · cases h
  · cases h
    exact .inl rfl
  · obtain ⟨found, -, h⟩ := Computation.map_eq_ok.1 h
    cases h
    exact .inr rfl

/-- The value of a placeholder is what is bound for it. -/
lemma parameter_of_eval {name : String} {v : Datum}
    (h : (Expression.placeholder name).eval env scope = .ok v) :
    ∃ d, env.parameter? name = some d ∧ v = some d := by
  rw [Expression.eval] at h
  cases hd : env.parameter? name with
  | none => simp [hd] at h
  | some d =>
      rw [hd] at h
      cases h
      exact ⟨d, rfl, rfl⟩

/-- What has a value is the first one of some values that has one. -/
lemma eval_firstValuedOf {es : List Expression} {v : Datum}
    (h : (firstValuedOf es).eval env scope = .ok v) :
    ∃ vs, evalList env es scope = .ok vs ∧
      (isValued v = true → v = some (StoreFunction.firstValued vs)) ∧
      isValued v = isValued (some (StoreFunction.firstValued vs)) := by
  rcases es with _ | ⟨e, _ | ⟨e', es⟩⟩
  · cases h
    exact ⟨[], rfl, fun _ => rfl, rfl⟩
  · have hlist : evalList env [e] scope = .ok [v] :=
      Computation.bind_eq_ok.2 ⟨v, h, rfl⟩
    refine ⟨[v], hlist, ?_⟩
    rcases v with _ | d
    · simp [isValued, StoreFunction.firstValued, Document.isNull]
    · cases d <;> simp [isValued, StoreFunction.firstValued, Document.isNull]
  · obtain ⟨vs, hvs, h⟩ := Computation.bind_eq_ok.1 h
    have hname : StoreFunction.ofName? "IFMISSINGORNULL" = some .ifMissingOrNull := rfl
    simp only [callFunction, hname] at h
    split at h
    · cases h
      exact ⟨vs, hvs, fun _ => rfl, rfl⟩
    · cases h

end Evaluation

/-! ## Registered functions

What a registered function returns is up to the store.  It is an assumption about those that an
application adds, and a fact about the standard ones. -/

/-- A function of the store whose results are of the kind of a plain type returns that type. -/
lemma FunctionEntry.returns_of_kind {entry : FunctionEntry} {f : StoreFunction}
    (hname : StoreFunction.ofName? entry.storeName = some f)
    (hplain : entry.returnType.isPlain = true)
    (hkind : entry.returnType.defaultKind = f.resultKind) : entry.Returns standard := by
  have hstrict : f ≠ .ifMissingOrNull := by
    rintro rfl
    exact ScalarType.defaultKind_ne_any hplain hkind
  rintro ds _ h d rfl hd
  obtain ⟨vs, -, -, rfl⟩ := exists_of_callFunction hname hstrict h hd
  refine Registry.represents_of_kind hplain ?_
  rw [hkind]
  exact (f.admits_compute vs).of_valued hd

/-- **The functions that every store has return what they are said to return.** -/
theorem FunctionTable.returns_standard :
    ∀ entry ∈ FunctionTable.standard.entries, entry.Returns Registry.standard := by
  have hentries : FunctionTable.standard.entries = [⟨"reverse", "REVERSE", some 1, .string⟩,
      ⟨"replace", "REPLACE", some 3, .string⟩, ⟨"array_length", "ARRAY_LENGTH", some 1, .int64⟩,
      ⟨"array_contains", "ARRAY_CONTAINS", some 2, .bool⟩, ⟨"power", "POWER", some 2, .float64⟩,
      ⟨"sqrt", "SQRT", some 1, .float64⟩] := rfl
  rw [hentries]
  simp only [List.forall_mem_cons]
  refine ⟨?_, ?_, ?_, ?_, ?_, ?_, by simp⟩
  all_goals exact FunctionEntry.returns_of_kind rfl rfl rfl

/-! ## Rows

The assumption on a row is that documents conform to the entities of their aliases, and scalars to
their types.  The induction on the formula goes along with its typing. -/

/-- A scalar is one that elements are or hold. -/
def Yield.Holds (y : Yield) (s : YieldedScalar) : Prop :=
  y.scalar? = some s ∨ ∃ name, y.scalarField? name = some s

/-- On a row, each alias in scope stands for a document that conforms to its entity, or for nothing
if it is optional, and the scalars of the current element are of their types, but for the widths of
numbers. -/
structure Frame.Conforms (tr : Translator) (env : Environment) (scope : Scope) (f : Frame) : Prop where
  entities : ∀ b ∈ f.scope, ∀ v, b.base.eval env scope = .ok v → b.Accepts tr v
  scalars : ∀ s, f.yield.Holds s → ∀ v, s.expression.eval env scope = .ok v →
    tr.registry.Fits s.scalarType.widened v

lemma Frame.fieldExpression_of_scalarField? {frame : Frame} {name : String} {s : YieldedScalar}
    (h : frame.yield.scalarField? name = some s) : frame.fieldExpression name = s.expression := by
  rw [Frame.fieldExpression]
  cases hy : frame.yield with
  | record fields =>
      rw [hy, Yield.scalarField?] at h
      cases hf : Yield.field? name fields with
      | none => simp [hf] at h
      | some y =>
          rw [hf] at h
          cases y with
          | scalar s' =>
              cases h
              simp [hf, FieldYield.expression]
          | entity b => cases h
  | _ =>
      rw [hy] at h
      cases h

lemma Frame.scalarExpression_of_scalar? {frame : Frame} {s : YieldedScalar}
    (h : frame.yield.scalar? = some s) : frame.scalarExpression = s.expression := by
  rw [Frame.scalarExpression]
  cases hy : frame.yield with
  | scalar s' =>
      rw [hy] at h
      cases h
      rfl
  | _ =>
      rw [hy] at h
      cases h

namespace Translator

section Soundness

variable {tr : Translator} {frame : Frame} {env : Environment} {scope : Scope}

/-- A property has a value of its type. -/
lemma fits_property (hrow : frame.Conforms tr env scope) {path : PropertyPath} {n : Nat} {v : Datum}
    (htyped : (Formula.property path).Typed tr frame env n)
    (h : (tr.expression frame n (.property path)).eval env scope = .ok v) :
    tr.registry.Fits path.scalarType v := by
  obtain ⟨b, hb, hbound, hentity, hproperty⟩ := htyped
  rw [expression, hbound, Expression.eval_path] at h
  obtain ⟨base, hbase, rfl⟩ := Computation.map_eq_ok.1 h
  have haccepts := hrow.entities b hb base hbase
  cases base with
  | none => exact Registry.fits_of_not_isValued (by rw [followFields_none]; rfl)
  | some d =>
      have hconforms : tr.Conforms b.entity d := haccepts
      rw [hentity] at hconforms
      exact (property_conforms hproperty hconforms).1

/-- A comparison with the constant null is a test, which is true or false. -/
lemma exists_bool_of_test {op : Operator} {left right : Formula} {n : Nat} {v : Datum}
    (htest : (op.isComparison && (left.isNullConstant || right.isNullConstant)) = true)
    (h : (tr.expression frame n (.binary op left right)).eval env scope = .ok v) :
    ∃ b, v = some (.bool b) := by
  have htested : ∀ {e : Expression}, (nullTested op e).eval env scope = .ok v →
      ∃ b, v = some (.bool b) := by
    intro e h
    rw [nullTested] at h
    split at h
    all_goals
      obtain ⟨_, -, h⟩ := Computation.bind_eq_ok.1 h
      cases h
      exact ⟨_, rfl⟩
  rw [Bool.and_eq_true, Bool.or_eq_true] at htest
  rw [expression] at h
  split at h
  · cases h
    exact ⟨_, rfl⟩
  · split at h
    · exact htested h
    · split at h
      · exact htested h
      · rename_i hboth hleft hright
        rw [htest.1] at hleft hright
        rcases htest.2 with hnull | hnull
        · simp [hnull] at hleft
        · simp [hnull] at hright

/-- An operator is translated as such unless it is a test. -/
lemma expression_binary {op : Operator} {left right : Formula} {n : Nat}
    (htest : (op.isComparison && (left.isNullConstant || right.isNullConstant)) = false) :
    tr.expression frame n (.binary op left right) = .binary op (tr.expression frame n left)
      (tr.expression frame (n + left.constants.length) right) := by
  rw [Bool.and_or_distrib_left, Bool.or_eq_false_iff] at htest
  rw [expression]
  simp [htest.1, htest.2]

/-- The first of some values that is not null fits the type that all of them have. -/
lemma fits_firstValued {t : ScalarType} {fs : List Formula} {vs : List Datum}
    (h : List.Forall₂ (fun f v => standard.Fits f.scalarType.widened v) fs vs)
    (ht : ∀ f ∈ fs, t = f.scalarType.widened) :
    standard.Fits t (some (StoreFunction.firstValued vs)) := by
  induction h with
  | nil => exact Registry.fits_of_not_isValued rfl
  | @cons f v fs vs hv _ ih =>
      obtain ⟨hf, hfs⟩ := List.forall_mem_cons.1 ht
      rw [StoreFunction.some_firstValued_cons]
      split
      · exact hf ▸ hv
      · exact ih hfs

mutual

/-- **The value of a formula is of its type, but for the widths of numbers.** -/
theorem fits_widened (hregistry : tr.registry = .standard) (hrow : frame.Conforms tr env scope) :
    (f : Formula) → {n : Nat} → {v : Datum} → f.Typed tr frame env n →
    (tr.expression frame n f).eval env scope = .ok v → standard.Fits f.scalarType.widened v
  | .property path, n, v, htyped, h => by
      have hfits := fits_property hrow htyped h
      rw [hregistry] at hfits
      exact hfits.widened
  | .member name t nullable, n, v, htyped, h => by
      obtain ⟨s, hs, rfl, -⟩ := htyped
      rw [expression, Frame.fieldExpression_of_scalarField? hs] at h
      have hfits := hrow.scalars s (.inr ⟨name, hs⟩) v h
      rwa [hregistry] at hfits
  | .element t nullable, n, v, htyped, h => by
      obtain ⟨s, hs, rfl, -⟩ := htyped
      rw [expression, Frame.scalarExpression_of_scalar? hs] at h
      have hfits := hrow.scalars s (.inl hs) v h
      rwa [hregistry] at hfits
  | .constant value t, n, v, htyped, h => by
      obtain ⟨d, hd, rfl⟩ := parameter_of_eval h
      have hfits := (htyped d hd).fits
      rw [hregistry] at hfits
      exact hfits.widened
  | .parameter name t, n, v, htyped, h => by
      obtain ⟨d, hd, rfl⟩ := parameter_of_eval h
      obtain ⟨value, hencodes⟩ := htyped d hd
      have hfits := hencodes.fits
      rw [hregistry] at hfits
      exact hfits.widened
  | .binary op left right, n, v, htyped, h => by
      cases htest : op.isComparison && (left.isNullConstant || right.isNullConstant) with
      | true =>
          obtain ⟨b, rfl⟩ := exists_bool_of_test htest h
          obtain ⟨hplain, hkind⟩ := Formula.kind_comparison (Bool.and_eq_true_iff.1 htest).1
          exact Registry.fits_of_admits hplain fun d hd => by cases hd; exact .inr hkind.symm
      | false =>
          rw [expression_binary htest] at h
          obtain ⟨hplain, hkind⟩ := Formula.kind_binary (htyped.resolve_left (by simp [htest])).1
          refine Registry.fits_of_admits hplain fun d hd => ?_
          rw [hkind]
          exact admits_of_binary (hd ▸ h)
  | .not f, n, v, htyped, h => by
      obtain ⟨_, -, h⟩ := Computation.bind_eq_ok.1 h
      cases h
      exact Registry.fits_of_admits rfl fun d hd => admits_negated hd
  | .negate f, n, v, ⟨hnumeric, _⟩, h => by
      obtain ⟨_, -, h⟩ := Computation.bind_eq_ok.1 h
      cases h
      refine Registry.fits_of_admits (ScalarType.isPlain_of_isNumeric hnumeric) fun d hd => ?_
      rw [Formula.scalarType, ScalarType.defaultKind_of_isNumeric hnumeric]
      exact admits_oppositeOf hd
  | .isNull f, n, v, htyped, h => by
      obtain ⟨_, -, h⟩ := Computation.bind_eq_ok.1 h
      cases h
      exact Registry.fits_of_admits rfl fun d hd => by cases hd; exact .inr rfl
  | .isNotNull f, n, v, htyped, h => by
      obtain ⟨_, -, h⟩ := Computation.bind_eq_ok.1 h
      cases h
      exact Registry.fits_of_admits rfl fun d hd => by cases hd; exact .inr rfl
  | .inList f list, n, v, htyped, h =>
      Registry.fits_of_admits rfl fun d hd => admits_of_inList (hd ▸ h)
  | .like f pattern, n, v, htyped, h => by
      obtain ⟨_, -, h⟩ := Computation.bind_eq_ok.1 h
      obtain ⟨_, -, h⟩ := Computation.bind_eq_ok.1 h
      cases h
      exact Registry.fits_of_admits rfl fun d hd => admits_liked hd
  | .builtin function args, n, v, ⟨harity, htakes, _⟩, h => by
      obtain ⟨hplain, hkind⟩ := Formula.kind_builtin harity htakes
      refine Registry.fits_of_admits hplain fun d hd => ?_
      rw [hkind]
      exact admits_of_called (hd ▸ h)
  | .caseWhen c t o, n, v, ⟨hcomparable, ht, ho⟩, h => by
      obtain ⟨_, -, h⟩ := Computation.bind_eq_ok.1 h
      split at h
      · exact fits_widened hregistry hrow t ht h
      · have hfits := fits_widened hregistry hrow o ho h
        rwa [← ScalarType.widened_of_comparable hcomparable] at hfits
  | .coalesce values, n, v, ⟨hcomparable, htyped⟩, h => by
      obtain ⟨vs, hvs, hvalue, -⟩ := eval_firstValuedOf h
      have hfits := fits_firstValued (all_fit_widened hregistry hrow values htyped hvs)
        fun f hf => ScalarType.widened_of_comparable (hcomparable f hf)
      intro d hd hnull
      have heq := hvalue (isValued_iff.2 ⟨d, hd, hnull⟩)
      exact hfits d (heq ▸ hd) hnull
  | .call function args t, n, v, ⟨entry, hfind, htype, hreturns⟩, h => by
      rw [expression, hfind] at h
      obtain ⟨ds, -, h⟩ := Computation.bind_eq_ok.1 h
      have hfits := hreturns ds v h
      rw [hregistry, htype] at hfits
      exact hfits

/-- The values of several formulas are of their types, but for the widths of numbers. -/
theorem all_fit_widened (hregistry : tr.registry = .standard)
    (hrow : frame.Conforms tr env scope) : (fs : List Formula) → {n : Nat} → {vs : List Datum} →
    Formula.AllTyped tr frame env n fs → evalList env (tr.expressions frame n fs) scope = .ok vs →
    List.Forall₂ (fun f v => standard.Fits f.scalarType.widened v) fs vs
  | [], n, vs, htyped, h => by
      cases h
      exact .nil
  | f :: fs, n, vs, ⟨hf, hfs⟩, h => by
      obtain ⟨v, hv, h⟩ := Computation.bind_eq_ok.1 h
      obtain ⟨rest, hrest, h⟩ := Computation.bind_eq_ok.1 h
      cases h
      exact .cons (fits_widened hregistry hrow f hf hv) (all_fit_widened hregistry hrow fs hfs hrest)

end

end Soundness

end Translator
end EntityQuery
