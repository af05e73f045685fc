import EntityQuery.Proofs.Evaluation.Safety
import EntityQuery.Proofs.Translation.StaticTypes

/-!
# Integers in the ranges of their types

A formula of an integer type computes with 64-bit integers and, past their range, with doubles.  Its
value is of its type as long as what it computes stays in the range of the type.

* `Formula.StaysWithin`: the results of a formula of an integer type are in the range of the type.
* `Translator.fits_integer`: the value of such a formula is of its type.
* `formula_represents`: what a formula is evaluated to is read as a value of its type, if it stays
  within the type, and of the widened type in any case.
-/

namespace EntityQuery

open Registry (standard)

/-- An integer type has only values of integer types. -/
lemma ScalarType.isInteger_of_isWithin {a b : ScalarType} (h : a.isWithin b = true)
    (hb : b.isInteger = true) : a.isInteger = true := by
  rw [isWithin, Bool.or_eq_true, beq_iff_eq, beq_iff_eq] at h
  rcases h with rfl | h
  · exact hb
  · cases b with
    | int32 | int64 => cases a <;> first | rfl | cases h
    | _ => cases hb

namespace Translator

/-- The value of a formula over a frame, if `n` is the slot of its first constant. -/
def value (tr : Translator) (frame : Frame) (env : Environment) (scope : Scope) (n : Nat)
    (f : Formula) : Except EvalError Datum :=
  (tr.expression frame n f).eval env scope

/-- The number that a formula has as its value, if it has one. -/
def number? (tr : Translator) (frame : Frame) (env : Environment) (scope : Scope) (n : Nat)
    (f : Formula) : Option Quantity :=
  match tr.value frame env scope n f with
  | .ok (some d) => Quantity.ofDocument? d
  | _ => none

end Translator

namespace Formula

mutual

/-- What a formula of an integer type computes stays in the range of the type: the results of
arithmetic and the lengths of texts, and what fields and registered functions give.  Of the branches
of a conditional and of the operands of a choice only the one that is taken counts, and its type has
to be within that of the whole. -/
def StaysWithin (tr : Translator) (frame : Frame) (env : Environment) (scope : Scope) :
    Nat → Formula → Prop
  | n, .member name t nullable =>
    ∀ v, tr.value frame env scope n (.member name t nullable) = .ok v → tr.registry.Fits t v
  | n, .element t nullable =>
    ∀ v, tr.value frame env scope n (.element t nullable) = .ok v → tr.registry.Fits t v
  | n, .call function args t =>
    ∀ v, tr.value frame env scope n (.call function args t) = .ok v → tr.registry.Fits t v
  | n, .binary op left right =>
    ∀ x y q, tr.number? frame env scope n left = some x →
      tr.number? frame env scope (n + left.constants.length) right = some y →
      op.compute? x y = some q → (Formula.binary op left right).scalarType.Contains q
  | n, .negate f =>
    ∀ x, tr.number? frame env scope n f = some x → f.scalarType.Contains x.negate
  | n, .builtin .abs [f] =>
    ∀ x, tr.number? frame env scope n f = some x → f.scalarType.Contains x.magnitude
  | n, .builtin .length [f] =>
    ∀ s, tr.value frame env scope n f = .ok (some (.string s)) → fitsInt64 s.length = true
  | n, .builtin .round [f] | n, .builtin .floor [f] | n, .builtin .ceil [f] =>
    f.scalarType.isInteger = true → f.StaysWithin tr frame env scope n
  | n, .caseWhen c t o =>
    t.scalarType.isInteger = true → ∀ v, tr.value frame env scope n c = .ok v →
      if isTrue v = true then t.StaysWithin tr frame env scope (n + c.constants.length)
      else o.scalarType.isWithin t.scalarType = true ∧
        o.StaysWithin tr frame env scope (n + c.constants.length + t.constants.length)
  | n, .coalesce values =>
    (firstType values).isInteger = true →
      FirstStaysWithin tr frame env scope (firstType values) n values
  | _, _ => True

/-- The first of some formulas that has a value stays in the range of a type. -/
def FirstStaysWithin (tr : Translator) (frame : Frame) (env : Environment) (scope : Scope)
    (t : ScalarType) : Nat → List Formula → Prop
  | _, [] => True
  | n, f :: fs =>
    ∀ v, tr.value frame env scope n f = .ok v →
      if isValued v = true then
        f.scalarType.isWithin t = true ∧ f.StaysWithin tr frame env scope n
      else FirstStaysWithin tr frame env scope t (n + f.constants.length) fs

end

end Formula

section Calls

variable {env : Environment} {scope : Scope}

/-- A call with one argument has a value only if the argument does, and is computed from that. -/
lemma exists_of_call_single {name : String} {f : StoreFunction} {e : Expression} {d : Document}
    (hname : StoreFunction.ofName? name = some f) (hstrict : f ≠ .ifMissingOrNull)
    (h : (Expression.call name [e]).eval env scope = .ok (some d)) (hd : d.isNull = false) :
    ∃ a, e.eval env scope = .ok (some a) ∧ d = f.compute [a] := by
  obtain ⟨ds, hds, h⟩ := Computation.bind_eq_ok.1 h
  obtain ⟨v, hv, hds⟩ := Computation.bind_eq_ok.1 hds
  cases hds
  obtain ⟨vs, hvs, -, rfl⟩ := exists_of_callFunction hname hstrict h hd
  rcases vs with _ | ⟨a, _ | ⟨_, _⟩⟩
  · cases hvs
  · cases hvs
    exact ⟨a, hv, rfl⟩
  · cases hvs

end Calls

/-- What is rounded to an integer type is of that type before. -/
lemma Formula.isInteger_of_rounded {f : Formula} {function : BuiltinFunction}
    (h : (Formula.builtin function [f]).scalarType.isInteger = true)
    (hfunction : function = .round ∨ function = .floor ∨ function = .ceil) :
    f.scalarType.isInteger = true ∧ (Formula.builtin function [f]).scalarType = f.scalarType := by
  have htype : (Formula.builtin function [f]).scalarType =
      if f.scalarType.isInteger then f.scalarType else .float64 := by
    rcases hfunction with rfl | rfl | rfl <;> rfl
  rw [htype] at h ⊢
  split at h
  · rename_i hinteger
    exact ⟨hinteger, if_pos hinteger⟩
  · cases h

namespace Translator

variable {tr : Translator} {frame : Frame} {env : Environment} {scope : Scope}

lemma number?_of_value {n : Nat} {f : Formula} {d : Document} {q : Quantity}
    (h : (tr.expression frame n f).eval env scope = .ok (some d))
    (hq : Quantity.ofDocument? d = some q) : tr.number? frame env scope n f = some q := by
  rw [number?, value, h]
  exact hq

/-- An arithmetic operator whose result its type contains. -/
lemma fits_arithmetic {op : Operator} {left right : Formula} {n : Nat} {v : Datum}
    (hinteger : (Formula.binary op left right).scalarType.isInteger = true)
    (hstays : (Formula.binary op left right).StaysWithin tr frame env scope n)
    (h : (tr.expression frame n (.binary op left right)).eval env scope = .ok v) :
    standard.Fits (Formula.binary op left right).scalarType v := by
  have hop : op.isArithmetic = true := by
    cases op <;> first | rfl | cases hinteger
  have htest : (op.isComparison && (left.isNullConstant || right.isNullConstant)) = false := by
    rw [Operator.isComparison_of_isArithmetic hop, Bool.false_and]
  rw [expression_binary htest] at h
  obtain ⟨l, hl, h⟩ := Computation.bind_eq_ok.1 h
  obtain ⟨r, hr, h⟩ := Computation.bind_eq_ok.1 h
  rintro d rfl hd
  obtain ⟨a, b, rfl, rfl, hvalue⟩ :=
    Operator.exists_of_apply (Operator.isLogical_of_isArithmetic hop) h hd
  rw [Operator.onValues_of_isArithmetic hop] at hvalue
  obtain ⟨x, y, q, hx, hy, hq, rfl⟩ := exists_quantities hvalue hd
  exact Registry.represents_of_contains (ScalarType.isNumeric_of_isInteger hinteger)
    (hstays x y q (number?_of_value hl hx) (number?_of_value hr hy) hq) hd

/-- A negation whose result its type contains. -/
lemma fits_negate {f : Formula} {n : Nat} {v : Datum}
    (hinteger : (Formula.negate f).scalarType.isInteger = true)
    (hstays : (Formula.negate f).StaysWithin tr frame env scope n)
    (h : (tr.expression frame n (.negate f)).eval env scope = .ok v) :
    standard.Fits (Formula.negate f).scalarType v := by
  obtain ⟨w, hw, h⟩ := Computation.bind_eq_ok.1 h
  cases h
  intro d hd hnull
  obtain ⟨a, q, rfl, hq, rfl⟩ := exists_of_oppositeOf hd hnull
  exact Registry.represents_of_contains (ScalarType.isNumeric_of_isInteger hinteger)
    (hstays q (number?_of_value hw hq)) hnull

/-- The length of a text, if it fits 64 bits. -/
lemma fits_length {f : Formula} {n : Nat} {v : Datum}
    (hstays : (Formula.builtin .length [f]).StaysWithin tr frame env scope n)
    (h : (tr.expression frame n (.builtin .length [f])).eval env scope = .ok v) :
    standard.Fits .int64 v := by
  rintro d rfl hnull
  obtain ⟨a, ha, rfl⟩ := exists_of_call_single rfl (by decide) h hnull
  obtain ⟨s, rfl⟩ := StoreFunction.exists_of_onText (f := fun s => .ofInt s.length) hnull
  have hfits := hstays s ha
  rw [← String.length_toList] at hfits
  exact Registry.represents_of_contains (q := .int s.toList.length) rfl
    (fun _ => ⟨_, rfl, hfits⟩) rfl

/-- A magnitude that its type contains. -/
lemma fits_abs {f : Formula} {n : Nat} {v : Datum}
    (hinteger : (Formula.builtin .abs [f]).scalarType.isInteger = true)
    (hstays : (Formula.builtin .abs [f]).StaysWithin tr frame env scope n)
    (h : (tr.expression frame n (.builtin .abs [f])).eval env scope = .ok v) :
    standard.Fits (Formula.builtin .abs [f]).scalarType v := by
  rintro d rfl hnull
  obtain ⟨a, ha, rfl⟩ := exists_of_call_single rfl (by decide) h hnull
  obtain ⟨q, hq, heq⟩ := StoreFunction.exists_of_onNumber hnull
  rw [StoreFunction.compute, heq] at hnull ⊢
  exact Registry.represents_of_contains (ScalarType.isNumeric_of_isInteger hinteger)
    (hstays q (number?_of_value ha hq)) hnull

mutual

/-- **The value of a formula of an integer type is of its type** if it stays in the range. -/
theorem fits_integer (hregistry : tr.registry = .standard) (hrow : frame.Conforms tr env scope) :
    (f : Formula) → {n : Nat} → {v : Datum} → f.Typed tr frame env n →
    f.scalarType.isInteger = true → f.StaysWithin tr frame env scope n →
    (tr.expression frame n f).eval env scope = .ok v → standard.Fits f.scalarType v
  | .property path, n, v, htyped, hinteger, hstays, h => hregistry ▸ fits_property hrow htyped h
  | .member name t nullable, n, v, htyped, hinteger, hstays, h => hregistry ▸ hstays v h
  | .element t nullable, n, v, htyped, hinteger, hstays, h => hregistry ▸ hstays v h
  | .call function args t, n, v, htyped, hinteger, hstays, h => hregistry ▸ hstays v h
  | .constant value t, n, v, htyped, hinteger, hstays, h => by
      obtain ⟨d, hd, rfl⟩ := parameter_of_eval h
      exact hregistry ▸ (htyped d hd).fits
  | .parameter name t, n, v, htyped, hinteger, hstays, h => by
      obtain ⟨d, hd, rfl⟩ := parameter_of_eval h
      obtain ⟨value, hencodes⟩ := htyped d hd
      exact hregistry ▸ hencodes.fits
  | .binary op left right, n, v, htyped, hinteger, hstays, h => fits_arithmetic hinteger hstays h
  | .negate f, n, v, htyped, hinteger, hstays, h => fits_negate hinteger hstays h
  | .builtin function [], n, v, ⟨harity, _⟩, hinteger, hstays, h => by
      cases function <;> cases harity
  | .builtin function [f], n, v, ⟨harity, htakes, htyped⟩, hinteger, hstays, h => by
      cases function with
      | length => exact fits_length hstays h
      | abs => exact fits_abs hinteger hstays h
      | round | floor | ceil =>
          -- rounding keeps the type, so the argument stays in its range instead
          obtain ⟨hargument, htype⟩ := Formula.isInteger_of_rounded hinteger (by simp)
          rintro d rfl hnull
          obtain ⟨a, ha, rfl⟩ := exists_of_call_single rfl (by decide) h hnull
          obtain ⟨q, hq, heq⟩ := StoreFunction.exists_of_onNumber hnull
          have hfits := fits_integer hregistry hrow f htyped.1 hargument (hstays hargument) ha
          have hrepresents := hfits a rfl (not_isNull_of_quantity hq)
          rw [StoreFunction.compute, heq] at hnull
          rw [htype, StoreFunction.compute, heq]
          exact Registry.represents_rounded hrepresents hargument hq _ hnull
      | _ => cases hinteger
  | .builtin function (_ :: _ :: _), n, v, ⟨harity, _⟩, hinteger, hstays, h => by
      cases function <;> first | cases harity | cases hinteger
  | .caseWhen c t o, n, v, ⟨_, ht, ho⟩, hinteger, hstays, h => by
      obtain ⟨b, hb, h⟩ := Computation.bind_eq_ok.1 h
      have hbranch := hstays hinteger b hb
      split at h
      · rename_i htrue
        rw [if_pos htrue] at hbranch
        exact fits_integer hregistry hrow t ht hinteger hbranch h
      · rename_i hfalse
        rw [if_neg hfalse] at hbranch
        obtain ⟨hwithin, hbranch⟩ := hbranch
        exact (fits_integer hregistry hrow o ho
          (ScalarType.isInteger_of_isWithin hwithin hinteger) hbranch h).of_isWithin hwithin
  | .coalesce values, n, v, ⟨_, htyped⟩, hinteger, hstays, h => by
      obtain ⟨vs, hvs, hvalue, -⟩ := eval_firstValuedOf h
      have hfits := first_fits hregistry hrow values htyped hinteger (hstays hinteger) hvs
      intro d hd hnull
      have heq := hvalue (isValued_iff.2 ⟨d, hd, hnull⟩)
      exact hfits d (heq ▸ hd) hnull

/-- The first value of some formulas is of a type if it stays in the range of the type. -/
theorem first_fits (hregistry : tr.registry = .standard) (hrow : frame.Conforms tr env scope) :
    (fs : List Formula) → {n : Nat} → {t : ScalarType} → {vs : List Datum} →
    Formula.AllTyped tr frame env n fs → t.isInteger = true →
    Formula.FirstStaysWithin tr frame env scope t n fs →
    evalList env (tr.expressions frame n fs) scope = .ok vs →
    standard.Fits t (some (StoreFunction.firstValued vs))
  | [], n, t, vs, htyped, hinteger, hstays, h => by
      cases h
      exact Registry.fits_of_not_isValued rfl
  | f :: fs, n, t, vs, ⟨hf, hfs⟩, hinteger, hstays, h => by
      obtain ⟨v, hv, h⟩ := Computation.bind_eq_ok.1 h
      obtain ⟨rest, hrest, h⟩ := Computation.bind_eq_ok.1 h
      cases h
      have hfirst := hstays v hv
      rw [StoreFunction.some_firstValued_cons]
      split
      · rename_i hvalued
        rw [if_pos hvalued] at hfirst
        obtain ⟨hwithin, hfirst⟩ := hfirst
        exact (fits_integer hregistry hrow f hf
          (ScalarType.isInteger_of_isWithin hwithin hinteger) hfirst hv).of_isWithin hwithin
      · rename_i hnone
        rw [if_neg hnone] at hfirst
        exact first_fits hregistry hrow fs hfs hinteger hfirst hrest

end

end Translator

/-- **The value of a formula is one of its type** as far as integers stay in the ranges of their
types: what the formula is evaluated to, on a row that conforms to the frame, is read by the codec
of the type.  The codec of the widened type, which is that of doubles for a number, reads it in any
case. -/
theorem formula_represents {tr : Translator} {frame : Frame} {f : Formula} {p p' : Progress}
    {e : Expression} {env : Environment} {scope : Scope} {d : Document}
    (hregistry : tr.registry = .standard) (hf : tr.formula frame f p = .ok (e, p'))
    (hknows : ∀ g, g.PartOf f → tr.Knows frame g) (hrow : frame.Conforms tr env scope)
    (hsupplies : env.Supplies tr.registry p.nextSlot f.inputs)
    (h : e.eval env scope = .ok (some d)) (hd : d.isNull = false) :
    tr.registry.Represents f.scalarType.widened d ∧
      (f.StaysWithin tr frame env scope p.nextSlot → tr.registry.Represents f.scalarType d) := by
  have htyped := Translator.typed_of_formula f hf hknows hsupplies
  obtain ⟨rfl, -⟩ := Translator.formula_eq_ok f hf
  have hwidened := Translator.fits_widened hregistry hrow f htyped h d rfl hd
  rw [hregistry]
  refine ⟨hwidened, fun hstays => ?_⟩
  cases hinteger : f.scalarType.isInteger with
  | true => exact Translator.fits_integer hregistry hrow f htyped hinteger hstays h d rfl hd
  | false => rwa [ScalarType.widened_of_not_isInteger hinteger] at hwidened

namespace Sample

/-- A model of persons, whose ages are integers of 32 bits. -/
def census : ValidModel where
  model := ⟨[
    { name := "Person"
      keyspace := some ⟨"app", "_default", "person"⟩
      properties := [
        { name := "id", scalarType := .string, isKey := true },
        { name := "age", scalarType := .int32 }] }]⟩
  defaults := {}
  warnings := []

/-- A translator for the model. -/
def censusTranslator : Translator := ⟨census, .standard, .standard⟩

/-- What the alias of the persons is bound to. -/
def personBinding : Binding := ⟨"p", "Person", .ident "p", false⟩

/-- The persons. -/
def personFrame : Frame where
  source := .keyspace ⟨"app", "_default", "person"⟩ "p"
  yield := .entity personBinding
  scope := [personBinding]

/-- The age of a person, as a person counts it. -/
def countedAge : Formula := .property ⟨"p", "Person", "age", ["age"], .int32, false⟩

/-- The age of a person a year later. -/
def nextAge : Formula := .binary .add countedAge (.ofValue (.int32 1))

/-- The constant of the sample formula is one. -/
def oneYear : Environment := ⟨⟨[]⟩, [("p0", .ofInt 1)]⟩

/-- A person of an age. -/
def personAged (age : Int) : Document := .object [("age", .ofInt age), ("id", .string "1")]

/-- A row with a person. -/
def personScope (age : Int) : Scope := .ofRow (.single "p" (personAged age))

/-- A row with a person that conforms is one of the frame of persons. -/
lemma conforms_personScope {env : Environment} {age : Int}
    (h : censusTranslator.Conforms "Person" (personAged age)) :
    personFrame.Conforms censusTranslator env (personScope age) where
  entities b hb v hv := by
    rw [List.mem_singleton.1 hb] at hv ⊢
    cases hv
    exact h
  scalars s hs := by rcases hs with hs | ⟨name, hs⟩ <;> cases hs

/-- The age and a constant are what the frame of persons says that they are. -/
lemma knows_binary_countedAge {op : Operator} {v : Value} {t : ScalarType} :
    ∀ g, g.PartOf (.binary op countedAge (.constant v t)) → censusTranslator.Knows personFrame g := by
  have hage : census.property ⟨"Person", "p"⟩ "age" =
      .ok ⟨"p", "Person", "age", ["age"], .int32, false⟩ := by
    have hsplit : "age".splitOn "." = ["age"] := by
      rw [String.splitOn, if_neg (by decide), String.splitOnAux, String.splitOnAux,
        String.splitOnAux, String.splitOnAux]
      rfl
    rw [ValidModel.property, hsplit]
    rfl
  refine Formula.forall_partOf.2 ⟨trivial, fun h hh => Formula.forall_partOf.2 ?_⟩
  rcases List.mem_pair.1 hh with rfl | rfl
  · exact ⟨hage, fun _ hk => by cases hk⟩
  · exact ⟨trivial, fun _ hk => by cases hk⟩

end Sample

/-- A year after the age of thirty. -/
theorem formula_represents_nextAge : ∃ e p',
    Sample.censusTranslator.formula Sample.personFrame Sample.nextAge {} = .ok (e, p') ∧
    e.eval Sample.oneYear (Sample.personScope 30) = .ok (some (.ofInt 31)) ∧
    Sample.nextAge.scalarType = .int32 ∧ Registry.standard.Represents .int32 (.ofInt 31) := by
  obtain ⟨e, p', hf, heval⟩ : ∃ e p',
      Sample.censusTranslator.formula Sample.personFrame Sample.nextAge {} = .ok (e, p') ∧
      e.eval Sample.oneYear (Sample.personScope 30) = .ok (some (.ofInt 31)) := ⟨_, _, rfl, rfl⟩
  have hstays : Sample.nextAge.StaysWithin Sample.censusTranslator Sample.personFrame Sample.oneYear
      (Sample.personScope 30) 0 := by
    intro x y q hx hy hq
    cases hx
    cases hy
    cases hq
    exact fun _ => ⟨31, rfl, rfl⟩
  have hone : Sample.oneYear.Supplies .standard 0 Sample.nextAge.inputs :=
    ⟨fun _ d hd => by cases hd; exact ⟨_, _, rfl, rfl, rfl⟩, trivial⟩
  exact ⟨e, p', hf, heval, rfl, (formula_represents rfl hf Sample.knows_binary_countedAge
    (Sample.conforms_personScope ⟨_, _, rfl, rfl⟩) hone heval rfl).2 hstays⟩

/-- A year after the greatest age, the sum is no integer of 32 bits, which its type is. -/
theorem formula_represents_overflow : ∃ e p',
    Sample.censusTranslator.formula Sample.personFrame Sample.nextAge {} = .ok (e, p') ∧
    Sample.personFrame.Conforms Sample.censusTranslator Sample.oneYear
      (Sample.personScope 2147483647) ∧
    e.eval Sample.oneYear (Sample.personScope 2147483647) = .ok (some (.ofInt 2147483648)) ∧
    Sample.nextAge.scalarType = .int32 ∧
    ¬Registry.standard.Represents .int32 (.ofInt 2147483648) :=
  ⟨_, _, rfl, Sample.conforms_personScope ⟨_, _, rfl, rfl⟩, rfl, rfl,
    Registry.not_represents rfl rfl⟩

end EntityQuery
