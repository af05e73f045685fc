import EntityQuery.Evaluation.Expression
import EntityQuery.Proofs.Computation
import EntityQuery.Proofs.Evaluation.Ordering
import EntityQuery.Proofs.Scalar.Representation
import Mathlib.Tactic.Common

/-!
# Kinds of results

What an operator or a function returns is missing or null, or it is of the one kind that the
operator or the function has results of.  Conversely there is a result if the operands have values
of the kind that is asked for, and numbers have a finite result.

* `Operator.compute?`: what an arithmetic operator makes of two numbers; division by zero has no
  result.
* `arithmetic_of_quantities`: arithmetic on documents that are numbers is that.
* `Operator.admits_of_apply` and `StoreFunction.admits_compute`: the kinds of results.
* `exists_of_callFunction`: a function computes with its arguments if all of them have values.
-/

namespace EntityQuery

lemma isValued_iff {v : Datum} : isValued v = true ↔ ∃ d, v = some d ∧ d.isNull = false := by
  cases v with
  | none => simp [isValued]
  | some d => simp [isValued]

/-- Nothing is asked of what is missing or null. -/
lemma Registry.fits_of_not_isValued {r : Registry} {t : ScalarType} {v : Datum}
    (h : isValued v = false) : r.Fits t v := by
  rintro d rfl hd
  rw [isValued, hd] at h
  cases h

/-- A document is null, or of a kind. -/
def DocumentKind.Admits (k : DocumentKind) (d : Document) : Prop :=
  d.isNull = true ∨ ofDocument d = k

lemma DocumentKind.admits_null (k : DocumentKind) : k.Admits .null := .inl rfl

/-- A value of a kind is of that kind. -/
lemma DocumentKind.Admits.of_valued {k : DocumentKind} {d : Document} (h : k.Admits d)
    (hd : d.isNull = false) : ofDocument d = k :=
  h.resolve_left (by rw [hd]; exact Bool.false_ne_true)

lemma admits_ofFloat (x : Float) : DocumentKind.number.Admits (.ofFloat x) := by
  rw [Document.ofFloat]
  split
  · exact .inr rfl
  · exact .inl rfl

lemma Quantity.admits_toDocument (q : Quantity) : DocumentKind.number.Admits q.toDocument := by
  cases q with
  | int n => exact .inr rfl
  | float x => exact admits_ofFloat x

lemma Quantity.admits_rounded (q : Quantity) (direction : Binary64.Direction) :
    DocumentKind.number.Admits (q.rounded direction) := by
  cases q with
  | int n => exact .inr rfl
  | float x =>
      rw [rounded]
      cases (Binary64.ofFloat x).rounded direction with
      | none => exact .inl rfl
      | some n =>
          simp only
          split
          · exact .inr rfl
          · exact admits_ofFloat _

/-! ## Arithmetic

Arithmetic is stated as a function on two numbers that may have no result.  Whether the numbers are
integers or doubles, and how an overflow is handled, does not matter behind this statement. -/

/-- What an arithmetic operator makes of two numbers, if it has a result. -/
def Operator.compute? (op : Operator) : Quantity → Quantity → Option Quantity
  | .int x, .int y =>
    match op with
    | .add => some (.checked (x + y) (.ofInt x + .ofInt y))
    | .sub => some (.checked (x - y) (.ofInt x - .ofInt y))
    | .mul => some (.checked (x * y) (.ofInt x * .ofInt y))
    | .div =>
      if y = 0 then none
      else if x.tmod y = 0 then some (.int (x.tdiv y))
      else some (.float (.ofInt x / .ofInt y))
    | .mod => if y = 0 then none else some (.int (x.tmod y))
    | _ => none
  | a, b =>
    let x := a.toFloat
    let y := b.toFloat
    match op with
    | .add => some (.float (x + y))
    | .sub => some (.float (x - y))
    | .mul => some (.float (x * y))
    | .div => if y == 0.0 then none else some (.float (x / y))
    | .mod => if y == 0.0 then none else some (.float (remainderOfFloats x y))
    | _ => none

/-- The document of a result, which is null if there is none. -/
def Quantity.resultDocument (q : Option Quantity) : Document :=
  (q.map Quantity.toDocument).getD .null

lemma arithmeticInts_eq_ok {op : Operator} {x y : Int} {d : Document}
    (h : arithmeticInts op x y = .ok d) :
    d = Quantity.resultDocument (op.compute? (.int x) (.int y)) := by
  cases op with
  | div =>
      rw [arithmeticInts, divideInts] at h
      rw [Operator.compute?]
      split at h
      · rename_i hy
        cases h
        simp only [hy, if_true]
        rfl
      · rename_i hy
        split at h
        · cases h
        · split at h
          · rename_i hrest
            cases h
            simp only [hy, hrest, if_false, if_true]
            rfl
          · rename_i hrest
            cases h
            simp only [hy, hrest, if_false]
            rfl
  | mod =>
      rw [arithmeticInts, remainderInts] at h
      rw [Operator.compute?]
      split at h
      · rename_i hy
        cases h
        simp only [hy, if_true]
        rfl
      · rename_i hy
        split at h
        · cases h
        · cases h
          simp only [hy, if_false]
          rfl
  | _ =>
      cases h
      rfl

lemma arithmeticFloats_eq (op : Operator) {a b : Quantity}
    (h : ∀ x y, ¬(a = .int x ∧ b = .int y)) :
    arithmeticFloats op a.toFloat b.toFloat = Quantity.resultDocument (op.compute? a b) := by
  have hcompute : op.compute? a b =
      (match op with
      | .add => some (.float (a.toFloat + b.toFloat))
      | .sub => some (.float (a.toFloat - b.toFloat))
      | .mul => some (.float (a.toFloat * b.toFloat))
      | .div => if b.toFloat == 0.0 then none else some (.float (a.toFloat / b.toFloat))
      | .mod =>
        if b.toFloat == 0.0 then none else some (.float (remainderOfFloats a.toFloat b.toFloat))
      | _ => none) := by
    cases a with
    | float x => rfl
    | int x =>
        cases b with
        | float y => rfl
        | int y => exact absurd ⟨rfl, rfl⟩ (h x y)
  rw [hcompute]
  cases op with
  | div | mod =>
      simp only [arithmeticFloats]
      split <;> rfl
  | _ => rfl

/-- **Arithmetic on two numbers** has the result of the operator. -/
theorem arithmetic_of_quantities {op : Operator} {a b d : Document} {x y : Quantity}
    (hx : Quantity.ofDocument? a = some x) (hy : Quantity.ofDocument? b = some y)
    (h : arithmetic op a b = .ok d) : d = Quantity.resultDocument (op.compute? x y) := by
  rw [arithmetic, hx, hy] at h
  cases x with
  | int n =>
      cases y with
      | int m => exact arithmeticInts_eq_ok h
      | float y =>
          cases h
          exact arithmeticFloats_eq op (fun _ _ h => by cases h.2)
  | float x =>
      cases h
      exact arithmeticFloats_eq op (fun _ _ h => by cases h.1)

/-- Arithmetic with a result other than null is on two numbers. -/
lemma exists_quantities {op : Operator} {a b d : Document} (h : arithmetic op a b = .ok d)
    (hd : d.isNull = false) : ∃ x y q, Quantity.ofDocument? a = some x ∧
      Quantity.ofDocument? b = some y ∧ op.compute? x y = some q ∧ d = q.toDocument := by
  cases hx : Quantity.ofDocument? a with
  | none =>
      simp only [arithmetic, hx] at h
      cases h
      cases hd
  | some x =>
      cases hy : Quantity.ofDocument? b with
      | none =>
          simp only [arithmetic, hx, hy] at h
          cases h
          cases hd
      | some y =>
          have hresult := arithmetic_of_quantities hx hy h
          cases hq : op.compute? x y with
          | none =>
              rw [hq] at hresult
              rw [hresult] at hd
              cases hd
          | some q =>
              rw [hq] at hresult
              exact ⟨x, y, q, rfl, rfl, hq, hresult⟩

/-! ## Operators

What is missing or null makes the result missing or null, but for the logical operators.  So a
result with a value tells that both operands had one, which is how types are followed back through
an expression. -/

namespace Operator

variable {op : Operator}

/-- The kind of the results of an operator. -/
def resultKind (op : Operator) : DocumentKind :=
  if op.isArithmetic then .number else if op = .concat then .string else .boolean

lemma admits_of_connective {decisive : Bool} {l r : Datum} {d : Document}
    (h : connective decisive l r = some d) : DocumentKind.boolean.Admits d := by
  rw [connective] at h
  split at h
  · cases h
    exact .inr rfl
  · split at h
    · cases h
    · split at h
      · cases h
        exact .inr rfl
      · cases h
        exact .inl rfl

lemma isLogical_of_isComparison (h : op.isComparison = true) : op.isLogical = false := by
  cases op <;> first | rfl | cases h

lemma isLogical_of_isArithmetic (h : op.isArithmetic = true) : op.isLogical = false := by
  cases op <;> first | rfl | cases h

lemma isComparison_of_isArithmetic (h : op.isArithmetic = true) : op.isComparison = false := by
  cases op <;> first | rfl | cases h

lemma onValues_of_isArithmetic (h : op.isArithmetic = true) (a b : Document) :
    op.onValues a b = arithmetic op a b := by
  cases op <;> first | rfl | cases h

/-- An operator that is not logical looks at its operands if both have values. -/
lemma apply_of_valued (hop : op.isLogical = false) {a b : Document} (ha : a.isNull = false)
    (hb : b.isNull = false) : op.apply (some a) (some b) = (op.onValues a b).map some := by
  have hnull : ¬(a.isNull || b.isNull) = true := by simp [ha, hb]
  cases op with
  | and | or => cases hop
  | _ => exact if_neg hnull

/-- An operator that is not logical has a value only if both operands do. -/
lemma exists_of_apply (hop : op.isLogical = false) {l r : Datum} {d : Document}
    (h : op.apply l r = .ok (some d)) (hd : d.isNull = false) :
    ∃ a b, l = some a ∧ r = some b ∧ op.onValues a b = .ok d := by
  cases l with
  | none =>
      cases op with
      | and | or => cases hop
      | _ => cases h
  | some a =>
      cases r with
      | none =>
          cases op with
          | and | or => cases hop
          | _ => cases h
      | some b =>
          cases hnull : a.isNull || b.isNull with
          | true =>
              have happly : op.apply (some a) (some b) = .ok (some .null) := by
                cases op with
                | and | or => cases hop
                | _ => exact if_pos hnull
              rw [happly] at h
              cases h
              cases hd
          | false =>
              obtain ⟨ha, hb⟩ := Bool.or_eq_false_iff.1 hnull
              rw [apply_of_valued hop ha hb] at h
              obtain ⟨d', hd', h⟩ := Computation.map_eq_ok.1 h
              cases h
              exact ⟨a, b, rfl, rfl, hd'⟩

/-- **What an operator returns is of its kind**, if it is not missing. -/
theorem admits_of_apply {l r : Datum} {d : Document} (h : op.apply l r = .ok (some d)) :
    op.resultKind.Admits d := by
  cases hlogical : op.isLogical with
  | true =>
      obtain ⟨decisive, hconnective⟩ : ∃ decisive, connective decisive l r = some d := by
        cases op with
        | and | or => exact ⟨_, Except.ok.inj h⟩
        | _ => cases hlogical
      have hkind : op.resultKind = .boolean := by
        cases op with
        | and | or => rfl
        | _ => cases hlogical
      rw [hkind]
      exact admits_of_connective hconnective
  | false =>
      cases hd : d.isNull with
      | true => exact .inl hd
      | false =>
          obtain ⟨a, b, rfl, rfl, hvalue⟩ := exists_of_apply hlogical h hd
          clear h
          cases op with
          | and | or => cases hlogical
          | concat =>
              cases hvalue
              cases a <;> cases b <;> first | exact .inr rfl | exact .inl rfl
          | add | sub | mul | div | mod =>
              obtain ⟨x, y, q, -, -, -, rfl⟩ := exists_quantities hvalue hd
              exact q.admits_toDocument
          | _ =>
              cases hvalue
              exact .inr rfl

end Operator

lemma admits_negated {v : Datum} {d : Document} (h : negated v = some d) :
    DocumentKind.boolean.Admits d := by
  rcases v with _ | d'
  · cases h
  · cases d' with
    | bool b =>
        cases h
        exact .inr rfl
    | _ =>
        cases h
        exact .inl rfl

/-- Only a number has an opposite. -/
lemma exists_of_oppositeOf {v : Datum} {d : Document} (h : oppositeOf v = some d)
    (hd : d.isNull = false) :
    ∃ a q, v = some a ∧ Quantity.ofDocument? a = some q ∧ d = q.negate.toDocument := by
  rcases v with _ | a
  · cases h
  · rw [oppositeOf] at h
    cases hq : Quantity.ofDocument? a with
    | some q =>
        rw [hq] at h
        cases h
        exact ⟨a, q, rfl, hq, rfl⟩
    | none =>
        rw [hq] at h
        cases h
        cases hd

lemma admits_oppositeOf {v : Datum} {d : Document} (h : oppositeOf v = some d) :
    DocumentKind.number.Admits d := by
  cases hd : d.isNull with
  | true => exact .inl hd
  | false =>
      obtain ⟨a, q, rfl, -, rfl⟩ := exists_of_oppositeOf h hd
      exact q.negate.admits_toDocument

lemma admits_liked {v pattern : Datum} {d : Document} (h : liked v pattern = some d) :
    DocumentKind.boolean.Admits d := by
  unfold liked at h
  split at h <;> cases h
  · exact .inr rfl
  · exact .inl rfl

/-! ## Functions

Functions are made from a few forms: of one text, of two texts, of a number.  Kinds are shown for
the forms, and a function has the kind of its form. -/

namespace StoreFunction

variable {k : DocumentKind}

lemma admits_onText {f : List Char → Document} (h : ∀ s, k.Admits (f s)) (d : Document) :
    k.Admits (onText f d) := by
  cases d with
  | string s => exact h _
  | _ => exact k.admits_null

lemma admits_onTexts {f : List Char → List Char → Document} (h : ∀ s t, k.Admits (f s t))
    (d d' : Document) : k.Admits (onTexts f d d') := by
  cases d with
  | string s =>
      cases d' with
      | string t => exact h _ _
      | _ => exact k.admits_null
  | _ => exact k.admits_null

lemma admits_onNumber {f : Quantity → Document} (h : ∀ q, k.Admits (f q)) (d : Document) :
    k.Admits (onNumber f d) := by
  rw [onNumber]
  cases Quantity.ofDocument? d with
  | some q => exact h q
  | none => exact k.admits_null

/-- A function of a text has a value only on a text. -/
lemma exists_of_onText {f : List Char → Document} {d : Document}
    (h : (onText f d).isNull = false) : ∃ s, d = .string s := by
  cases d with
  | string s => exact ⟨s, rfl⟩
  | _ => cases h

/-- A function of a number has a value only on a number. -/
lemma exists_of_onNumber {f : Quantity → Document} {d : Document}
    (h : (onNumber f d).isNull = false) :
    ∃ q, Quantity.ofDocument? d = some q ∧ onNumber f d = f q := by
  rw [onNumber] at h ⊢
  cases hq : Quantity.ofDocument? d with
  | some q => exact ⟨q, rfl, rfl⟩
  | none =>
      rw [hq] at h
      cases h

lemma admits_substring (s : List Char) (start : Int) (count : Option Nat) :
    DocumentKind.string.Admits (substring s start count) := by
  simp only [substring]
  generalize (if start < 0 then start + s.length else start) = position
  split
  · exact .inl rfl
  · exact .inr rfl

lemma admits_substringOf (s start : Document) (count : Option Document) :
    DocumentKind.string.Admits (substringOf s start count) := by
  fun_cases substringOf s start count with
  | case1 => exact admits_substring _ _ _
  | case2 => exact admits_substring _ _ _
  | _ => exact .inl rfl

lemma admits_replaced (s needle replacement : Document) :
    DocumentKind.string.Admits (replaced s needle replacement) := by
  fun_cases replaced s needle replacement with
  | case2 => exact .inr rfl
  | _ => exact .inl rfl

/-- The kind of the results of a function; the first value that is not null may be of any kind. -/
def resultKind : StoreFunction → DocumentKind
  | .lower | .upper | .trim | .reverse | .replace | .substr => .string
  | .length | .abs | .round | .floor | .ceil | .sqrt | .arrayLength | .position | .power => .number
  | .contains | .arrayContains => .boolean
  | .ifMissingOrNull => .any

/-- **What a function computes is of its kind.** -/
theorem admits_compute (f : StoreFunction) (vs : List Document) :
    f.resultKind.Admits (f.compute vs) := by
  fun_cases compute f vs with
  | case1 | case2 | case3 | case11 | case15 => exact .inr rfl
  | case4 | case5 =>
      refine admits_onText (fun _ => ?_) _
      exact .inr rfl
  | case6 => exact admits_onNumber (fun q => q.magnitude.admits_toDocument) _
  | case7 | case8 | case9 => exact admits_onNumber (fun q => q.admits_rounded _) _
  | case10 => exact admits_onNumber (fun q => admits_ofFloat _) _
  | case12 | case13 =>
      refine admits_onTexts (fun _ _ => ?_) _ _
      exact .inr rfl
  | case14 => exact admits_onNumber (fun x => admits_onNumber (fun y => admits_ofFloat _) _) _
  | case16 => exact admits_replaced _ _ _
  | case17 | case18 => exact admits_substringOf _ _ _
  | case19 => exact .inl rfl

/-- The first value that is not null is the first one if that has a value. -/
lemma some_firstValued_cons (v : Datum) (vs : List Datum) :
    some (firstValued (v :: vs)) = if isValued v then v else some (firstValued vs) := by
  rcases v with _ | d
  · rfl
  · cases d <;> rfl

/-- A function that looks at its arguments only if all of them have values. -/
lemma applyTo_of_strict {f : StoreFunction} (hf : f ≠ .ifMissingOrNull) (ds : List Datum) :
    f.applyTo ds = if ds.any Option.isNone then none
      else if (ds.filterMap id).any Document.isNull then some .null
      else some (f.compute (ds.filterMap id)) := by
  cases f with
  | ifMissingOrNull => exact absurd rfl hf
  | _ => rfl

end StoreFunction

/-- Arguments that are not missing are values. -/
lemma map_some_filterMap {ds : List Datum} (h : none ∉ ds) : ds = (ds.filterMap id).map some := by
  induction ds with
  | nil => rfl
  | cons v ds ih =>
      obtain ⟨hv, hds⟩ := not_or.1 (List.mem_cons.not.1 h)
      cases v with
      | none => exact absurd rfl hv
      | some d => exact congrArg (some d :: ·) (ih hds)

section Calls

variable {name : String} {f : StoreFunction} {ds : List Datum} {d : Document}

/-- **A function has a value only if all of its arguments do**, and computes with those. -/
theorem exists_of_callFunction (hname : StoreFunction.ofName? name = some f)
    (hstrict : f ≠ .ifMissingOrNull) (h : callFunction name ds = .ok (some d))
    (hd : d.isNull = false) :
    ∃ vs, ds = vs.map some ∧ (∀ v ∈ vs, v.isNull = false) ∧ d = f.compute vs := by
  rw [callFunction, hname] at h
  simp only at h
  split at h
  · rw [StoreFunction.applyTo_of_strict hstrict] at h
    split at h
    · cases h
    · rename_i hsome
      split at h
      · cases h
        cases hd
      · rename_i hvalued
        cases h
        refine ⟨ds.filterMap id, ?_, ?_, rfl⟩
        · exact map_some_filterMap (by simpa using hsome)
        · rw [List.any_eq_true] at hvalued
          exact fun v hv => Bool.eq_false_iff.2 fun hnull => hvalued ⟨v, hv, hnull⟩
  · cases h

/-- A function computes with the values of its arguments. -/
lemma callFunction_of_valued (hname : StoreFunction.ofName? name = some f)
    (hstrict : f ≠ .ifMissingOrNull) {vs : List Document} (htakes : f.takes vs.length = true)
    (hvs : ∀ v ∈ vs, v.isNull = false) :
    callFunction name (vs.map some) = .ok (some (f.compute vs)) := by
  rw [callFunction, hname]
  have hsome : (vs.map some).any Option.isNone = false := by simp
  have hnull : vs.any Document.isNull = false := by simpa using hvs
  simp [htakes, StoreFunction.applyTo_of_strict hstrict, hsome, hnull]

end Calls

end EntityQuery
