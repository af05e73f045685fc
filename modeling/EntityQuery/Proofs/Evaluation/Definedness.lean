import EntityQuery.Proofs.Evaluation.Kinds
import EntityQuery.Proofs.Evaluation.Safety

/-!
# Results that are neither missing nor null

Operators and functions have a result on operands of the kinds that they ask for, but for a few
operands: a double that is not finite is written as a text and takes no part in arithmetic, a
division by zero has no result, and no part of a text starts further before its end than the text is
long.

* `Operator.DefinedOn`: two operands on which arithmetic has a result.
* `Operator.isValued_of_arithmetic`, `Operator.isValued_of_comparison` and `isValued_connective`:
  the results of operators.
* `eval_call_of_valued`: a function computes with the values of its arguments.
* `StoreFunction.exists_substring`: a part of a text that starts within it.
-/

namespace EntityQuery

/-- A quantity that a document can hold as a number. -/
def Quantity.IsFinite (q : Quantity) : Prop := q.toDocument.isNull = false

/-- A document of doubles that is not a text is a number. -/
lemma exists_quantity_of_represents {d : Document} (h : Registry.standard.Represents .float64 d)
    (hd : d.isNull = false) (htext : DocumentKind.ofDocument d ≠ .string) :
    ∃ q, Quantity.ofDocument? d = some q := by
  cases d with
  | number n =>
      rw [Quantity.ofDocument?]
      cases n.toInt64? with
      | some i => exact ⟨_, rfl⟩
      | none => exact ⟨_, rfl⟩
  | string s => exact absurd rfl htext
  | null => cases hd
  | _ => exact absurd h (Registry.not_represents rfl rfl)

/-- An integer that fits 64 bits is the quantity of its document. -/
lemma ofDocument?_ofInt {n : Int} (h : fitsInt64 n = true) :
    Quantity.ofDocument? (.ofInt n) = some (.int n) := by
  rw [Document.ofInt, Quantity.ofDocument?, Number.toInt64?_eq_some.2 ⟨rfl, h⟩]

/-- Integers that fit 64 bits are equal as documents if they are equal. -/
lemma equal_ofInt {m n : Int} (hm : fitsInt64 m = true) (hn : fitsInt64 n = true) :
    (Document.ofInt m).equal (.ofInt n) = decide (m = n) := by
  rw [Document.ofInt, Document.ofInt, Document.equal, Number.compare, Number.toInt64?,
    Number.toInt64?, if_pos hm, if_pos hn, Bool.eq_iff_iff, beq_iff_eq, decide_eq_true_iff]
  exact Int.compare_eq_eq

/-! ## Operators

The kinds of operands for which an operator is made leave only arithmetic without a result: a number
that is not finite, a division by zero.  These are named as a condition on the two operands. -/

/-- Of two truth values, the conjunction and the disjunction is one. -/
lemma isValued_connective (decisive x y : Bool) :
    isValued (connective decisive (some (.bool x)) (some (.bool y))) = true := by
  cases decisive <;> cases x <;> cases y <;> rfl

namespace Operator

variable {op : Operator} {a b : Document} {v : Datum}

/-- Two values on which an operator has a result, if they are of the kinds that it asks for: only
arithmetic may have none. -/
def DefinedOn (op : Operator) (a b : Document) : Prop :=
  op.isArithmetic = true → DocumentKind.ofDocument a ≠ .string ∧ DocumentKind.ofDocument b ≠ .string ∧
    ∀ x y, Quantity.ofDocument? a = some x → Quantity.ofDocument? b = some y →
      ∃ q, op.compute? x y = some q ∧ q.IsFinite

/-- A comparison of two values has a result. -/
lemma isValued_of_comparison (hop : op.isComparison = true) (ha : a.isNull = false)
    (hb : b.isNull = false) (h : op.apply (some a) (some b) = .ok v) : isValued v = true := by
  rw [apply_of_valued (isLogical_of_isComparison hop) ha hb] at h
  cases op with
  | eq | ne | lt | le | gt | ge =>
      cases h
      rfl
  | _ => cases hop

/-- **Arithmetic on two numbers has a result** where it is defined. -/
theorem isValued_of_arithmetic (hop : op.isArithmetic = true)
    (ha : Registry.standard.Represents .float64 a) (hb : Registry.standard.Represents .float64 b)
    (hnull : a.isNull = false) (hnull' : b.isNull = false) (hdefined : op.DefinedOn a b)
    (h : op.apply (some a) (some b) = .ok v) : isValued v = true := by
  obtain ⟨htext, htext', hresult⟩ := hdefined hop
  obtain ⟨x, hx⟩ := exists_quantity_of_represents ha hnull htext
  obtain ⟨y, hy⟩ := exists_quantity_of_represents hb hnull' htext'
  obtain ⟨q, hq, hfinite⟩ := hresult x y hx hy
  rw [apply_of_valued (isLogical_of_isArithmetic hop) hnull hnull',
    onValues_of_isArithmetic hop] at h
  obtain ⟨d, hd, rfl⟩ := Computation.map_eq_ok.1 h
  rw [arithmetic_of_quantities hx hy hd, hq]
  exact isValued_iff.2 ⟨_, rfl, hfinite⟩

end Operator

/-! ## Functions

A function that is called with values computes with them.  What may have no result is a part of a
text, and there it depends on where the part starts. -/

/-- **A call computes with the values of its arguments.** -/
theorem eval_call_of_valued {env : Environment} {scope : Scope} {name : String} {f : StoreFunction}
    {es : List Expression} {ds : List Document} (hname : StoreFunction.ofName? name = some f)
    (hstrict : f ≠ .ifMissingOrNull) (htakes : f.takes ds.length = true)
    (hds : ∀ d ∈ ds, d.isNull = false) (hes : evalList env es scope = .ok (ds.map some)) :
    (Expression.call name es).eval env scope = .ok (some (f.compute ds)) :=
  Computation.bind_eq_ok.2 ⟨_, hes, callFunction_of_valued hname hstrict htakes hds⟩

/-- The difference of two integers that fits 64 bits. -/
lemma apply_sub_ofInt {x y : Int} (hx : fitsInt64 x = true) (hy : fitsInt64 y = true)
    (hsub : fitsInt64 (x - y) = true) :
    Operator.sub.apply (some (.ofInt x)) (some (.ofInt y)) = .ok (some (.ofInt (x - y))) := by
  have happly : Operator.sub.apply (some (.ofInt x)) (some (.ofInt y)) =
      (arithmetic .sub (.ofInt x) (.ofInt y)).map some := rfl
  rw [happly, arithmetic, ofDocument?_ofInt hx, ofDocument?_ofInt hy]
  simp only [arithmeticInts, Quantity.checked, hsub, if_true]
  rfl

namespace StoreFunction

/-- A part of a text that starts within the text, be it counted from the start or from the end. -/
lemma exists_substring {s : List Char} {start : Int} (hleast : -(s.length : Int) ≤ start)
    (hgreatest : start ≤ s.length) (count : Option Nat) :
    ∃ t, substring s start count = .string t := by
  have hinside : ∀ position : Int, 0 ≤ position → position ≤ s.length →
      (decide (position < 0) || decide ((s.length : Int) < position)) = false := by
    intro position hpos hle
    rw [Bool.or_eq_false_iff, decide_eq_false_iff_not, decide_eq_false_iff_not]
    omega
  rw [substring]
  split
  · rw [hinside _ (by omega) (by omega)]
    exact ⟨_, rfl⟩
  · rw [hinside _ (by omega) hgreatest]
    exact ⟨_, rfl⟩

/-- The part of a text behind a position that is an integer of 64 bits. -/
lemma substringOf_ofInt {s : String} {start : Int} (hfits : fitsInt64 start = true) :
    substringOf (.string s) (.ofInt start) none = substring s.toList start none := by
  simp only [substringOf, ofDocument?_ofInt hfits]

end StoreFunction
end EntityQuery
