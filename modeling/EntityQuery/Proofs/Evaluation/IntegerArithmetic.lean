import EntityQuery.Proofs.Evaluation.Definedness
import EntityQuery.Proofs.Number.Finiteness

/-!
# Arithmetic on integers of 64 bits

Two integers of 64 bits have at most one exact result under an operator.  If it is such an integer,
it is the value of the operator; if there is none, the value is what the operator makes of the
nearest doubles, and that is finite.  A division by zero is null.

One pair of operands has no value at all: the quotient of the least integer and minus one is `2 ^
63`, and both `/` and `%` end the evaluation there, though the remainder is zero.

* `Operator.HasExact`: the exact results of an operator, said by multiplication and addition.
* `Document.IsResult`: a document that is an exact result, or the given double if there is none.
* `Operator.hasExact_div` and `Operator.hasExact_mod`: the quotient and the remainder that are
  computed.
* `arithmeticInts_isResult`: an operator on two integers.
* `integer_arithmetic_exact`: the expressions with operators, a minus sign and `ABS`.
* `integer_arithmetic_overflows`: the operands without a value.
-/

namespace EntityQuery

/-! ## Exact results

An exact result is described by multiplication and addition and not by the division that is
computed, so that the description says what is wanted of a quotient and a remainder. -/

/-- **The exact results of an operator on two integers.**  A quotient leaves no remainder; a
remainder is less than the divisor and has the sign of the dividend. -/
inductive Operator.HasExact : Operator → Int → Int → Int → Prop where
  | add {x y : Int} : HasExact .add x y (x + y)
  | sub {x y : Int} : HasExact .sub x y (x - y)
  | mul {x y : Int} : HasExact .mul x y (x * y)
  | div {x y q : Int} (hzero : y ≠ 0) (h : x = q * y) : HasExact .div x y q
  | mod {x y q r : Int} (h : x = q * y + r) (hlt : r.natAbs < y.natAbs) (hsign : 0 ≤ r * x) :
      HasExact .mod x y r

/-- A document is the exact result if that fits 64 bits, and the given finite double if there is
none that does. -/
structure Document.IsResult (exact : Int → Prop) (rounded : Float) (d : Document) : Prop where
  integer : ∀ n, d = .ofInt n ↔ exact n ∧ fitsInt64 n = true
  double : (∀ n, exact n → fitsInt64 n = false) →
    d = .number (.float rounded) ∧ Number.isFinite rounded = true

namespace Document.IsResult

variable {exact : Int → Prop} {rounded : Float} {n : Int}

lemma of_fits (hexact : ∀ m, exact m ↔ m = n) (hfits : fitsInt64 n = true) :
    (Document.ofInt n).IsResult exact rounded where
  integer m := by
    rw [hexact]
    constructor
    · intro h
      cases h
      exact ⟨rfl, hfits⟩
    · rintro ⟨rfl, -⟩
      rfl
  double h := by
    rw [h n ((hexact n).2 rfl)] at hfits
    cases hfits

lemma of_double (hexact : ∀ m, exact m → fitsInt64 m = false)
    (hfinite : Number.isFinite rounded = true) :
    (Document.ofFloat rounded).IsResult exact rounded := by
  have hdocument : Document.ofFloat rounded = .number (.float rounded) := if_pos hfinite
  refine ⟨fun m => ?_, fun _ => ⟨hdocument, hfinite⟩⟩
  rw [hdocument]
  constructor
  · intro h
    cases h
  · rintro ⟨hm, hfits⟩
    rw [hexact m hm] at hfits
    cases hfits

/-- A result that is checked for 64 bits. -/
lemma of_checked (hexact : ∀ m, exact m ↔ m = n)
    (hfinite : fitsInt64 n = false → Number.isFinite rounded = true) :
    (Quantity.checked n rounded).toDocument.IsResult exact rounded := by
  rw [Quantity.checked]
  cases hfits : fitsInt64 n with
  | true => exact of_fits hexact hfits
  | false =>
    refine of_double (fun m hm => ?_) (hfinite hfits)
    rw [(hexact m).1 hm, hfits]

end Document.IsResult

/-! ## Quotients and remainders

The description determines the result.  For a remainder this needs an argument: two candidates
differ by a multiple of the divisor, and both lie within less than the divisor on the same side of
zero. -/

namespace Operator

variable {x y n : Int}

lemma hasExact_add : Operator.add.HasExact x y n ↔ n = x + y := by
  constructor
  · rintro ⟨⟩
    rfl
  · rintro rfl
    exact .add

lemma hasExact_sub : Operator.sub.HasExact x y n ↔ n = x - y := by
  constructor
  · rintro ⟨⟩
    rfl
  · rintro rfl
    exact .sub

lemma hasExact_mul : Operator.mul.HasExact x y n ↔ n = x * y := by
  constructor
  · rintro ⟨⟩
    rfl
  · rintro rfl
    exact .mul

/-- **A quotient is exact if nothing remains.** -/
lemma hasExact_div (hzero : y ≠ 0) :
    Operator.div.HasExact x y n ↔ x.tmod y = 0 ∧ n = x.tdiv y := by
  constructor
  · intro h
    cases h with
    | div _ h =>
    subst h
    exact ⟨Int.mul_tmod_left n y, (Int.mul_tdiv_cancel n hzero).symm⟩
  · rintro ⟨hrest, rfl⟩
    exact .div hzero (Int.tdiv_mul_cancel_of_tmod_eq_zero hrest).symm

lemma natAbs_tmod_lt (x : Int) (hzero : y ≠ 0) : (x.tmod y).natAbs < y.natAbs := by
  rw [Int.natAbs_tmod]
  exact Nat.mod_lt _ (Int.natAbs_pos.2 hzero)

/-- The sign of the remainder that is computed is that of the dividend. -/
lemma tmod_mul_nonneg (x y : Int) : 0 ≤ x.tmod y * x := by
  rcases Int.le_total 0 x with hx | hx
  · exact Int.mul_nonneg (Int.tmod_nonneg y hx) hx
  · have hneg := Int.tmod_nonneg y (Int.neg_nonneg_of_nonpos hx)
    rw [Int.neg_tmod] at hneg
    exact Int.mul_nonneg_of_nonpos_of_nonpos (by omega) hx

/-- Two numbers on the same side of zero are no further apart than the greater one is from zero. -/
lemma natAbs_sub_lt {m n x : Int} {k : Nat} (hzero : x ≠ 0) (hm : 0 ≤ m * x) (hn : 0 ≤ n * x)
    (hm' : m.natAbs < k) (hn' : n.natAbs < k) : (m - n).natAbs < k := by
  rcases Int.lt_or_gt_of_ne hzero with hx | hx
  · have := Int.nonpos_of_mul_nonneg_left hm hx
    have := Int.nonpos_of_mul_nonneg_left hn hx
    omega
  · have := Int.nonneg_of_mul_nonneg_left hm hx
    have := Int.nonneg_of_mul_nonneg_left hn hx
    omega

/-- **The remainder is the only one** that is less than the divisor and has the sign of the
dividend. -/
lemma hasExact_mod (hzero : y ≠ 0) : Operator.mod.HasExact x y n ↔ n = x.tmod y := by
  constructor
  · intro h
    cases h with
    | @mod _ _ q _ h hlt hsign =>
    have hdvd : y ∣ n - x.tmod y := ⟨x.tdiv y - q, by
      have := Int.tmod_add_mul_tdiv x y
      rw [Int.mul_sub, Int.mul_comm y q]
      omega⟩
    have hnear : (n - x.tmod y).natAbs < y.natAbs := by
      by_cases hx : x = 0
      · rwa [hx, Int.zero_tmod, Int.sub_zero]
      · exact natAbs_sub_lt hx hsign (tmod_mul_nonneg x y) hlt (natAbs_tmod_lt x hzero)
    exact Int.eq_of_sub_eq_zero (Int.eq_zero_of_dvd_of_natAbs_lt_natAbs hdvd hnear)
  · rintro rfl
    refine .mod (q := x.tdiv y) ?_ (natAbs_tmod_lt x hzero) (tmod_mul_nonneg x y)
    rw [Int.mul_comm, Int.mul_tdiv_add_tmod]

/-- The least integer is divided by minus one. -/
def Overflows (op : Operator) (x y : Int) : Prop :=
  (op = .div ∨ op = .mod) ∧ x = int64Min ∧ y = -1

/-- An integer is divided by zero. -/
def DividesByZero (op : Operator) (y : Int) : Prop := (op = .div ∨ op = .mod) ∧ y = 0

/-- What an arithmetic operator makes of two doubles. -/
def onDoubles (op : Operator) (x y : Float) : Float :=
  match op with
  | .add => x + y
  | .sub => x - y
  | .mul => x * y
  | .div => x / y
  | _ => remainderOfFloats x y

end Operator

/-! ## Operators on integers of 64 bits

Sums, differences and products are checked for 64 bits and fall back to doubles.  A quotient or a
remainder of two such integers fits without a check, but for the one pair of operands on which both
operators fail. -/

section

variable {x y : Int} (hx : fitsInt64 x = true) (hy : fitsInt64 y = true)

include hx

/-- A divisor other than one and minus one halves the dividend. -/
lemma fitsInt64_tdiv (hoverflow : ¬(x = int64Min ∧ y = -1)) : fitsInt64 (x.tdiv y) = true := by
  rw [fitsInt64_iff] at hx ⊢
  simp only [int64Min, int64Max] at hx hoverflow ⊢
  by_cases hone : y = 1
  · rw [hone, Int.tdiv_one]
    exact hx
  · by_cases hneg : y = -1
    · rw [hneg, Int.tdiv_neg, Int.tdiv_one]
      omega
    · have hhalf : (x.tdiv y).natAbs ≤ x.natAbs / 2 := by
        rw [Int.natAbs_tdiv]
        rcases Nat.eq_zero_or_pos y.natAbs with hzero | hpos
        · rw [hzero]
          exact Nat.le_trans (Nat.le_of_eq (Nat.div_zero _)) (Nat.zero_le _)
        · exact Nat.div_le_div_left (by omega) (by decide)
      omega

omit hx in
include hy in
lemma fitsInt64_tmod (hzero : y ≠ 0) : fitsInt64 (x.tmod y) = true := by
  rw [fitsInt64_iff] at hy ⊢
  simp only [int64Min, int64Max] at hy ⊢
  have := Operator.natAbs_tmod_lt x hzero
  omega

include hy

/-- **An operator on two integers** has the exact result if that fits, and a finite double
otherwise. -/
theorem arithmeticInts_isResult {op : Operator} (hop : op.isArithmetic = true)
    (hzero : ¬ op.DividesByZero y) (hoverflow : ¬ op.Overflows x y) :
    ∃ d, arithmeticInts op x y = .ok d ∧
      d.IsResult (op.HasExact x y) (op.onDoubles (.ofInt x) (.ofInt y)) := by
  cases op with
  | add =>
    exact ⟨_, rfl, .of_checked (fun _ => Operator.hasExact_add) fun _ => Number.isFinite_add hx hy⟩
  | sub =>
    exact ⟨_, rfl, .of_checked (fun _ => Operator.hasExact_sub) fun _ => Number.isFinite_sub hx hy⟩
  | mul =>
    exact ⟨_, rfl, .of_checked (fun _ => Operator.hasExact_mul) fun _ => Number.isFinite_mul hx hy⟩
  | div =>
    have hy0 : y ≠ 0 := fun h => hzero ⟨.inl rfl, h⟩
    have hpair : ¬(x = int64Min ∧ y = -1) := fun h => hoverflow ⟨.inl rfl, h⟩
    have hexact (n : Int) := Operator.hasExact_div (x := x) (n := n) hy0
    rw [arithmeticInts, divideInts, if_neg hy0, if_neg (by simpa using hpair)]
    by_cases hrest : x.tmod y = 0
    · rw [if_pos hrest]
      exact ⟨_, rfl, .of_fits (fun n => by rw [hexact, and_iff_right hrest])
        (fitsInt64_tdiv hx hpair)⟩
    · rw [if_neg hrest]
      exact ⟨_, rfl, .of_double (fun n hn => absurd ((hexact n).1 hn).1 hrest)
        (Number.isFinite_div hx hy hy0)⟩
  | mod =>
    have hy0 : y ≠ 0 := fun h => hzero ⟨.inr rfl, h⟩
    have hpair : ¬(x = int64Min ∧ y = -1) := fun h => hoverflow ⟨.inr rfl, h⟩
    rw [arithmeticInts, remainderInts, if_neg hy0, if_neg (by simpa using hpair)]
    exact ⟨_, rfl, .of_fits (fun n => Operator.hasExact_mod hy0) (fitsInt64_tmod hy hy0)⟩
  | _ => cases hop

end

lemma arithmeticInts_by_zero {op : Operator} {x y : Int} (h : op.DividesByZero y) :
    arithmeticInts op x y = .ok .null := by
  obtain ⟨rfl | rfl, rfl⟩ := h <;> rfl

lemma arithmeticInts_overflow {op : Operator} {x y : Int} (h : op.Overflows x y) :
    arithmeticInts op x y = .error .divisionOverflow := by
  obtain ⟨rfl | rfl, rfl, rfl⟩ := h <;> rfl

/-! ## Signs

The range of 64 bits has one negative integer more than it has positive ones.  The opposite and the
magnitude of that integer are the only ones that do not fit. -/

/-- Only the least integer has a magnitude that no integer of 64 bits has with the other sign. -/
lemma eq_int64Min_of_not_fits {x n : Int} (hx : fitsInt64 x = true) (hn : n.natAbs = x.natAbs)
    (hfits : fitsInt64 n = false) : x = int64Min := by
  rw [fitsInt64_iff] at hx
  rw [← Bool.not_eq_true, fitsInt64_iff] at hfits
  simp only [int64Min, int64Max] at hx hfits ⊢
  omega

lemma negate_isResult {x : Int} (hx : fitsInt64 x = true) :
    (Quantity.int x).negate.toDocument.IsResult (· = -x) (-.ofInt x) := by
  refine .of_checked (fun _ => Iff.rfl) fun hfits => ?_
  rw [eq_int64Min_of_not_fits hx (Int.natAbs_neg x) hfits]
  decide +kernel

lemma magnitude_isResult {x : Int} (hx : fitsInt64 x = true) :
    (Quantity.int x).magnitude.toDocument.IsResult (· = x.natAbs) (.ofInt x.natAbs) := by
  refine .of_checked (fun _ => Iff.rfl) fun hfits => ?_
  rw [eq_int64Min_of_not_fits hx (Int.natAbs_natCast _) hfits]
  decide +kernel

/-! ## Expressions -/

section

variable {env : Environment} {scope : Scope} {l r : Expression} {x y : Int}
  (hx : fitsInt64 x = true) (hl : l.eval env scope = .ok (some (.ofInt x)))

include hx hl

lemma eval_binary_ofInt {op : Operator} (hop : op.isArithmetic = true) (hy : fitsInt64 y = true)
    (hr : r.eval env scope = .ok (some (.ofInt y))) :
    (Expression.binary op l r).eval env scope = (arithmeticInts op x y).map some := by
  have heval : (Expression.binary op l r).eval env scope =
      op.apply (some (.ofInt x)) (some (.ofInt y)) := by
    rw [Expression.eval, hl, hr]
    rfl
  rw [heval, Operator.apply_of_valued (Operator.isLogical_of_isArithmetic hop) rfl rfl,
    Operator.onValues_of_isArithmetic hop, arithmetic, ofDocument?_ofInt hx, ofDocument?_ofInt hy]

lemma eval_neg_ofInt : (Expression.neg l).eval env scope =
    .ok (some (Quantity.int x).negate.toDocument) := by
  rw [Expression.eval, hl]
  show Except.ok (oppositeOf (some (.ofInt x))) = _
  rw [oppositeOf, ofDocument?_ofInt hx]

lemma eval_abs_ofInt : (Expression.call "ABS" [l]).eval env scope =
    .ok (some (Quantity.int x).magnitude.toDocument) := by
  have hargs : evalList env [l] scope = .ok ([Document.ofInt x].map some) := by
    rw [evalList, hl]
    rfl
  rw [eval_call_of_valued (f := .abs) rfl (by decide) rfl (by simp [Document.ofInt, Document.isNull])
    hargs, StoreFunction.compute, StoreFunction.onNumber, ofDocument?_ofInt hx]

end

/-- **Integer arithmetic is exact.**  Where two expressions have integers of 64 bits as values, an
operator on them is null if it divides by zero, and otherwise the exact result if that fits 64 bits
and a finite double if it does not; so are the opposite and the magnitude.  Only the least integer
divided by minus one has no value: `/` and `%` fail on it. -/
theorem integer_arithmetic_exact {env : Environment} {scope : Scope} {l r : Expression} {x y : Int}
    (hx : fitsInt64 x = true) (hy : fitsInt64 y = true)
    (hl : l.eval env scope = .ok (some (.ofInt x))) (hr : r.eval env scope = .ok (some (.ofInt y))) :
    (∀ op : Operator, op.isArithmetic = true →
      (op.Overflows x y → (Expression.binary op l r).eval env scope = .error .divisionOverflow) ∧
      (op.DividesByZero y → (Expression.binary op l r).eval env scope = .ok (some .null)) ∧
      (¬ op.Overflows x y → ¬ op.DividesByZero y →
        ∃ d, (Expression.binary op l r).eval env scope = .ok (some d) ∧
          d.IsResult (op.HasExact x y) (op.onDoubles (.ofInt x) (.ofInt y)))) ∧
    (∃ d, (Expression.neg l).eval env scope = .ok (some d) ∧ d.IsResult (· = -x) (-.ofInt x)) ∧
    (∃ d, (Expression.call "ABS" [l]).eval env scope = .ok (some d) ∧
      d.IsResult (· = x.natAbs) (.ofInt x.natAbs)) := by
  refine ⟨fun op hop => ?_, ⟨_, eval_neg_ofInt hx hl, negate_isResult hx⟩,
    ⟨_, eval_abs_ofInt hx hl, magnitude_isResult hx⟩⟩
  rw [eval_binary_ofInt hx hl hop hy hr]
  refine ⟨fun h => ?_, fun h => ?_, fun hoverflow hzero => ?_⟩
  · rw [arithmeticInts_overflow h]
    rfl
  · rw [arithmeticInts_by_zero h]
    rfl
  · obtain ⟨d, hd, hresult⟩ := arithmeticInts_isResult hx hy hop hzero hoverflow
    rw [hd]
    exact ⟨d, rfl, hresult⟩

/-- The scope of a document with one field, and that field. -/
def Sample.measured (n : Int) : Scope := .ofRow (.single "d" (.object [("a", .ofInt n)]))

def Sample.measure : Expression := .field (.ident "d") "a"

/-- The least integer and three: a remainder, a double for the product and one for the opposite. -/
theorem integer_arithmetic_exact_least :
    let env : Environment := ⟨.empty, []⟩
    let scope := Sample.measured int64Min
    let three : Expression := .literal (.int 3)
    (fitsInt64 int64Min = true ∧ fitsInt64 3 = true ∧
      Sample.measure.eval env scope = .ok (some (.ofInt int64Min)) ∧
      three.eval env scope = .ok (some (.ofInt 3))) ∧
    (Expression.binary .mod Sample.measure three).eval env scope = .ok (some (.ofInt (-2))) ∧
    (∃ z, (Expression.binary .mul Sample.measure three).eval env scope =
      .ok (some (.number (.float z))) ∧ Number.isFinite z = true) ∧
    ∃ z, (Expression.neg Sample.measure).eval env scope = .ok (some (.number (.float z))) ∧
      Number.isFinite z = true := by
  intro env scope three
  have h := @integer_arithmetic_exact env scope Sample.measure three int64Min 3 rfl rfl rfl rfl
  refine ⟨⟨rfl, rfl, rfl, rfl⟩, ?_, ?_, ?_⟩
  · obtain ⟨d, hd, hresult⟩ := (h.1 .mod rfl).2.2 (by simp [Operator.Overflows])
      (by simp [Operator.DividesByZero])
    rw [hd, (hresult.integer (-2)).2 ⟨(Operator.hasExact_mod (by decide)).2 rfl, rfl⟩]
  · obtain ⟨d, hd, hresult⟩ := (h.1 .mul rfl).2.2 (by simp [Operator.Overflows])
      (by simp [Operator.DividesByZero])
    obtain ⟨hdouble, hfinite⟩ := hresult.double fun n hn => by
      rw [Operator.hasExact_mul.1 hn]
      rfl
    exact ⟨_, hdouble ▸ hd, hfinite⟩
  · obtain ⟨d, hd, hresult⟩ := h.2.1
    obtain ⟨hdouble, hfinite⟩ := hresult.double fun n hn => by
      rw [hn]
      rfl
    exact ⟨_, hdouble ▸ hd, hfinite⟩

/-- **The least integer and minus one**: the remainder is zero and the quotient a double, but
neither operator has a value. -/
theorem integer_arithmetic_overflows :
    let env : Environment := ⟨.empty, []⟩
    let scope := Sample.measured int64Min
    let minusOne : Expression := .literal (.int (-1))
    Sample.measure.eval env scope = .ok (some (.ofInt int64Min)) ∧
    minusOne.eval env scope = .ok (some (.ofInt (-1))) ∧
    Operator.mod.HasExact int64Min (-1) 0 ∧ fitsInt64 0 = true ∧
    (∀ v, (Expression.binary .mod Sample.measure minusOne).eval env scope ≠ .ok v) ∧
    ∀ v, (Expression.binary .div Sample.measure minusOne).eval env scope ≠ .ok v := by
  refine ⟨rfl, rfl, .mod (q := -int64Min) (by decide) (by decide) (by decide), rfl, ?_, ?_⟩
  · intro v h
    cases h
  · intro v h
    cases h

end EntityQuery
