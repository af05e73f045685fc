import EntityQuery.Number.Decimal
import Mathlib.Algebra.Order.Field.Power
import Mathlib.Tactic.FieldSimp
import Mathlib.Tactic.Linarith
import Mathlib.Tactic.NormNum
import Mathlib.Tactic.Ring

/-!
# The fewest digits that read back

A double is written with the fewest digits that read back to it.  Among seventeen digits there are
always some: two neighbours on the grid of that many digits are closer to each other than the ends
of the interval of numbers that round to the double.  No number rounds to two doubles, so the digits
tell the double.

* `IsBinary64`: the mantissas and exponents of doubles.
* `RoundsTo` and `RoundsTo.unique`: the numbers that round to a double, and to no other one.
* `Decimal.value`: the number that some digits stand for.
* `Decimal.roundsTo_shortest`: the digits of a double read back to it.
-/

namespace EntityQuery

/-- A mantissa and an exponent of a finite double: 53 bits, the first of which is set unless the
exponent is the least one. -/
structure IsBinary64 (mantissa : Nat) (exponent : Int) : Prop where
  fits : mantissa < 2 ^ 53
  least : -1074 ≤ exponent
  greatest : exponent ≤ 971
  normal : -1074 < exponent → 2 ^ 52 ≤ mantissa

/-! ## Rounding

A double owns an interval of numbers, whose ends belong to it if its mantissa is even.  Two such
intervals share no number: this is shown for doubles of one exponent first, and then for the ends of
neighbouring exponents. -/

/-- How far below a double the numbers begin that round to it, in units of its last place.  The gap
below a power of two is half as wide as the gap above it. -/
def gapBelow (mantissa : Nat) (exponent : Int) : ℚ :=
  if mantissa = 2 ^ 52 ∧ -1074 < exponent then 1 / 4 else 1 / 2

/-- A number rounds to a double: it is nearer to it than to others, or in the middle between two of
which the double is the even one. -/
structure RoundsTo (q : ℚ) (mantissa : Nat) (exponent : Int) : Prop where
  lower : (mantissa - gapBelow mantissa exponent) * 2 ^ exponent ≤ q
  upper : q ≤ (mantissa + 1 / 2) * 2 ^ exponent
  odd : mantissa % 2 = 1 →
    (mantissa - gapBelow mantissa exponent) * 2 ^ exponent < q ∧
      q < (mantissa + 1 / 2) * 2 ^ exponent

section

variable {q : ℚ} {m n : Nat} {e f : Int}

lemma RoundsTo.of_lt (hlower : (m - gapBelow m e) * 2 ^ e < q) (hupper : q < (m + 1 / 2) * 2 ^ e) :
    RoundsTo q m e :=
  ⟨hlower.le, hupper.le, fun _ => ⟨hlower, hupper⟩⟩

lemma gapBelow_le (m : Nat) (e : Int) : gapBelow m e ≤ 1 / 2 := by
  rw [gapBelow]
  split <;> norm_num

lemma gapBelow_ge (m : Nat) (e : Int) : 1 / 4 ≤ gapBelow m e := by
  rw [gapBelow]
  split <;> norm_num

/-- A number does not round to two doubles with one exponent. -/
lemma RoundsTo.not_lt_mantissa (hm : RoundsTo q m e) (hn : RoundsTo q n e) : ¬ m < n := by
  intro hlt
  have hpos : (0 : ℚ) < 2 ^ e := by positivity
  have hgap := gapBelow_le n e
  have hle : (m : ℚ) + 1 ≤ n := by exact_mod_cast hlt
  -- the number is the middle between two neighbours, of which one is odd
  have hchain := hn.lower.trans hm.upper
  rw [mul_le_mul_iff_left₀ hpos] at hchain
  have hnext : n = m + 1 := by
    have : (n : ℚ) ≤ m + 1 := by linarith
    have : n ≤ m + 1 := by exact_mod_cast this
    omega
  have hhalf : gapBelow n e = 1 / 2 := by
    rw [hnext] at hchain hgap ⊢
    push_cast at hchain
    linarith
  rcases Nat.mod_two_eq_zero_or_one m with heven | hodd
  · have hstrict := (hn.odd (by omega)).1.trans_le hm.upper
    rw [mul_lt_mul_iff_left₀ hpos, hhalf, hnext] at hstrict
    push_cast at hstrict
    linarith
  · have hstrict := hn.lower.trans_lt (hm.odd hodd).2
    rw [mul_lt_mul_iff_left₀ hpos, hhalf, hnext] at hstrict
    push_cast at hstrict
    linarith

/-- A number does not round to doubles with different exponents. -/
lemma RoundsTo.not_lt_exponent (hd : IsBinary64 m e) (hd' : IsBinary64 n f) (hm : RoundsTo q m e)
    (hn : RoundsTo q n f) : ¬ e < f := by
  intro hlt
  have hpos : (0 : ℚ) < 2 ^ e := by positivity
  have hdouble : 2 * (2 : ℚ) ^ e ≤ 2 ^ f := by
    rw [← zpow_one_add₀ two_ne_zero]
    exact zpow_le_zpow_right₀ one_le_two (by omega)
  have hleast := hd.least
  have hnormal : (2 ^ 52 : ℚ) ≤ n := by exact_mod_cast hd'.normal (by omega)
  have hfits : (m : ℚ) + 1 ≤ 2 ^ 53 := by exact_mod_cast hd.fits
  have hgap := gapBelow_le n f
  have hwide : (n - gapBelow n f) * (2 * 2 ^ e) ≤ q := by
    refine le_trans (mul_le_mul_of_nonneg_left hdouble ?_) hn.lower
    linarith
  have hchain : (n - gapBelow n f) * 2 * 2 ^ e ≤ (m + 1 / 2) * 2 ^ e := by
    linarith [hm.upper]
  rw [mul_le_mul_iff_left₀ hpos] at hchain
  by_cases hpower : n = 2 ^ 52
  · -- the number is the middle between a power of two and the double below it, which is odd
    have hquarter : gapBelow n f = 1 / 4 := if_pos ⟨hpower, by omega⟩
    rw [hquarter, hpower] at hchain hwide
    push_cast at hchain hwide
    have hodd : m % 2 = 1 := by
      have hgreatest : (2 ^ 53 : ℚ) ≤ m + 1 := by linarith
      have : 2 ^ 53 ≤ m + 1 := by exact_mod_cast hgreatest
      have := hd.fits
      omega
    have hstrict := (hm.odd hodd).2
    have : (2 ^ 53 - 1 / 2) * (2 : ℚ) ^ e < (m + 1 / 2) * 2 ^ e := by linarith
    rw [mul_lt_mul_iff_left₀ hpos] at this
    linarith
  · have hgreater : (2 ^ 52 : ℚ) + 1 ≤ n := by
      have : 2 ^ 52 ≤ n := hd'.normal (by omega)
      exact_mod_cast (show 2 ^ 52 + 1 ≤ n by omega)
    linarith

/-- **A number rounds to one double only.** -/
theorem RoundsTo.unique (hd : IsBinary64 m e) (hd' : IsBinary64 n f) (hm : RoundsTo q m e)
    (hn : RoundsTo q n f) : m = n ∧ e = f := by
  have hexponent : e = f := by
    have h := hm.not_lt_exponent hd hd' hn
    have h' := hn.not_lt_exponent hd' hd hm
    omega
  subst hexponent
  have h := hm.not_lt_mantissa hn
  have h' := hn.not_lt_mantissa hm
  exact ⟨by omega, rfl⟩

end

/-! ## A double as a fraction

The program decides what reads back by products of natural numbers, because no decimal is exact in
doubles.  Numerator and denominator stand for the double; a quarter of the last place is the unit in
which the ends of its interval are integers, below a power of two as well. -/

/-- The fraction that a double is, with its last place as a fraction of the same denominator. -/
structure IsFraction (num den step : Nat) (mantissa : Nat) (exponent : Int) : Prop where
  num_eq : num = mantissa * step
  den_pos : 0 < den
  step_eq : (step : ℚ) / den = 2 ^ exponent

namespace IsFraction

variable {num den step m : Nat} {e : Int}

lemma of_nonneg (m : Nat) {e : Int} (he : 0 ≤ e) :
    IsFraction (m * 2 ^ e.toNat) 1 (2 ^ e.toNat) m e where
  num_eq := rfl
  den_pos := Nat.one_pos
  step_eq := by
    rw [Nat.cast_one, div_one, Nat.cast_pow, Nat.cast_ofNat, ← zpow_natCast, Int.toNat_of_nonneg he]

lemma of_neg (m : Nat) {e : Int} (he : ¬ 0 ≤ e) : IsFraction m (2 ^ (-e).toNat) 1 m e where
  num_eq := (Nat.mul_one m).symm
  den_pos := Nat.two_pow_pos _
  step_eq := by
    rw [Nat.cast_one, one_div, Nat.cast_pow, Nat.cast_ofNat, ← zpow_natCast,
      Int.toNat_of_nonneg (by omega), ← zpow_neg, neg_neg]

lemma value (h : IsFraction num den step m e) : (num : ℚ) / den = m * 2 ^ e := by
  rw [h.num_eq, Nat.cast_mul, mul_div_assoc, h.step_eq]

lemma den_cast (h : IsFraction num den step m e) : (0 : ℚ) < den := Nat.cast_pos.2 h.den_pos

end IsFraction

/-- A decimal as a fraction, by the sign of its exponent. -/
lemma exists_fraction (candidate : Nat) (unit : Int) :
    ∃ top bottom : Nat, (if 0 ≤ unit then (candidate * Nat.pow 10 unit.toNat, 1)
      else (candidate, Nat.pow 10 (-unit).toNat)) = (top, bottom) ∧ (0 : ℚ) < bottom ∧
      (top : ℚ) / bottom = candidate * 10 ^ unit := by
  by_cases hunit : 0 ≤ unit
  · refine ⟨_, _, if_pos hunit, by norm_num, ?_⟩
    rw [Nat.cast_one, div_one, Nat.pow_eq, Nat.cast_mul, Nat.cast_pow, Nat.cast_ofNat,
      ← zpow_natCast, Int.toNat_of_nonneg hunit]
  · refine ⟨_, _, if_neg hunit, ?_, ?_⟩
    · rw [Nat.pow_eq]
      positivity
    · rw [Nat.pow_eq, Nat.cast_pow, Nat.cast_ofNat, ← zpow_natCast, Int.toNat_of_nonneg (by omega),
        zpow_neg, div_inv_eq_mul]

/-- The quarters of a last place by which the test goes below a double. -/
def quartersBelow (m : Nat) (e : Int) (step : Nat) : Nat :=
  if decide (m = 2 ^ 52) && decide (-1074 < e) then step else 2 * step

/-- The ends of the interval of the numbers that round to a double, in quarters of a last place. -/
lemma IsFraction.interval {num den step m : Nat} {e : Int} (h : IsFraction num den step m e)
    (hm : 0 < m) :
    (m - gapBelow m e) * (2 : ℚ) ^ e =
      ((4 * num - quartersBelow m e step : Nat) : ℚ) / (4 * den) ∧
    (m + 1 / 2) * (2 : ℚ) ^ e = ((4 * num + 2 * step : Nat) : ℚ) / (4 * den) := by
  have hden := h.den_cast
  have hquarters : (quartersBelow m e step : ℚ) = 4 * gapBelow m e * step := by
    rw [quartersBelow, gapBelow]
    by_cases hnarrow : m = 2 ^ 52 ∧ -1074 < e
    · rw [if_pos hnarrow, if_pos (by simpa using hnarrow)]
      ring
    · rw [if_neg hnarrow, if_neg (by simpa using hnarrow)]
      push_cast
      ring
  have hbelow : quartersBelow m e step ≤ 4 * num := by
    have hstep : step ≤ num := h.num_eq ▸ Nat.le_mul_of_pos_left step hm
    rw [quartersBelow]
    split <;> omega
  constructor
  · rw [Nat.cast_sub hbelow, hquarters, ← h.step_eq, h.num_eq]
    push_cast
    field_simp
  · rw [← h.step_eq, h.num_eq]
    push_cast
    field_simp
    ring

/-- Fractions are compared by their products across. -/
lemma quarters_le_iff {top bottom den : Nat} (hbottom : (0 : ℚ) < bottom) (hden : (0 : ℚ) < den)
    (a : Nat) : ((a : ℚ) / (4 * den) ≤ top / bottom ↔ a * bottom ≤ 4 * top * den) ∧
      ((top : ℚ) / bottom ≤ a / (4 * den) ↔ 4 * top * den ≤ a * bottom) := by
  have hfour : (0 : ℚ) < 4 * den := by linarith
  have hproduct : (top : ℚ) * (4 * den) = 4 * top * den := by ring
  constructor
  · rw [div_le_div_iff₀ hfour hbottom, ← Nat.cast_le (α := ℚ), hproduct]
    push_cast
    rfl
  · rw [div_le_div_iff₀ hbottom hfour, ← Nat.cast_le (α := ℚ), hproduct]
    push_cast
    rfl

/-- **The test for decimals that read back is that for numbers that round to the double.** -/
theorem readsBack_iff {num den step m : Nat} {e : Int} (h : IsFraction num den step m e) (hm : 0 < m)
    (candidate : Nat) (unit : Int) :
    Decimal.readsBack num den (quartersBelow m e step) (2 * step) (m % 2 == 0) candidate unit = true ↔
      RoundsTo (candidate * 10 ^ unit) m e := by
  obtain ⟨top, bottom, hfraction, hbottom, hq⟩ := exists_fraction candidate unit
  obtain ⟨hlower, hupper⟩ := h.interval hm
  have hle := fun a => (@quarters_le_iff top bottom den hbottom h.den_cast a).1
  have hge := fun a => (@quarters_le_iff top bottom den hbottom h.den_cast a).2
  have htest : RoundsTo (candidate * 10 ^ unit) m e ↔
      ((4 * num - quartersBelow m e step) * bottom ≤ 4 * top * den ∧
        4 * top * den ≤ (4 * num + 2 * step) * bottom) ∧
      (m % 2 = 1 → (4 * num - quartersBelow m e step) * bottom < 4 * top * den ∧
        4 * top * den < (4 * num + 2 * step) * bottom) := by
    rw [← hle, ← hge, ← not_le, ← not_le, ← hle, ← hge, not_le, not_le, ← hlower, ← hupper, hq]
    exact ⟨fun h => ⟨⟨h.lower, h.upper⟩, h.odd⟩, fun h => ⟨h.1.1, h.1.2, h.2⟩⟩
  rw [Decimal.readsBack, hfraction, htest]
  rcases Nat.mod_two_eq_zero_or_one m with heven | hodd
  · simp [heven]
  · simp only [hodd, Nat.reduceBEq, Bool.false_eq_true, if_false, Bool.and_eq_true, decide_eq_true_eq,
      forall_const, iff_and_self, and_imp]
    omega

/-! ## The scale of a double

The scale is searched upwards from an estimate, with a bound on the number of steps.  The estimate
is a multiplication by an approximation of the logarithm of two, which is good enough on the
exponents that doubles have. -/

/-- The search for a scale goes up to the first power of ten that is greater. -/
lemma leastScale_spec {num den : Nat} (hden : 0 < den) (fuel : Nat) (low : Int)
    (hfuel : (num : ℚ) / den < 10 ^ (low + fuel)) :
    (num : ℚ) / den < 10 ^ Decimal.leastScale num den fuel low ∧
      (Decimal.leastScale num den fuel low = low ∨
        10 ^ (Decimal.leastScale num den fuel low - 1) ≤ (num : ℚ) / den) := by
  have hpos : (0 : ℚ) < den := Nat.cast_pos.2 hden
  induction fuel generalizing low with
  | zero =>
      rw [Nat.cast_zero, add_zero] at hfuel
      exact ⟨hfuel, .inl rfl⟩
  | succ fuel ih =>
      have hbelow : (if 0 ≤ low then decide (num < den * Nat.pow 10 low.toNat)
          else decide (num * Nat.pow 10 (-low).toNat < den)) = true ↔ (num : ℚ) / den < 10 ^ low := by
        rw [div_lt_iff₀ hpos]
        split
        case isTrue hlow =>
          rw [decide_eq_true_iff, ← Nat.cast_lt (α := ℚ), Nat.pow_eq, Nat.cast_mul, Nat.cast_pow,
            Nat.cast_ofNat, ← zpow_natCast, Int.toNat_of_nonneg hlow, mul_comm]
        case isFalse hlow =>
          rw [decide_eq_true_iff, ← Nat.cast_lt (α := ℚ), Nat.pow_eq, Nat.cast_mul, Nat.cast_pow,
            Nat.cast_ofNat, ← zpow_natCast, Int.toNat_of_nonneg (by omega), zpow_neg,
            ← div_eq_mul_inv, div_lt_iff₀ (by positivity), mul_comm]
      by_cases hlt : (num : ℚ) / den < 10 ^ low
      · rw [Decimal.leastScale, if_pos (hbelow.2 hlt)]
        exact ⟨hlt, .inl rfl⟩
      · rw [Decimal.leastScale, if_neg fun h => hlt (hbelow.1 h)]
        obtain ⟨hless, hleast⟩ := ih (low + 1) (by
          rwa [Nat.cast_succ, add_comm (fuel : Int), ← add_assoc] at hfuel)
        refine ⟨hless, .inr ?_⟩
        rcases hleast with heq | hleast
        · rw [heq, add_sub_cancel_right]
          exact not_lt.1 hlt
        · exact hleast

/-- The number of decimal digits of a power of two is estimated well enough for all doubles. -/
lemma pow_estimates : ∀ k < 1100, 10 ^ (k * 30103 / 100000) ≤ 10 * 2 ^ k ∧
    2 ^ k ≤ 10 ^ (k * 30103 / 100000 + 1) := by
  decide +kernel

/-- The scale from which the search starts. -/
def startScale (k : Int) : Int := k * 30103 / 100000 - 1

/-- The search starts below the scale of a power of two, but not far. -/
lemma startScale_spec {k : Int} (hlow : -1100 < k) (hhigh : k < 1100) :
    (10 : ℚ) ^ (startScale k - 1) ≤ 2 ^ k ∧ (2 : ℚ) ^ (k + 2) ≤ 10 ^ (startScale k + 8) := by
  obtain ⟨j, hj⟩ : ∃ j, j = k.natAbs := ⟨_, rfl⟩
  obtain ⟨t, ht⟩ : ∃ t, t = j * 30103 / 100000 := ⟨_, rfl⟩
  obtain ⟨hless, hgreater⟩ := pow_estimates j (by omega)
  rw [← ht, ← Nat.cast_le (α := ℚ)] at hless hgreater
  push_cast at hless hgreater
  have htwo : (0 : ℚ) < 2 ^ j := by positivity
  have hten : (0 : ℚ) < 10 ^ t := by positivity
  rcases Int.lt_or_le k 0 with hneg | hpos
  · -- the estimate of a negative exponent is rounded down
    have hk : k = -(j : Int) := by omega
    have hstart : -(t : Int) - 2 ≤ startScale k ∧ startScale k ≤ -t - 1 := by
      rw [startScale]
      omega
    constructor
    · calc (10 : ℚ) ^ (startScale k - 1) ≤ 10 ^ (-((t + 1 : Nat) : Int)) :=
            zpow_le_zpow_right₀ (by norm_num) (by omega)
        _ ≤ 2 ^ k := by
          rw [hk, zpow_neg, zpow_neg, zpow_natCast, zpow_natCast]
          exact inv_anti₀ htwo hgreater
    · calc (2 : ℚ) ^ (k + 2) = 4 * (2 ^ j)⁻¹ := by
            rw [zpow_add₀ two_ne_zero, hk, zpow_neg, zpow_natCast]
            norm_num [mul_comm]
        _ ≤ 4 * (10 * (10 ^ t)⁻¹) := by
          refine mul_le_mul_of_nonneg_left ?_ (by norm_num)
          rw [← div_eq_mul_inv, inv_eq_one_div, div_le_div_iff₀ htwo hten]
          linarith
        _ ≤ 10 ^ (6 - (t : Int)) := by
          rw [zpow_sub₀ (by norm_num), zpow_natCast, ← mul_assoc, div_eq_mul_inv]
          exact mul_le_mul_of_nonneg_right (by norm_num) (inv_nonneg.2 hten.le)
        _ ≤ 10 ^ (startScale k + 8) := zpow_le_zpow_right₀ (by norm_num) (by omega)
  · have hk : k = (j : Int) := by omega
    have hstart : startScale k = t - 1 := by
      rw [startScale]
      omega
    constructor
    · calc (10 : ℚ) ^ (startScale k - 1) = 10 ^ t / 100 := by
            rw [hstart, sub_sub, zpow_sub₀ (by norm_num), zpow_natCast]
            norm_num
        _ ≤ 2 ^ k := by
          rw [hk, zpow_natCast]
          linarith
    · calc (2 : ℚ) ^ (k + 2) = 4 * 2 ^ j := by
            rw [zpow_add₀ two_ne_zero, hk, zpow_natCast]
            norm_num [mul_comm]
        _ ≤ 10 ^ t * 10 ^ 7 := by
          rw [pow_succ] at hgreater
          linarith
        _ = 10 ^ (startScale k + 8) := by
          rw [hstart, ← pow_add, ← zpow_natCast]
          congr 1
          push_cast
          ring

/-- A double is between powers of two that are told by the lengths of its fraction. -/
lemma IsFraction.log2_bounds {num den step m : Nat} {e : Int} (h : IsFraction num den step m e)
    (hnum : 0 < num) :
    (2 : ℚ) ^ ((num.log2 : Int) - den.log2 - 1) ≤ num / den ∧
      (num : ℚ) / den < 2 ^ ((num.log2 : Int) - den.log2 - 1 + 2) := by
  have hden := h.den_cast
  have hnumLow : (2 ^ num.log2 : ℚ) ≤ num := by exact_mod_cast Nat.log2_self_le hnum.ne'
  have hnumHigh : (num : ℚ) < 2 ^ (num.log2 + 1) := by exact_mod_cast Nat.lt_log2_self
  have hdenLow : (2 ^ den.log2 : ℚ) ≤ den := by exact_mod_cast Nat.log2_self_le h.den_pos.ne'
  have hdenHigh : (den : ℚ) < 2 ^ (den.log2 + 1) := by exact_mod_cast Nat.lt_log2_self
  constructor
  · rw [le_div_iff₀ hden, sub_sub, zpow_sub₀ two_ne_zero, zpow_natCast, ← Nat.cast_succ, zpow_natCast,
      div_mul_eq_mul_div, div_le_iff₀ (by positivity)]
    exact mul_le_mul hnumLow hdenHigh.le hden.le (Nat.cast_nonneg _)
  · have hexponent : (num.log2 : Int) - den.log2 - 1 + 2 = (num.log2 + 1 : Nat) - (den.log2 : Int) := by
      push_cast
      ring
    rw [div_lt_iff₀ hden, hexponent, zpow_sub₀ two_ne_zero, zpow_natCast, zpow_natCast,
      div_mul_eq_mul_div, lt_div_iff₀ (by positivity)]
    exact mul_lt_mul hnumHigh hdenLow (by positivity) (by positivity)

/-- **The scale of a double**: the least power of ten that is greater. -/
lemma scale_spec {num den step m : Nat} {e : Int} (hd : IsBinary64 m e) (hm : 0 < m)
    (h : IsFraction num den step m e) {scale : Int}
    (hscale : scale = Decimal.leastScale num den 8 (startScale ((num.log2 : Int) - den.log2 - 1))) :
    (10 : ℚ) ^ (scale - 1) ≤ num / den ∧ (num : ℚ) / den < 10 ^ scale := by
  have hvalue := h.value
  have hone : (1 : ℚ) ≤ m := by exact_mod_cast hm
  have hfits : (m : ℚ) ≤ 2 ^ 53 := by exact_mod_cast hd.fits.le
  have hpos : (0 : ℚ) < num / den := by
    rw [hvalue]
    positivity
  have hnum : 0 < num := by
    rcases Nat.eq_zero_or_pos num with hzero | hnum
    · rw [hzero, Nat.cast_zero, zero_div] at hpos
      exact absurd hpos (lt_irrefl 0)
    · exact hnum
  obtain ⟨hlow, hhigh⟩ := h.log2_bounds hnum
  obtain ⟨k, hk⟩ : ∃ k, k = (num.log2 : Int) - den.log2 - 1 := ⟨_, rfl⟩
  rw [← hk] at hlow hhigh hscale
  have hleast : (2 : ℚ) ^ (-1074 : Int) ≤ num / den := by
    calc (2 : ℚ) ^ (-1074 : Int) ≤ 2 ^ e := zpow_le_zpow_right₀ one_le_two hd.least
      _ ≤ num / den := by
        rw [hvalue]
        exact le_mul_of_one_le_left (by positivity) hone
  have hgreatest : (num : ℚ) / den ≤ 2 ^ (1024 : Int) := by
    calc (num : ℚ) / den ≤ 2 ^ 53 * 2 ^ (971 : Int) := by
          rw [hvalue]
          exact mul_le_mul hfits (zpow_le_zpow_right₀ one_le_two hd.greatest) (by positivity)
            (by positivity)
      _ = 2 ^ (1024 : Int) := by
          rw [← zpow_natCast, ← zpow_add₀ two_ne_zero]
          norm_num
  have habove : (-1074 : Int) < k + 2 :=
    (zpow_lt_zpow_iff_right₀ one_lt_two).1 (hleast.trans_lt hhigh)
  have hbelow : k ≤ 1024 := (zpow_le_zpow_iff_right₀ one_lt_two).1 (hlow.trans hgreatest)
  obtain ⟨hstart, hend⟩ := startScale_spec (k := k) (by omega) (by omega)
  obtain ⟨hless, hfirst⟩ := leastScale_spec h.den_pos 8 (startScale k) (hhigh.trans_le hend)
  rw [← hscale] at hless hfirst
  refine ⟨?_, hless⟩
  rcases hfirst with heq | hfirst
  · rw [heq]
    exact hstart.trans hlow
  · exact hfirst

/-! ## Grids

Decimals with a number of digits form a grid.  The search refines it until one of the two neighbours
of the double reads back, and takes the nearer one if both do. -/

namespace Decimal

/-- A fraction in units of a power of ten. -/
def inUnits (num den : Nat) (unit : Int) : Nat × Nat :=
  if 0 ≤ unit then (num, den * Nat.pow 10 unit.toNat) else (num * Nat.pow 10 (-unit).toNat, den)

/-- The greatest point of a grid that is not above a fraction. -/
def under (num den : Nat) (unit : Int) : Nat := (inUnits num den unit).1 / (inUnits num den unit).2

/-- The point of a grid that is taken, by whether the two neighbours of a number read back. -/
def point (tie : Tie) (under rest bottom : Nat) (hitUnder hitOver : Bool) : Option Nat :=
  if hitUnder && hitOver then
    if 2 * rest < bottom then some under
    else if bottom < 2 * rest then some (under + 1)
    else match tie with
      | .even => if under % 2 = 0 then some under else some (under + 1)
      | .up => some (under + 1)
  else if hitUnder then some under
  else if hitOver then some (under + 1)
  else none

/-- A point that is taken reads back, and one is taken if one of the two does. -/
lemma point_spec (tie : Tie) (under rest bottom : Nat) (hitUnder hitOver : Bool) :
    (hitUnder = false ∧ hitOver = false ∧ point tie under rest bottom hitUnder hitOver = none) ∨
    (hitUnder = true ∧ point tie under rest bottom hitUnder hitOver = some under) ∨
    (hitOver = true ∧ point tie under rest bottom hitUnder hitOver = some (under + 1)) := by
  rw [point.eq_def]
  cases hitUnder with
  | false =>
      cases hitOver with
      | false => exact .inl ⟨rfl, rfl, rfl⟩
      | true => exact .inr (.inr ⟨rfl, rfl⟩)
  | true =>
      cases hitOver with
      | false => exact .inr (.inl ⟨rfl, rfl⟩)
      | true =>
          have hnearer : (if 2 * rest < bottom then some under
              else if bottom < 2 * rest then some (under + 1)
              else match tie with
                | .even => if under % 2 = 0 then some under else some (under + 1)
                | .up => some (under + 1)) = some under ∨
              (if 2 * rest < bottom then some under
              else if bottom < 2 * rest then some (under + 1)
              else match tie with
                | .even => if under % 2 = 0 then some under else some (under + 1)
                | .up => some (under + 1)) = some (under + 1) := by
            cases tie <;> grind
          rcases hnearer with h | h
          · exact .inr (.inl ⟨rfl, h⟩)
          · exact .inr (.inr ⟨rfl, h⟩)

/-- The digits on a grid, with the zeros at their end dropped. -/
def trimmed (digits : Nat) (unit : Int) : Decimal := ⟨trimZeros 20 digits, unit + digitCount 20 digits⟩

lemma firstGrid_succ (tie : Tie) (num den low high : Nat) (closed : Bool) (scale : Int)
    (fuel places : Nat) :
    firstGrid tie num den low high closed scale (fuel + 1) places =
      match point tie (under num den (scale - places))
          ((inUnits num den (scale - places)).1 % (inUnits num den (scale - places)).2)
          (inUnits num den (scale - places)).2
          (readsBack num den low high closed (under num den (scale - places)) (scale - places))
          (readsBack num den low high closed (under num den (scale - places) + 1)
            (scale - places)) with
      | some digits => some (trimmed digits (scale - places))
      | none => firstGrid tie num den low high closed scale fuel (places + 1) := rfl

/-- **The first grid with a point that reads back is found**, if there is one. -/
lemma exists_firstGrid (tie : Tie) {num den low high : Nat} {closed : Bool} (scale : Int)
    (fuel places last : Nat) (hplaces : places ≤ last) (hlast : last < places + fuel)
    (hhit : ∃ digits, under num den (scale - last) ≤ digits ∧
      digits ≤ under num den (scale - last) + 1 ∧
      readsBack num den low high closed digits (scale - last) = true) :
    ∃ p digits, places ≤ p ∧ p ≤ last ∧ digits ≤ under num den (scale - p) + 1 ∧
      readsBack num den low high closed digits (scale - p) = true ∧
      firstGrid tie num den low high closed scale fuel places = some (trimmed digits (scale - p)) := by
  induction fuel generalizing places with
  | zero => omega
  | succ fuel ih =>
      rw [firstGrid_succ]
      rcases point_spec tie (under num den (scale - places))
          ((inUnits num den (scale - places)).1 % (inUnits num den (scale - places)).2)
          (inUnits num den (scale - places)).2
          (readsBack num den low high closed (under num den (scale - places)) (scale - places))
          (readsBack num den low high closed (under num den (scale - places) + 1) (scale - places))
        with ⟨hunder, hover, hpoint⟩ | ⟨hit, hpoint⟩ | ⟨hit, hpoint⟩
      · -- a grid without such a point is not the last one
        rw [hpoint]
        have hnext : places ≠ last := by
          rintro rfl
          obtain ⟨digits, hge, hle, hreads⟩ := hhit
          rcases Nat.eq_or_lt_of_le hge with heq | hgt
          · rw [← heq, hunder] at hreads
            cases hreads
          · rw [Nat.le_antisymm hle hgt, hover] at hreads
            cases hreads
        obtain ⟨p, digits, hp, hrest⟩ := ih (places + 1) (by omega) (by omega)
        exact ⟨p, digits, by omega, hrest⟩
      · rw [hpoint]
        exact ⟨places, _, le_rfl, hplaces, Nat.le_succ _, hit, rfl⟩
      · rw [hpoint]
        exact ⟨places, _, le_rfl, hplaces, le_rfl, hit, rfl⟩

/-- A fraction is between two neighbours of a grid. -/
lemma under_spec (num : Nat) {den : Nat} (hden : 0 < den) (unit : Int) :
    (under num den unit : ℚ) * 10 ^ unit ≤ num / den ∧
      (num : ℚ) / den < (under num den unit + 1) * 10 ^ unit := by
  have hpos : (0 : ℚ) < den := Nat.cast_pos.2 hden
  have hfraction : 0 < (inUnits num den unit).2 ∧
      (num : ℚ) / den = ((inUnits num den unit).1 / (inUnits num den unit).2 : ℚ) * 10 ^ unit := by
    rw [inUnits]
    split
    case isTrue hunit =>
      refine ⟨Nat.mul_pos hden (by rw [Nat.pow_eq]; positivity), ?_⟩
      rw [Nat.pow_eq, Nat.cast_mul, Nat.cast_pow, Nat.cast_ofNat, ← zpow_natCast,
        Int.toNat_of_nonneg hunit]
      field_simp
    case isFalse hunit =>
      refine ⟨hden, ?_⟩
      rw [Nat.pow_eq, Nat.cast_mul, Nat.cast_pow, Nat.cast_ofNat, ← zpow_natCast,
        Int.toNat_of_nonneg (by omega), zpow_neg]
      field_simp
  obtain ⟨hbottom, hvalue⟩ := hfraction
  have hbottom' : (0 : ℚ) < (inUnits num den unit).2 := Nat.cast_pos.2 hbottom
  have hunit : (0 : ℚ) < 10 ^ unit := by positivity
  rw [hvalue, mul_le_mul_iff_left₀ hunit, mul_lt_mul_iff_left₀ hunit, le_div_iff₀ hbottom',
    div_lt_iff₀ hbottom']
  constructor
  · exact_mod_cast Nat.div_mul_le_self _ _
  · exact_mod_cast Nat.lt_mul_of_div_lt (Nat.lt_succ_self _) hbottom

/-! ## Dropping zeros

The digits on a grid may end in zeros, which say nothing.  They are dropped, and the exponent is
raised by their number. -/

/-- The number that some digits stand for. -/
def value (d : Decimal) : ℚ := d.digits * 10 ^ (d.scale - (Nat.toDigits 10 d.digits).length)

lemma digitCount_zero (fuel : Nat) : digitCount fuel 0 = 0 := by
  cases fuel <;> rfl

/-- Digits are counted up to the fuel. -/
lemma digitCount_eq {fuel n : Nat} (hn : 0 < n) (hfuel : n < 10 ^ fuel) :
    digitCount fuel n = (Nat.toDigits 10 n).length := by
  induction fuel generalizing n with
  | zero => omega
  | succ fuel ih =>
      rw [digitCount, if_neg (by omega)]
      rcases Nat.lt_or_ge n 10 with hless | hge
      · rw [Nat.div_eq_of_lt hless, digitCount_zero, Nat.toDigits_of_lt_base hless]
        rfl
      · rw [ih (by omega) (by rw [Nat.pow_succ] at hfuel; omega),
          Nat.toDigits_of_base_le (by decide) hge, List.length_append]
        rfl

/-- Zeros that are dropped count among the digits. -/
lemma trimZeros_spec {fuel n : Nat} (hn : 0 < n) (hfuel : n < 10 ^ fuel) :
    ∃ k, n = trimZeros fuel n * 10 ^ k ∧
      digitCount fuel n = (Nat.toDigits 10 (trimZeros fuel n)).length + k := by
  induction fuel generalizing n with
  | zero => omega
  | succ fuel ih =>
      rw [trimZeros, if_neg (by omega)]
      split
      case isTrue hzero =>
        obtain ⟨k, hvalue, hcount⟩ := ih (n := n / 10) (by omega) (by rw [Nat.pow_succ] at hfuel; omega)
        refine ⟨k + 1, ?_, ?_⟩
        · rw [Nat.pow_succ, ← Nat.mul_assoc, ← hvalue]
          omega
        · rw [digitCount, if_neg (by omega), hcount, Nat.add_assoc]
      case isFalse => exact ⟨0, (Nat.mul_one n).symm, digitCount_eq hn hfuel⟩

/-- Dropping the zeros at the end of some digits keeps the number for which they stand. -/
lemma value_trimmed {digits : Nat} (hpos : 0 < digits) (hfits : digits < 10 ^ 20) (unit : Int) :
    (trimmed digits unit).value = digits * 10 ^ unit := by
  obtain ⟨k, hvalue, hcount⟩ := trimZeros_spec hpos hfits
  have hscale : unit + (digitCount 20 digits : Nat) -
      ((Nat.toDigits 10 (trimZeros 20 digits)).length : Int) = unit + k := by
    rw [hcount]
    push_cast
    ring
  have hten : (10 : ℚ) ≠ 0 := by norm_num
  calc (trimmed digits unit).value
      = trimZeros 20 digits * 10 ^ (unit + k) := by rw [value, trimmed, hscale]
    _ = (trimZeros 20 digits * 10 ^ k : Nat) * 10 ^ unit := by
      rw [zpow_add₀ hten, zpow_natCast, Nat.cast_mul, Nat.cast_pow, Nat.cast_ofNat]
      ring
    _ = digits * 10 ^ unit := by rw [← hvalue]

end Decimal

/-! ## Seventeen digits

The search ends because of this estimate: at the scale of a double, neighbours with seventeen digits
are closer to each other than the ends of its interval, whatever the exponent. -/

/-- **Of the two neighbours with seventeen digits one rounds to the double.** -/
lemma exists_roundsTo {num den step m : Nat} {e scale : Int} (hd : IsBinary64 m e) (hm : 0 < m)
    (h : IsFraction num den step m e) (hscale : (10 : ℚ) ^ (scale - 1) ≤ num / den) :
    ∃ digits, Decimal.under num den (scale - 17) ≤ digits ∧
      digits ≤ Decimal.under num den (scale - 17) + 1 ∧
      RoundsTo (digits * 10 ^ (scale - 17)) m e := by
  obtain ⟨hunder, hover⟩ := Decimal.under_spec num h.den_pos (scale - 17)
  have hvalue := h.value
  set low := Decimal.under num den (scale - 17) with hlow
  obtain ⟨u, hu⟩ : ∃ u : ℚ, u = 10 ^ (scale - 17) := ⟨_, rfl⟩
  obtain ⟨place, hplace⟩ : ∃ place : ℚ, place = 2 ^ e := ⟨_, rfl⟩
  have hscale' : 10 ^ 16 * u ≤ m * place := by
    calc 10 ^ 16 * u = (10 : ℚ) ^ (scale - 1) := by
          rw [hu, ← zpow_natCast, ← zpow_add₀ (by norm_num)]
          congr 1
          push_cast
          ring
      _ ≤ m * place := by rw [hplace, ← hvalue]; exact hscale
  rw [← hu, hvalue, ← hplace] at hunder hover
  have hpos : 0 < place := by rw [hplace]; positivity
  have hone : (1 : ℚ) ≤ m := by exact_mod_cast hm
  have hgap := gapBelow_ge m e
  -- the grid is finer than the interval of the numbers that round to the double
  have hfine : u < (gapBelow m e + 1 / 2) * place := by
    have hfits : (m : ℚ) < 10 ^ 16 * (gapBelow m e + 1 / 2) := by
      rw [gapBelow]
      split
      case isTrue hpower => rw [hpower.1]; norm_num
      case isFalse =>
        have : (m : ℚ) < 2 ^ 53 := by exact_mod_cast hd.fits
        norm_num at this ⊢
        linarith
    have := mul_lt_mul_of_pos_right hfits hpos
    linarith
  have hwithin : m * place - gapBelow m e * place < low * u ∨ (low + 1) * u < m * place + place / 2 := by
    by_contra hnone
    rw [not_or, not_lt, not_lt] at hnone
    linarith [hnone.1, hnone.2]
  rcases hwithin with hbelow | habove
  · refine ⟨low, le_rfl, Nat.le_succ _, .of_lt ?_ ?_⟩
    · rw [← hu, ← hplace]
      linarith
    · rw [← hu, ← hplace]
      linarith
  · refine ⟨low + 1, Nat.le_succ _, le_rfl, .of_lt ?_ ?_⟩
    · rw [← hu, ← hplace, Nat.cast_succ]
      linarith [mul_pos (lt_of_lt_of_le (by norm_num) hgap) hpos]
    · rw [← hu, ← hplace, Nat.cast_succ]
      linarith

/-- A number that rounds to a double with a mantissa is not zero. -/
lemma RoundsTo.pos {q : ℚ} {m : Nat} {e : Int} (h : RoundsTo q m e) (hm : 0 < m) : 0 < q := by
  have hone : (1 : ℚ) ≤ m := by exact_mod_cast hm
  have hgap := gapBelow_le m e
  have hplace : (0 : ℚ) < 2 ^ e := by positivity
  exact lt_of_lt_of_le (mul_pos (by linarith) hplace) h.lower

namespace Decimal

/-- **The digits of a double read back to it**, whichever of two equally near ones are taken. -/
theorem roundsTo_shortest {m : Nat} {e : Int} (hd : IsBinary64 m e) (hm : 0 < m) (tie : Tie) :
    RoundsTo (shortest tie m e).value m e := by
  obtain ⟨num, den, step, hfraction, hshortest⟩ : ∃ num den step, IsFraction num den step m e ∧
      shortest tie m e = (firstGrid tie num den (quartersBelow m e step) (2 * step) (m % 2 == 0)
        (leastScale num den 8 (startScale ((num.log2 : Int) - den.log2 - 1))) 17 1).getD ⟨m, e⟩ := by
    by_cases he : 0 ≤ e
    · refine ⟨_, _, _, .of_nonneg m he, ?_⟩
      rw [shortest, if_pos he, if_pos he]
      rfl
    · refine ⟨_, _, _, .of_neg m he, ?_⟩
      rw [shortest, if_neg he, if_neg he]
      rfl
  obtain ⟨scale, hscale⟩ : ∃ scale, scale =
      leastScale num den 8 (startScale ((num.log2 : Int) - den.log2 - 1)) := ⟨_, rfl⟩
  obtain ⟨hleast, hgreatest⟩ := scale_spec hd hm hfraction hscale
  obtain ⟨digits, hge, hle, hrounds⟩ := exists_roundsTo hd hm hfraction hleast
  obtain ⟨p, digits, -, hp, hdigits, hreads, hgrid⟩ := exists_firstGrid tie scale 17 1 17
    (by decide) (by decide) ⟨digits, hge, hle, (readsBack_iff hfraction hm _ _).2 hrounds⟩
  have hrounds := (readsBack_iff hfraction hm _ _).1 hreads
  -- seventeen digits are not too many to be counted
  have hfits : digits < 10 ^ 20 := by
    have hunder := (under_spec num hfraction.den_pos (scale - p)).1.trans_lt hgreatest
    have hunit : (0 : ℚ) < 10 ^ (scale - p : Int) := by positivity
    have hsplit : (10 : ℚ) ^ scale = 10 ^ p * 10 ^ (scale - p : Int) := by
      rw [← zpow_natCast, ← zpow_add₀ (by norm_num)]
      congr 1
      ring
    rw [hsplit, mul_lt_mul_iff_left₀ hunit] at hunder
    have hunder' : under num den (scale - p) < 10 ^ p := by exact_mod_cast hunder
    have hpower : 10 ^ p ≤ 10 ^ 17 := Nat.pow_le_pow_right (by decide) hp
    omega
  have hpos : 0 < digits := by
    rcases Nat.eq_zero_or_pos digits with hzero | hpos
    · have := hrounds.pos hm
      rw [hzero, Nat.cast_zero, zero_mul] at this
      exact absurd this (lt_irrefl 0)
    · exact hpos
  rw [hshortest, ← hscale, hgrid, Option.getD_some, value_trimmed hpos hfits]
  exact hrounds

end Decimal

end EntityQuery
