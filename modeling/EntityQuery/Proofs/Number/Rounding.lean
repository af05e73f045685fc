import Mathlib
import EntityQuery.Number.Basic
import EntityQuery.Proofs.Comparison

/-!
# The order of doubles and the rounding of integers

Doubles that are numbers are ordered by sign, exponent and mantissa.  The double nearest to an
integer has as exponent the place of the leading bit, and as mantissa the 53 leading bits, rounded
by what is behind them.  Both grow with the integer, so rounding keeps the order, though it may make
two integers equal.

* `floatKey`: sign, exponent and mantissa as integers that are ordered one after the other.
* `Number.compareFloats_eq`: the order of doubles is that of the keys.
* `unpack_ofNat` and `unpack_ofInt`: exponent and mantissa of the double nearest to a number.
* `compare_floatKey_ofInt`: a greater integer has no smaller double.
-/

namespace EntityQuery

open Float.Model Float.Model.UnpackedFloat

/-! ## The order of doubles

A key is a list of sign, exponent and mantissa, with the last two negated if the sign is.  Its order
is lexicographic, so that to compare doubles is to compare integers. -/

/-- Sign, exponent and mantissa of a double, such that the order of the lists is that of the
doubles. -/
def unpackedKey : UnpackedFloat → List Int
  | .notANumber => []
  | .infinity .negative => [-2]
  | .finite .negative mantissa exponent _ => [-1, -exponent, -mantissa]
  | .zero _ => [0]
  | .finite .positive mantissa exponent _ => [1, exponent, mantissa]
  | .infinity .positive => [2]

/-- The key of a double. -/
def floatKey (x : Float) : List Int := unpackedKey x.toModel.unpack

/-- Two doubles of one sign are ordered by exponent and mantissa. -/
lemma compare_triple (a e m f n : Int) :
    compare [a, e, m] [a, f, n] = (compare e f).then (compare m n) := by
  simp [List.compare_cons_cons]

/-- The order of two doubles that are numbers is that of their keys. -/
lemma compare_unpackedKey {u v : UnpackedFloat} (hu : u ≠ .notANumber) (hv : v ≠ .notANumber) :
    u.compare v = some (compare (unpackedKey u) (unpackedKey v)) := by
  rcases u with (_ | _) | _ | _ | ⟨_ | _, m, e, hm⟩ <;>
    rcases v with (_ | _) | _ | _ | ⟨_ | _, n, f, hn⟩ <;>
    first
    | exact absurd rfl hu
    | exact absurd rfl hv
    | rfl
    | skip
  -- what is left are two finite doubles of one sign
  · simp only [UnpackedFloat.compare, unpackedKey, compare_triple, compare_neg, compare_cast,
      Ordering.swap_then]
  · simp only [UnpackedFloat.compare, unpackedKey, compare_triple, compare_cast]

lemma lt_iff_compare {x y : Float} :
    x < y ↔ x.toModel.unpack.compare y.toModel.unpack = some .lt := by
  show decide (x.toModel < y.toModel) = true ↔ _
  rw [decide_eq_true_iff]
  show x.toModel.unpack.lt y.toModel.unpack = true ↔ _
  rw [UnpackedFloat.lt, beq_iff_eq]

lemma isNaN_iff {x : Float} : x.isNaN = true ↔ x.toModel.unpack = .notANumber :=
  UnpackedFloat.isNaN_iff

namespace Number

/-- **Doubles that are numbers are ordered by their keys.** -/
lemma compareFloats_eq {x y : Float} (hx : x.isNaN = false) (hy : y.isNaN = false) :
    compareFloats x y = Ord.compare (floatKey x) (floatKey y) := by
  have hx' : x.toModel.unpack ≠ .notANumber := fun h => by
    rw [isNaN_iff.2 h] at hx
    cases hx
  have hy' : y.toModel.unpack ≠ .notANumber := fun h => by
    rw [isNaN_iff.2 h] at hy
    cases hy
  have hlt : ∀ {u v : Float}, u.toModel.unpack ≠ .notANumber → v.toModel.unpack ≠ .notANumber →
      (u < v ↔ Ord.compare (floatKey u) (floatKey v) = .lt) := fun hu hv => by
    rw [lt_iff_compare, compare_unpackedKey hu hv, Option.some.injEq]
    rfl
  have hswap : Ord.compare (floatKey y) (floatKey x) = (Ord.compare (floatKey x) (floatKey y)).swap :=
    Std.OrientedCmp.eq_swap
  rw [compareFloats]
  simp only [hlt hx' hy', hlt hy' hx', hswap]
  cases Ord.compare (floatKey x) (floatKey y) <;> rfl

/-- What is not a number counts as equal to all doubles. -/
lemma compareFloats_of_isNaN {x y : Float} (h : x.isNaN = true ∨ y.isNaN = true) :
    compareFloats x y = .eq := by
  have hnot : ∀ {u v : Float}, (u.isNaN = true ∨ v.isNaN = true) → ¬ u < v := by
    intro u v h hlt
    rw [lt_iff_compare] at hlt
    rcases h with h | h <;> rw [isNaN_iff] at h <;> rw [h] at hlt
    · cases hlt
    · cases hu : u.toModel.unpack <;> rw [hu] at hlt <;> cases hlt
  rw [compareFloats, if_neg (hnot h), if_neg (hnot h.symm)]

end Number

/-! ## Rounding a mantissa

Half of the last place is rounded to the even one of two neighbours.  This keeps the order even so,
as the two halves around an even mantissa are rounded towards each other. -/

/-- Shifting a mantissa to the right divides it by a power of two; the two further bits are the
first of the digits that are cut off, and whether any of the others is set. -/
lemma shiftRight_eq (m shift : Nat) :
    (⟨m, false, false⟩ : ExtendedMantissa) >>> shift =
      ⟨m / 2 ^ shift, decide (0 < shift) && m / 2 ^ (shift - 1) % 2 != 0,
        m % 2 ^ (shift - 1) != 0⟩ := by
  induction shift with
  | zero =>
    show (⟨m, false, false⟩ : ExtendedMantissa) = _
    simp [Nat.mod_one]
  | succ k ih =>
    show ExtendedMantissa.shiftRightOne ((⟨m, false, false⟩ : ExtendedMantissa) >>> k) = _
    rw [ih, ExtendedMantissa.shiftRightOne, Nat.add_sub_cancel, Nat.pow_succ,
      ← Nat.div_div_eq_div_mul]
    congr 1
    cases k with
    | zero => simp [Nat.mod_one]
    | succ j =>
      rw [Nat.add_sub_cancel, Nat.mod_pow_succ]
      by_cases hsticky : m % 2 ^ j = 0
      · rcases Nat.mod_two_eq_zero_or_one (m / 2 ^ j) with h | h <;> simp [hsticky, h]
      · have hsum : m % 2 ^ j + 2 ^ j * (m / 2 ^ j % 2) ≠ 0 := by omega
        simp only [bne_iff_ne.2 hsticky, bne_iff_ne.2 hsum, Bool.or_true]

/-- A mantissa without its last binary digits, rounded by them. -/
def roundShift (m shift : Nat) : Nat :=
  ((⟨m, false, false⟩ : ExtendedMantissa) >>> shift).roundedMantissa

lemma roundShift_bounds (m shift : Nat) :
    m / 2 ^ shift ≤ roundShift m shift ∧ roundShift m shift ≤ m / 2 ^ shift + 1 := by
  rw [roundShift, shiftRight_eq]
  generalize (decide (0 < shift) && m / 2 ^ (shift - 1) % 2 != 0) = round
  generalize (m % 2 ^ (shift - 1) != 0) = sticky
  cases round <;> cases sticky <;>
    simp only [ExtendedMantissa.roundedMantissa, ExtendedMantissa.accuracy,
      Accuracy.roundToNearestEven] <;> omega

/-- Digits that are all zero are dropped without rounding. -/
lemma roundShift_mul (m shift : Nat) : roundShift (m * 2 ^ shift) shift = m := by
  have hpos : 0 < 2 ^ shift := Nat.two_pow_pos shift
  rw [roundShift, shiftRight_eq, Nat.mul_div_cancel _ hpos]
  cases shift with
  | zero => simp [Nat.mod_one, ExtendedMantissa.roundedMantissa, ExtendedMantissa.accuracy,
      Accuracy.roundToNearestEven]
  | succ k =>
    have hsplit : m * 2 ^ (k + 1) = m * 2 * 2 ^ k := by
      rw [Nat.pow_succ, Nat.mul_comm (2 ^ k), Nat.mul_assoc]
    rw [Nat.add_sub_cancel, hsplit, Nat.mul_div_cancel _ (Nat.two_pow_pos k), Nat.mul_mod_left,
      Nat.mul_mod_left]
    rfl

/-- Of two mantissas with the same digits, the one with the smaller bits behind them is rounded to
no more. -/
lemma roundedMantissa_mono {m : Nat} {round sticky round' sticky' : Bool}
    (hround : round = true → round' = true)
    (hsticky : round = round' → sticky = true → sticky' = true) :
    (⟨m, round, sticky⟩ : ExtendedMantissa).roundedMantissa ≤
      (⟨m, round', sticky'⟩ : ExtendedMantissa).roundedMantissa := by
  cases round <;> cases round' <;> cases sticky <;> cases sticky' <;>
    simp [ExtendedMantissa.roundedMantissa, ExtendedMantissa.accuracy,
      Accuracy.roundToNearestEven] at *
  omega

/-- **Rounding keeps the order.** -/
lemma roundShift_mono {m n : Nat} (h : m ≤ n) (shift : Nat) :
    roundShift m shift ≤ roundShift n shift := by
  have hm := roundShift_bounds m shift
  have hn := roundShift_bounds n shift
  rcases Nat.lt_or_eq_of_le (Nat.div_le_div_right (c := 2 ^ shift) h) with hlt | heq
  · omega
  cases shift with
  | zero =>
    rw [Nat.pow_zero, Nat.div_one, Nat.div_one] at heq
    exact Nat.le_of_eq (by rw [heq])
  | succ k =>
    -- the quotients agree, so the digits that are cut off are in order
    have hdigit : m / 2 ^ k / 2 = n / 2 ^ k / 2 := by
      rwa [Nat.div_div_eq_div_mul, Nat.div_div_eq_div_mul, ← Nat.pow_succ]
    have hfirst : m / 2 ^ k ≤ n / 2 ^ k := Nat.div_le_div_right h
    have hrest : m / 2 ^ k = n / 2 ^ k → m % 2 ^ k ≤ n % 2 ^ k := fun heq => by
      have := Nat.div_add_mod m (2 ^ k)
      have := Nat.div_add_mod n (2 ^ k)
      rw [heq] at *
      omega
    rw [roundShift, roundShift, shiftRight_eq, shiftRight_eq, Nat.add_sub_cancel, heq]
    apply roundedMantissa_mono
    · simp only [Nat.zero_lt_succ, decide_true, Bool.true_and, bne_iff_ne]
      omega
    · intro hbits hm
      have hparity : m / 2 ^ k % 2 = n / 2 ^ k % 2 := by
        rcases Nat.mod_two_eq_zero_or_one (m / 2 ^ k) with h | h <;>
          rcases Nat.mod_two_eq_zero_or_one (n / 2 ^ k) with h' | h' <;> simp_all
      have hle := hrest (by omega)
      rw [bne_iff_ne] at hm ⊢
      omega

/-! ## Packing

A number that is packed into bits and unpacked again is the same if its first bit is set.  Only such
numbers come from integers. -/

/-- A mantissa of 53 bits, of which the first is set. -/
def IsNormal (m : Nat) : Prop := 2 ^ 52 ≤ m ∧ m < 2 ^ 53

lemma IsNormal.log2 {m : Nat} (h : IsNormal m) : m.log2 = 52 :=
  (Nat.log2_eq_iff (by have := h.1; omega)).2 h

/-- **A normal number within the range of exponents survives its bits.** -/
lemma unpack_pack {sign : Sign} {m : Nat} {e : Int} {hpos : 0 < m} (hm : IsNormal m)
    (hlow : -1074 ≤ e) (hhigh : e ≤ 970) :
    (Float.Model.pack (.finite sign m e hpos)).unpack = .finite sign m e hpos := by
  have hbias : (Format.binary64.exponentBias : Int) = 1023 := rfl
  have hwidth : (Format.binary64.mantissaBitsWithoutImplicit : Int) = 52 := rfl
  have hbiased : (e + Format.binary64.exponentBias +
      Format.binary64.mantissaBitsWithoutImplicit).toNat = (e + 1075).toNat := by
    rw [hbias, hwidth]
    omega
  have hbits : m.log2 + 1 = Format.binary64.mantissaBits := by rw [hm.log2]; rfl
  have hexponent : (BitVec.ofNat 11 (e + 1075).toNat).toNat = (e + 1075).toNat :=
    Nat.mod_eq_of_lt (by omega)
  have hfinite : BitVec.ofNat 11 (e + 1075).toNat ≠ -1#11 := fun h => by
    have h := congrArg BitVec.toNat h
    rw [hexponent] at h
    simp at h
    omega
  have hnormal : BitVec.ofNat 11 (e + 1075).toNat ≠ 0#11 := fun h => by
    have h := congrArg BitVec.toNat h
    rw [hexponent] at h
    simp at h
    omega
  have hmantissa : (1#1 ++ BitVec.ofNat 52 m).toNat = m := by
    have hlow : (BitVec.ofNat 52 m).toNat = m - 2 ^ 52 := by
      rw [BitVec.toNat_ofNat]
      have := hm.1
      have := hm.2
      omega
    rw [BitVec.toNat_append, ← Nat.shiftLeft_add_eq_or_of_lt (BitVec.ofNat 52 m).isLt, hlow]
    show 1 <<< 52 + (m - 2 ^ 52) = m
    have := hm.1
    omega
  show UnpackedFloat.unpack Format.binary64 (UnpackedFloat.pack Format.binary64 _) = _
  simp only [UnpackedFloat.pack, hbiased, if_pos hbits]
  rw [if_neg (by show ¬ 2 ^ 11 ≤ _; omega)]
  simp only [UnpackedFloat.unpack, unpackMantissa_packComponents, unpackExponent_packComponents,
    unpackSign_packComponents, Sign.ofBitVec_toBitVec]
  rw [if_neg hfinite, if_neg hnormal]
  simp only [hmantissa, hexponent, hbias, hwidth]
  congr 1
  omega

/-! ## The double nearest to an integer

The double is computed by shifting, rounding and packing, in an order that depends on the size of
the integer.  It is described by two natural numbers instead, of which it is easier to see that they
grow. -/

/-- Mantissa and exponent of the double nearest to `m * 2 ^ e`: the 53 leading bits, rounded by the
bits behind them.  A mantissa that is rounded up to 54 bits loses the last one, which is zero. -/
def roundedParts (m : Nat) (e : Int) : Nat × Int :=
  let shift := m.log2 - 52
  let rounded := roundShift m shift
  if rounded < 2 ^ 53 then (rounded, e + shift) else (2 ^ 52, e + shift + 1)

/-- The leading 53 bits of a mantissa. -/
lemma leadingBits {m : Nat} (hm : 2 ^ 52 ≤ m) : IsNormal (m / 2 ^ (m.log2 - 52)) := by
  have hlog : 52 ≤ m.log2 := (Nat.le_log2 (by omega)).2 hm
  have hlow : 2 ^ m.log2 ≤ m := Nat.log2_self_le (by omega)
  have hhigh : m < 2 ^ (m.log2 + 1) := Nat.lt_log2_self
  constructor
  · rwa [Nat.le_div_iff_mul_le (Nat.two_pow_pos _), ← Nat.pow_add, Nat.add_sub_cancel' hlog]
  · rw [Nat.div_lt_iff_lt_mul (Nat.two_pow_pos _), ← Nat.pow_add]
    rwa [show 53 + (m.log2 - 52) = m.log2 + 1 by omega]

lemma roundShift_leading {m : Nat} (hm : 2 ^ 52 ≤ m) :
    2 ^ 52 ≤ roundShift m (m.log2 - 52) ∧ roundShift m (m.log2 - 52) ≤ 2 ^ 53 := by
  have hleading := leadingBits hm
  have hbounds := roundShift_bounds m (m.log2 - 52)
  exact ⟨Nat.le_trans hleading.1 hbounds.1, Nat.le_trans hbounds.2 hleading.2⟩

lemma isNormal_roundedParts {m : Nat} {e : Int} (hm : 2 ^ 52 ≤ m) :
    IsNormal (roundedParts m e).1 := by
  have hrounded := roundShift_leading hm
  rw [roundedParts]
  split_ifs with h
  · exact ⟨hrounded.1, h⟩
  · exact ⟨Nat.le_refl _, Nat.pow_lt_pow_right (by decide) (by decide)⟩

/-- Shifting to the exponent of the format leaves the 53 leading bits. -/
lemma shiftToTargetExponent_eq {m : Nat} {e : Int} (hm : 2 ^ 52 ≤ m)
    (he : -1074 ≤ e + (m.log2 - 52 : Nat)) :
    shiftToTargetExponent Format.binary64 m e .exact =
      ((⟨m, false, false⟩ : ExtendedMantissa) >>> (m.log2 - 52), e + (m.log2 - 52 : Nat)) := by
  have hlog : 52 ≤ m.log2 := (Nat.le_log2 (by omega)).2 hm
  have htarget : Format.binary64.targetExponent (totalExponent m e) = e + (m.log2 - 52 : Nat) := by
    show max ((m.log2 : Int) + 1 + e - 53) (-1074) = _
    omega
  rw [shiftToTargetExponent]
  simp only [htarget, shiftToExponent]
  rw [show (e + (m.log2 - 52 : Nat) - e).toNat = m.log2 - 52 by omega]
  rfl

/-- **Rounding to a double.** -/
lemma roundWithAccuracy_eq {m : Nat} {e : Int} (hm : 2 ^ 52 ≤ m)
    (he : -1074 ≤ e + (m.log2 - 52 : Nat)) :
    ∃ hpos, roundWithAccuracy Format.binary64 .positive m e .exact =
      .finite .positive (roundedParts m e).1 (roundedParts m e).2 hpos := by
  have hrounded := roundShift_leading hm
  have hsecond : shiftToTargetExponent Format.binary64 (roundShift m (m.log2 - 52))
      (e + (m.log2 - 52 : Nat)) .exact =
        (⟨(roundedParts m e).1, false, false⟩, (roundedParts m e).2) := by
    rw [roundedParts]
    split_ifs with h
    · have hlog : (roundShift m (m.log2 - 52)).log2 = 52 := IsNormal.log2 ⟨hrounded.1, h⟩
      rw [shiftToTargetExponent_eq hrounded.1 (by omega), hlog]
      exact congrArg (Prod.mk _) (Int.add_zero _)
    · rw [show roundShift m (m.log2 - 52) = 2 ^ 53 by omega]
      have hlog : (2 ^ 53).log2 = 53 := Nat.log2_two_pow
      rw [shiftToTargetExponent_eq (by decide) (by rw [hlog]; omega), hlog]
      rfl
  have hpos : 0 < (roundedParts m e).1 := by
    have := (isNormal_roundedParts (e := e) hm).1
    omega
  refine ⟨hpos, ?_⟩
  have hfirst : ((⟨m, false, false⟩ : ExtendedMantissa) >>> (m.log2 - 52)).roundedMantissa =
      roundShift m (m.log2 - 52) := rfl
  rw [roundWithAccuracy]
  simp only [shiftToTargetExponent_eq hm he, hfirst, hsecond]
  rw [dif_neg (by omega)]

lemma log2_mul_pow {n : Nat} (hn : 0 < n) (k : Nat) : (n * 2 ^ k).log2 = n.log2 + k := by
  rw [Nat.log2_eq_iff (Nat.ne_of_gt (Nat.mul_pos hn (Nat.two_pow_pos k)))]
  have hlow : 2 ^ n.log2 ≤ n := Nat.log2_self_le (by omega)
  have hhigh : n < 2 ^ (n.log2 + 1) := Nat.lt_log2_self
  rw [Nat.pow_add, show n.log2 + k + 1 = n.log2 + 1 + k by omega, Nat.pow_add 2 (n.log2 + 1)]
  exact ⟨Nat.mul_le_mul_right _ hlow, Nat.mul_lt_mul_of_pos_right hhigh (Nat.two_pow_pos k)⟩

/-- A mantissa of 53 bits with zeros behind it is not rounded. -/
lemma roundedParts_mul {m : Nat} (hm : IsNormal m) (k : Nat) (e : Int) :
    roundedParts (m * 2 ^ k) e = (m, e + k) := by
  have hshift : (m * 2 ^ k).log2 - 52 = k := by
    rw [log2_mul_pow (by have := hm.1; omega), hm.log2]
    omega
  rw [roundedParts]
  simp only [hshift, roundShift_mul, if_pos hm.2]

/-- Zeros behind a mantissa of 53 bits only count for the exponent. -/
lemma roundWithAccuracy_mul {m : Nat} (hm : IsNormal m) (k : Nat) {e : Int} (he : -1074 ≤ e + k) :
    ∃ hpos, roundWithAccuracy Format.binary64 .positive (m * 2 ^ k) e .exact =
      .finite .positive m (e + k) hpos := by
  have hleading : 2 ^ 52 ≤ m * 2 ^ k := Nat.le_trans hm.1 (Nat.le_mul_of_pos_right m (Nat.two_pow_pos k))
  have hlog : (m * 2 ^ k).log2 = 52 + k := by
    rw [log2_mul_pow (by have := hm.1; omega), hm.log2]
  obtain ⟨hpos, hround⟩ := roundWithAccuracy_eq (e := e) hleading (by omega)
  simp only [roundedParts_mul hm] at hpos hround
  exact ⟨hpos, hround⟩

/-- Mantissa and exponent of the double nearest to a natural number. -/
def naturalParts (n : Nat) : Nat × Int := roundedParts (n * 2 ^ 53) (-53)

/-- A number of at most 53 bits, with zeros behind it. -/
lemma isNormal_scaled {n : Nat} (hn : 0 < n) (h : n < 2 ^ 53) : IsNormal (n * 2 ^ (52 - n.log2)) := by
  have hlog : n.log2 ≤ 52 := Nat.lt_succ_iff.1 ((Nat.log2_lt (by omega)).2 h)
  have hleading := log2_mul_pow hn (52 - n.log2)
  rw [Nat.add_sub_cancel' hlog] at hleading
  exact (Nat.log2_eq_iff (Nat.ne_of_gt (Nat.mul_pos hn (Nat.two_pow_pos _)))).1 hleading

/-- A number of at most 53 bits is not rounded. -/
lemma naturalParts_eq {n : Nat} (hn : 0 < n) (h : n < 2 ^ 53) :
    naturalParts n = (n * 2 ^ (52 - n.log2), (n.log2 : Int) - 52) := by
  have hlog : n.log2 ≤ 52 := Nat.lt_succ_iff.1 ((Nat.log2_lt (by omega)).2 h)
  have hsplit : n * 2 ^ 53 = n * 2 ^ (52 - n.log2) * 2 ^ (n.log2 + 1) := by
    rw [Nat.mul_assoc, ← Nat.pow_add]
    congr 2
    omega
  rw [naturalParts, hsplit, roundedParts_mul (isNormal_scaled hn h)]
  congr 1
  omega

lemma isNormal_naturalParts {n : Nat} (hn : 0 < n) : IsNormal (naturalParts n).1 :=
  isNormal_roundedParts (by omega)

/-- The exponent is that of the leading bit, or one more if rounding carries over. -/
lemma naturalParts_exponent {n : Nat} (hn : 0 < n) :
    (naturalParts n).2 = (n.log2 : Int) - 52 ∨
      (naturalParts n).2 = (n.log2 : Int) - 51 ∧ (naturalParts n).1 = 2 ^ 52 := by
  have hlog := log2_mul_pow hn 53
  rw [naturalParts, roundedParts]
  split_ifs
  · exact .inl (by dsimp only; omega)
  · exact .inr ⟨by dsimp only; omega, rfl⟩

/-- The double nearest to a positive number survives its bits. -/
lemma unpack_pack_naturalParts {sign : Sign} {n : Nat} {hpos : 0 < (naturalParts n).1} (hn : 0 < n)
    (h : n < 2 ^ 64) :
    (Float.Model.pack (.finite sign (naturalParts n).1 (naturalParts n).2 hpos)).unpack =
      .finite sign (naturalParts n).1 (naturalParts n).2 hpos := by
  have hlog : n.log2 < 64 := (Nat.log2_lt (by omega)).2 h
  have hexponent := naturalParts_exponent hn
  exact unpack_pack (isNormal_naturalParts hn) (by omega) (by omega)

/-- A small number is shifted to the left. -/
lemma unpack_toFloat {n : Nat} (hn : 0 < n) (h : n < 2 ^ 53) :
    ∃ hpos, n.toUInt64.toFloat.toModel.unpack =
      .finite .positive (naturalParts n).1 (naturalParts n).2 hpos := by
  have hlog : n.log2 ≤ 52 := Nat.lt_succ_iff.1 ((Nat.log2_lt (by omega)).2 h)
  have hnormal := isNormal_scaled hn h
  have hvalue : n.toUInt64.toNat = n := Nat.mod_eq_of_lt (by omega)
  have htarget : Format.binary64.targetExponent (totalExponent n 0) = (n.log2 : Int) - 52 := by
    show max ((n.log2 : Int) + 1 + 0 - 53) (-1074) = _
    omega
  have hround : ∃ hpos, roundWithAccuracy Format.binary64 .positive (n * 2 ^ (52 - n.log2))
      ((n.log2 : Int) - 52) .exact =
        .finite .positive (naturalParts n).1 (naturalParts n).2 hpos := by
    simpa [naturalParts_eq hn h] using
      roundWithAccuracy_mul hnormal 0 (e := (n.log2 : Int) - 52) (by omega)
  obtain ⟨hpos, hround⟩ := hround
  refine ⟨hpos, ?_⟩
  show (Float.Model.pack
    (UnpackedFloat.normalize Format.binary64 (n.toUInt64.toNat : Int) 0 .positive)).unpack = _
  have hcompare : compare (n : Int) 0 = .gt := Int.compare_eq_gt.2 (by omega)
  rw [hvalue, UnpackedFloat.normalize, hcompare]
  simp only [UnpackedFloat.round, Int.toNat_natCast, htarget, decreaseExponent, Nat.shiftLeft_eq]
  rw [show (0 - ((n.log2 : Int) - 52)).toNat = 52 - n.log2 by omega,
    show 0 - ((52 - n.log2 : Nat) : Int) = (n.log2 : Int) - 52 by omega, hround]
  exact unpack_pack_naturalParts hn (by omega)

/-- **The double nearest to a positive number.** -/
lemma unpack_ofNat {n : Nat} (hn : 0 < n) (h : n < 2 ^ 64) :
    ∃ hpos, (Float.ofNat n).toModel.unpack =
      .finite .positive (naturalParts n).1 (naturalParts n).2 hpos := by
  obtain ⟨hpos, hround⟩ := roundWithAccuracy_eq (m := n * 2 ^ 53) (e := -53) (by omega)
    (by rw [log2_mul_pow hn]; omega)
  refine ⟨hpos, ?_⟩
  unfold Float.ofNat
  show (Float.ofScientific n false 0).toModel.unpack = _
  unfold Float.ofScientific
  by_cases hsmall : n < 2 ^ 53
  · -- the number is multiplied by the double one
    obtain ⟨_, hfloat⟩ := unpack_toFloat hn hsmall
    rw [dif_pos ⟨hsmall, by omega⟩]
    show (Float.Model.pack (mul Format.binary64 n.toUInt64.toFloat.toModel.unpack
      (Float.ofBits 0x3FF0000000000000).toModel.unpack)).unpack = _
    have hone : (Float.ofBits 0x3FF0000000000000).toModel.unpack =
        .finite .positive (2 ^ 52) (-52) (Nat.two_pow_pos 52) := rfl
    have hexponent := naturalParts_exponent hn
    obtain ⟨_, hproduct⟩ := roundWithAccuracy_mul (isNormal_naturalParts hn) 52
      (e := (naturalParts n).2 + -52) (by omega)
    have hcancel : (naturalParts n).2 + -52 + (52 : Nat) = (naturalParts n).2 := by omega
    simp only [hcancel] at hproduct
    rw [hfloat, hone]
    show (Float.Model.pack (roundWithAccuracy Format.binary64 .positive
      ((naturalParts n).1 * 2 ^ 52) ((naturalParts n).2 + -52) .exact)).unpack = _
    rw [hproduct]
    exact unpack_pack_naturalParts hn h
  · rw [dif_neg (by omega)]
    show (Float.Model.pack (UnpackedFloat.ofScientific Format.binary64 n 0)).unpack = _
    have hproduct : UnpackedFloat.ofScientific Format.binary64 n 0 =
        roundWithAccuracy Format.binary64 .positive (n * 2 ^ 53) (-53) .exact := by
      rw [UnpackedFloat.ofScientific, dif_neg (by omega), if_neg (by decide),
        if_neg (by show ¬ (0 : Int) < -(2 ^ 11 + (n.log2 : Int)); omega), if_pos (Int.le_refl 0)]
      show roundWithAccuracy Format.binary64 .positive (n <<< 53 * 1) (-53) .exact = _
      rw [Nat.mul_one, Nat.shiftLeft_eq]
    rw [hproduct, hround]
    exact unpack_pack_naturalParts hn h

/-- The key of the double nearest to an integer. -/
def integerKey : Int → List Int
  | .ofNat 0 => [0]
  | .ofNat n => [1, (naturalParts n).2, (naturalParts n).1]
  | .negSucc n => [-1, -(naturalParts (n + 1)).2, -(naturalParts (n + 1)).1]

/-- **The double nearest to an integer** has its sign and the parts of its magnitude. -/
lemma unpack_ofInt {n : Int} (hn : n ≠ 0) (hlow : -2 ^ 64 < n) (hhigh : n < 2 ^ 64) :
    ∃ hpos, (Float.ofInt n).toModel.unpack =
      .finite (if n < 0 then .negative else .positive) (naturalParts n.natAbs).1
        (naturalParts n.natAbs).2 hpos := by
  rcases n with (_ | m) | m
  · exact absurd rfl hn
  · have hm : m + 1 < 2 ^ 64 := by simp at hhigh; omega
    exact unpack_ofNat (Nat.succ_pos m) hm
  · have hm : m + 1 < 2 ^ 64 := by simp [Int.negSucc_eq] at hlow; omega
    obtain ⟨hpos, h⟩ := unpack_ofNat (Nat.succ_pos m) hm
    refine ⟨hpos, ?_⟩
    rw [if_pos (Int.negSucc_lt_zero m)]
    show (Float.Model.pack (Float.ofNat (m + 1)).toModel.unpack.neg).unpack = _
    rw [h]
    exact unpack_pack_naturalParts (Nat.succ_pos m) hm

lemma floatKey_ofInt {n : Int} (hlow : -2 ^ 64 < n) (hhigh : n < 2 ^ 64) :
    floatKey (Float.ofInt n) = integerKey n := by
  by_cases hn : n = 0
  · subst hn
    rfl
  obtain ⟨_, h⟩ := unpack_ofInt hn hlow hhigh
  rw [floatKey, h]
  rcases n with (_ | m) | m
  · exact absurd rfl hn
  · rfl
  · simp only [if_pos (Int.negSucc_lt_zero m)]
    rfl

/-- The double nearest to an integer is a number. -/
lemma isNaN_ofInt {n : Int} (hlow : -2 ^ 64 < n) (hhigh : n < 2 ^ 64) :
    (Float.ofInt n).isNaN = false := by
  rw [Bool.eq_false_iff]
  intro h
  have hkey := floatKey_ofInt hlow hhigh
  rw [floatKey, isNaN_iff.1 h] at hkey
  rcases n with (_ | _) | _ <;> cases hkey

/-- **Exponent and mantissa of the nearest double grow with the number.** -/
lemma naturalParts_mono {m n : Nat} (hm : 0 < m) (h : m ≤ n) :
    (naturalParts m).2 < (naturalParts n).2 ∨
      (naturalParts m).2 = (naturalParts n).2 ∧ (naturalParts m).1 ≤ (naturalParts n).1 := by
  have hn : 0 < n := Nat.lt_of_lt_of_le hm h
  have hlog : m.log2 ≤ n.log2 :=
    (Nat.le_log2 (by omega)).2 (Nat.le_trans (Nat.log2_self_le (by omega)) h)
  rcases Nat.lt_or_eq_of_le hlog with hlt | heq
  · -- a carry at most catches up with the exponent, and leaves the least mantissa
    have hleast := (isNormal_naturalParts hn).1
    have := naturalParts_exponent hm
    have := naturalParts_exponent hn
    omega
  · have hshift : (m * 2 ^ 53).log2 - 52 = (n * 2 ^ 53).log2 - 52 := by
      rw [log2_mul_pow hm, log2_mul_pow hn, heq]
    have hrounded := roundShift_mono (Nat.mul_le_mul_right (2 ^ 53) h) ((n * 2 ^ 53).log2 - 52)
    rw [naturalParts, naturalParts, roundedParts, roundedParts, hshift]
    split_ifs with hfirst hsecond hsecond
    · exact .inr ⟨rfl, hrounded⟩
    · exact .inl (Int.lt_succ _)
    · exact absurd (Nat.lt_of_le_of_lt hrounded hsecond) hfirst
    · exact .inr ⟨rfl, Nat.le_refl _⟩

lemma isLE_compare_triple {a e m f n : Int} (h : e < f ∨ e = f ∧ m ≤ n) :
    (compare [a, e, m] [a, f, n]).isLE := by
  rw [compare_triple]
  rcases h with h | ⟨rfl, h⟩
  · rw [Int.compare_eq_lt.2 h]
    rfl
  · rw [Int.compare_eq_eq.2 rfl, Ordering.eq_then]
    exact Int.isLE_compare.2 h

/-- The keys of nearest doubles are in the order of the integers. -/
lemma compare_integerKey {m n : Int} (h : m ≤ n) :
    (compare (integerKey m) (integerKey n)).isLE := by
  rcases m with (_ | a) | a <;> rcases n with (_ | b) | b
  · rfl
  · rfl
  · exact absurd h (Int.not_le.2 (Int.negSucc_lt_zero b))
  · exact absurd h (by simp)
  · have hparts := naturalParts_mono (show 0 < a + 1 by omega) (Int.ofNat_le.1 h)
    exact isLE_compare_triple (by omega)
  · exact absurd (Int.le_trans (Int.natCast_nonneg (a + 1)) h) (Int.not_le.2 (Int.negSucc_lt_zero b))
  · rfl
  · rfl
  · have hparts := naturalParts_mono (show 0 < b + 1 by omega) (show b + 1 ≤ a + 1 by omega)
    exact isLE_compare_triple (by omega)

lemma naturalParts_injective {m n : Nat} (hm : 0 < m) (hm' : m < 2 ^ 53) (hn : 0 < n)
    (hn' : n < 2 ^ 53) (h : naturalParts m = naturalParts n) : m = n := by
  rw [naturalParts_eq hm hm', naturalParts_eq hn hn', Prod.mk.injEq] at h
  have hlog : m.log2 = n.log2 := by omega
  rw [hlog] at h
  exact Nat.eq_of_mul_eq_mul_right (Nat.two_pow_pos _) h.1

/-- Integers of at most 53 bits have doubles of their own. -/
lemma integerKey_injective {m n : Int} (hm : -2 ^ 53 < m ∧ m < 2 ^ 53) (hn : -2 ^ 53 < n ∧ n < 2 ^ 53)
    (h : integerKey m = integerKey n) : m = n := by
  have hparts : ∀ {a b : Nat}, a + 1 < 2 ^ 53 → b + 1 < 2 ^ 53 →
      (naturalParts (a + 1)).2 = (naturalParts (b + 1)).2 →
      ((naturalParts (a + 1)).1 : Int) = (naturalParts (b + 1)).1 → a = b := fun {a b} ha hb h₂ h₁ =>
    Nat.succ.inj (naturalParts_injective (show 0 < a + 1 by omega) ha (show 0 < b + 1 by omega) hb
      (Prod.ext_iff.2 ⟨Int.ofNat.inj h₁, h₂⟩))
  rcases m with (_ | a) | a <;> rcases n with (_ | b) | b
  case ofNat.succ.ofNat.succ =>
    obtain ⟨-, htail⟩ := List.cons.inj h
    obtain ⟨hexponent, htail⟩ := List.cons.inj htail
    obtain rfl := hparts (by simp at hm; omega) (by simp at hn; omega) hexponent
      (List.cons.inj htail).1
    rfl
  case negSucc.negSucc =>
    obtain ⟨-, htail⟩ := List.cons.inj h
    obtain ⟨hexponent, htail⟩ := List.cons.inj htail
    obtain rfl := hparts (by omega) (by omega) (Int.neg_inj.1 hexponent)
      (Int.neg_inj.1 (List.cons.inj htail).1)
    rfl
  -- the signs differ, or both are zero
  all_goals first | rfl | exact absurd (List.cons.inj h).1 (by decide)

/-- **Rounding to doubles keeps the order of integers.** -/
theorem compare_floatKey_ofInt {m n : Int} (hlow : -2 ^ 64 < m) (h : m ≤ n) (hhigh : n < 2 ^ 64) :
    (compare (floatKey (Float.ofInt m)) (floatKey (Float.ofInt n))).isLE := by
  rw [floatKey_ofInt hlow (by omega), floatKey_ofInt (by omega) hhigh]
  exact compare_integerKey h

end EntityQuery
