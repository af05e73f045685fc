import EntityQuery.Proofs.Number.DecimalText
import EntityQuery.Proofs.Number.Rounding

/-!
# What a number stands for

The sign, the mantissa and the exponent that are read off the bits of a double are those of its
unpacked form, on which the arithmetic of doubles is defined.  They stand for a rational number, and
a number of a document stands for an integer exactly if that number is one.

* `Binary64.ofFloat_eq`: the bits of a double, and its unpacked form.
* `Binary64.value?` and `Number.value?`: the rational number that a double or a number stands for.
* `Binary64.toInt?_eq_some_iff`: the integer of a double is its value.
* `Binary64.ofFloat_ofInt`: the double nearest to an integer.
* `Binary64.toInt?_ofInt_of_lt` and `Binary64.value?_eq_of_le`: doubles just behind the signed
  integers.
-/

namespace EntityQuery

open Float.Model Float.Model.UnpackedFloat

/-! ## The fields of a double

The bits of a double are cut in two ways: by the arithmetic of doubles, which unpacks them, and by
the program, which asks for sign, mantissa and exponent.  Both read the same three fields. -/

/-- What a double holds, from its unpacked form. -/
def Binary64.ofUnpacked : UnpackedFloat → Binary64
  | .notANumber => .nan
  | .infinity s => .infinite (s == .negative)
  | .zero s => .finite (s == .negative) 0 (-1074)
  | .finite s m e _ => .finite (s == .negative) m e

lemma ofBitVec_beq_negative (b : BitVec 1) :
    (Sign.ofBitVec b == .negative) = decide (b.toNat = 1) := by
  rcases BitVec.eq_zero_or_eq_one b with rfl | rfl <;> rfl

/-- **The fields of a double are those of its unpacked form.** -/
theorem Binary64.ofFloat_eq (x : Float) : ofFloat x = ofUnpacked x.toModel.unpack := by
  have hbits : x.toBits.toNat = x.toModel.toBits.toBitVec.toNat := rfl
  have hunpack : x.toModel.unpack =
    UnpackedFloat.unpack Format.binary64 x.toModel.toBits.toBitVec := rfl
  have hlt : x.toModel.toBits.toBitVec.toNat < 2 ^ 64 := x.toModel.toBits.toBitVec.isLt
  generalize x.toModel.toBits.toBitVec = b at hbits hunpack hlt
  have hmantissa : (@unpackMantissa Format.binary64 b).toNat = b.toNat % 2 ^ 52 := by
    simp [unpackMantissa]
  have hexponent : (@unpackExponent Format.binary64 b).toNat =
      b.toNat / 2 ^ 52 % 2 ^ 11 := by
    simp [unpackExponent, Nat.shiftRight_eq_div_pow]
  have hsign : (@unpackSign Format.binary64 b).toNat = b.toNat / 2 ^ 63 % 2 := by
    simp [unpackSign, Nat.shiftRight_eq_div_pow]
  have hnegative : (Sign.ofBitVec (@unpackSign Format.binary64 b) == .negative) =
      decide (2 ^ 63 ≤ b.toNat) := by
    rw [ofBitVec_beq_negative, hsign]
    congr 1
    apply propext
    omega
  have hones : @unpackExponent Format.binary64 b = -1#11 ↔
      b.toNat / 2 ^ 52 % 2 ^ 11 = 2047 := by
    rw [← BitVec.toNat_inj, hexponent]
    rfl
  have hzeros : @unpackExponent Format.binary64 b = 0#11 ↔
      b.toNat / 2 ^ 52 % 2 ^ 11 = 0 := by
    rw [← BitVec.toNat_inj, hexponent]
    rfl
  have hfraction : @unpackMantissa Format.binary64 b = 0#52 ↔ b.toNat % 2 ^ 52 = 0 := by
    rw [← BitVec.toNat_inj, hmantissa]
    rfl
  have hleading : (1#1 ++ @unpackMantissa Format.binary64 b).toNat =
      2 ^ 52 + b.toNat % 2 ^ 52 := by
    rw [BitVec.toNat_append, ← Nat.shiftLeft_add_eq_or_of_lt (BitVec.isLt _), hmantissa]
    rfl
  have hbias : (Format.binary64.exponentBias : Int) = 1023 := rfl
  have hwidth : (Format.binary64.mantissaBitsWithoutImplicit : Int) = 52 := rfl
  rw [hunpack, UnpackedFloat.unpack, ofFloat, hbits]
  simp only [hones, hzeros, hfraction, Nat.pow_eq]
  split_ifs with hspecial hnone hsubnormal hzero
  · simp only [ofUnpacked, hnegative]
  · rfl
  · simp only [ofUnpacked, hnegative, hzero]
  · simp only [ofUnpacked, hnegative, hmantissa, hexponent, hsubnormal, hbias, hwidth]
    rfl
  · simp only [ofUnpacked, hnegative, hleading, hexponent, hbias, hwidth]
    rfl

/-- A double is finite if its unpacked form is. -/
lemma Number.isFinite_eq (x : Float) : isFinite x = x.toModel.unpack.isFinite := by
  rw [isFinite, Binary64.ofFloat_eq]
  cases x.toModel.unpack <;> rfl

/-! ## Values

Numbers that are not finite stand for no rational number.  For the others there is an integer to
read only if the mantissa has enough zeros at its end to be shifted by a negative exponent. -/

/-- The rational number that a double stands for, if it is finite. -/
def Binary64.value? : Binary64 → Option ℚ
  | .finite negative m e => some ((if negative then -1 else 1) * m * 2 ^ e)
  | _ => none

/-- The rational number that a number of a document stands for. -/
def Number.value? : Number → Option ℚ
  | .int n => some n
  | .float x => (Binary64.ofFloat x).value?

lemma fitsInt64_iff {n : Int} : fitsInt64 n = true ↔ int64Min ≤ n ∧ n ≤ int64Max := by
  rw [fitsInt64, Bool.and_eq_true, decide_eq_true_eq, decide_eq_true_eq]

namespace Binary64

lemma cast_signed (negative : Bool) (k : Nat) :
    ((signed negative k : Int) : ℚ) = (if negative then -1 else 1) * k := by
  cases negative <;> simp [signed]

/-- **A double denotes the integer that it stands for**, and none if it stands for a fraction. -/
theorem toInt?_eq_some_iff {b : Binary64} {n : Int} :
    b.toInt? = some n ↔ b.value? = some (n : ℚ) := by
  cases b with
  | nan => simp [toInt?, value?]
  | infinite negative => simp [toInt?, value?]
  | finite negative m e =>
    rw [toInt?, value?, Option.some_inj]
    by_cases he : 0 ≤ e
    · have hpow : (2 : ℚ) ^ e = ((2 ^ e.toNat : Nat) : ℚ) := by
        rw [Nat.cast_pow, Nat.cast_ofNat, ← zpow_natCast, Int.toNat_of_nonneg he]
      rw [if_pos he, Option.some_inj, hpow, mul_assoc, ← Nat.cast_mul, ← cast_signed, Int.cast_inj]
      rfl
    · have hpow : (2 : ℚ) ^ e = ((2 ^ (-e).toNat : Nat) : ℚ)⁻¹ := by
        rw [Nat.cast_pow, Nat.cast_ofNat, ← zpow_natCast, Int.toNat_of_nonneg (by omega), zpow_neg,
          inv_inv]
      have hunit : ((2 ^ (-e).toNat : Nat) : ℚ) ≠ 0 := by positivity
      rw [if_neg he, hpow, mul_assoc, ← div_eq_mul_inv]
      show (if m % 2 ^ (-e).toNat = 0 then some (signed negative (m / 2 ^ (-e).toNat)) else none) =
        some n ↔ _
      generalize 2 ^ (-e).toNat = unit at hunit
      by_cases hrest : m % unit = 0
      · rw [if_pos hrest]
        obtain ⟨k, rfl⟩ := Nat.dvd_of_mod_eq_zero hrest
        have hpos : 0 < unit := Nat.pos_of_ne_zero (by simpa using hunit)
        rw [Option.some_inj, Nat.mul_div_cancel_left k hpos, Nat.cast_mul, mul_div_cancel_left₀ _ hunit,
          ← cast_signed, Int.cast_inj]
      · -- a fraction is no integer
        rw [if_neg hrest]
        refine ⟨nofun, fun hvalue => absurd ?_ hrest⟩
        have hm : (m : ℚ) = (n.natAbs * unit : Nat) := by
          rw [Nat.cast_mul, Nat.cast_natAbs, Int.cast_abs, ← hvalue, abs_mul, abs_div, Nat.abs_cast,
            Nat.abs_cast]
          have hsign : |(if negative = true then -1 else 1 : ℚ)| = 1 := by cases negative <;> simp
          rw [hsign]
          field_simp
        rw [Nat.cast_inj] at hm
        rw [hm, Nat.mul_mod_left]

/-! ## The doubles of integers

Beyond 53 bits several integers share a double.  Next to `2 ^ 63` doubles are more than a thousand
apart, so the last integers of the range have that double, which is past the range itself. -/

/-- The double nearest to an integer other than zero. -/
lemma ofFloat_ofInt {n : Int} (hn : n ≠ 0) (hlow : -2 ^ 64 < n) (hhigh : n < 2 ^ 64) :
    ofFloat (Float.ofInt n) =
      .finite (decide (n < 0)) (naturalParts n.natAbs).1 (naturalParts n.natAbs).2 := by
  obtain ⟨_, h⟩ := unpack_ofInt hn hlow hhigh
  rw [ofFloat_eq, h]
  by_cases hsign : n < 0 <;> simp only [hsign, if_true, if_false, decide_true, decide_false] <;> rfl

/-- **Just behind the signed integers** the nearest double is `2 ^ 63` up to the middle to the next
one, and greater from there on. -/
lemma toInt?_ofInt_of_lt {n : Int} (h : int64Max < n) (hhigh : n < 2 ^ 64) :
    ∃ i, (ofFloat (Float.ofInt n)).toInt? = some i ∧
      (n ≤ 2 ^ 63 + 1024 → i = 2 ^ 63) ∧ (2 ^ 63 + 1024 < n → 2 ^ 63 < i) := by
  simp only [int64Max] at h
  have hpos : 0 < n.natAbs := by omega
  have hnormal := (isNormal_naturalParts hpos).1
  have hfirst : naturalParts (2 ^ 63) = (2 ^ 52, 11) := by decide +kernel
  have hlast : naturalParts (2 ^ 63 + 1024) = (2 ^ 52, 11) := by decide +kernel
  have hnext : naturalParts (2 ^ 63 + 1025) = (2 ^ 52 + 1, 11) := by decide +kernel
  have hleast := naturalParts_mono (m := 2 ^ 63) (n := n.natAbs) (by decide) (by omega)
  rw [hfirst] at hleast
  simp only at hleast
  rw [ofFloat_ofInt (by omega) (by omega) hhigh, toInt?, if_pos (by omega),
    decide_eq_false (by omega)]
  refine ⟨_, rfl, fun hle => ?_, fun hlt => ?_⟩
  · have hgreatest := naturalParts_mono (m := n.natAbs) (n := 2 ^ 63 + 1024) hpos (by omega)
    rw [hlast] at hgreatest
    simp only at hgreatest
    have hparts : naturalParts n.natAbs = (2 ^ 52, 11) := Prod.ext (by omega) (by omega)
    rw [hparts]
    rfl
  · have hgreater := naturalParts_mono (m := 2 ^ 63 + 1025) (n := n.natAbs) (by decide) (by omega)
    rw [hnext] at hgreater
    simp only at hgreater
    show (2 : Int) ^ 63 < (((naturalParts n.natAbs).1 * 2 ^ (naturalParts n.natAbs).2.toNat : Nat) : Int)
    rcases hgreater with hexponent | ⟨hexponent, hmantissa⟩
    · have hpow : 2 ^ 12 ≤ 2 ^ (naturalParts n.natAbs).2.toNat :=
        Nat.pow_le_pow_right (by decide) (by omega)
      have := Nat.mul_le_mul hnormal hpow
      omega
    · rw [← hexponent]
      show (2 : Int) ^ 63 < (((naturalParts n.natAbs).1 * 2 ^ 11 : Nat) : Int)
      omega

/-- No double lies between `2 ^ 63` and the middle to the next one. -/
lemma value?_eq_of_le {x : Float} {q : ℚ} (h : (ofFloat x).value? = some q) (hlow : 2 ^ 63 ≤ q)
    (hhigh : q ≤ 2 ^ 63 + 1024) : q = 2 ^ 63 := by
  cases hx : ofFloat x with
  | nan => rw [hx] at h; cases h
  | infinite negative => rw [hx] at h; cases h
  | finite negative m e =>
    have hfits : (m : ℚ) < 2 ^ 53 := by exact_mod_cast (isBinary64 hx).fits
    rw [hx, value?, Option.some_inj] at h
    have hpositive : negative = false := by
      by_contra hnegative
      rw [if_pos (by simpa using hnegative)] at h
      have : (0 : ℚ) ≤ m * 2 ^ e := by positivity
      linarith
    rw [hpositive, if_neg Bool.false_ne_true, one_mul] at h
    have hexponent : 11 ≤ e := by
      by_contra hlt
      have hpow : (2 : ℚ) ^ e ≤ 2 ^ (10 : Int) := zpow_le_zpow_right₀ one_le_two (by omega)
      have hless : q < 2 ^ 63 :=
        calc q = m * 2 ^ e := h.symm
          _ ≤ m * 2 ^ (10 : Int) := mul_le_mul_of_nonneg_left hpow (Nat.cast_nonneg m)
          _ < 2 ^ 53 * 2 ^ (10 : Int) := mul_lt_mul_of_pos_right hfits (by positivity)
          _ = 2 ^ 63 := by norm_num
      exact not_lt_of_ge hlow hless
    -- with such an exponent the number is a multiple of 2048
    have hmultiple : q = ((m * 2 ^ (e - 11).toNat : Nat) : ℚ) * 2048 := by
      rw [← h, Nat.cast_mul, Nat.cast_pow, Nat.cast_ofNat, mul_assoc, ← zpow_natCast,
        Int.toNat_of_nonneg (by omega), show (2048 : ℚ) = 2 ^ (11 : Int) by norm_num,
        ← zpow_add₀ two_ne_zero, sub_add_cancel]
    generalize m * 2 ^ (e - 11).toNat = k at hmultiple
    rw [hmultiple] at hlow hhigh ⊢
    norm_cast at hlow hhigh ⊢
    omega

end Binary64
end EntityQuery
