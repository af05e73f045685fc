import EntityQuery.Proofs.Number.Content

/-!
# Arithmetic that stays finite

The doubles nearest to integers of 64 bits have mantissas of 53 bits and exponents from -52 to 12.
A sum, difference, product or quotient of two of them is far from the greatest exponent of a double,
which rounding raises by what is shifted out and one for a carry.  So the result is a number, and
finite, unless it is divided by zero.

* `HasExponentUpTo` and `isFinite_pack`: the greatest exponent of a finite double is 971.
* `roundWithAccuracy_exponent`: the exponent of a rounded number.
* `IsOfInteger` and `isOfInteger_ofInt`: the doubles of integers.
* `isFinite_add`, `isFinite_sub`, `isFinite_mul` and `isFinite_div`: arithmetic on two of them.
-/

namespace EntityQuery

open Float.Model Float.Model.UnpackedFloat

/-! ## Exponents of finite doubles

Whether a double is finite is decided when it is packed, by its exponent alone.  An upper bound of
the exponent is thus all that has to be followed through an operation. -/

/-- Whether an unpacked double is zero, or finite with an exponent up to a given one. -/
def HasExponentUpTo (k : Int) : UnpackedFloat → Prop
  | .zero _ => True
  | .finite _ _ e _ => e ≤ k
  | _ => False

/-- **The greatest exponent is 971**: what has no greater one is finite when it is packed. -/
lemma isFinite_pack {u : UnpackedFloat} (h : HasExponentUpTo 971 u) :
    (Float.Model.pack u).unpack.isFinite = true := by
  have hcomponents : ∀ (s : Sign) (e : BitVec 11) (m : BitVec 52), e ≠ -1#11 →
      (UnpackedFloat.unpack Format.binary64 (packComponents Format.binary64 s e m)).isFinite =
        true := fun s e m he => by
    rw [UnpackedFloat.unpack]
    simp only [unpackExponent_packComponents, unpackMantissa_packComponents]
    rw [if_neg he]
    split_ifs <;> rfl
  show (UnpackedFloat.unpack Format.binary64 (UnpackedFloat.pack Format.binary64 u)).isFinite = true
  cases u with
  | notANumber => cases h
  | infinity s => cases h
  | zero s => exact hcomponents s 0#11 0#52 (by decide)
  | finite s m e hpos =>
    have hbias : (Format.binary64.exponentBias : Int) = 1023 := rfl
    have hwidth : (Format.binary64.mantissaBitsWithoutImplicit : Int) = 52 := rfl
    have hbiased : (e + 1023 + 52).toNat ≤ 2046 := by
      have he : e ≤ 971 := h
      omega
    rw [UnpackedFloat.pack]
    simp only [hbias, hwidth]
    rw [if_neg (by show ¬ 2 ^ 11 ≤ _; omega)]
    split_ifs
    · refine hcomponents s _ _ fun hones => ?_
      have hvalue := congrArg BitVec.toNat hones
      rw [BitVec.toNat_ofNat, Nat.mod_eq_of_lt (by omega)] at hvalue
      have : (-1#11).toNat = 2047 := rfl
      omega
    · exact hcomponents s 0#11 _ (by decide)

/-! ## Exponents of rounded numbers

Rounding shifts a mantissa until it has 53 bits, and raises the exponent by as much.  A carry may
shift it by one more. -/

lemma mantissa_shiftRight (em : ExtendedMantissa) (n : Nat) :
    (em >>> n).mantissa = em.mantissa / 2 ^ n := by
  induction n with
  | zero =>
    show em.mantissa = _
    rw [Nat.pow_zero, Nat.div_one]
  | succ n ih =>
    show (em >>> n).mantissa / 2 = _
    rw [ih, Nat.div_div_eq_div_mul, ← Nat.pow_succ]

lemma mantissa_ofMantissaAndAccuracy (m : Nat) (accuracy : Accuracy) :
    (ExtendedMantissa.ofMantissaAndAccuracy m accuracy).mantissa = m := by
  rcases accuracy with _ | (_ | _ | _) <;> rfl

lemma roundedMantissa_le (em : ExtendedMantissa) : em.roundedMantissa ≤ em.mantissa + 1 := by
  obtain ⟨m, round, sticky⟩ := em
  cases round <;> cases sticky <;>
    simp only [ExtendedMantissa.roundedMantissa, ExtendedMantissa.accuracy,
      Accuracy.roundToNearestEven] <;> omega

/-- A mantissa is shifted until it has 53 bits, unless the exponent is too small for that. -/
lemma shiftToTargetExponent_snd (m : Nat) (e : Int) (accuracy : Accuracy) :
    (shiftToTargetExponent Format.binary64 m e accuracy).2 =
      max e (max (m.log2 + e - 52) (-1074)) := by
  show e + ((max ((m.log2 : Int) + 1 + e - 53) (-1074) - e).toNat : Int) = _
  omega

/-- After that it has no more than 53 bits. -/
lemma shiftToTargetExponent_fst_lt (m : Nat) (e : Int) (accuracy : Accuracy) :
    (shiftToTargetExponent Format.binary64 m e accuracy).1.mantissa < 2 ^ 53 := by
  show (ExtendedMantissa.ofMantissaAndAccuracy m accuracy >>>
    (max ((m.log2 : Int) + 1 + e - 53) (-1074) - e).toNat).mantissa < 2 ^ 53
  rw [mantissa_shiftRight, mantissa_ofMantissaAndAccuracy,
    Nat.div_lt_iff_lt_mul (Nat.two_pow_pos _), ← Nat.pow_add]
  exact Nat.lt_of_lt_of_le Nat.lt_log2_self (Nat.pow_le_pow_right (by decide) (by omega))

lemma log2_lt_of_lt {n k : Nat} (hk : 0 < k) (h : n < 2 ^ k) : n.log2 < k := by
  by_cases hn : n = 0
  · rw [hn, Nat.log2_zero]
    exact hk
  · exact (Nat.log2_lt hn).2 h

lemma shiftLeft_lt {m n : Nat} (h : m < 2 ^ n) (k : Nat) : m <<< k < 2 ^ (n + k) := by
  rw [Nat.shiftLeft_eq, Nat.pow_add]
  exact Nat.mul_lt_mul_of_pos_right h (Nat.two_pow_pos k)

section

variable {m p : Nat} {e : Int} (hp : 0 < p) (he : e < 971) (hpe : p + e ≤ 1023)

include hp he hpe

/-- **A number below `2 ^ 1023` is rounded to a finite double.**  The exponent grows by the bits
beyond the 53 that are kept, and by one more if a carry needs it. -/
lemma roundWithAccuracy_exponent (s : Sign) (accuracy : Accuracy) (hm : m < 2 ^ p) :
    HasExponentUpTo 971 (roundWithAccuracy Format.binary64 s m e accuracy) := by
  have hlog := log2_lt_of_lt hp hm
  have hcarry :
      (shiftToTargetExponent Format.binary64 m e accuracy).1.roundedMantissa.log2 < 54 := by
    have hlt := shiftToTargetExponent_fst_lt m e accuracy
    have hle := roundedMantissa_le (shiftToTargetExponent Format.binary64 m e accuracy).1
    exact log2_lt_of_lt (by decide) (by omega)
  rw [roundWithAccuracy]
  simp only [shiftToTargetExponent_snd]
  split_ifs
  · trivial
  · show max _ (max _ _) ≤ _
    omega

lemma round_exponent (s : Sign) (hm : m < 2 ^ p) :
    HasExponentUpTo 971 (UnpackedFloat.round Format.binary64 s m e) := by
  rw [UnpackedFloat.round]
  simp only [decreaseExponent]
  generalize (e - Format.binary64.targetExponent (totalExponent m e)).toNat = k
  exact roundWithAccuracy_exponent (Nat.add_pos_left hp k) (by omega) (by push_cast; omega) s .exact
    (shiftLeft_lt hm k)

lemma normalize_exponent {n : Int} (s : Sign) (hn : n.natAbs < 2 ^ p) :
    HasExponentUpTo 971 (UnpackedFloat.normalize Format.binary64 n e s) := by
  rw [UnpackedFloat.normalize]
  split
  · exact round_exponent hp he hpe .negative (by omega)
  · trivial
  · exact round_exponent hp he hpe .positive (by omega)

end

/-! ## Doubles of integers

The four operations start from two doubles of integers.  The bounds of their mantissas and exponents
are multiplied, added or divided, and stay far below what a double can hold. -/

/-- Whether an unpacked double is one to which integers of 64 bits are rounded: zero, or a mantissa
of 53 bits with an exponent from -52 to 12. -/
def IsOfInteger : UnpackedFloat → Prop
  | .zero _ => True
  | .finite _ m e _ => IsNormal m ∧ -52 ≤ e ∧ e ≤ 12
  | _ => False

lemma isOfInteger_ofInt {n : Int} (hlow : -2 ^ 64 < n) (hhigh : n < 2 ^ 64) :
    IsOfInteger (Float.ofInt n).toModel.unpack := by
  by_cases hn : n = 0
  · subst hn
    trivial
  · have hpos : 0 < n.natAbs := Int.natAbs_pos.2 hn
    have hlog : n.natAbs.log2 < 64 := log2_lt_of_lt (by decide) (by omega)
    have hexponent := naturalParts_exponent hpos
    obtain ⟨_, h⟩ := unpack_ofInt hn hlow hhigh
    rw [h]
    exact ⟨isNormal_naturalParts hpos, by omega, by omega⟩

namespace IsOfInteger

variable {u v : UnpackedFloat}

lemma exponent (h : IsOfInteger u) : HasExponentUpTo 971 u := by
  cases u with
  | finite s m e hpos =>
    obtain ⟨-, -, he⟩ := h
    exact Int.le_trans he (by decide)
  | _ => exact h

lemma natAbs_apply (s : Sign) (n : Nat) : (s.apply (n : Int)).natAbs = n := by
  cases s <;> simp [Sign.apply]

/-- Two mantissas with one exponent, and an integer that is no greater than both together. -/
lemma normalize_aligned {m n : Nat} {e f sum : Int} (hm : IsNormal m) (hn : IsNormal n)
    (he : -52 ≤ e ∧ e ≤ 12) (hf : -52 ≤ f ∧ f ≤ 12)
    (hsum : sum.natAbs ≤ m <<< (e - min e f).toNat + n <<< (f - min e f).toNat) :
    HasExponentUpTo 971
      (UnpackedFloat.normalize Format.binary64 sum (min e f) .positive) := by
  have hshifted : ∀ {k : Nat} {g : Int}, IsNormal k → -52 ≤ g ∧ g ≤ 12 →
      k <<< (g - min e f).toNat < 2 ^ 117 := fun hk hg =>
    Nat.lt_of_lt_of_le (shiftLeft_lt hk.2 _) (Nat.pow_le_pow_right (by decide) (by omega))
  have hm' := hshifted hm he
  have hn' := hshifted hn hf
  exact normalize_exponent (p := 118) (by decide) (by omega) (by omega) .positive (by omega)

lemma add (hu : IsOfInteger u) (hv : IsOfInteger v) :
    HasExponentUpTo 971 (UnpackedFloat.add Format.binary64 u v) := by
  cases u with
  | notANumber => cases hu
  | infinity s => cases hu
  | zero s =>
    cases v with
    | zero t => rw [UnpackedFloat.add]; split_ifs <;> trivial
    | _ => exact hv.exponent
  | finite s m e _ =>
    cases v with
    | notANumber => cases hv
    | infinity t => cases hv
    | zero t => exact hu.exponent
    | finite t n f _ =>
      refine normalize_aligned hu.1 hv.1 hu.2 hv.2 (Nat.le_trans (Int.natAbs_add_le _ _) ?_)
      rw [natAbs_apply, natAbs_apply]

lemma sub (hu : IsOfInteger u) (hv : IsOfInteger v) :
    HasExponentUpTo 971 (UnpackedFloat.sub Format.binary64 u v) := by
  cases u with
  | notANumber => cases hu
  | infinity s => cases hu
  | zero s =>
    cases v with
    | zero t => rw [UnpackedFloat.sub]; split_ifs <;> trivial
    | finite t n f _ => exact hv.exponent
    | _ => cases hv
  | finite s m e _ =>
    cases v with
    | notANumber => cases hv
    | infinity t => cases hv
    | zero t => exact hu.exponent
    | finite t n f _ =>
      refine normalize_aligned hu.1 hv.1 hu.2 hv.2 (Nat.le_trans (Int.natAbs_sub_le _ _) ?_)
      rw [natAbs_apply, natAbs_apply]

lemma mul (hu : IsOfInteger u) (hv : IsOfInteger v) :
    HasExponentUpTo 971 (UnpackedFloat.mul Format.binary64 u v) := by
  cases u with
  | notANumber => cases hu
  | infinity s => cases hu
  | zero s =>
    cases v with
    | zero t => trivial
    | finite t n f _ => trivial
    | _ => cases hv
  | finite s m e _ =>
    cases v with
    | notANumber => cases hv
    | infinity t => cases hv
    | zero t => trivial
    | finite t n f _ =>
      obtain ⟨hm, he⟩ := hu
      obtain ⟨hn, hf⟩ := hv
      have hproduct : m * n < 2 ^ 106 :=
        Nat.lt_of_lt_of_eq (Nat.mul_lt_mul'' hm.2 hn.2) (Nat.pow_add 2 53 53).symm
      exact roundWithAccuracy_exponent (p := 106) (by decide) (by omega) (by omega) _ .exact hproduct

/-- The quotient has as many bits as the dividend after it was shifted for it. -/
lemma div (hu : IsOfInteger u) (hv : IsOfInteger v) (hzero : ∀ s, v ≠ .zero s) :
    HasExponentUpTo 971 (UnpackedFloat.div Format.binary64 u v) := by
  cases v with
  | notANumber => cases hv
  | infinity t => cases hv
  | zero t => exact absurd rfl (hzero t)
  | finite t n f _ =>
    cases u with
    | notANumber => cases hu
    | infinity s => cases hu
    | zero s => trivial
    | finite s m e _ =>
      obtain ⟨hm, he⟩ := hu
      obtain ⟨hn, hf⟩ := hv
      have htarget : min (e - f)
          (Format.binary64.targetExponent (totalExponent m e - totalExponent n f)) = e - f - 53 := by
        show min (e - f) (max ((m.log2 : Int) + 1 + e - (n.log2 + 1 + f) - 53) (-1074)) = _
        rw [hm.log2, hn.log2]
        omega
      rw [UnpackedFloat.div, divCore]
      simp only [htarget]
      have hshift : (e - f - (e - f - 53)).toNat = 53 := by omega
      have hquotient : m <<< 53 / n < 2 ^ 106 :=
        Nat.lt_of_le_of_lt (Nat.div_le_self _ _) (shiftLeft_lt hm.2 53)
      rw [hshift]
      exact roundWithAccuracy_exponent (p := 106) (by decide) (by omega) (by omega) _ _ hquotient

end IsOfInteger

/-! ## Arithmetic -/

namespace Number

variable {x y : Int} (hx : fitsInt64 x = true) (hy : fitsInt64 y = true)

lemma isOfInteger_of_fits {n : Int} (h : fitsInt64 n = true) :
    IsOfInteger (Float.ofInt n).toModel.unpack := by
  rw [fitsInt64_iff] at h
  simp only [int64Min, int64Max] at h
  exact isOfInteger_ofInt (by omega) (by omega)

lemma isFinite_of_exponent {u : UnpackedFloat} (h : HasExponentUpTo 971 u) :
    isFinite ⟨Float.Model.pack u⟩ = true := (isFinite_eq _).trans (isFinite_pack h)

include hx hy

/-- **A sum of doubles of integers is finite.** -/
theorem isFinite_add : isFinite (.ofInt x + .ofInt y) = true :=
  isFinite_of_exponent ((isOfInteger_of_fits hx).add (isOfInteger_of_fits hy))

/-- **A difference of doubles of integers is finite.** -/
theorem isFinite_sub : isFinite (.ofInt x - .ofInt y) = true :=
  isFinite_of_exponent ((isOfInteger_of_fits hx).sub (isOfInteger_of_fits hy))

/-- **A product of doubles of integers is finite.** -/
theorem isFinite_mul : isFinite (.ofInt x * .ofInt y) = true :=
  isFinite_of_exponent ((isOfInteger_of_fits hx).mul (isOfInteger_of_fits hy))

/-- **A quotient of doubles of integers is finite**, unless the divisor is zero. -/
theorem isFinite_div (hzero : y ≠ 0) : isFinite (.ofInt x / .ofInt y) = true := by
  refine isFinite_of_exponent ((isOfInteger_of_fits hx).div (isOfInteger_of_fits hy) fun s => ?_)
  have hfits := fitsInt64_iff.1 hy
  simp only [int64Min, int64Max] at hfits
  obtain ⟨_, h⟩ := unpack_ofInt hzero (by omega) (by omega)
  rw [h]
  exact UnpackedFloat.noConfusion

end Number
end EntityQuery
