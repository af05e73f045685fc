import Mathlib
import EntityQuery.Number.Basic
import EntityQuery.Proofs.Number.Shortest

/-!
# Doubles by their texts

The text of a double is read back: the digits before and behind the point, and the exponent behind
its mark.  This gives the number for which the digits stand, and the digits tell the double.

* `readDecimal`: the number that a text without a sign denotes.
* `DecimalLayout.readDecimal_layOut`: digits that are laid out are read back.
* `DecimalLayout.text_injective`: no two finite doubles are written alike.
-/

namespace EntityQuery

/-! ## Reading

The reader is for texts without a sign.  It is a definition of its own, written to be read back
from, and no part of the program: what it shows is that the text determines the number. -/

/-- The integer that the text of an exponent denotes, with a sign in front. -/
def readExponent : List Char → Int
  | '-' :: cs => -(Nat.ofDigitChars 10 cs 0 : Int)
  | '+' :: cs => Nat.ofDigitChars 10 cs 0
  | _ => 0

/-- The number that digits with a point among them denote. -/
def readSignificand (cs : List Char) : ℚ :=
  let fraction := (cs.dropWhile (· != '.')).drop 1
  Nat.ofDigitChars 10 (cs.takeWhile (· != '.') ++ fraction) 0 * 10 ^ (-(fraction.length : Int))

/-- The number that a text without a sign denotes. -/
def readDecimal (cs : List Char) : ℚ :=
  readSignificand (cs.takeWhile (· != 'e')) * 10 ^ readExponent ((cs.dropWhile (· != 'e')).drop 1)

/-- Characters of which none is a mark, in front of the mark. -/
lemma takeWhile_ne_append {mark : Char} {cs : List Char} (h : mark ∉ cs) (rest : List Char) :
    (cs ++ mark :: rest).takeWhile (· != mark) = cs ∧
      (cs ++ mark :: rest).dropWhile (· != mark) = mark :: rest := by
  have hcs : ∀ c ∈ cs, (c != mark) = true := fun c hc => bne_iff_ne.2 fun heq => h (heq ▸ hc)
  rw [List.takeWhile_append_of_pos hcs, List.dropWhile_append_of_pos hcs]
  simp

/-- Characters without the mark. -/
lemma takeWhile_ne_self {mark : Char} {cs : List Char} (h : mark ∉ cs) :
    cs.takeWhile (· != mark) = cs ∧ cs.dropWhile (· != mark) = [] := by
  have hcs : ∀ c ∈ cs, (c != mark) = true := fun c hc => bne_iff_ne.2 fun heq => h (heq ▸ hc)
  exact ⟨List.takeWhile_eq_self_iff.2 hcs, List.dropWhile_eq_nil_iff.2 hcs⟩

lemma readSignificand_whole {cs : List Char} (h : '.' ∉ cs) :
    readSignificand cs = Nat.ofDigitChars 10 cs 0 := by
  obtain ⟨htake, hdrop⟩ := takeWhile_ne_self h
  simp only [readSignificand, htake, hdrop]
  simp

lemma readSignificand_point {whole : List Char} (h : '.' ∉ whole) (fraction : List Char) :
    readSignificand (whole ++ '.' :: fraction) =
      Nat.ofDigitChars 10 (whole ++ fraction) 0 * 10 ^ (-(fraction.length : Int)) := by
  obtain ⟨htake, hdrop⟩ := takeWhile_ne_append h fraction
  simp only [readSignificand, htake, hdrop]
  simp

lemma readDecimal_plain {cs : List Char} (h : 'e' ∉ cs) : readDecimal cs = readSignificand cs := by
  obtain ⟨htake, hdrop⟩ := takeWhile_ne_self h
  simp only [readDecimal, htake, hdrop]
  simp [readExponent]

lemma readDecimal_exponent {cs : List Char} (h : 'e' ∉ cs) (rest : List Char) :
    readDecimal (cs ++ 'e' :: rest) = readSignificand cs * 10 ^ readExponent rest := by
  obtain ⟨htake, hdrop⟩ := takeWhile_ne_append h rest
  simp only [readDecimal, htake, hdrop]
  simp

/-! ## Digits that are laid out

Where the point stands among the digits depends on the exponent: behind all of them, among them, or
in front of them with zeros between.  An exponent is written only if it is large in one direction.
-/

namespace DecimalLayout

/-- The layout of some digits in positions, with a point if digits are left behind it. -/
def positioned (layout : DecimalLayout) (digits : List Char) (scale : Int) : List Char :=
  if scale ≤ 0 then '0' :: '.' :: List.replicate (-scale).toNat '0' ++ digits
  else if digits.length ≤ scale.toNat then
    digits ++ List.replicate (scale.toNat - digits.length) '0' ++
      if layout.showsFraction then ['.', '0'] else []
  else digits.take scale.toNat ++ '.' :: digits.drop scale.toNat

/-- The layout of some digits with an exponent. -/
def scientific (digits : List Char) (exponent : Int) : List Char :=
  digits.take 1 ++ (if digits.length ≤ 1 then [] else '.' :: digits.drop 1) ++
    'e' :: (if exponent < 0 then '-' else '+') :: Nat.toDigits 10 exponent.natAbs

/-- The characters of digits that are laid out. -/
lemma toList_layOut (layout : DecimalLayout) (d : Decimal) :
    (layout.layOut d).toList = if layout.positional (d.scale - 1)
      then layout.positioned (Nat.toDigits 10 d.digits) d.scale
      else scientific (Nat.toDigits 10 d.digits) (d.scale - 1) := by
  have hempty : ∀ s : String, s.isEmpty = s.toList.isEmpty := fun s => by
    rw [Bool.eq_iff_iff, String.isEmpty_iff, List.isEmpty_iff, String.toList_eq_nil_iff]
  obtain ⟨c, cs, hdigits⟩ := List.exists_cons_of_ne_nil
    (List.ne_nil_of_length_pos (Nat.length_toDigits_pos (b := 10) (n := d.digits)))
  rw [layOut]
  by_cases hpositional : layout.positional (d.scale - 1) = true
  · rw [if_pos hpositional, if_pos hpositional, positioned]
    by_cases hscale : d.scale ≤ 0
    · simp only [if_pos hscale, hempty, zeros]
      simp
    · simp only [if_neg hscale, hempty, zeros]
      rcases Nat.lt_or_ge d.scale.toNat (Nat.toDigits 10 d.digits).length with hlt | hge
      · simp [Nat.not_le.2 hlt, Nat.sub_eq_zero_of_le hlt.le]
      · cases hshows : layout.showsFraction <;> simp [hge, List.take_of_length_le hge]
  · rw [if_neg hpositional, if_neg hpositional, scientific]
    simp only [hempty, hdigits]
    by_cases hnegative : d.scale - 1 < 0
    · cases cs <;> simp [hnegative]
    · cases cs <;> simp [hnegative]

/-- The marks of a text are no digits. -/
lemma not_mem_of_isDigit {cs : List Char} (h : ∀ c ∈ cs, c.isDigit = true) :
    '.' ∉ cs ∧ 'e' ∉ cs := by
  constructor
  · intro hmem
    cases h _ hmem
  · intro hmem
    cases h _ hmem

/-- Digits behind the point, with zeros between it and them. -/
lemma readDecimal_below {digits : List Char} (hdigits : ∀ c ∈ digits, c.isDigit = true)
    {scale : Int} (hscale : scale ≤ 0) :
    readDecimal ('0' :: '.' :: List.replicate (-scale).toNat '0' ++ digits) =
      Nat.ofDigitChars 10 digits 0 * 10 ^ (scale - digits.length) := by
  have hplain : 'e' ∉ '0' :: '.' :: List.replicate (-scale).toNat '0' ++ digits := by
    simp [(not_mem_of_isDigit hdigits).2]
  have hfront : Nat.ofDigitChars 10 (['0'] ++ (List.replicate (-scale).toNat '0' ++ digits)) 0 =
      Nat.ofDigitChars 10 digits 0 := by
    rw [Nat.ofDigitChars_append, Nat.ofDigitChars_append, Nat.ofDigitChars_replicate_zero,
      show Nat.ofDigitChars 10 ['0'] 0 = 0 from rfl, Nat.mul_zero]
  rw [readDecimal_plain hplain]
  change readSignificand (['0'] ++ '.' :: (List.replicate (-scale).toNat '0' ++ digits)) = _
  rw [readSignificand_point (by decide), hfront, List.length_append, List.length_replicate]
  congr 2
  push_cast
  omega

/-- Digits in front of the point, with zeros between them and it. -/
lemma readDecimal_above (layout : DecimalLayout) {digits : List Char}
    (hdigits : ∀ c ∈ digits, c.isDigit = true) {scale : Int} (hscale : 0 ≤ scale)
    (hlength : digits.length ≤ scale.toNat) :
    readDecimal (digits ++ List.replicate (scale.toNat - digits.length) '0' ++
        if layout.showsFraction then ['.', '0'] else []) =
      Nat.ofDigitChars 10 digits 0 * 10 ^ (scale - digits.length) := by
  have hwhole : ∀ c ∈ digits ++ List.replicate (scale.toNat - digits.length) '0',
      c.isDigit = true := fun c hc => (List.mem_append.1 hc).elim (hdigits c) fun hzero => by
    rw [(List.mem_replicate.1 hzero).2]
    rfl
  obtain ⟨hpoint, hmark⟩ := not_mem_of_isDigit hwhole
  have hvalue : (Nat.ofDigitChars 10
      (digits ++ List.replicate (scale.toNat - digits.length) '0') 0 : ℚ) =
      Nat.ofDigitChars 10 digits 0 * 10 ^ (scale - digits.length) := by
    rw [Nat.ofDigitChars_append, Nat.ofDigitChars_replicate_zero, Nat.cast_mul, Nat.cast_pow,
      Nat.cast_ofNat, mul_comm, ← zpow_natCast]
    congr 2
    omega
  cases layout.showsFraction with
  | true =>
      have hplain : 'e' ∉ digits ++ List.replicate (scale.toNat - digits.length) '0' ++
          ['.', '0'] := by simp [(not_mem_of_isDigit hdigits).2]
      rw [if_pos rfl, readDecimal_plain hplain, readSignificand_point hpoint,
        Nat.ofDigitChars_append, ← hvalue]
      change ((10 * Nat.ofDigitChars 10 _ 0 + 0 : Nat) : ℚ) * 10 ^ (-(1 : Int)) = _
      push_cast
      rw [zpow_neg_one]
      field_simp
      ring
  | false =>
      rw [if_neg Bool.false_ne_true, List.append_nil, readDecimal_plain hmark,
        readSignificand_whole hpoint, hvalue]

/-- Digits with the point among them. -/
lemma readDecimal_among {digits : List Char} (hdigits : ∀ c ∈ digits, c.isDigit = true)
    {scale : Int} (hscale : 0 ≤ scale) (hlength : scale.toNat < digits.length) :
    readDecimal (digits.take scale.toNat ++ '.' :: digits.drop scale.toNat) =
      Nat.ofDigitChars 10 digits 0 * 10 ^ (scale - digits.length) := by
  obtain ⟨hpoint, hmark⟩ := not_mem_of_isDigit hdigits
  have hplain : 'e' ∉ digits.take scale.toNat ++ '.' :: digits.drop scale.toNat := by
    have htake : 'e' ∉ digits.take scale.toNat := fun h => hmark (List.mem_of_mem_take h)
    have hdrop : 'e' ∉ digits.drop scale.toNat := fun h => hmark (List.mem_of_mem_drop h)
    simp [htake, hdrop]
  have hfront : '.' ∉ digits.take scale.toNat := fun h => hpoint (List.mem_of_mem_take h)
  rw [readDecimal_plain hplain, readSignificand_point hfront, List.take_append_drop,
    List.length_drop]
  congr 2
  omega

/-- Digits in positions are read back. -/
lemma readDecimal_positioned (layout : DecimalLayout) {digits : List Char}
    (hdigits : ∀ c ∈ digits, c.isDigit = true) (scale : Int) :
    readDecimal (layout.positioned digits scale) =
      Nat.ofDigitChars 10 digits 0 * 10 ^ (scale - digits.length) := by
  rw [positioned]
  split
  case isTrue hbelow => exact readDecimal_below hdigits hbelow
  case isFalse hscale =>
    split
    case isTrue habove => exact layout.readDecimal_above hdigits (by omega) habove
    case isFalse hamong => exact readDecimal_among hdigits (by omega) (by omega)

/-- Digits with an exponent are read back. -/
lemma readDecimal_scientific {digits : List Char} (hdigits : ∀ c ∈ digits, c.isDigit = true)
    (hpos : 0 < digits.length) (exponent : Int) :
    readDecimal (scientific digits exponent) =
      Nat.ofDigitChars 10 digits 0 * 10 ^ (exponent + 1 - digits.length) := by
  obtain ⟨hpoint, hmark⟩ := not_mem_of_isDigit hdigits
  obtain ⟨c, cs, rfl⟩ := List.exists_cons_of_length_pos hpos
  have hexponent : readExponent ((if exponent < 0 then '-' else '+') ::
      Nat.toDigits 10 exponent.natAbs) = exponent := by
    split
    case isTrue hnegative =>
      rw [readExponent, Nat.ofDigitChars_ten_toDigits]
      omega
    case isFalse hnonneg =>
      rw [readExponent, Nat.ofDigitChars_ten_toDigits]
      omega
  have hten : (10 : ℚ) ≠ 0 := by norm_num
  rw [scientific]
  cases cs with
  | nil =>
      have hplain : 'e' ∉ [c] := hmark
      change readDecimal ([c] ++ 'e' :: _) = _
      rw [readDecimal_exponent hplain, hexponent, readSignificand_whole hpoint]
      congr 2
      simp
  | cons c' cs =>
      have hplain : 'e' ∉ [c] ++ '.' :: c' :: cs := by
        simp only [List.mem_cons, not_or] at hmark
        simp [hmark.1, hmark.2.1, hmark.2.2]
      have hfirst : '.' ∉ [c] := fun h => hpoint (List.mem_cons.2 (.inl (List.mem_singleton.1 h)))
      change readDecimal (([c] ++ '.' :: c' :: cs) ++ 'e' :: _) = _
      rw [readDecimal_exponent hplain, hexponent, readSignificand_point hfirst, mul_assoc,
        ← zpow_add₀ hten]
      congr 2
      rw [List.length_cons, List.length_cons, List.length_cons]
      push_cast
      ring

/-- **Digits that are laid out are read back.** -/
theorem readDecimal_layOut (layout : DecimalLayout) (d : Decimal) :
    readDecimal (layout.layOut d).toList = d.value := by
  have hdigits : ∀ c ∈ Nat.toDigits 10 d.digits, c.isDigit = true := fun c hc =>
    Nat.isDigit_of_mem_toDigits (by decide) (by decide) hc
  have hpos : 0 < (Nat.toDigits 10 d.digits).length := Nat.length_toDigits_pos
  rw [toList_layOut, Decimal.value]
  split
  · rw [layout.readDecimal_positioned hdigits, Nat.ofDigitChars_ten_toDigits]
  · rw [readDecimal_scientific hdigits hpos, Nat.ofDigitChars_ten_toDigits, sub_add_cancel]

/-- Digits that are laid out begin with a digit. -/
lemma exists_layOut (layout : DecimalLayout) (d : Decimal) :
    ∃ c cs, (layout.layOut d).toList = c :: cs ∧ c.isDigit = true := by
  obtain ⟨c, cs, hcs⟩ := List.exists_cons_of_length_pos
    (Nat.length_toDigits_pos (b := 10) (n := d.digits))
  have hdigit : c.isDigit = true :=
    Nat.isDigit_of_mem_toDigits (by decide) (by decide) (hcs ▸ List.mem_cons_self)
  rw [toList_layOut, hcs]
  split
  · rw [positioned]
    split
    · exact ⟨_, _, rfl, rfl⟩
    · split
      · exact ⟨_, _, rfl, hdigit⟩
      · obtain ⟨k, hk⟩ := Nat.exists_eq_succ_of_ne_zero (n := d.scale.toNat) (by omega)
        rw [hk]
        exact ⟨_, _, rfl, hdigit⟩
  · exact ⟨_, _, rfl, hdigit⟩

/-- A layout that shows fractions shows that a number is a double, by its point or by its exponent.
-/
lemma exists_mark_layOut {layout : DecimalLayout} (hshows : layout.showsFraction = true)
    (d : Decimal) : ∃ c ∈ (layout.layOut d).toList, c.isDigit = false ∧ c ≠ '-' := by
  rw [toList_layOut]
  split
  · refine ⟨'.', ?_, by decide, by decide⟩
    rw [positioned, hshows]
    split
    · simp
    · split <;> simp
  · exact ⟨'e', by simp [scientific], by decide, by decide⟩

/-- The text of the magnitude of a double. -/
def magnitudeText (layout : DecimalLayout) (mantissa : Nat) (exponent : Int) : String :=
  if mantissa = 0 then (if layout.showsFraction then "0.0" else "0")
  else layout.layOut (Decimal.shortest layout.tie mantissa exponent)

lemma text_of_finite {layout : DecimalLayout} {x : Float} {negative : Bool} {m : Nat} {e : Int}
    (h : Binary64.ofFloat x = .finite negative m e) : layout.text x =
      if negative then "-" ++ layout.magnitudeText m e else layout.magnitudeText m e := by
  rw [text, h]
  rfl

/-- The text of a magnitude begins with a digit. -/
lemma exists_magnitudeText (layout : DecimalLayout) (m : Nat) (e : Int) :
    ∃ c cs, (layout.magnitudeText m e).toList = c :: cs ∧ c.isDigit = true := by
  rw [magnitudeText]
  split
  · split <;> exact ⟨_, _, rfl, rfl⟩
  · exact layout.exists_layOut _

/-- The text of a magnitude denotes a number that rounds to it. -/
lemma readDecimal_magnitudeText (layout : DecimalLayout) {m : Nat} {e : Int} (hd : IsBinary64 m e) :
    (m = 0 ∧ readDecimal (layout.magnitudeText m e).toList = 0) ∨
      (0 < m ∧ RoundsTo (readDecimal (layout.magnitudeText m e).toList) m e) := by
  rcases Nat.eq_zero_or_pos m with rfl | hm
  · refine .inl ⟨rfl, ?_⟩
    rw [magnitudeText, if_pos rfl]
    split
    · rw [readDecimal_plain (by decide)]
      exact zero_mul _
    · rw [readDecimal_plain (by decide)]
      exact zero_mul _
  · refine .inr ⟨hm, ?_⟩
    rw [magnitudeText, if_neg hm.ne', readDecimal_layOut]
    exact Decimal.roundsTo_shortest hd hm _

/-- The text of a magnitude tells it. -/
lemma magnitudeText_injective (layout : DecimalLayout) {m n : Nat} {e f : Int} (hd : IsBinary64 m e)
    (hd' : IsBinary64 n f) (h : layout.magnitudeText m e = layout.magnitudeText n f) :
    m = n ∧ e = f := by
  rcases layout.readDecimal_magnitudeText hd with ⟨rfl, hzero⟩ | ⟨hm, hrounds⟩
  · rcases layout.readDecimal_magnitudeText hd' with ⟨rfl, -⟩ | ⟨hn, hrounds'⟩
    · -- zero has the least exponent
      have hleast := hd.least
      have hleast' := hd'.least
      have hnormal := hd.normal
      have hnormal' := hd'.normal
      omega
    · rw [← h, hzero] at hrounds'
      exact absurd (hrounds'.pos hn) (lt_irrefl 0)
  · rcases layout.readDecimal_magnitudeText hd' with ⟨rfl, hzero⟩ | ⟨-, hrounds'⟩
    · rw [h, hzero] at hrounds
      exact absurd (hrounds.pos hm) (lt_irrefl 0)
    · rw [← h] at hrounds'
      exact hrounds.unique hd hd' hrounds'

end DecimalLayout

/-! ## Doubles by their content

A double that is finite is known once its sign, its mantissa and its exponent are known.  The sign
is seen from the text, and the other two from the number that the rest denotes, as it rounds to one
double only. -/

namespace Binary64

variable {x y : Float} {negative : Bool} {m : Nat} {e : Int}

/-- What is read off the bits of a finite double. -/
lemma isBinary64 (h : ofFloat x = .finite negative m e) : IsBinary64 m e := by
  simp only [ofFloat, Nat.pow_eq, Int.ofNat_eq_natCast] at h
  split_ifs at h with hspecial hfraction hsubnormal
  · obtain ⟨-, rfl, rfl⟩ := Binary64.finite.inj h
    exact ⟨by omega, le_rfl, by omega, by omega⟩
  · obtain ⟨-, rfl, rfl⟩ := Binary64.finite.inj h
    exact ⟨by omega, by omega, by omega, by omega⟩

/-- **A finite double is told by its sign, its mantissa and its exponent.** -/
lemma eq_of_finite (hx : ofFloat x = .finite negative m e) (hy : ofFloat y = .finite negative m e) :
    x = y := by
  have hxbits := x.toBits.toNat_lt
  have hybits := y.toBits.toNat_lt
  rw [← Float.toBits_inj, ← UInt64.toNat_inj]
  simp only [ofFloat, Nat.pow_eq, Int.ofNat_eq_natCast] at hx hy
  split_ifs at hx hy
  -- each with the least exponent and a fraction, or with a biased one and the first bit set
  all_goals
    obtain ⟨hsign, hmantissa, hexponent⟩ := Binary64.finite.inj hx
    obtain ⟨hsign', hmantissa', hexponent'⟩ := Binary64.finite.inj hy
    have hsame := decide_eq_decide.1 (hsign.trans hsign'.symm)
    omega

end Binary64

lemma Number.exists_of_isFinite {x : Float} (h : isFinite x = true) :
    ∃ negative m e, Binary64.ofFloat x = .finite negative m e := by
  rw [isFinite] at h
  cases hx : Binary64.ofFloat x with
  | finite negative m e => exact ⟨negative, m, e, rfl⟩
  | _ =>
      rw [hx] at h
      cases h

/-- **No two finite doubles are written alike.** -/
theorem DecimalLayout.text_injective (layout : DecimalLayout) {x y : Float}
    (hx : Number.isFinite x = true) (hy : Number.isFinite y = true)
    (h : layout.text x = layout.text y) : x = y := by
  obtain ⟨negative, m, e, hcontent⟩ := Number.exists_of_isFinite hx
  obtain ⟨negative', n, f, hcontent'⟩ := Number.exists_of_isFinite hy
  rw [text_of_finite hcontent, text_of_finite hcontent'] at h
  obtain ⟨c, cs, hm, hdigit⟩ := layout.exists_magnitudeText m e
  obtain ⟨c', cs', hn, hdigit'⟩ := layout.exists_magnitudeText n f
  -- a sign is in front of both or of none
  have hsigns : negative = negative' ∧ layout.magnitudeText m e = layout.magnitudeText n f := by
    have hlists := congrArg String.toList h
    cases negative <;> cases negative' <;>
      simp only [Bool.false_eq_true, if_true, if_false, String.toList_append] at hlists
    case false.false => exact ⟨rfl, String.toList_inj.1 hlists⟩
    case false.true =>
      obtain ⟨rfl, -⟩ := List.cons.inj (hm.symm.trans hlists)
      cases hdigit
    case true.false =>
      obtain ⟨rfl, -⟩ := List.cons.inj (hn.symm.trans hlists.symm)
      cases hdigit'
    case true.true => exact ⟨rfl, String.toList_inj.1 (List.append_cancel_left hlists)⟩
  obtain ⟨rfl, hmagnitudes⟩ := hsigns
  obtain ⟨rfl, rfl⟩ := layout.magnitudeText_injective (Binary64.isBinary64 hcontent)
    (Binary64.isBinary64 hcontent') hmagnitudes
  exact Binary64.eq_of_finite hcontent hcontent'

/-- A layout that shows fractions shows that a number is a double. -/
lemma DecimalLayout.exists_mark_text (layout : DecimalLayout) (hshows : layout.showsFraction = true)
    {x : Float} (hx : Number.isFinite x = true) :
    ∃ c ∈ (layout.text x).toList, c.isDigit = false ∧ c ≠ '-' := by
  obtain ⟨negative, m, e, hcontent⟩ := Number.exists_of_isFinite hx
  obtain ⟨c, hc, hmark⟩ : ∃ c ∈ (layout.magnitudeText m e).toList, c.isDigit = false ∧ c ≠ '-' := by
    rw [magnitudeText, hshows]
    split
    · exact ⟨'.', by decide, by decide, by decide⟩
    · exact exists_mark_layOut hshows _
  refine ⟨c, ?_, hmark⟩
  rw [text_of_finite hcontent]
  split
  · rw [String.toList_append]
    exact List.mem_append_right _ hc
  · exact hc

/-- The text of a finite double begins with a digit or a sign. -/
lemma DecimalLayout.exists_text (layout : DecimalLayout) {x : Float}
    (hx : Number.isFinite x = true) :
    ∃ c cs, (layout.text x).toList = c :: cs ∧ (c.isDigit = true ∨ c = '-') := by
  obtain ⟨negative, m, e, hcontent⟩ := Number.exists_of_isFinite hx
  obtain ⟨c, cs, hm, hdigit⟩ := layout.exists_magnitudeText m e
  rw [text_of_finite hcontent]
  split
  · rw [String.toList_append]
    exact ⟨_, _, rfl, .inr rfl⟩
  · exact ⟨c, cs, hm, .inl hdigit⟩

end EntityQuery
