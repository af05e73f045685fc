import EntityQuery.Proofs.Number.Content
import EntityQuery.Proofs.Scalar.Order

/-!
# What decoding accepts

A number is read as an integer of a type if it stands for an integer in the range of the type, be it
written as an integer or as a double, and it is refused otherwise.  The end of the 64-bit range is
an exception: its test is made on doubles, of which the last one is `2 ^ 63`, and what passes it is
clamped.  So the numbers from `2 ^ 63` to the middle to the next double are read as the greatest
integer.

A codec accepts more documents than it writes: doubles without a fraction, times with an offset, the
forms of identifiers and dates.  What it reads from them it writes in its own form, and reads again,
with one exception: an offset may lead out of the years of four digits.

* `Number.IsPastEnd`: the numbers that are clamped.
* `Codec.integral_cases`: the integer that is read from a number, if there is one.
* `integers_decoded`: decoding is exact but for these numbers.
* `integers_clamped`: the first of them.
* `Codec.Rereads`: a value that is read again from its own document.
* `decoded_reread`: so is every value that was decoded, if its year has four digits.
* `decoded_not_reread`: a time whose year has five.
-/

namespace EntityQuery

/-! ## Integers of numbers

A number that is written as an integer is read as one; a double is read as one if it has no fraction
and passes a test of its range.  The test is made in doubles, and its upper end is the one place
where it is wrong. -/

/-- Whether a number is not less than `2 ^ 63`, which no signed integer is, and rounded to it. -/
def Number.IsPastEnd (n : Number) : Prop := ∃ q, n.value? = some q ∧ 2 ^ 63 ≤ q ∧ q ≤ 2 ^ 63 + 1024

/-- No such number stands for a signed integer. -/
lemma Number.IsPastEnd.fits_eq_false {n : Number} (h : n.IsPastEnd) {i : Int}
    (hi : n.value? = some (i : ℚ)) : fitsInt64 i = false := by
  obtain ⟨q, hq, hlow, -⟩ := h
  cases hi.symm.trans hq
  have hgreat : (2 : Int) ^ 63 ≤ i := by exact_mod_cast hlow
  rw [← Bool.not_eq_true, fitsInt64_iff]
  simp only [int64Max]
  omega

/-- A value of a type stands for an integer. -/
def Value.IsInteger (t : ScalarType) (i : Int) (v : Value) : Prop :=
  v.scalarType? = some t ∧ v.int? = some i

namespace Codec

variable {n : Number}

/-- What is no signed integer is read as a double. -/
lemma integral_of_double (hn : n.toInt64? = none) {i : Int}
    (hi : (Binary64.ofFloat n.toFloat).toInt? = some i) (t : ScalarType) :
    integral t (.number n) = if int64Min ≤ i && i ≤ int64Max + 1 then .ok (min i int64Max)
      else .error (.malformed t (n.text ++ " is not an integral value")) := by
  rw [integral, hn]
  simp only [hi]

lemma integral_of_refused (hn : n.toInt64? = none)
    (hrefused : ∀ i, (Binary64.ofFloat n.toFloat).toInt? = some i → i < int64Min ∨ int64Max + 1 < i)
    (t : ScalarType) : ∃ reason, integral t (.number n) = .error (.malformed t reason) := by
  cases hi : (Binary64.ofFloat n.toFloat).toInt? with
  | none =>
    rw [integral, hn]
    simp only [hi]
    exact ⟨_, rfl⟩
  | some i =>
    have hrange : ¬(int64Min ≤ i && i ≤ int64Max + 1) = true := by
      have := hrefused i hi
      rw [Bool.and_eq_true, decide_eq_true_eq, decide_eq_true_eq]
      omega
    rw [integral_of_double hn hi, if_neg hrange]
    exact ⟨_, rfl⟩

lemma integral_of_end (hn : n.toInt64? = none)
    (hi : (Binary64.ofFloat n.toFloat).toInt? = some (2 ^ 63)) (t : ScalarType) :
    integral t (.number n) = .ok int64Max := by
  rw [integral_of_double hn hi]
  rfl

/-- **The integer that is read from a number** is the one that it stands for, the greatest one if it
is past the end, and none otherwise. -/
lemma integral_cases (hn : ∀ k, n = .int k → int64Min ≤ k ∧ k ≤ uint64Max) :
    (∃ i : Int, n.value? = some (i : ℚ) ∧ fitsInt64 i = true ∧ ∀ t, integral t (.number n) = .ok i) ∨
      (n.IsPastEnd ∧ ∀ t, integral t (.number n) = .ok int64Max) ∨
      (¬ n.IsPastEnd ∧ (∀ i : Int, n.value? = some (i : ℚ) → fitsInt64 i = false) ∧
        ∀ t, ∃ reason, integral t (.number n) = .error (.malformed t reason)) := by
  cases n with
  | int k =>
    obtain ⟨hlow, hhigh⟩ := hn k rfl
    cases hfits : fitsInt64 k with
    | true => exact .inl ⟨k, rfl, hfits, fun t => integral_ofInt hfits⟩
    | false =>
      have hnone : (Number.int k).toInt64? = none := if_neg (by rw [hfits]; exact Bool.false_ne_true)
      have hgreat : int64Max < k := by
        by_contra hle
        rw [fitsInt64, decide_eq_true hlow, decide_eq_true (Int.not_lt.1 hle)] at hfits
        cases hfits
      simp only [int64Max, uint64Max] at hgreat hhigh
      obtain ⟨i, hi, hend, hbeyond⟩ := Binary64.toInt?_ofInt_of_lt hgreat (by omega)
      right
      by_cases hle : k ≤ 2 ^ 63 + 1024
      · refine .inl ⟨⟨k, rfl, ?_, by exact_mod_cast hle⟩, integral_of_end hnone (hend hle ▸ hi)⟩
        exact_mod_cast (show (2 : Int) ^ 63 ≤ k by omega)
      · refine .inr ⟨?_, fun j hj => ?_, integral_of_refused hnone fun j hj => .inr ?_⟩
        · rintro ⟨q, hq, -, hq'⟩
          cases hq
          exact hle (by exact_mod_cast hq')
        · rw [Number.value?, Option.some_inj, Int.cast_inj] at hj
          exact hj ▸ hfits
        · cases hi.symm.trans hj
          exact hbeyond (Int.not_le.1 hle)
  | float x =>
    have hpast : (Number.float x).IsPastEnd → (Binary64.ofFloat x).toInt? = some (2 ^ 63) := by
      rintro ⟨q, hq, hlow, hhigh⟩
      rw [Binary64.toInt?_eq_some_iff, show ((2 ^ 63 : Int) : ℚ) = 2 ^ 63 by norm_num,
        ← Binary64.value?_eq_of_le hq hlow hhigh]
      exact hq
    by_cases hend : (Binary64.ofFloat x).toInt? = some (2 ^ 63)
    · refine .inr (.inl ⟨⟨_, Binary64.toInt?_eq_some_iff.1 hend, ?_, ?_⟩, integral_of_end rfl hend⟩)
      · norm_num
      · norm_num
    · by_cases hread : ∃ i, (Binary64.ofFloat x).toInt? = some i ∧ fitsInt64 i = true
      · obtain ⟨i, hi, hfits⟩ := hread
        exact .inl ⟨i, Binary64.toInt?_eq_some_iff.1 hi, hfits,
          fun t => Registry.integral_float hi hfits⟩
      · refine .inr (.inr ⟨fun h => hend (hpast h), fun i hi => ?_, integral_of_refused rfl ?_⟩)
        · rw [← Bool.not_eq_true]
          exact fun hfits => hread ⟨i, Binary64.toInt?_eq_some_iff.2 hi, hfits⟩
        · intro i hi
          by_contra hrange
          have hne : i ≠ 2 ^ 63 := fun h => hend (h ▸ hi)
          refine hread ⟨i, hi, fitsInt64_iff.2 ?_⟩
          simp only [int64Min, int64Max] at hrange ⊢
          omega

lemma decode_int32 (n : Number) : int32.decode (.number n) =
    integral .int32 (.number n) >>= fun i => if fitsInt32 i then .ok (.int32 (.ofInt i))
      else .error (.malformed .int32 (toString i ++ " is out of range")) := rfl

lemma decode_int64 (n : Number) : int64.decode (.number n) =
    (integral .int64 (.number n)).map fun i => .int64 (.ofInt i) := rfl

lemma toInt_ofInt32 {i : Int} (h : fitsInt32 i = true) : (Int32.ofInt i).toInt = i := by
  simp only [fitsInt32, int32Min, int32Max, Bool.and_eq_true, decide_eq_true_eq] at h
  exact Int32.toInt_ofInt_of_le h.1 (by omega)

lemma toInt_ofInt64 {i : Int} (h : fitsInt64 i = true) : (Int64.ofInt i).toInt = i := by
  obtain ⟨hlow, hhigh⟩ := fitsInt64_iff.1 h
  exact Int64.toInt_ofInt_of_le hlow (Int.lt_add_one_of_le hhigh)

/-- **An integer that is read and in range is decoded.** -/
lemma exists_decode_iff {c : Codec} (hc : c = int32 ∨ c = int64) {i : Int} :
    (∃ v, c.decode (.number n) = .ok v ∧ v.IsInteger c.scalarType i) ↔
      integral c.scalarType (.number n) = .ok i ∧ c.scalarType.hasInRange i = true := by
  rcases hc with rfl | rfl
  · rw [decode_int32]
    constructor
    · rintro ⟨v, hv, -, hi⟩
      obtain ⟨j, hj, hv⟩ := Computation.bind_eq_ok.1 hv
      by_cases hfits : fitsInt32 j = true
      · rw [if_pos hfits] at hv
        cases hv
        cases (Option.some_inj.1 hi).symm.trans (toInt_ofInt32 hfits)
        exact ⟨hj, hfits⟩
      · rw [if_neg hfits] at hv
        cases hv
    · rintro ⟨hi, hfits⟩
      exact ⟨.int32 (.ofInt i), Computation.bind_eq_ok.2 ⟨i, hi, if_pos hfits⟩, rfl,
        congrArg some (toInt_ofInt32 hfits)⟩
  · rw [decode_int64]
    constructor
    · rintro ⟨v, hv, -, hi⟩
      obtain ⟨j, hj, rfl⟩ := Computation.map_eq_ok.1 hv
      obtain ⟨-, hfits⟩ := Registry.integral_eq_ok (t := .int64) hj
      cases (Option.some_inj.1 hi).symm.trans (toInt_ofInt64 hfits)
      exact ⟨hj, hfits⟩
    · rintro ⟨hi, hfits⟩
      exact ⟨.int64 (.ofInt i), Computation.map_eq_ok.2 ⟨i, hi, rfl⟩, rfl,
        congrArg some (toInt_ofInt64 hfits)⟩

/-- A number is refused if no integer is read from it, or one that is out of range. -/
lemma decode_malformed {c : Codec} (hc : c = int32 ∨ c = int64)
    (h : (∃ reason, integral c.scalarType (.number n) = .error (.malformed c.scalarType reason)) ∨
      ∃ i, integral c.scalarType (.number n) = .ok i ∧ c.scalarType.hasInRange i = false) :
    ∃ reason, c.decode (.number n) = .error (.malformed c.scalarType reason) := by
  rcases hc with rfl | rfl
  · rw [decode_int32]
    rcases h with ⟨reason, h⟩ | ⟨i, hi, hrange⟩
    · exact ⟨reason, Computation.bind_eq_error.2 (.inl h)⟩
    · refine ⟨_, Computation.bind_eq_error.2 (.inr ⟨i, hi, if_neg ?_⟩)⟩
      rw [Bool.not_eq_true]
      exact hrange
  · rw [decode_int64]
    rcases h with ⟨reason, h⟩ | ⟨i, hi, hrange⟩
    · exact ⟨reason, Computation.map_eq_error.2 h⟩
    · cases (Registry.integral_eq_ok (t := .int64) hi).2.symm.trans hrange

end Codec

/-- **Integers are decoded exactly.**  A number of a document is decoded to an integer exactly if it
stands for that integer and the integer is in the range of the type, and it is malformed if it
stands for no such integer.  Only the numbers past the end of the 64-bit range are decoded under the
type of 64 bits to an integer for which they do not stand: to the greatest one. -/
theorem integers_decoded {n : Number} (hn : ∀ k, n = .int k → int64Min ≤ k ∧ k ≤ uint64Max) :
    (∀ c : Codec, c = .int32 ∨ c = .int64 ∧ ¬ n.IsPastEnd →
      (∀ i : Int, (∃ v, c.decode (.number n) = .ok v ∧ v.IsInteger c.scalarType i) ↔
        n.value? = some (i : ℚ) ∧ c.scalarType.hasInRange i = true) ∧
      ((∀ i : Int, n.value? = some (i : ℚ) → c.scalarType.hasInRange i = false) →
        ∃ reason, c.decode (.number n) = .error (.malformed c.scalarType reason))) ∧
    (n.IsPastEnd → ∃ v : Int64, Codec.int64.decode (.number n) = .ok (.int64 v) ∧
      v.toInt = int64Max) := by
  refine ⟨fun c hc => ?_, fun hpast => ?_⟩
  · have hinteger : c = .int32 ∨ c = .int64 := hc.imp_right And.left
    simp only [Codec.exists_decode_iff hinteger]
    rcases Codec.integral_cases hn with ⟨j, hj, -, hread⟩ | ⟨hpast, hread⟩ | ⟨-, hnone, hread⟩
    · refine ⟨fun i => ?_, fun hrange => ?_⟩
      · rw [hread, hj, Except.ok.injEq, Option.some_inj, Int.cast_inj]
      · exact Codec.decode_malformed hinteger (.inr ⟨j, hread _, hrange j hj⟩)
    · -- what is past the end is read as the greatest integer of 64 bits, which is none of 32
      obtain rfl := hc.resolve_right fun h => h.2 hpast
      refine ⟨fun i => ⟨?_, ?_⟩, fun _ => Codec.decode_malformed hinteger (.inr ⟨_, hread _, rfl⟩)⟩
      · rintro ⟨hi, hrange⟩
        cases (hread _).symm.trans hi
        cases hrange
      · rintro ⟨hi, hrange⟩
        cases (hpast.fits_eq_false hi).symm.trans (ScalarType.fitsInt64_of_hasInRange hrange)
    · refine ⟨fun i => ⟨?_, ?_⟩, fun _ => Codec.decode_malformed hinteger (.inl (hread _))⟩
      · rintro ⟨hi, -⟩
        obtain ⟨_, hrefused⟩ := hread c.scalarType
        cases hrefused.symm.trans hi
      · rintro ⟨hi, hrange⟩
        cases (hnone i hi).symm.trans (ScalarType.fitsInt64_of_hasInRange hrange)
  · rcases Codec.integral_cases hn with ⟨j, hj, hfits, -⟩ | ⟨-, hread⟩ | ⟨hnot, -⟩
    · cases (hpast.fits_eq_false hj).symm.trans hfits
    · exact ⟨.ofInt int64Max, Computation.map_eq_ok.2 ⟨_, hread _, rfl⟩, rfl⟩
    · exact absurd hpast hnot

/-- A double without a fraction, and the first integer behind those that are clamped. -/
theorem integers_decoded_thirty :
    let thirty : Number := .float 30.0
    let behind : Number := .int 9223372036854776833
    (∀ k, thirty = .int k → int64Min ≤ k ∧ k ≤ uint64Max) ∧
    (∀ k, behind = .int k → int64Min ≤ k ∧ k ≤ uint64Max) ∧ ¬ behind.IsPastEnd ∧
    (∃ v, Codec.int32.decode (.number thirty) = .ok v ∧ v.IsInteger .int32 30) ∧
    ∃ reason, Codec.int64.decode (.number behind) = .error (.malformed .int64 reason) := by
  intro thirty behind
  have hthirty : ∀ k, thirty = .int k → int64Min ≤ k ∧ k ≤ uint64Max := nofun
  have hbehind : ∀ k, behind = .int k → int64Min ≤ k ∧ k ≤ uint64Max := by
    intro k hk
    obtain rfl : 9223372036854776833 = k := Number.int.inj hk
    decide
  have hnot : ¬ behind.IsPastEnd := by
    rintro ⟨q, hq, -, hq'⟩
    cases hq
    norm_num at hq'
  refine ⟨hthirty, hbehind, hnot, ?_, ?_⟩
  · have hvalue : thirty.value? = some ((30 : Int) : ℚ) :=
      (Binary64.toInt?_eq_some_iff (b := .ofFloat 30.0)).1 (by decide +kernel)
    exact (((integers_decoded hthirty).1 .int32 (.inl rfl)).1 30).2 ⟨hvalue, rfl⟩
  · refine ((integers_decoded hbehind).1 .int64 (.inr ⟨rfl, hnot⟩)).2 fun i hi => ?_
    cases Int.cast_inj.1 (Option.some_inj.1 hi)
    rfl

/-- **The first number past the end** is read as the integer before it, be it written as an integer
or as a double. -/
theorem integers_clamped :
    (Number.int 9223372036854775808).value? = some (((2 : Int) ^ 63 : Int) : ℚ) ∧
    (Number.float 9223372036854775808.0).value? = some (((2 : Int) ^ 63 : Int) : ℚ) ∧
    ScalarType.int64.hasInRange (2 ^ 63) = false ∧
    Codec.int64.decode (.number (.int 9223372036854775808)) = .ok (.int64 (.ofInt int64Max)) ∧
    Codec.int64.decode (.number (.float 9223372036854775808.0)) = .ok (.int64 (.ofInt int64Max)) := by
  have hend : (Binary64.ofFloat 9223372036854775808.0).toInt? = some (2 ^ 63) := by decide +kernel
  have hinteger : (Binary64.ofFloat (Number.int 9223372036854775808).toFloat).toInt? =
      some (2 ^ 63) := by decide +kernel
  have hnone : (Number.int 9223372036854775808).toInt64? = none := by decide
  refine ⟨rfl, Binary64.toInt?_eq_some_iff.1 hend, rfl, ?_, ?_⟩
  · rw [Codec.decode_int64, Codec.integral_of_end hnone hinteger]
    rfl
  · rw [Codec.decode_int64, Codec.integral_of_end (n := .float 9223372036854775808.0) rfl hend]
    rfl

/-! ## Reading again

To be read again is stated codec by codec.  A codec of texts inherits it from the text format that
it writes, and the format of instants is the only one that some values do not survive. -/

/-- A value has a year that instants are read with; only instants may have another one. -/
def Value.HasFourDigitYear : Value → Prop
  | .dateTime i => 0 ≤ i.year ∧ i.year ≤ 9999
  | _ => True

/-- Two values are the same, where doubles that are not numbers count as one. -/
def Value.Same : Value → Value → Prop
  | .float64 x, .float64 y => x = y ∨ x.isNaN = true ∧ y.isNaN = true
  | v, w => v = w

lemma Value.Same.refl (v : Value) : v.Same v := by
  cases v with
  | float64 x => exact .inl rfl
  | _ => rfl

/-- A codec reads a value again from the document that it writes for it, if its year has four
digits, and reads none otherwise. -/
def Codec.Rereads (c : Codec) (v : Value) : Prop :=
  ∃ e, c.encode v = .ok e ∧
    (v.HasFourDigitYear → ∃ w, c.decode e = .ok w ∧ w.Same v) ∧
    (¬ v.HasFourDigitYear → ∃ reason, c.decode e = .error (.malformed c.scalarType reason))

namespace Codec

variable {d : Document} {v : Value}

/-- A value that is read again as itself. -/
lemma Rereads.of_decode {c : Codec} {e : Document} (hyear : v.HasFourDigitYear)
    (he : c.encode v = .ok e) (hv : c.decode e = .ok v) : c.Rereads v :=
  ⟨e, he, fun _ => ⟨v, hv, .refl v⟩, fun hnot => absurd hyear hnot⟩

lemma rereads_null (c : Codec) : c.Rereads .null := .of_decode trivial rfl rfl

/-- A text that is read as a value. -/
lemma readText_eq_ok {t : ScalarType} {read : String → Option Value} {reason : String}
    (h : readText t read reason d = .ok v) : ∃ s, d = .string s ∧ read s = some v := by
  obtain ⟨s, hs, hread⟩ := Computation.bind_eq_ok.1 h
  cases d with
  | string text =>
    cases hs
    cases hv : read s with
    | some w =>
      rw [hv] at hread
      cases hread
      exact ⟨s, rfl, hv⟩
    | none =>
      rw [hv] at hread
      cases hread
  | _ => cases hs

/-- What is read from texts is read again if every value of that kind is. -/
lemma Rereads.of_readText {α : Type} {c : Codec} {t : ScalarType} {read : String → Option α}
    {wrap : α → Value} {reason : String}
    (h : readText t (fun s => (read s).map wrap) reason d = .ok v)
    (hwrap : ∀ a, c.Rereads (wrap a)) : c.Rereads v := by
  obtain ⟨s, -, hs⟩ := readText_eq_ok h
  obtain ⟨a, -, rfl⟩ := Option.map_eq_some_iff.1 hs
  exact hwrap a

lemma readText_of_eq_none {t : ScalarType} {read : String → Option Value} {reason s : String}
    (h : read s = none) : readText t read reason (.string s) = .error (.malformed t reason) := by
  rw [readText, expectString, Computation.bind_of_eq_ok rfl, h]

/-- Only null is read from null. -/
lemma decode_of_isNull {c : Codec} (hd : d.isNull = false) : c.decode d = c.decodeDocument d := by
  cases d with
  | null => cases hd
  | _ => rfl

lemma rereads_bool (b : Bool) : bool.Rereads (.bool b) := .of_decode trivial rfl rfl

lemma rereads_int32 (n : Int32) : int32.Rereads (.int32 n) := by
  have hfits := fitsInt32_toInt n
  refine .of_decode trivial rfl ?_
  rw [Document.ofInt, decode_int32, Registry.integral_int (fitsInt64_of_fitsInt32 hfits),
    Computation.bind_of_eq_ok rfl, if_pos hfits, Int32.ofInt_toInt]

lemma rereads_int64 (n : Int64) : int64.Rereads (.int64 n) := by
  refine .of_decode trivial rfl ?_
  rw [Document.ofInt, decode_int64, Registry.integral_int (fitsInt64_toInt n), Except.map,
    Int64.ofInt_toInt]

/-- All doubles that are not numbers are written as one text, and read as one of them. -/
lemma rereads_float64 (x : Float) : float64.Rereads (.float64 x) := by
  by_cases hnumber : Binary64.ofFloat x = .nan
  · have hencode : float64.encode (.float64 x) = .ok (.string "NaN") := by
      simp only [encode, float64, hnumber]
    have hnan : x.isNaN = true := by
      rw [Binary64.ofFloat_eq] at hnumber
      cases hx : x.toModel.unpack <;> rw [hx] at hnumber <;> cases hnumber
      exact isNaN_iff.2 hx
    exact ⟨_, hencode, fun _ => ⟨.float64 (0.0 / 0.0), rfl, .inr ⟨by decide +kernel, hnan⟩⟩,
      fun hnot => absurd trivial hnot⟩
  · obtain ⟨e, he, hdecode⟩ := decode_encode_float64 hnumber
    exact .of_decode trivial he hdecode

lemma rereads_string (s : String) : string.Rereads (.string s) := .of_decode trivial rfl rfl

lemma rereads_uuid (u : Uuid) : uuid.Rereads (.uuid u) :=
  .of_decode trivial rfl (readText_of_eq_some (by rw [Uuid.ofText?_text]; rfl))

/-- An instant is read again if its year has four digits, and only then. -/
lemma rereads_dateTime (i : Instant) : dateTime.Rereads (.dateTime i) := by
  refine ⟨.string i.text, rfl, fun hyear => ⟨.dateTime i, ?_, rfl⟩,
    fun hyear => ⟨"not a date and time", ?_⟩⟩
  · exact readText_of_eq_some (by rw [Instant.ofText?_text i hyear]; rfl)
  · exact readText_of_eq_none (by rw [Instant.ofText?_text_eq_none i hyear]; rfl)

lemma rereads_date (d : Date) : date.Rereads (.date d) :=
  .of_decode trivial rfl (readText_of_eq_some (by rw [Date.ofText?_text]; rfl))

lemma rereads_bytes (bs : List UInt8) : bytes.Rereads (.bytes bs) :=
  .of_decode trivial rfl (readText_of_eq_some (by
    rw [String.toList_ofList, Base64.decode?_encode]; rfl))

lemma rereads_json (hd : d.isNull = false) : json.Rereads (.json d) :=
  .of_decode trivial rfl (decode_of_isNull hd)

end Codec

/-- **What was decoded is encoded, and decoded again to the same value.**  Only instants may have no
text that is read: a text with an offset may denote one whose year in universal time has not four
digits, and the text that is written for it is malformed. -/
theorem decoded_reread {c : Codec} (hc : c ∈ Codec.builtin) {d : Document} {v : Value}
    (h : c.decode d = .ok v) : c.Rereads v := by
  cases hd : d.isNull with
  | true =>
    cases d with
    | null =>
      cases h
      exact Codec.rereads_null c
    | _ => cases hd
  | false =>
    rw [Codec.decode_of_isNull hd] at h
    simp only [Codec.builtin, List.mem_cons, List.not_mem_nil, or_false] at hc
    rcases hc with rfl | rfl | rfl | rfl | rfl | rfl | rfl | rfl | rfl | rfl
    · cases d with
      | bool b =>
        cases h
        exact Codec.rereads_bool b
      | _ => cases h
    · obtain ⟨i, -, hv⟩ := Computation.bind_eq_ok.1 h
      split at hv
      · cases hv
        exact Codec.rereads_int32 _
      · cases hv
    · obtain ⟨i, -, rfl⟩ := Computation.map_eq_ok.1 h
      exact Codec.rereads_int64 _
    · cases d with
      | number n =>
        cases h
        exact Codec.rereads_float64 _
      | string s =>
        simp only [Codec.float64] at h
        split_ifs at h <;> cases h <;> exact Codec.rereads_float64 _
      | _ => cases h
    · obtain ⟨s, -, rfl⟩ := Computation.map_eq_ok.1 h
      exact Codec.rereads_string s
    · exact .of_readText h Codec.rereads_uuid
    · exact .of_readText h Codec.rereads_dateTime
    · exact .of_readText h Codec.rereads_date
    · exact .of_readText h Codec.rereads_bytes
    · cases h
      exact Codec.rereads_json hd

/-- A time with an offset is written in universal time, and read again. -/
theorem decoded_reread_morning :
    (Codec.dateTime ∈ Codec.builtin ∧
      Codec.dateTime.decode (.string "2023-07-14T11:30:00+02:00") =
        .ok (.dateTime Sample.onTheSecond)) ∧
    ∃ e w, Codec.dateTime.encode (.dateTime Sample.onTheSecond) = .ok e ∧
      Codec.dateTime.decode e = .ok w ∧ w.Same (.dateTime Sample.onTheSecond) := by
  have hbuiltin : Codec.dateTime ∈ Codec.builtin := by simp [Codec.builtin]
  have htext : Instant.ofText? "2023-07-14T11:30:00+02:00" = some Sample.onTheSecond := by
    decide +kernel
  have hdecode : Codec.dateTime.decode (.string "2023-07-14T11:30:00+02:00") =
      .ok (.dateTime Sample.onTheSecond) := Codec.readText_of_eq_some (by rw [htext]; rfl)
  obtain ⟨e, he, hread, -⟩ := decoded_reread hbuiltin hdecode
  have hyear : 0 ≤ Sample.onTheSecond.year ∧ Sample.onTheSecond.year ≤ 9999 := by decide +kernel
  obtain ⟨w, hw, hsame⟩ := hread hyear
  exact ⟨⟨hbuiltin, hdecode⟩, e, w, he, hw, hsame⟩

/-- Within the first minute of the year 10000, in universal time. -/
def Sample.afterMidnight : Instant where
  seconds := 253402300859
  nanos := 0
  valid := by decide

/-- **A text that is decoded, and the text that is written for its value, which is not.**  Its
offset moves the last minute of the year 9999 into the next year. -/
theorem decoded_not_reread :
    Codec.dateTime.decode (.string "9999-12-31T23:59:59-00:01") =
      .ok (.dateTime Sample.afterMidnight) ∧
    Codec.dateTime.encode (.dateTime Sample.afterMidnight) =
      .ok (.string "+10000-01-01T00:00:59Z") ∧
    ∃ reason, Codec.dateTime.decode (.string "+10000-01-01T00:00:59Z") =
      .error (.malformed .dateTime reason) := by
  have htext : Instant.ofText? "9999-12-31T23:59:59-00:01" = some Sample.afterMidnight := by
    decide +kernel
  have hwritten : Sample.afterMidnight.text = "+10000-01-01T00:00:59Z" := by decide +kernel
  have hread : Instant.ofText? "+10000-01-01T00:00:59Z" = none := by decide +kernel
  refine ⟨Codec.readText_of_eq_some (by rw [htext]; rfl), ?_, "not a date and time", ?_⟩
  · rw [← hwritten]
    rfl
  · exact Codec.readText_of_eq_none (by rw [hread]; rfl)

end EntityQuery
