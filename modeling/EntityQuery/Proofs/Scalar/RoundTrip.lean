import Mathlib
import EntityQuery.Proofs.Calendar.Texts
import EntityQuery.Proofs.Scalar.Representation
import EntityQuery.Proofs.Text.Binary

/-!
# Values survive their documents

Each built-in codec reads the value back from the document that it wrote for it.  Two values are no
exceptions to this but have no document of their own: the double that is not a number, and the null
document, which stands for the null value.  The texts of instants have years of four digits.

* `Value.HasDocument`: the values that documents can hold.
* `Binary64.eq_of_infinite`: there is one infinity of each sign.
* `Codec.decode_encode`: what a built-in codec wrote for a value of its type, it reads back.
-/

namespace EntityQuery

/-! ## Infinities

An infinite double has no number in a document, and is written as the name of its sign.  That the
sign is enough to read it back is seen from its bits. -/

/-- **There is one infinity of each sign.** -/
lemma Binary64.eq_of_infinite {x : Float} {negative : Bool} (h : ofFloat x = .infinite negative) :
    x = if negative then -1.0 / 0.0 else 1.0 / 0.0 := by
  have hbound := x.toBits.toNat_lt
  have hplus : (1.0 / 0.0 : Float).toBits.toNat = 2047 * 2 ^ 52 := by decide
  have hminus : (-1.0 / 0.0 : Float).toBits.toNat = 2 ^ 63 + 2047 * 2 ^ 52 := by decide
  rw [← Float.toBits_inj, ← UInt64.toNat_inj]
  simp only [ofFloat, Nat.pow_eq] at h
  split_ifs at h with hbiased hfraction hzero
  simp only [infinite.injEq] at h
  subst h
  split_ifs with hsign <;> simp only [decide_eq_true_eq] at hsign <;> omega

/-! ## Values with a document

The proof goes through the types.  Numbers are read back by their values, and for all types whose
documents are texts it is the format of the text that is read back. -/

/-- Whether a document can hold a value.  A null value has no type, and so no codec. -/
def Value.HasDocument : Value → Prop
  | .float64 x => Binary64.ofFloat x ≠ .nan
  | .dateTime i => 0 ≤ i.year ∧ i.year ≤ 9999
  | .json d => d ≠ .null
  | _ => True

namespace Codec

/-- A text that denotes a value is read as the value. -/
lemma readText_of_eq_some {t : ScalarType} {read : String → Option Value} {reason s : String}
    {v : Value} (h : read s = some v) : readText t read reason (.string s) = .ok v := by
  rw [readText, expectString, Computation.bind_of_eq_ok rfl, h]

/-- The integer that a document denotes is read back. -/
lemma integral_ofInt {t : ScalarType} {i : Int} (h : fitsInt64 i = true) :
    integral t (.ofInt i) = .ok i := Registry.integral_int h

lemma fitsInt64_toInt (n : Int64) : fitsInt64 n.toInt = true := by
  have hlow := n.le_toInt
  have hhigh := n.toInt_lt
  simp only [fitsInt64, int64Min, int64Max, Bool.and_eq_true, decide_eq_true_eq]
  omega

lemma fitsInt32_toInt (n : Int32) : fitsInt32 n.toInt = true := by
  have hlow := n.le_toInt
  have hhigh := n.toInt_lt
  simp only [fitsInt32, int32Min, int32Max, Bool.and_eq_true, decide_eq_true_eq]
  omega

lemma fitsInt64_of_fitsInt32 {i : Int} (h : fitsInt32 i = true) : fitsInt64 i = true := by
  simp only [fitsInt32, int32Min, int32Max, Bool.and_eq_true, decide_eq_true_eq] at h
  simp only [fitsInt64, int64Min, int64Max, Bool.and_eq_true, decide_eq_true_eq]
  omega

/-- A double that is a number is written as itself or as the name of an infinity. -/
lemma decode_encode_float64 {x : Float} (h : Binary64.ofFloat x ≠ .nan) :
    ∃ d, float64.encode (.float64 x) = .ok d ∧ float64.decode d = .ok (.float64 x) := by
  cases hx : Binary64.ofFloat x with
  | nan => exact absurd hx h
  | infinite negative =>
      refine ⟨.string (if negative then "-Infinity" else "Infinity"), ?_, ?_⟩
      · simp only [encode, float64, hx]
      · rw [Binary64.eq_of_infinite hx]
        cases negative <;> rfl
  | finite negative mantissa exponent =>
      exact ⟨.number (.float x), by simp only [encode, float64, hx], rfl⟩

/-- **Each built-in codec reads back what it wrote**, for every value of its type that a document
can hold. -/
theorem decode_encode {c : Codec} (hc : c ∈ builtin) {v : Value}
    (htype : v.scalarType? = some c.scalarType) (hv : v.HasDocument) :
    ∃ d, c.encode v = .ok d ∧ c.decode d = .ok v := by
  simp only [builtin, List.mem_cons, List.not_mem_nil, or_false] at hc
  rcases hc with rfl | rfl | rfl | rfl | rfl | rfl | rfl | rfl | rfl | rfl
  · cases v with
    | bool b => exact ⟨_, rfl, rfl⟩
    | _ => cases htype
  · cases v with
    | int32 n =>
        have hfits := fitsInt32_toInt n
        have hread : int32.decodeDocument (.ofInt n.toInt) = .ok (.int32 (.ofInt n.toInt)) := by
          simp only [int32]
          rw [integral_ofInt (fitsInt64_of_fitsInt32 hfits), Computation.bind_of_eq_ok rfl,
            if_pos hfits]
        exact ⟨_, rfl, hread.trans (by rw [Int32.ofInt_toInt])⟩
    | _ => cases htype
  · cases v with
    | int64 n =>
        have hread : int64.decodeDocument (.ofInt n.toInt) = .ok (.int64 (.ofInt n.toInt)) := by
          simp only [int64]
          rw [integral_ofInt (fitsInt64_toInt n)]
          rfl
        exact ⟨_, rfl, hread.trans (by rw [Int64.ofInt_toInt])⟩
    | _ => cases htype
  · cases v with
    | float64 x => exact decode_encode_float64 hv
    | _ => cases htype
  · cases v with
    | string s => exact ⟨_, rfl, rfl⟩
    | _ => cases htype
  · cases v with
    | uuid u => exact ⟨_, rfl, readText_of_eq_some (by rw [Uuid.ofText?_text]; rfl)⟩
    | _ => cases htype
  · cases v with
    | dateTime i => exact ⟨_, rfl, readText_of_eq_some (by rw [Instant.ofText?_text i hv]; rfl)⟩
    | _ => cases htype
  · cases v with
    | date d => exact ⟨_, rfl, readText_of_eq_some (by rw [Date.ofText?_text]; rfl)⟩
    | _ => cases htype
  · cases v with
    | bytes bs =>
        exact ⟨_, rfl, readText_of_eq_some (by
          rw [String.toList_ofList, Base64.decode?_encode]; rfl)⟩
    | _ => cases htype
  · cases v with
    | json d =>
        refine ⟨d, rfl, ?_⟩
        cases d with
        | null => exact absurd rfl hv
        | _ => rfl
    | _ => cases htype

end Codec

namespace Sample

/-- The middle of the leap second at the end of the year 2016. -/
def leapSecond : Instant where
  seconds := 1483228799
  nanos := 1500000000
  valid := by decide

end Sample

/-- A leap second survives its text. -/
theorem Codec.decode_encode_leapSecond :
    dateTime ∈ builtin ∧ (Value.dateTime Sample.leapSecond).HasDocument ∧
      ∃ d, dateTime.encode (.dateTime Sample.leapSecond) = .ok d ∧
        dateTime.decode d = .ok (.dateTime Sample.leapSecond) := by
  have hbuiltin : dateTime ∈ builtin := by simp [builtin]
  have hyear : 0 ≤ Sample.leapSecond.year ∧ Sample.leapSecond.year ≤ 9999 := by decide
  exact ⟨hbuiltin, hyear, decode_encode hbuiltin rfl hyear⟩

example : Sample.leapSecond.text = "2016-12-31T23:59:60.500Z" := by decide +kernel

end EntityQuery
