import EntityQuery.Evaluation.Arithmetic
import EntityQuery.Proofs.Computation
import EntityQuery.Scalar.Registry

/-!
# Documents that represent values of a type

A document represents a value of a type if the codec of the type reads it.  Every number represents
a double, so a number of which nothing is known but that it came out of a computation represents a
value of the widened type.  It represents an integer of 32 or 64 bits only if it is one.

* `Registry.Represents` and `Registry.Fits`: a document, or what may be missing or null, of a type.
* `ScalarType.widened`: the type of all numbers for a numeric type, and any other type itself.
* `Registry.represents_widened`: what represents a value of a type does so for the widened one.
* `Registry.represents_of_contains`: a number that a type contains represents a value of it.
* `Registry.represents_rounded`: rounding an integer gives an integer of the same type.
* `Registry.isNull_of_decode` and `Registry.isNull_of_encode`: only null stands for null.
-/

namespace EntityQuery

/-! ## Types of numbers

Integers are sent as they are, and doubles by their value.  Which documents a type has is thus seen
from the number alone. -/

namespace ScalarType

/-- The type of doubles for the numeric types, and any other type itself. -/
def widened : ScalarType → ScalarType
  | .int32 | .int64 => .float64
  | t => t

/-- Whether each value of a type is one of another type. -/
def isWithin (a b : ScalarType) : Bool := a == b || a.promote b == some b

/-- Whether each document of the kind of the type represents a value of it, but for the ranges of
integers. -/
def isPlain : ScalarType → Bool
  | .bool | .int32 | .int64 | .float64 | .string => true
  | _ => false

lemma isPlain_of_isNumeric {t : ScalarType} (h : t.isNumeric = true) : t.isPlain = true := by
  cases t <;> first | rfl | cases h

lemma defaultKind_of_isNumeric {t : ScalarType} (h : t.isNumeric = true) :
    t.defaultKind = .number := by
  cases t <;> first | rfl | cases h

/-- The documents of a plain type are all of one kind. -/
lemma defaultKind_ne_any {t : ScalarType} (h : t.isPlain = true) : t.defaultKind ≠ .any := by
  cases t <;> first | decide | cases h

lemma widened_of_isNumeric {t : ScalarType} (h : t.isNumeric = true) : t.widened = .float64 := by
  cases t <;> first | rfl | cases h

lemma isNumeric_of_isInteger {t : ScalarType} (h : t.isInteger = true) : t.isNumeric = true := by
  cases t <;> first | rfl | cases h

/-- A type that is not one of integers is as wide as it can be. -/
lemma widened_of_not_isInteger {t : ScalarType} (h : t.isInteger = false) : t.widened = t := by
  cases t <;> first | rfl | cases h

/-- Types with a common wider one are those of numbers. -/
lemma isNumeric_of_promote {a b t : ScalarType} (h : a.promote b = some t) :
    a.isNumeric = true ∧ b.isNumeric = true ∧ t.isNumeric = true := by
  cases a <;> cases b <;> cases h <;> exact ⟨rfl, rfl, rfl⟩

/-- Values that can be compared are of one type, but for the widths of numbers. -/
lemma widened_of_comparable {a b : ScalarType} (h : a.comparable b = true) :
    a.widened = b.widened := by
  rw [comparable, Bool.or_eq_true, beq_iff_eq, Bool.and_eq_true] at h
  rcases h with rfl | ⟨ha, hb⟩
  · rfl
  · rw [widened_of_isNumeric ha, widened_of_isNumeric hb]

/-- Whether an integer is in the range of a type; integers are of 64 bits unless they are of 32. -/
def hasInRange : ScalarType → Int → Bool
  | .int32, n => fitsInt32 n
  | _, n => fitsInt64 n

lemma fitsInt64_of_hasInRange {t : ScalarType} {n : Int} (h : t.hasInRange n = true) :
    fitsInt64 n = true := by
  cases t with
  | int32 =>
      simp only [hasInRange, fitsInt32, fitsInt64, Bool.and_eq_true, decide_eq_true_eq, int32Min,
        int32Max, int64Min, int64Max] at h ⊢
      omega
  | _ => exact h

end ScalarType

/-- A number is an integer of 64 bits if it was written as one. -/
lemma Number.toInt64?_eq_some {n : Number} {i : Int} :
    n.toInt64? = some i ↔ n = .int i ∧ fitsInt64 i = true := by
  cases n with
  | int k => rw [toInt64?, Option.ite_none_right_eq_some]; grind
  | float x => simp [toInt64?]

/-- The integer that a quantity is, if it is one. -/
def Quantity.integer? : Quantity → Option Int
  | .int n => some n
  | .float x => (Binary64.ofFloat x).toInt?

/-- A type has a quantity among its values; types of integers have the integers in their range. -/
def ScalarType.Contains (t : ScalarType) (q : Quantity) : Prop :=
  t.isInteger = true → ∃ n, q.integer? = some n ∧ t.hasInRange n = true

namespace Quantity

/-- The document of a quantity is a number, unless it is null. -/
lemma exists_number {q : Quantity} (hd : q.toDocument.isNull = false) :
    ∃ n, q.toDocument = .number n := by
  cases q with
  | int i => exact ⟨_, rfl⟩
  | float x =>
      rw [toDocument, Document.ofFloat] at hd ⊢
      split at hd
      · rename_i hx
        exact ⟨_, if_pos hx⟩
      · cases hd

end Quantity

/-! ## Rounding -/

/-- An integer is rounded to itself. -/
lemma Binary64.rounded_of_toInt? {b : Binary64} {n : Int} (h : b.toInt? = some n)
    (direction : Direction) : b.rounded direction = some n := by
  cases b with
  | nan => cases h
  | infinite negative => cases h
  | finite negative mantissa exponent =>
      rw [toInt?] at h
      rw [rounded]
      split at h
      · rename_i hexponent
        rwa [if_pos hexponent]
      · rename_i hexponent
        rw [if_neg hexponent]
        have hunit : 0 < Nat.pow 2 (-exponent).toNat := Nat.pow_pos (by decide)
        obtain ⟨hrest, h⟩ := Option.ite_none_right_eq_some.1 h
        have hmagnitude : direction.magnitude negative (mantissa / Nat.pow 2 (-exponent).toNat) 0
            (Nat.pow 2 (-exponent).toNat) = mantissa / Nat.pow 2 (-exponent).toNat := by
          cases direction with
          | nearest => rw [Direction.magnitude, if_neg (by omega)]
          | _ => simp [Direction.magnitude]
        simp only [hrest, hmagnitude, h]

/-! ## Representation

An operation knows of its operands only what types they have.  What its result represents is
therefore said of documents, without the values that they came from. -/

namespace Registry

/-- A document represents a value of a type: the codec of the type reads it. -/
def Represents (r : Registry) (t : ScalarType) (d : Document) : Prop :=
  ∃ codec v, r.find t = .ok codec ∧ codec.decode d = .ok v

/-- What is neither missing nor null represents a value of a type. -/
def Fits (r : Registry) (t : ScalarType) (v : Datum) : Prop :=
  ∀ d, v = some d → d.isNull = false → r.Represents t d

variable {t : ScalarType} {d : Document}

/-- A document of the wrong kind represents no value. -/
lemma not_represents {c : Codec} {e : CodecError} (hfind : standard.find t = .ok c)
    (hdecode : c.decode d = .error e) : ¬standard.Represents t d := by
  rintro ⟨c', v, hc, hv⟩
  cases hfind.symm.trans hc
  rw [hdecode] at hv
  cases hv

lemma represents_bool (b : Bool) : standard.Represents .bool (.bool b) := ⟨_, _, rfl, rfl⟩

lemma represents_string (s : String) : standard.Represents .string (.string s) := ⟨_, _, rfl, rfl⟩

/-- **Every number represents a double.** -/
lemma represents_number (n : Number) : standard.Represents .float64 (.number n) :=
  ⟨_, _, rfl, rfl⟩

/-- What represents a truth value is one. -/
lemma exists_bool (h : standard.Represents .bool d) (hd : d.isNull = false) : ∃ b, d = .bool b := by
  cases d with
  | bool b => exact ⟨b, rfl⟩
  | null => cases hd
  | _ => exact absurd h (not_represents rfl rfl)

/-- What represents a string is one. -/
lemma exists_string (h : standard.Represents .string d) (hd : d.isNull = false) :
    ∃ s, d = .string s := by
  cases d with
  | string s => exact ⟨s, rfl⟩
  | null => cases hd
  | _ => exact absurd h (not_represents rfl rfl)

/-- The integer that is read from a number fits 64 bits, whatever the width that is asked for. -/
lemma integral_eq_ok {s t : ScalarType} {n : Number} {i : Int}
    (h : Codec.integral s (.number n) = .ok i) :
    Codec.integral t (.number n) = .ok i ∧ fitsInt64 i = true := by
  simp only [Codec.integral] at h ⊢
  cases hn : n.toInt64? with
  | some k =>
      rw [hn] at h
      cases h
      exact ⟨rfl, (Number.toInt64?_eq_some.1 hn).2⟩
  | none =>
      simp only [hn] at h ⊢
      cases hj : (Binary64.ofFloat n.toFloat).toInt? with
      | none => simp [hj] at h
      | some j =>
          simp only [hj] at h ⊢
          split at h
          · rename_i hrange
            cases h
            refine ⟨if_pos hrange, ?_⟩
            simp only [Bool.and_eq_true, decide_eq_true_eq, int64Min, int64Max] at hrange
            simp only [fitsInt64, Bool.and_eq_true, decide_eq_true_eq, int64Min, int64Max]
            omega
          · cases h

/-- **A number represents an integer of a type if one in the range of the type is read from it.** -/
theorem represents_integer (ht : t.isInteger = true) {n : Number} :
    standard.Represents t (.number n) ↔
      ∃ i, Codec.integral t (.number n) = .ok i ∧ t.hasInRange i = true := by
  cases t with
  | int32 =>
      constructor
      · rintro ⟨c, v, hc, hv⟩
        cases hc
        obtain ⟨i, hi, hv⟩ := Computation.bind_eq_ok.1 hv
        refine ⟨i, hi, ?_⟩
        by_contra hfits
        rw [ScalarType.hasInRange] at hfits
        rw [if_neg hfits] at hv
        cases hv
      · rintro ⟨i, hi, hfits⟩
        exact ⟨_, .int32 (.ofInt i), rfl, Computation.bind_eq_ok.2 ⟨i, hi, if_pos hfits⟩⟩
  | int64 =>
      constructor
      · rintro ⟨c, v, hc, hv⟩
        cases hc
        obtain ⟨i, hi, -⟩ := Computation.map_eq_ok.1 hv
        exact ⟨i, hi, (integral_eq_ok (t := .int64) hi).2⟩
      · rintro ⟨i, hi, -⟩
        exact ⟨_, .int64 (.ofInt i), rfl, Computation.map_eq_ok.2 ⟨i, hi, rfl⟩⟩
  | _ => cases ht

/-- What represents an integer is a number. -/
lemma exists_number (h : standard.Represents t d) (ht : t.isInteger = true)
    (hd : d.isNull = false) : ∃ n, d = .number n := by
  cases d with
  | number n => exact ⟨n, rfl⟩
  | null => cases hd
  | _ => cases t <;> first | exact absurd h (not_represents rfl rfl) | cases ht

/-- **What represents a value of a type represents one of the widened type.** -/
lemma represents_widened (h : standard.Represents t d) (hd : d.isNull = false) :
    standard.Represents t.widened d := by
  cases ht : t.isInteger with
  | false => rwa [ScalarType.widened_of_not_isInteger ht]
  | true =>
      obtain ⟨n, rfl⟩ := exists_number h ht hd
      rw [ScalarType.widened_of_isNumeric (ScalarType.isNumeric_of_isInteger ht)]
      exact represents_number n

/-- A document of the kind of a plain type represents a value of the widened type. -/
lemma represents_of_kind (ht : t.isPlain = true) (h : DocumentKind.ofDocument d = t.defaultKind) :
    standard.Represents t.widened d := by
  cases t with
  | bool =>
      cases d <;> cases h
      exact represents_bool _
  | string =>
      cases d <;> cases h
      exact represents_string _
  | int32 | int64 | float64 =>
      cases d <;> cases h
      exact represents_number _
  | _ => cases ht

/-- What represents a value of a type represents one of each type that has all its values. -/
lemma represents_of_isWithin {a b : ScalarType} (h : standard.Represents a d)
    (hd : d.isNull = false) (hab : a.isWithin b = true) : standard.Represents b d := by
  rw [ScalarType.isWithin, Bool.or_eq_true, beq_iff_eq, beq_iff_eq] at hab
  rcases hab with rfl | hpromote
  · exact h
  · obtain ⟨ha, hb, -⟩ := ScalarType.isNumeric_of_promote hpromote
    cases b with
    | float64 =>
        rw [← ScalarType.widened_of_isNumeric ha]
        exact represents_widened h hd
    | int32 => cases a <;> first | exact h | cases hpromote
    | int64 =>
        cases a with
        | int64 => exact h
        | int32 =>
            obtain ⟨n, rfl⟩ := exists_number h rfl hd
            obtain ⟨i, hi, -⟩ := (represents_integer rfl).1 h
            exact (represents_integer rfl).2 ⟨i, integral_eq_ok hi⟩
        | _ => cases hpromote
    | _ => cases hb

/-- The integer that is read from an integer in range is the integer itself. -/
lemma integral_int {i : Int} (h : fitsInt64 i = true) :
    Codec.integral t (.number (.int i)) = .ok i := by
  rw [Codec.integral, Number.toInt64?, if_pos h]

/-- The integer that is read from a double without a fraction is the one that it denotes. -/
lemma integral_float {x : Float} {i : Int} (hx : (Binary64.ofFloat x).toInt? = some i)
    (h : fitsInt64 i = true) : Codec.integral t (.number (.float x)) = .ok i := by
  rw [fitsInt64, Bool.and_eq_true, decide_eq_true_eq, decide_eq_true_eq] at h
  have hrange : (decide (int64Min ≤ i) && decide (i ≤ int64Max + 1)) = true := by
    rw [Bool.and_eq_true, decide_eq_true_eq, decide_eq_true_eq]
    omega
  rw [Codec.integral, Number.toInt64?, Number.toFloat]
  simp only [hx, hrange, if_true]
  rw [Int.min_eq_left h.2]

/-- **A number that a type contains represents a value of the type**, unless it is not finite. -/
theorem represents_of_contains (ht : t.isNumeric = true) {q : Quantity} (h : t.Contains q)
    (hd : q.toDocument.isNull = false) : standard.Represents t q.toDocument := by
  obtain ⟨n, hn⟩ := Quantity.exists_number hd
  cases hinteger : t.isInteger with
  | false =>
      rw [← ScalarType.widened_of_not_isInteger hinteger, ScalarType.widened_of_isNumeric ht, hn]
      exact represents_number n
  | true =>
      obtain ⟨i, hi, hrange⟩ := h hinteger
      have hfits := ScalarType.fitsInt64_of_hasInRange hrange
      cases q with
      | int j =>
          cases hi
          exact (represents_integer hinteger).2 ⟨i, integral_int hfits, hrange⟩
      | float x =>
          rw [Quantity.toDocument, Document.ofFloat] at hd ⊢
          split
          · exact (represents_integer hinteger).2 ⟨i, integral_float hi hfits, hrange⟩
          · rename_i hx
            rw [if_neg hx] at hd
            cases hd

/-- The least integer of 64 bits, and the one behind the greatest, are read from doubles. -/
lemma represents_end (ht : t.isInteger = true) {j : Int} (hj : j = int64Min ∨ j = int64Max + 1)
    (hrange : t.hasInRange (min j int64Max) = true) :
    standard.Represents t (.ofFloat (.ofInt j)) := by
  cases t with
  | int64 => rcases hj with rfl | rfl <;> exact ⟨_, _, rfl, rfl⟩
  | int32 => rcases hj with rfl | rfl <;> cases hrange
  | _ => cases ht

/-- A value that is read from a text is one that the text denotes. -/
lemma exists_of_readText {read : String → Option Value} {reason : String} {v : Value}
    (h : Codec.readText t read reason d = .ok v) : ∃ s, read s = some v := by
  obtain ⟨s, -, h⟩ := Computation.bind_eq_ok.1 h
  cases hs : read s with
  | some v' =>
      rw [hs] at h
      cases h
      exact ⟨s, hs⟩
  | none =>
      rw [hs] at h
      cases h

/-- **What is read from a document other than null is not null.** -/
theorem isNull_of_decode {c : Codec} {v : Value} (hc : standard.find t = .ok c)
    (hv : c.decode d = .ok v) (hd : d.isNull = false) : v.isNull = false := by
  have hdecode : c.decodeDocument d = .ok v := by
    cases d with
    | null => cases hd
    | _ => exact hv
  cases t with
  | bool => cases hc; cases d <;> cases hdecode; rfl
  | int32 =>
      cases hc
      obtain ⟨i, -, h⟩ := Computation.bind_eq_ok.1 hdecode
      split at h <;> cases h
      rfl
  | int64 =>
      cases hc
      obtain ⟨i, -, rfl⟩ := Computation.map_eq_ok.1 hdecode
      rfl
  | float64 =>
      cases hc
      cases d with
      | number n => cases hdecode; rfl
      | string s =>
          rw [Codec.float64] at hdecode
          simp only at hdecode
          split at hdecode
          · cases hdecode; rfl
          · split at hdecode
            · cases hdecode; rfl
            · split at hdecode <;> cases hdecode
              rfl
      | _ => cases hdecode
  | string =>
      cases hc
      obtain ⟨s, -, rfl⟩ := Computation.map_eq_ok.1 hdecode
      rfl
  | json => cases hc; cases hdecode; rfl
  | custom name => cases hc
  | _ =>
      cases hc
      obtain ⟨s, hs⟩ := exists_of_readText hdecode
      obtain ⟨x, -, rfl⟩ := Option.map_eq_some_iff.1 hs
      rfl

/-- The document of a value other than null is not null, unless the value is a document itself. -/
theorem isNull_of_encode {c : Codec} {v : Value} (hc : standard.find t = .ok c)
    (hd : c.encode v = .ok d) (hv : v.isNull = false)
    (hdocument : ∀ d', v = .json d' → d'.isNull = false) : d.isNull = false := by
  have hencode : c.encodeValue v = .ok d := by
    cases v with
    | null => cases hv
    | _ => exact hd
  cases t with
  | custom name => cases hc
  | json =>
      cases hc
      cases v with
      | json d' =>
          cases hencode
          exact hdocument _ rfl
      | _ => cases hencode
  | float64 =>
      cases hc
      cases v with
      | float64 x =>
          simp only [Codec.float64] at hencode
          split at hencode <;> cases hencode <;> rfl
      | _ => cases hencode
  | _ =>
      cases hc
      cases v <;> cases hencode <;> rfl

/-- **An integer that is rounded stays one of its type.** -/
theorem represents_rounded (h : standard.Represents t d) (ht : t.isInteger = true) {q : Quantity}
    (hq : Quantity.ofDocument? d = some q) (direction : Binary64.Direction)
    (hd : (q.rounded direction).isNull = false) : standard.Represents t (q.rounded direction) := by
  obtain ⟨n, rfl⟩ : ∃ n, d = .number n := by
    cases d <;> first | exact ⟨_, rfl⟩ | cases hq
  obtain ⟨i, hi, hrange⟩ := (represents_integer ht).1 h
  rw [Quantity.ofDocument?] at hq
  cases hn : n.toInt64? with
  | some k =>
      -- an integer is not changed
      obtain ⟨rfl, -⟩ := Number.toInt64?_eq_some.1 hn
      rw [hn] at hq
      cases hq
      exact h
  | none =>
      rw [hn] at hq
      cases hq
      rw [Codec.integral, hn] at hi
      cases hj : (Binary64.ofFloat n.toFloat).toInt? with
      | none => simp [hj] at hi
      | some j =>
          simp only [hj] at hi
          split at hi
          · rename_i hends
            rw [Quantity.rounded, Binary64.rounded_of_toInt? hj] at hd ⊢
            cases hi
            simp only [Bool.and_eq_true, decide_eq_true_eq] at hends ⊢
            split
            · rename_i hinside
              rw [Int.min_eq_left hinside.2] at hrange
              exact (represents_integer ht).2
                ⟨j, integral_int (ScalarType.fitsInt64_of_hasInRange hrange), hrange⟩
            · -- at the ends of the range the integer becomes a double again
              rename_i houtside
              exact represents_end ht (by omega) hrange
          · cases hi

end Registry
end EntityQuery
