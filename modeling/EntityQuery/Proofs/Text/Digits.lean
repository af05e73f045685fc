import Mathlib.Algebra.Group.Nat.Defs
import Mathlib.Tactic.Common
import EntityQuery.Calendar.Instant
import EntityQuery.Uuid

/-!
# Numbers as digits

Numbers in texts are written with a fixed number of digits, the most significant one first; only a
number that is too large for its place takes more.  The readers take digits off the front of a text
and leave what comes behind.

* `placeValues` and `digits`: a number in a fixed number of places of any base.
* `exists_toList_padded`: a padded number is one in at least as many places.
* `decimalValue_digits` and `hexNumber?_digits`: the readers give back the number.
* `takeDigits?_digits` and `takeNumber?_digits`: what stands behind the digits is left over.
-/

namespace EntityQuery

/-! ## A fixed number of places

Padded numbers are those in a number of places, unless they need more.  All formats of times and
identifiers are made of such numbers. -/

/-- The values of the places of a number; what does not fit is dropped. -/
def placeValues (base : Nat) : Nat → Nat → List Nat
  | 0, _ => []
  | places + 1, n => placeValues base places (n / base) ++ [n % base]

/-- A number in a given number of places. -/
def digits (base places n : Nat) : List Char := (placeValues base places n).map Nat.digitChar

variable {base places n : Nat}

@[simp] lemma length_placeValues : (placeValues base places n).length = places := by
  induction places generalizing n with
  | zero => rfl
  | succ places ih => simp [placeValues, ih]

@[simp] lemma length_digits : (digits base places n).length = places := by simp [digits]

lemma digits_zero : digits base 0 n = [] := rfl

lemma digits_succ : digits base (places + 1) n =
    digits base places (n / base) ++ [Nat.digitChar (n % base)] := by
  simp [digits, placeValues]

/-- The places of a number fall into those in front and those behind. -/
lemma digits_add (places more : Nat) :
    digits base (places + more) n =
      digits base places (n / base ^ more) ++ digits base more n := by
  induction more generalizing n with
  | zero => simp [digits_zero]
  | succ more ih =>
    rw [← Nat.add_assoc, digits_succ, ih, digits_succ, Nat.div_div_eq_div_mul, Nat.pow_succ,
      Nat.mul_comm, List.append_assoc]

/-- What stands in a place is below the base. -/
lemma lt_of_mem_placeValues {d : Nat} (hbase : 0 < base) (h : d ∈ placeValues base places n) :
    d < base := by
  induction places generalizing n with
  | zero => cases h
  | succ places ih =>
    rcases List.mem_append.1 h with hd | hd
    · exact ih hd
    · rw [List.mem_singleton.1 hd]
      exact Nat.mod_lt _ hbase

lemma hexDigits_eq (places n : Nat) : Uuid.hexDigits places n = digits 16 places n := by
  induction places generalizing n with
  | zero => rfl
  | succ places ih => rw [Uuid.hexDigits, digits_succ, ih]

lemma isDigit_of_mem_digits {c : Char} (h : c ∈ digits 10 places n) : c.isDigit = true := by
  obtain ⟨d, hd, rfl⟩ := List.mem_map.1 h
  simpa [Nat.isDigit_digitChar] using lt_of_mem_placeValues (by decide) hd

/-- A number of fewer places has zeros in front. -/
lemma digits_of_lt (places : Nat) {n : Nat} (h : n < base) :
    digits base (places + 1) n = List.replicate places '0' ++ [Nat.digitChar n] := by
  have hzero : ∀ places, digits base places 0 = List.replicate places '0' := fun places => by
    induction places with
    | zero => rfl
    | succ places ih =>
      rw [digits_succ, Nat.zero_div, ih, Nat.zero_mod, List.replicate_succ']
      rfl
  rw [digits_succ, Nat.div_eq_of_lt h, Nat.mod_eq_of_lt h, hzero]

/-- **The digits of a number with zeros in front.** -/
lemma digits_eq_toDigits {places n : Nat} (hplaces : 0 < places) (h : n < 10 ^ places) :
    digits 10 places n =
      List.replicate (places - (Nat.toDigits 10 n).length) '0' ++ Nat.toDigits 10 n := by
  induction places generalizing n with
  | zero => cases hplaces
  | succ places ih =>
    by_cases hn : n < 10
    · rw [digits_of_lt places hn, Nat.toDigits_of_lt_base hn]
      simp
    · have hn' : 10 ≤ n := by omega
      have hpos : 0 < places := by
        rcases places with _ | places
        · simp at h; omega
        · omega
      have hquotient : n / 10 < 10 ^ places := by rw [Nat.pow_succ] at h; omega
      rw [digits_succ, ih hpos hquotient, Nat.toDigits_of_base_le (by decide) hn']
      simp

/-- **A padded number is one in at least the given places**, and in exactly those if it fits. -/
lemma exists_toList_padded {width : Nat} (hwidth : 0 < width) (n : Nat) :
    ∃ places, width ≤ places ∧ n < 10 ^ places ∧ (n < 10 ^ width → places = width) ∧
      (padded width n).toList = digits 10 places n := by
  obtain ⟨places, hplaces⟩ : ∃ k, k = max width (Nat.toDigits 10 n).length := ⟨_, rfl⟩
  have hfits : n < 10 ^ places := (Nat.length_toDigits_le_iff (by decide) (by omega)).1 (by omega)
  refine ⟨places, by omega, hfits, fun hn => ?_, ?_⟩
  · have := (Nat.length_toDigits_le_iff (b := 10) (by decide) hwidth).2 hn
    omega
  · rw [digits_eq_toDigits (by omega) hfits, padded, String.toList_ofList]
    congr 2
    omega

lemma toList_padded {width n : Nat} (hwidth : 0 < width) (hn : n < 10 ^ width) :
    (padded width n).toList = digits 10 width n := by
  obtain ⟨places, -, -, hplaces, h⟩ := exists_toList_padded hwidth n
  rw [h, hplaces hn]

/-! ## Reading digits

A reader is told how many digits to take, or takes them as long as there are any.  In the latter
case something else has to follow. -/

/-- **Decimal digits are read back.** -/
@[simp] lemma decimalValue_digits (h : n < 10 ^ places) :
    decimalValue (digits 10 places n) = n := by
  induction places generalizing n with
  | zero => simp at h; subst h; rfl
  | succ places ih =>
    have hquotient : n / 10 < 10 ^ places := by rw [Nat.pow_succ] at h; omega
    have hlast : (Nat.digitChar (n % 10)).toNat - '0'.toNat = n % 10 :=
      Nat.toNat_digitChar_sub_48_of_lt_ten (Nat.mod_lt _ (by decide))
    have hfront := ih hquotient
    unfold decimalValue at hfront ⊢
    rw [digits_succ, List.foldl_append, hfront]
    simp only [List.foldl_cons, List.foldl_nil, hlast]
    omega

lemma digitValue?_digitChar {d : Nat} (h : d < 16) :
    Uuid.digitValue? (Nat.digitChar d) = some d := by
  have hall : ∀ d < 16, Uuid.digitValue? (Nat.digitChar d) = some d := by decide
  exact hall d h

/-- **Hexadecimal digits are read back.** -/
lemma hexNumber?_digits (start : Nat) (h : n < 16 ^ places) (rest : List Char) :
    Uuid.hexNumber? start (digits 16 places n ++ rest) =
      Uuid.hexNumber? (start * 16 ^ places + n) rest := by
  induction places generalizing n rest with
  | zero => simp at h; subst h; simp [digits_zero]
  | succ places ih =>
    have hquotient : n / 16 < 16 ^ places := by rw [Nat.pow_succ] at h; omega
    rw [digits_succ, List.append_assoc, ih hquotient, List.singleton_append, Uuid.hexNumber?,
      digitValue?_digitChar (Nat.mod_lt _ (by decide)), Option.bind_some]
    congr 1
    rw [Nat.pow_succ, Nat.add_mul, ← Nat.mul_assoc]
    omega

/-- A number of known length is read, whatever comes behind it. -/
lemma takeDigits?_digits (h : n < 10 ^ places) (rest : List Char) :
    Instant.takeDigits? places (digits 10 places n ++ rest) = some (n, rest) := by
  have hall : (digits 10 places n).all Char.isDigit = true :=
    List.all_eq_true.2 fun c hc => isDigit_of_mem_digits hc
  have htake : (digits 10 places n ++ rest).take places = digits 10 places n :=
    List.take_left' length_digits
  have hdrop : (digits 10 places n ++ rest).drop places = rest := List.drop_left' length_digits
  simp only [Instant.takeDigits?, htake, hdrop]
  simp [hall, decimalValue_digits h]

/-- The digits in front of a text that goes on with something else. -/
lemma takeWhile_digits {rest : List Char} (hrest : ∀ c ∈ rest.head?, c.isDigit = false) :
    (digits 10 places n ++ rest).takeWhile Char.isDigit = digits 10 places n := by
  rw [List.takeWhile_append_of_pos fun c hc => isDigit_of_mem_digits hc]
  cases rest with
  | nil => simp
  | cons c rest => simp [hrest c rfl]

/-- A number of unknown length is read up to what is no digit. -/
lemma takeNumber?_digits {limit : Nat} (hplaces : 0 < places) (hlimit : places ≤ limit)
    (h : n < 10 ^ places) {rest : List Char} (hrest : ∀ c ∈ rest.head?, c.isDigit = false) :
    takeNumber? limit (digits 10 places n ++ rest) = some (n, rest) := by
  have htake : (digits 10 places n ++ rest).take limit =
      digits 10 places n ++ rest.take (limit - places) := by
    rw [List.take_append, List.take_of_length_le (by simpa using hlimit), length_digits]
  have hhead : ∀ c ∈ (rest.take (limit - places)).head?, c.isDigit = false := fun c hc => by
    rw [List.head?_take] at hc
    split at hc
    · cases hc
    · exact hrest c hc
  have hne : digits 10 places n ≠ [] := List.ne_nil_of_length_pos (by simpa using hplaces)
  simp only [takeNumber?, htake, takeWhile_digits hhead, List.isEmpty_eq_false_iff.2 hne,
    Bool.false_eq_true, if_false, decimalValue_digits h, List.drop_left]

end EntityQuery
