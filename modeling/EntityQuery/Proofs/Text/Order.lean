import EntityQuery.Proofs.Comparison
import EntityQuery.Proofs.Text.Digits

/-!
# The order of texts

Texts are ordered character by character, so the parts of two texts decide one after the other as
long as the parts before are of one length.  A number in a fixed number of places is ordered as the
number is.

* `compare_toList`: texts are ordered as the lists of their characters.
* `compare_concat`: a last character behind all others turns some orders round.
* `compare_placeValues` and `compare_digits`: a number in a fixed number of places.
-/

namespace EntityQuery

/-! ## Characters and strings -/

lemma char_lt_iff {a b : Char} : a < b ↔ a.toNat < b.toNat := by
  rw [Char.lt_def, UInt32.lt_iff_toNat_lt, Char.toNat_val, Char.toNat_val]

/-- **Characters are ordered by code point.** -/
lemma compare_char (a b : Char) : compare a b = compare a.toNat b.toNat := by
  simp only [compare, compareOfLessAndEq, char_lt_iff, ← Char.toNat_inj]

/-- The order of lists of characters decides as `<` and `=` do. -/
lemma compare_eq_compareOfLessAndEq (as bs : List Char) :
    compare as bs = compareOfLessAndEq as bs := by
  induction as generalizing bs with
  | nil => cases bs <;> simp [compareOfLessAndEq, List.compare_nil_cons]
  | cons a as ih =>
    cases bs with
    | nil => simp [compareOfLessAndEq, List.compare_cons_nil]
    | cons b bs =>
      rw [List.compare_cons_cons, ih, compare_char]
      simp only [compareOfLessAndEq, List.cons_lt_cons_iff, List.cons.injEq, char_lt_iff,
        ← Char.toNat_inj]
      rcases Nat.lt_trichotomy a.toNat b.toNat with h | h | h
      · simp [Nat.compare_eq_lt.2 h, h]
      · simp [h]
      · have hlt : ¬ a.toNat < b.toNat := by omega
        have hne : a.toNat ≠ b.toNat := by omega
        simp [Nat.compare_eq_gt.2 h, hlt, hne]

/-- **Texts are ordered as the lists of their characters.** -/
lemma compare_toList (s t : String) : compare s t = compare s.toList t.toList := by
  rw [compare_eq_compareOfLessAndEq, show compare s t = compareOfLessAndEq s t from rfl]
  simp only [compareOfLessAndEq, String.lt_iff, String.toList_inj]

/-- **A last character behind all others turns the order of a text and its beginning round**, and
leaves that of other texts alone. -/
lemma compare_concat {as bs : List Char} {z : Char} (ha : ∀ c ∈ as, c < z) (hb : ∀ c ∈ bs, c < z) :
    compare (as ++ [z]) (bs ++ [z]) =
      if as <+: bs ∨ bs <+: as then (compare as bs).swap else compare as bs := by
  have hlt : ∀ {c}, c < z → compare c z = .lt := fun h => by
    rw [compare_char, Nat.compare_eq_lt]
    exact char_lt_iff.1 h
  have hgt : ∀ {c}, c < z → compare z c = .gt := fun h => by
    rw [compare_char, Nat.compare_eq_gt]
    exact char_lt_iff.1 h
  induction as generalizing bs with
  | nil =>
    cases bs with
    | nil => simp
    | cons b bs =>
      rw [if_pos (.inl List.nil_prefix), List.compare_nil_cons, List.nil_append, List.cons_append,
        List.compare_cons_cons, hgt (hb b List.mem_cons_self)]
      rfl
  | cons a as ih =>
    cases bs with
    | nil =>
      rw [if_pos (.inr List.nil_prefix), List.compare_cons_nil, List.nil_append, List.cons_append,
        List.compare_cons_cons, hlt (ha a List.mem_cons_self)]
      rfl
    | cons b bs =>
      rw [List.cons_append, List.cons_append, List.compare_cons_cons, List.compare_cons_cons,
        ih (fun c hc => ha c (List.mem_cons_of_mem a hc)) fun c hc => hb c (List.mem_cons_of_mem b hc)]
      simp only [List.cons_prefix_cons]
      by_cases hab : a = b
      · simp [hab]
      · have hne : compare a b ≠ .eq := fun h => hab (Std.LawfulEqCmp.eq_of_compare h)
        have hthen : ∀ o, (compare a b).then o = compare a b := fun o => by
          cases h : compare a b <;> simp_all
        simp [hab, Ne.symm hab, hthen]

/-! ## Numbers in a fixed number of places

With equally many digits, the most significant one that differs decides.  Without leading zeros it
would be the longer text that is greater, which is not how texts are ordered. -/

variable {base places m n : Nat}

/-- **A number in a fixed number of places is ordered as the number is.** -/
lemma compare_placeValues (hbase : 0 < base) (hm : m < base ^ places) (hn : n < base ^ places) :
    compare (placeValues base places m) (placeValues base places n) = compare m n := by
  induction places generalizing m n with
  | zero =>
    obtain ⟨rfl, rfl⟩ : m = 0 ∧ n = 0 := by simp at hm hn; exact ⟨hm, hn⟩
    rfl
  | succ places ih =>
    have hfront : ∀ {k}, k < base ^ (places + 1) → k / base < base ^ places := fun hk =>
      (Nat.div_lt_iff_lt_mul hbase).2 (by rwa [Nat.pow_succ] at hk)
    rw [placeValues, placeValues, compare_append (by simp), ih (hfront hm) (hfront hn),
      List.compare_cons_cons, compare_div_mod base m n, List.compare_nil_nil, Ordering.then_eq]

/-- The digits up to sixteen are ordered as their values. -/
lemma compare_digitChar {d e : Nat} (hd : d < 16) (he : e < 16) :
    compare (Nat.digitChar d) (Nat.digitChar e) = compare d e := by
  have hall : ∀ d < 16, ∀ e < 16, compare (Nat.digitChar d) (Nat.digitChar e) = compare d e := by
    decide
  exact hall d hd e he

/-- **Texts of as many digits are ordered as the numbers are.** -/
lemma compare_digits (hbase : 0 < base) (hsixteen : base ≤ 16) (hm : m < base ^ places)
    (hn : n < base ^ places) :
    compare (digits base places m) (digits base places n) = compare m n := by
  rw [digits, digits, compare_map, compare_placeValues hbase hm hn]
  exact fun d hd e he => compare_digitChar
    (Nat.lt_of_lt_of_le (lt_of_mem_placeValues hbase hd) hsixteen)
    (Nat.lt_of_lt_of_le (lt_of_mem_placeValues hbase he) hsixteen)

end EntityQuery
