import Mathlib.Tactic.Common

/-!
# Comparing numbers and lists

Lists are compared element by element, the shorter one first if it is the beginning of the other.

* `ordering_ext`: an ordering is given by when it is less and when it is greater.
* `compare_append`: what is in front of two lists decides before what is behind it.
* `compare_map`: a strictly monotone translation of the elements does not change the order.
-/

namespace EntityQuery

/-- Two orderings agree if they are less, and greater, at once. -/
lemma ordering_ext {o p : Ordering} (hlt : o = .lt ↔ p = .lt) (hgt : o = .gt ↔ p = .gt) :
    o = p := by
  cases o <;> cases p <;> simp_all

/-! ## Numbers

Comparisons of numbers are rewritten into comparisons of their quotients and remainders, which is
how the orders of dates, of instants and of doubles are decided part by part. -/

lemma compare_cast (m n : Nat) : compare (m : Int) (n : Int) = compare m n := by
  rw [Nat.compare_eq_ite_lt, Int.compare_eq_ite_lt]
  simp only [Int.ofNat_lt]

lemma compare_toNat {a b : Int} (ha : 0 ≤ a) (hb : 0 ≤ b) : compare a.toNat b.toNat = compare a b := by
  rw [← compare_cast, Int.toNat_of_nonneg ha, Int.toNat_of_nonneg hb]

lemma compare_neg (m n : Int) : compare (-m) (-n) = (compare m n).swap := by
  rw [Int.compare_eq_ite_lt, Int.compare_eq_ite_lt]
  split_ifs <;> first | rfl | omega

lemma compare_mul {m n k : Nat} (hk : 0 < k) : compare (m * k) (n * k) = compare m n := by
  apply ordering_ext
  · rw [Nat.compare_eq_lt, Nat.compare_eq_lt, Nat.mul_lt_mul_right hk]
  · rw [Nat.compare_eq_gt, Nat.compare_eq_gt, Nat.mul_lt_mul_right hk]

/-- Quotient and remainder decide one after the other. -/
lemma compare_div_mod (base m n : Nat) :
    compare m n = (compare (m / base) (n / base)).then (compare (m % base) (n % base)) := by
  rcases Nat.lt_trichotomy (m / base) (n / base) with h | h | h
  · rw [Nat.compare_eq_lt.2 h, Nat.compare_eq_lt.2 (Nat.lt_of_div_lt_div h)]
    rfl
  · have hm := Nat.div_add_mod m base
    have hn := Nat.div_add_mod n base
    rw [h] at hm ⊢
    rw [Nat.compare_eq_eq.2 rfl, Ordering.eq_then, Nat.compare_eq_ite_lt, Nat.compare_eq_ite_lt]
    congr 1
    · exact propext (by omega)
    · congr 1
      exact propext (by omega)
  · rw [Nat.compare_eq_gt.2 h, Nat.compare_eq_gt.2 (Nat.lt_of_div_lt_div h)]
    rfl

/-- A number that is no multiple is compared by its quotient, and is greater if that agrees. -/
lemma compare_div {m n k : Nat} (hk : 0 < k) (hne : m * k ≠ n) :
    (compare m (n / k)).then .lt = compare (m * k) n := by
  rcases Nat.lt_trichotomy m (n / k) with h | h | h
  · have hle : (m + 1) * k ≤ n := (Nat.le_div_iff_mul_le hk).1 h
    rw [Nat.compare_eq_lt.2 h, Nat.compare_eq_lt.2 (by rw [Nat.add_mul] at hle; omega)]
    rfl
  · have hle : m * k ≤ n := (Nat.le_div_iff_mul_le hk).1 (Nat.le_of_eq h)
    rw [Nat.compare_eq_eq.2 h, Nat.compare_eq_lt.2 (by omega)]
    rfl
  · rw [Nat.compare_eq_gt.2 h, Nat.compare_eq_gt.2 ((Nat.div_lt_iff_lt_mul hk).1 h)]
    rfl

/-! ## Lists

Texts are compared as lists of characters.  The lemmas here cut two lists at one place, which is
enough where the parts of two texts have the same widths. -/

section Lists

variable {α β : Type} [Ord α] [Ord β]

lemma compare_singleton (a b : α) : compare [a] [b] = compare a b := by
  rw [List.compare_cons_cons, List.compare_nil_nil, Ordering.then_eq]

/-- **What is in front decides before what is behind it**, if it is of one length. -/
lemma compare_append {as bs cs ds : List α} (h : as.length = bs.length) :
    compare (as ++ cs) (bs ++ ds) = (compare as bs).then (compare cs ds) := by
  induction as generalizing bs with
  | nil =>
    obtain rfl : bs = [] := List.eq_nil_of_length_eq_zero h.symm
    rfl
  | cons a as ih =>
    cases bs with
    | nil => cases h
    | cons b bs =>
      rw [List.cons_append, List.cons_append, List.compare_cons_cons, List.compare_cons_cons,
        ih (Nat.succ.inj h), Ordering.then_assoc]

/-- **A strictly monotone translation of the elements keeps the order.** -/
lemma compare_map {f : α → β} {as bs : List α}
    (h : ∀ a ∈ as, ∀ b ∈ bs, compare (f a) (f b) = compare a b) :
    compare (as.map f) (bs.map f) = compare as bs := by
  induction as generalizing bs with
  | nil => cases bs <;> rfl
  | cons a as ih =>
    cases bs with
    | nil => rfl
    | cons b bs =>
      rw [List.map_cons, List.map_cons, List.compare_cons_cons, List.compare_cons_cons,
        h a List.mem_cons_self b List.mem_cons_self,
        ih fun c hc d hd => h c (List.mem_cons_of_mem a hc) d (List.mem_cons_of_mem b hd)]

end Lists
end EntityQuery
