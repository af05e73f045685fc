import EntityQuery.Proofs.Evaluation.Ordering
import EntityQuery.Proofs.Number.Rounding
import EntityQuery.Proofs.Scalar.Representation

/-!
# The collation as an order

Sorting and the search for extremes need a total preorder: a value equals itself, the order of two
values is reversed when they are swapped, and what is not greater is so along a chain.  The first
two hold of all values.  A chain can break at one place: two integers of 64 bits are compared
exactly, but each of them is compared with any other number as the nearest double.  Where two
integers have one nearest double, a number with this double equals both of them.

* `Number.Confuses`: a number equals two integers that differ.
* `Number.compare_eq`: the order of numbers is that of their doubles, and exact where these agree.
* `Chains`: three orders are those of three values of a total preorder.
* `collateDatum_preorder`: chains hold of the values over some numbers exactly if none confuses two
  of the others.
* `Number.not_confuses_of_small`: integers of at most 53 bits are not confused.
-/

namespace EntityQuery

/-! ## Three orders at once

That an order is transitive is stated of three orderings rather than of three values: a comparison
that goes on with a second one where the first is equal then chains because its parts do, without
any case analysis on the values. -/

/-- The order of a first and a second value, that of the second and a third, and that of the first
and the third are those of a total preorder. -/
structure Chains (ab bc ac : Ordering) : Prop where
  eq_left : ab = .eq → ac = bc
  eq_right : bc = .eq → ac = ab
  same : ab = bc → ac = ab

namespace Chains

variable {p q r : Ordering}

lemma of_eq : Chains .eq .eq .eq := ⟨fun _ => rfl, fun _ => rfl, fun _ => rfl⟩

lemma isLE (h : Chains p q r) (hp : p.isLE) (hq : q.isLE) : r.isLE := by
  have hleft := h.eq_left
  have hright := h.eq_right
  have hsame := h.same
  cases p <;> cases q <;> simp_all

/-- Orders that chain, one after the other; the later ones only count where the first are equal. -/
lemma lex {p' q' r' : Ordering} (h : Chains p q r) (h' : p = .eq → q = .eq → Chains p' q' r') :
    Chains (p.then p') (q.then q') (r.then r') := by
  have hleft := h.eq_left
  have hright := h.eq_right
  have hsame := h.same
  cases p <;> cases q
  -- unless the first two are equal, the first orders decide
  case eq.eq =>
    obtain rfl : r = .eq := hsame rfl
    exact h' rfl rfl
  all_goals
    constructor <;> cases q' <;> simp_all

/-- The orders of three values of an ordered type. -/
lemma of_compare {α : Type} [Ord α] [Std.TransOrd α] (a b c : α) :
    Chains (compare a b) (compare b c) (compare a c) where
  eq_left h := Std.TransCmp.congr_left h
  eq_right h := (Std.TransCmp.congr_right h).symm
  same h := by
    cases hab : compare a b with
    | eq => exact Std.TransCmp.eq_trans hab (h ▸ hab)
    | lt => exact Std.TransCmp.lt_trans hab (h ▸ hab)
    | gt => exact Std.TransCmp.gt_trans hab (h ▸ hab)

end Chains

/-! ## Numbers

Of two numbers the doubles are compared first, and the integers only where both are integers with
one double.  So a chain can break only at a number that equals, as a double, two integers that
differ. -/

namespace Number

/-- Whether a number has a place in the order: it is an integer of 64 bits, signed or unsigned, or a
double other than the one that is not a number. -/
def IsOrdered : Number → Prop
  | .int n => int64Min ≤ n ∧ n ≤ uint64Max
  | .float x => x.isNaN = false

/-- A number that is compared by its double equals two signed integers that differ. -/
structure Confuses (x : Number) (m n : Int) : Prop where
  first : fitsInt64 m = true
  second : fitsInt64 n = true
  ne : m ≠ n
  inexact : x.toInt64? = none
  equals_first : x.compare (.int m) = .eq
  equals_second : x.compare (.int n) = .eq

/-- The order of two signed integers of 64 bits; all other numbers count as equal. -/
def compareExactly (x y : Number) : Ordering :=
  match x.toInt64?, y.toInt64? with
  | some m, some n => Ord.compare m n
  | _, _ => .eq

lemma IsOrdered.isNaN {x : Number} (h : x.IsOrdered) : x.toFloat.isNaN = false := by
  cases x with
  | int n =>
    have hlow : -9223372036854775808 ≤ n := h.1
    have hhigh : n ≤ 18446744073709551615 := h.2
    exact isNaN_ofInt (by omega) (by omega)
  | float x => exact h

/-- The doubles of integers are in the order of the integers, unless they are equal. -/
lemma compare_ofInt {m n : Int} (hm : fitsInt64 m = true) (hn : fitsInt64 n = true) :
    Ord.compare m n =
      (Ord.compare (floatKey (.ofInt m)) (floatKey (.ofInt n))).then (Ord.compare m n) := by
  simp only [fitsInt64, int64Min, int64Max, Bool.and_eq_true, decide_eq_true_eq] at hm hn
  have hle : ∀ {a b : Int}, -9223372036854775808 ≤ a → b ≤ 9223372036854775807 → a ≤ b →
      (Ord.compare (floatKey (.ofInt a)) (floatKey (.ofInt b))).isLE := fun ha hb h =>
    compare_floatKey_ofInt (by omega) h (by omega)
  rcases Int.lt_trichotomy m n with h | rfl | h
  · have hkeys := hle hm.1 hn.2 (Int.le_of_lt h)
    rw [Int.compare_eq_lt.2 h]
    cases hcompare : Ord.compare (floatKey (.ofInt m)) (floatKey (.ofInt n)) <;> simp_all
  · rw [Int.compare_eq_eq.2 rfl, Ordering.then_eq]
    exact Std.ReflCmp.compare_self.symm
  · have hkeys := hle hn.1 hm.2 (Int.le_of_lt h)
    rw [Std.OrientedOrd.eq_swap] at hkeys
    rw [Int.compare_eq_gt.2 h]
    cases hcompare : Ord.compare (floatKey (.ofInt m)) (floatKey (.ofInt n)) <;> simp_all

/-- **Numbers are ordered by their doubles, and exactly where these agree.** -/
lemma compare_eq {x y : Number} (hx : x.IsOrdered) (hy : y.IsOrdered) :
    x.compare y =
      (Ord.compare (floatKey x.toFloat) (floatKey y.toFloat)).then (x.compareExactly y) := by
  have hfloats := compareFloats_eq hx.isNaN hy.isNaN
  rw [compare, compareExactly]
  cases hm : x.toInt64? with
  | none => rw [hfloats, Ordering.then_eq]
  | some m =>
    cases hn : y.toInt64? with
    | none => rw [hfloats, Ordering.then_eq]
    | some n =>
      obtain ⟨rfl, hmfits⟩ := toInt64?_eq_some.1 hm
      obtain ⟨rfl, hnfits⟩ := toInt64?_eq_some.1 hn
      exact compare_ofInt hmfits hnfits

section Sets

variable {numbers : Number → Prop} (hordered : ∀ x, numbers x → x.IsOrdered)
  (hclear : ∀ x m n, numbers x → numbers (.int m) → numbers (.int n) → ¬ x.Confuses m n)

include hordered hclear

/-- Two signed integers are equal if they have the double of a number that confuses no integers. -/
lemma eq_of_not_confuses {x y z : Number} {m n : Int} (hx : numbers x) (hy : numbers y)
    (hz : numbers z) (hinexact : x.toInt64? = none) (hm : y.toInt64? = some m)
    (hn : z.toInt64? = some n) (hxy : Ord.compare (floatKey x.toFloat) (floatKey y.toFloat) = .eq)
    (hxz : Ord.compare (floatKey x.toFloat) (floatKey z.toFloat) = .eq) : m = n := by
  by_contra hne
  obtain ⟨rfl, hmfits⟩ := toInt64?_eq_some.1 hm
  obtain ⟨rfl, hnfits⟩ := toInt64?_eq_some.1 hn
  have hexactly : ∀ y : Number, x.compareExactly y = .eq := fun y => by rw [compareExactly, hinexact]
  refine hclear x m n hx hy hz ⟨hmfits, hnfits, hne, hinexact, ?_, ?_⟩
  · rw [compare_eq (hordered x hx) (hordered _ hy), hxy, hexactly]
    rfl
  · rw [compare_eq (hordered x hx) (hordered _ hz), hxz, hexactly]
    rfl

/-- **Numbers of which none confuses two others are ordered.** -/
lemma chains {x y z : Number} (hx : numbers x) (hy : numbers y) (hz : numbers z) :
    Chains (x.compare y) (y.compare z) (x.compare z) := by
  have heq {x y z m n} := @eq_of_not_confuses numbers hordered hclear x y z m n
  rw [compare_eq (hordered x hx) (hordered y hy), compare_eq (hordered y hy) (hordered z hz),
    compare_eq (hordered x hx) (hordered z hz)]
  apply (Chains.of_compare _ _ _).lex
  intro hxy hyz
  have hxz := Std.TransCmp.eq_trans hxy hyz
  -- of one double: two integers are equal if the third number is none
  cases hm : x.toInt64? with
  | none =>
    cases hn : y.toInt64? with
    | none => simpa [compareExactly, hm, hn] using Chains.of_eq
    | some n =>
      cases hk : z.toInt64? with
      | none => simpa [compareExactly, hm, hn, hk] using Chains.of_eq
      | some k =>
        obtain rfl := heq hx hy hz hm hn hk hxy hxz
        simpa [compareExactly, hm, hn, hk] using Chains.of_eq
  | some m =>
    cases hn : y.toInt64? with
    | none =>
      cases hk : z.toInt64? with
      | none => simpa [compareExactly, hm, hn, hk] using Chains.of_eq
      | some k =>
        obtain rfl := heq hy hx hz hn hm hk (Std.OrientedCmp.eq_symm hxy) hyz
        simpa [compareExactly, hm, hn, hk] using Chains.of_eq
    | some n =>
      cases hk : z.toInt64? with
      | none =>
        obtain rfl := heq hz hx hy hk hm hn (Std.OrientedCmp.eq_symm hxz)
          (Std.OrientedCmp.eq_symm hyz)
        simpa [compareExactly, hm, hn, hk] using Chains.of_eq
      | some k => simpa [compareExactly, hm, hn, hk] using Chains.of_compare m n k

end Sets

/-- Integers of at most 53 bits have doubles of their own, so that no number confuses them. -/
lemma not_confuses_of_small {x : Number} {m n : Int} (hx : x.IsOrdered)
    (hm : -2 ^ 53 < m ∧ m < 2 ^ 53) (hn : -2 ^ 53 < n ∧ n < 2 ^ 53) : ¬ x.Confuses m n := by
  intro h
  have hkey : ∀ {k : Int}, -2 ^ 53 < k ∧ k < 2 ^ 53 → x.compare (.int k) = .eq →
      floatKey x.toFloat = integerKey k := fun {k} hk heq => by
    have hint : (Number.int k).IsOrdered :=
      ⟨show -9223372036854775808 ≤ k by omega, show k ≤ 18446744073709551615 by omega⟩
    rw [compare_eq hx hint, Ordering.then_eq_eq] at heq
    rw [Std.LawfulEqOrd.eq_of_compare heq.1]
    exact floatKey_ofInt (by omega) (by omega)
  exact h.ne (integerKey_injective hm hn
    ((hkey hm h.equals_first).symm.trans (hkey hn h.equals_second)))

lemma compareFloats_swap (x y : Float) : compareFloats y x = (compareFloats x y).swap := by
  by_cases h : x.isNaN = true ∨ y.isNaN = true
  · rw [compareFloats_of_isNaN h, compareFloats_of_isNaN h.symm]
    rfl
  · simp only [not_or, Bool.not_eq_true] at h
    rw [compareFloats_eq h.1 h.2, compareFloats_eq h.2 h.1]
    exact Std.OrientedCmp.eq_swap

/-- The order of two numbers is reversed when they are swapped. -/
lemma compare_swap (x y : Number) : y.compare x = (x.compare y).swap := by
  rw [compare, compare]
  cases x.toInt64? <;> cases y.toInt64?
  case some.some m n => exact Std.OrientedOrd.eq_swap (a := n) (b := m)
  all_goals exact compareFloats_swap _ _

end Number

/-! ## Equality -/

lemma Number.same_comm (x y : Number) : x.same y = y.same x := by
  cases x <;> cases y <;> first | rfl | exact BEq.comm

mutual

/-- Whether two documents agree does not depend on their order. -/
lemma Document.same_comm (a b : Document) : a.same b = b.same a := by
  cases a <;> cases b
  case bool.bool => simp only [Document.same, BEq.comm]
  case number.number => simp only [Document.same, Number.same_comm]
  case string.string => simp only [Document.same, BEq.comm]
  case array.array as bs => rw [Document.same, Document.same, sameItems_comm as bs]
  case object.object as bs => rw [Document.same, Document.same, sameFields_comm as bs]
  all_goals simp only [Document.same]

lemma sameItems_comm : (as bs : List Document) → sameItems as bs = sameItems bs as
  | [], [] => rfl
  | [], _ :: _ => by simp only [sameItems]
  | _ :: _, [] => by simp only [sameItems]
  | a :: as, b :: bs => by
      rw [sameItems, sameItems, Document.same_comm a b, sameItems_comm as bs]

lemma sameFields_comm : (as bs : List (String × Document)) → sameFields as bs = sameFields bs as
  | [], [] => rfl
  | [], _ :: _ => by simp only [sameFields]
  | _ :: _, [] => by simp only [sameFields]
  | (k, a) :: as, (l, b) :: bs => by
      rw [sameFields, sameFields, sameField, sameField, Document.same_comm a b,
        sameFields_comm as bs, BEq.comm]

end

/-- The equality of the statement language is symmetric. -/
lemma Document.equal_comm (a b : Document) : a.equal b = b.equal a := by
  cases a <;> cases b <;> try exact Document.same_comm _ _
  rw [equal, equal, Number.compare_swap]
  generalize Number.compare _ _ = o
  cases o <;> rfl

/-! ## Documents

Kinds decide before values, and arrays are compared item by item, so that documents chain if the
numbers in them do.  Objects are compared by their texts, and their numbers play no part. -/

mutual

/-- The numbers of a document that the collation compares: those of its arrays, but not those of its
objects, which are compared by their texts. -/
def Document.numbers : Document → List Number
  | .number x => [x]
  | .array items => numbersOfItems items
  | _ => []

/-- The numbers of the items of an array. -/
def numbersOfItems : List Document → List Number
  | [] => []
  | d :: ds => d.numbers ++ numbersOfItems ds

end

/-- The numbers of a value of a row. -/
def Datum.numbers : Datum → List Number
  | none => []
  | some d => d.numbers

lemma collateFields_eq (a b : Fields) :
    collateFields a b = (compare a.length b.length).then
      (compare (Document.object a).text (Document.object b).text) := by
  rw [collateFields]
  cases compare a.length b.length <;> rfl

lemma collateItems_cons (a b : Document) (as bs : List Document) :
    collateItems (a :: as) (b :: bs) = (a.collate b).then (collateItems as bs) := by
  rw [collateItems]
  cases a.collate b <;> rfl

mutual

/-- The order of two documents is reversed when they are swapped. -/
lemma Document.collate_swap (a b : Document) : b.collate a = (a.collate b).swap := by
  cases a <;> cases b <;> try rfl
  · show compare _ _ = (compare _ _).swap
    exact Std.OrientedOrd.eq_swap
  · exact Number.compare_swap _ _
  · show compare _ _ = (compare _ _).swap
    exact Std.OrientedOrd.eq_swap
  · exact collateItems_swap _ _
  · show collateFields _ _ = (collateFields _ _).swap
    rw [collateFields_eq, collateFields_eq, Ordering.swap_then,
      ← Std.OrientedOrd.eq_swap, ← Std.OrientedOrd.eq_swap]

/-- The order of two arrays is reversed when they are swapped. -/
lemma collateItems_swap (as bs : List Document) :
    collateItems bs as = (collateItems as bs).swap := by
  cases as <;> cases bs <;> try rfl
  rw [collateItems_cons, collateItems_cons, Ordering.swap_then, ← Document.collate_swap,
    ← collateItems_swap]

end

/-- The kinds of two documents decide before their values. -/
lemma Document.collate_rank (a b : Document) :
    (compare a.rank b.rank).then (a.collate b) = a.collate b := by
  cases a <;> cases b <;> rfl

section Chains

variable {P : Number → Prop}

mutual

/-- Documents chain if their numbers do. -/
lemma Document.chains
    (hP : ∀ {x y z}, P x → P y → P z → Chains (x.compare y) (y.compare z) (x.compare z))
    {a b c : Document} (ha : ∀ x ∈ a.numbers, P x) (hb : ∀ x ∈ b.numbers, P x)
    (hc : ∀ x ∈ c.numbers, P x) : Chains (a.collate b) (b.collate c) (a.collate c) := by
  rw [← Document.collate_rank a b, ← Document.collate_rank b c, ← Document.collate_rank a c]
  apply (Chains.of_compare _ _ _).lex
  intro hab hbc
  rw [Nat.compare_eq_eq] at hab hbc
  -- only values of one kind are left
  cases a <;> cases b <;> first | (simp [Document.rank] at hab; done) | skip
  all_goals cases c <;> first | (simp [Document.rank] at hbc; done) | skip
  · exact Chains.of_eq
  · exact Chains.of_compare _ _ _
  · exact hP (ha _ List.mem_cons_self) (hb _ List.mem_cons_self) (hc _ List.mem_cons_self)
  · exact Chains.of_compare _ _ _
  · exact chainsOfItems hP ha hb hc
  · show Chains (collateFields _ _) (collateFields _ _) (collateFields _ _)
    simp only [collateFields_eq]
    exact (Chains.of_compare _ _ _).lex fun _ _ => Chains.of_compare _ _ _

/-- Arrays chain if their numbers do. -/
lemma chainsOfItems
    (hP : ∀ {x y z}, P x → P y → P z → Chains (x.compare y) (y.compare z) (x.compare z))
    {as bs cs : List Document} (ha : ∀ x ∈ numbersOfItems as, P x)
    (hb : ∀ x ∈ numbersOfItems bs, P x) (hc : ∀ x ∈ numbersOfItems cs, P x) :
    Chains (collateItems as bs) (collateItems bs cs) (collateItems as cs) := by
  cases as <;> cases bs <;> cases cs
  case cons.cons.cons a as b bs c cs =>
    simp only [numbersOfItems, List.forall_mem_append] at ha hb hc
    rw [collateItems_cons, collateItems_cons, collateItems_cons]
    exact (Document.chains hP ha.1 hb.1 hc.1).lex fun _ _ => chainsOfItems hP ha.2 hb.2 hc.2
  -- an array that has come to its end is before all longer ones
  all_goals constructor <;> intro h <;> first | rfl | exact h.symm | cases h

end

/-- Values of rows chain if their numbers do. -/
lemma Datum.chains
    (hP : ∀ {x y z}, P x → P y → P z → Chains (x.compare y) (y.compare z) (x.compare z))
    {a b c : Datum} (ha : ∀ x ∈ a.numbers, P x) (hb : ∀ x ∈ b.numbers, P x)
    (hc : ∀ x ∈ c.numbers, P x) :
    Chains (collateDatum a b) (collateDatum b c) (collateDatum a c) := by
  cases a <;> cases b <;> cases c
  case some.some.some => exact Document.chains hP ha hb hc
  all_goals constructor <;> intro h <;> first | rfl | exact h.symm | cases h

end Chains

lemma collateDatum_swap (a b : Datum) : collateDatum b a = (collateDatum a b).swap := by
  cases a <;> cases b <;> try rfl
  exact Document.collate_swap _ _

lemma collateDatum_self (a : Datum) : collateDatum a a = .eq := by
  have hswap := collateDatum_swap a a
  cases h : collateDatum a a <;> rw [h] at hswap <;> first | rfl | cases hswap

/-! ## The order of values

What has been shown of three values is now said of sets of them.  The condition is necessary as
well: a number that confuses two integers leaves no order of the three. -/

/-- The numbers of a value are among given ones. -/
def Datum.Over (numbers : Number → Prop) (d : Datum) : Prop := ∀ x ∈ d.numbers, numbers x

section Order

variable {numbers : Number → Prop}

/-- **The collation orders the values over numbers of which none confuses two others.** -/
theorem collates_of_not_confuses (hordered : ∀ x, numbers x → x.IsOrdered)
    (hclear : ∀ x m n, numbers x → numbers (.int m) → numbers (.int n) → ¬ x.Confuses m n) :
    Collates fun d => d.Over numbers where
  eq_swap := collateDatum_swap _ _
  isLE_trans {a b c} hab hbc :=
    (Datum.chains (Number.chains hordered hclear) a.2 b.2 c.2).isLE hab hbc

/-- A number whose double two integers have equals both of them, so the collation orders no values
that these three are among. -/
lemma Collates.not_confuses {values : Datum → Prop} (h : Collates values) {x : Number} {m n : Int}
    (hx : values (some (.number x))) (hm : values (some (.ofInt m))) (hn : values (some (.ofInt n))) :
    ¬ x.Confuses m n := by
  intro hconfuses
  have hfirst : collateDatum (some (.ofInt m)) (some (.number x)) = .eq := by
    rw [collateDatum_swap]
    exact congrArg Ordering.swap hconfuses.equals_first
  have heq : collateDatum (some (.ofInt m)) (some (.ofInt n)) = .eq :=
    h.eq_trans (a := ⟨_, hm⟩) (b := ⟨_, hx⟩) (c := ⟨_, hn⟩) hfirst hconfuses.equals_second
  have hexact : collateDatum (some (.ofInt m)) (some (.ofInt n)) = Ord.compare m n := by
    simp only [collateDatum, Document.ofInt, Document.collate, Number.compare, Number.toInt64?,
      hconfuses.first, hconfuses.second, if_true]
  rw [hexact, Int.compare_eq_eq] at heq
  exact hconfuses.ne heq

/-- The collation orders the values whose integers have at most 53 bits. -/
theorem collates_small :
    Collates fun d => d.Over fun x => x.IsOrdered ∧ ∀ n, x = .int n → -2 ^ 53 < n ∧ n < 2 ^ 53 :=
  collates_of_not_confuses (fun _ h => h.1) fun _ _ _ hx hm hn =>
    Number.not_confuses_of_small hx.1 (hm.2 _ rfl) (hn.2 _ rfl)

/-- **The collation of values.**  A value equals itself, and swapping two values reverses their
order.  The values over some numbers are ordered along a chain, and equal along a chain, exactly if
none of the numbers confuses two integers among them. -/
theorem collateDatum_preorder (hordered : ∀ x, numbers x → x.IsOrdered) :
    (∀ a, collateDatum a a = .eq) ∧
      (∀ a b, collateDatum b a = (collateDatum a b).swap) ∧
      ((∀ x m n, numbers x → numbers (.int m) → numbers (.int n) → ¬ x.Confuses m n) ↔
        ∀ a b c : Datum, a.Over numbers → b.Over numbers → c.Over numbers →
          ((collateDatum a b).isLE → (collateDatum b c).isLE → (collateDatum a c).isLE) ∧
          (collateDatum a b = .eq → collateDatum b c = .eq → collateDatum a c = .eq)) := by
  refine ⟨collateDatum_self, collateDatum_swap, fun hclear a b c ha hb hc => ?_, fun h => ?_⟩
  · have horder := collates_of_not_confuses hordered hclear
    exact ⟨horder.isLE_trans (a := ⟨a, ha⟩) (b := ⟨b, hb⟩) (c := ⟨c, hc⟩),
      horder.eq_trans (a := ⟨a, ha⟩) (b := ⟨b, hb⟩) (c := ⟨c, hc⟩)⟩
  · have horder : Collates fun d => d.Over numbers :=
      { eq_swap := collateDatum_swap _ _
        isLE_trans := fun {a b c} => (h a.1 b.1 c.1 a.2 b.2 c.2).1 }
    intro x m n hx hm hn
    exact horder.not_confuses (by simpa [Datum.Over, Datum.numbers, Document.numbers] using hx)
      (by simpa [Datum.Over, Datum.numbers, Document.ofInt, Document.numbers] using hm)
      (by simpa [Datum.Over, Datum.numbers, Document.ofInt, Document.numbers] using hn)

end Order

/-- One, one and a half and two, in arrays: none of the numbers confuses two others. -/
theorem collateDatum_preorder_halves :
    (collateDatum (some (.array [.ofInt 1])) (some (.array [.number (.float 1.5)]))).isLE ∧
      (collateDatum (some (.array [.number (.float 1.5)])) (some (.array [.ofInt 2]))).isLE ∧
      (collateDatum (some (.array [.ofInt 1])) (some (.array [.ofInt 2]))).isLE := by
  have hordered : ∀ x ∈ [Number.int 1, .int 2, .float 1.5], x.IsOrdered := by
    have hhalf : (1.5 : Float).isNaN = false := by decide +kernel
    simpa [Number.IsOrdered] using hhalf
  have hclear : ∀ x (m n : Int), x ∈ [Number.int 1, .int 2, .float 1.5] →
      .int m ∈ [Number.int 1, .int 2, .float 1.5] → .int n ∈ [Number.int 1, .int 2, .float 1.5] →
      ¬ x.Confuses m n := fun x m n hx hm _ h => by
    -- the double is the only number that could, and it equals none of the integers
    obtain rfl | rfl | rfl : x = .int 1 ∨ x = .int 2 ∨ x = .float 1.5 := by simpa using hx
    · exact absurd h.inexact (by decide)
    · exact absurd h.inexact (by decide)
    · obtain rfl | rfl : m = 1 ∨ m = 2 := by simpa using hm
      · exact absurd h.equals_first (by decide +kernel)
      · exact absurd h.equals_first (by decide +kernel)
  have horder := (collateDatum_preorder hordered).2.2.1 hclear (some (.array [.ofInt 1]))
    (some (.array [.number (.float 1.5)])) (some (.array [.ofInt 2]))
  refine ⟨by decide +kernel, by decide +kernel, ?_⟩
  exact (horder (by simp [Datum.Over, Datum.numbers, Document.numbers, numbersOfItems, Document.ofInt])
    (by simp [Datum.Over, Datum.numbers, Document.numbers, numbersOfItems])
    (by simp [Datum.Over, Datum.numbers, Document.numbers, numbersOfItems, Document.ofInt])).1
      (by decide +kernel) (by decide +kernel)

/-- **The collation is no order of all values**: the double nearest to two integers equals both. -/
theorem collateDatum_not_transitive :
    (collateDatum (some (.ofInt 9007199254740993)) (some (.number (.float 9007199254740992)))).isLE ∧
      (collateDatum (some (.number (.float 9007199254740992))) (some (.ofInt 9007199254740992))).isLE ∧
      collateDatum (some (.ofInt 9007199254740993)) (some (.ofInt 9007199254740992)) = .gt := by
  decide +kernel

end EntityQuery
