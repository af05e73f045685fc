import EntityQuery.Proofs.Calendar.Texts
import EntityQuery.Proofs.Text.Order

/-!
# The order of the texts of dates and instants

The texts of dates are ordered as the dates are, as long as the years have four digits.  So are the
texts of instants without their zone: year, month, day, hour, minute and second have fixed widths,
and the digits of a fraction decide one after the other.  The `Z` at the end changes this where one
text ends within the fraction of the other, since it comes after every digit and after the point.

* `compare_dateParts`: dates are ordered by year, month and day as by their day numbers.
* `Date.compare_text`: the order of the texts of dates.
* `Instant.compare_localText`: the order of the texts of instants without their zone.
* `Instant.compare_text`: the order of the texts of instants, which is the wrong way round exactly
  if one of them is cut short within the other.
-/

namespace EntityQuery

/-! ## Dates -/

/-- **Dates are ordered by year, month and day as by their day numbers.** -/
lemma compare_dateParts {a b : Int × Nat × Nat} (ha : isDate a.1 a.2.1 a.2.2 = true)
    (hb : isDate b.1 b.2.1 b.2.2 = true) :
    (compare a.1 b.1).then ((compare a.2.1 b.2.1).then (compare a.2.2 b.2.2)) =
      compare (dayNumberOf a.1 a.2.1 a.2.2) (dayNumberOf b.1 b.2.1 b.2.2) := by
  have hlt := dayNumberOf_lt ha hb
  have hgt := dayNumberOf_lt hb ha
  have htotal : Earlier a b ∨ a = b ∨ Earlier b a := by
    unfold Earlier
    rw [Prod.ext_iff, Prod.ext_iff]
    omega
  have hearlier : ∀ {a b}, Earlier a b →
      (compare a.1 b.1).then ((compare a.2.1 b.2.1).then (compare a.2.2 b.2.2)) = .lt := fun h => by
    simpa only [Earlier, Ordering.then_eq_lt, Int.compare_eq_lt, Int.compare_eq_eq, Nat.compare_eq_lt,
      Nat.compare_eq_eq] using h
  rcases htotal with h | rfl | h
  · rw [hearlier h, Int.compare_eq_lt.2 (hlt h)]
  · simp
  · have hswap := congrArg Ordering.swap (hearlier h)
    rw [Ordering.swap_then, Ordering.swap_then, Int.compare_swap, Nat.compare_swap,
      Nat.compare_swap] at hswap
    rw [hswap, Int.compare_eq_gt.2 (hgt h)]
    rfl

/-- A field of a fixed number of digits decides before what comes behind its separator. -/
lemma compare_field {places m n : Nat} (hm : m < 10 ^ places) (hn : n < 10 ^ places) (c : Char)
    (as bs : List Char) :
    compare (digits 10 places m ++ c :: as) (digits 10 places n ++ c :: bs) =
      (compare m n).then (compare as bs) := by
  rw [compare_append (by simp), compare_digits (by decide) (by decide) hm hn,
    List.compare_cons_cons, compare_char, Nat.compare_eq_eq.2 rfl, Ordering.eq_then]

/-- **The texts of dates are ordered as the dates**, if their years have four digits. -/
theorem Date.compare_text {a b : Date} (ha : 0 ≤ a.year ∧ a.year ≤ 9999)
    (hb : 0 ≤ b.year ∧ b.year ≤ 9999) : compare a.text b.text = compare a.dayNumber b.dayNumber := by
  have hparts := compare_dateParts (a := (a.year, a.month, a.day)) (b := (b.year, b.month, b.day))
    a.valid b.valid
  obtain ⟨ham, had⟩ := lt_of_isDate a.valid
  obtain ⟨hbm, hbd⟩ := lt_of_isDate b.valid
  rw [compare_toList, text, text, toList_dateText_of_four a.valid ha,
    toList_dateText_of_four b.valid hb,
    compare_field (by omega) (by omega), compare_field ham hbm,
    compare_digits (by decide) (by decide) had hbd, compare_toNat ha.1 hb.1]
  exact hparts

/-! ## Fractions of a second

Fractions are written with three, six or nine digits, so that one text can end where the other one
goes on.  Zeros behind the shorter one do not change what it stands for, and what comes behind it
decides only if they all agree. -/

namespace Instant

/-- Fewer digits are compared with as many of the others, and then come first. -/
lemma compare_digits_add {places more m n : Nat} (hmore : 0 < more) (hm : m < 10 ^ places)
    (hn : n < 10 ^ (places + more)) :
    compare (digits 10 places m) (digits 10 (places + more) n) =
      (compare m (n / 10 ^ more)).then .lt := by
  have hfront : n / 10 ^ more < 10 ^ places :=
    Nat.div_lt_of_lt_mul (by rwa [← Nat.pow_add, Nat.add_comm])
  have hrest : compare [] (digits 10 more n) = .lt := by
    obtain ⟨c, ds, h, -⟩ := exists_digits_cons (n := n) hmore
    rw [h, List.compare_nil_cons]
  rw [digits_add, ← List.append_nil (digits 10 places m), compare_append (by simp),
    compare_digits (by decide) (by decide) hm hfront, hrest]

/-- Of two fractions that differ, the one with fewer digits is less if its digits agree. -/
lemma compare_fractions_of_lt {places more m n f g : Nat} (hmore : 0 < more)
    (hm : m < 10 ^ places) (hn : n < 10 ^ (places + more)) (hplaces : places + more ≤ 9)
    (hf : m * 10 ^ (9 - places) = f) (hg : n * 10 ^ (9 - (places + more)) = g) (hne : f ≠ g) :
    compare (digits 10 places m) (digits 10 (places + more) n) = compare f g := by
  have hsplit : 9 - places = more + (9 - (places + more)) := by omega
  rw [hsplit, Nat.pow_add, ← Nat.mul_assoc] at hf
  have hpos : 0 < 10 ^ (9 - (places + more)) := Nat.pow_pos (by decide)
  have hfront : m * 10 ^ more ≠ n := fun h => hne (by rw [← hf, ← hg, h])
  rw [compare_digits_add hmore hm hn, compare_div (Nat.pow_pos (by decide)) hfront, ← hf, ← hg,
    compare_mul hpos]

/-- **The texts of fractions are ordered as the fractions.** -/
lemma compare_fractionText {f g : Nat} (hf : f < 1000000000) (hg : g < 1000000000) :
    compare (fractionText f).toList (fractionText g).toList = compare f g := by
  by_cases heq : f = g
  · subst heq
    simp
  by_cases hfzero : f = 0
  · obtain ⟨places, n, -, -, -, htext⟩ := exists_fractionText (show g ≠ 0 by omega) hg
    rw [htext, hfzero, Nat.compare_eq_lt.2 (by omega)]
    rfl
  by_cases hgzero : g = 0
  · obtain ⟨places, n, -, -, -, htext⟩ := exists_fractionText hfzero hf
    rw [htext, hgzero, Nat.compare_eq_gt.2 (by omega)]
    rfl
  obtain ⟨p, m, hp, hm, hfm, hftext⟩ := exists_fractionText hfzero hf
  obtain ⟨q, n, hq, hn, hgn, hgtext⟩ := exists_fractionText hgzero hg
  rw [hftext, hgtext, List.compare_cons_cons, compare_char, Nat.compare_eq_eq.2 rfl,
    Ordering.eq_then]
  rcases Nat.lt_trichotomy p q with hpq | rfl | hpq
  · obtain ⟨more, rfl⟩ : ∃ more, q = p + more := ⟨q - p, by omega⟩
    exact compare_fractions_of_lt (by omega) hm hn (by omega) hfm hgn heq
  · rw [compare_digits (by decide) (by decide) hm hn, ← hfm, ← hgn,
      compare_mul (Nat.pow_pos (by decide))]
  · obtain ⟨more, rfl⟩ : ∃ more, p = q + more := ⟨p - q, by omega⟩
    have hswap := compare_fractions_of_lt (by omega) hn hm (by omega) hgn hfm (Ne.symm heq)
    rw [Std.OrientedOrd.eq_swap, hswap, Nat.compare_swap]

/-! ## Instants

Time is the second and then the nanosecond, where a leap second adds a whole second to the
nanoseconds of the one before it.  What is written is day, hour, minute, second and fraction; that
the two orders agree is shown first, and then that of the texts field by field. -/

/-- The order of instants in time. -/
def chronological (a b : Instant) : Ordering :=
  (compare a.seconds b.seconds).then (compare a.nanos b.nanos)

/-- The clock of an instant: a leap second is the sixtieth of its minute and starts its fraction
anew. -/
lemma clock_eq (i : Instant) :
    (i.time : Int) = i.seconds % 86400 ∧
      (i.second = i.time % 60 ∧ i.fraction = i.nanos ∧ i.nanos < 1000000000 ∨
        i.second = 60 ∧ i.time % 60 = 59 ∧ i.fraction + 1000000000 = i.nanos) := by
  refine ⟨by unfold time; omega, ?_⟩
  cases h : i.isLeap with
  | false =>
    simp only [isLeap, decide_eq_false_iff_not] at h
    exact .inl ⟨by simp [second, isLeap, h], by simp [fraction, isLeap, h], by omega⟩
  | true =>
    have hlast := time_of_isLeap h
    have hsixty := second_eq_sixty.2 h
    simp only [isLeap, decide_eq_true_eq] at h
    exact .inr ⟨hsixty, hlast, by simp [fraction, isLeap, h]⟩

/-- **Day, hour, minute, second and fraction are ordered as time is.**  A leap second comes after
the second that it shares its number with, and before the next minute. -/
lemma compare_clock (a b : Instant) :
    (compare (a.seconds / 86400) (b.seconds / 86400)).then
      ((compare (a.time / 3600) (b.time / 3600)).then
        ((compare (a.time / 60 % 60) (b.time / 60 % 60)).then
          ((compare a.second b.second).then (compare a.fraction b.fraction)))) =
      chronological a b := by
  obtain ⟨hatime, ha⟩ := clock_eq a
  obtain ⟨hbtime, hb⟩ := clock_eq b
  unfold chronological
  apply ordering_ext
  · simp only [Ordering.then_eq_lt, Int.compare_eq_lt, Int.compare_eq_eq, Nat.compare_eq_lt,
      Nat.compare_eq_eq]
    omega
  · simp only [Ordering.then_eq_gt, Int.compare_eq_gt, Int.compare_eq_eq, Nat.compare_eq_gt,
      Nat.compare_eq_eq]
    omega

/-- **The texts of instants without their zone are ordered as time is**, if the years have four
digits. -/
theorem compare_localText {a b : Instant} (ha : 0 ≤ a.year ∧ a.year ≤ 9999)
    (hb : 0 ≤ b.year ∧ b.year ≤ 9999) :
    compare a.localText.toList b.localText.toList = chronological a b := by
  have hadate := isDate_year_monthDay ha
  have hbdate := isDate_year_monthDay hb
  obtain ⟨ham, had⟩ := lt_of_isDate hadate
  obtain ⟨hbm, hbd⟩ := lt_of_isDate hbdate
  have hatime := time_lt (i := a)
  have hbtime := time_lt (i := b)
  have hasecond := second_le (i := a)
  have hbsecond := second_le (i := b)
  have hday := compare_dateParts (a := dateParts (a.seconds / 86400))
    (b := dateParts (b.seconds / 86400)) hadate hbdate
  rw [dayNumberOf_dateParts, dayNumberOf_dateParts] at hday
  rw [toList_localText ha, toList_localText hb, compare_field (by omega) (by omega),
    compare_field ham hbm, compare_field had hbd, compare_field (by omega) (by omega),
    compare_field (by omega) (by omega), compare_append (by simp),
    compare_digits (by decide) (by decide) (by omega) (by omega),
    compare_fractionText fraction_lt fraction_lt, compare_toNat ha.1 hb.1, ← compare_clock, ← hday]
  simp only [Ordering.then_assoc]
  rfl

/-- Whether the text of an instant ends, but for the zone, within the fraction of another. -/
def isCutShort (a b : Instant) : Bool :=
  a.localText.toList.isPrefixOf b.localText.toList && a.localText != b.localText

/-- The zone comes after all other characters of an instant. -/
lemma lt_zone {i : Instant} (hyear : 0 ≤ i.year ∧ i.year ≤ 9999) :
    ∀ c ∈ i.localText.toList, c < 'Z' := by
  have hdigit : ∀ {places n}, ∀ c ∈ digits 10 places n, c < 'Z' := fun c hc => by
    have hrange := Char.isDigit_iff_toNat.1 (isDigit_of_mem_digits hc)
    exact char_lt_iff.2 (Nat.lt_of_le_of_lt hrange.2 (by decide))
  have hmark : '-' < 'Z' ∧ 'T' < 'Z' ∧ ':' < 'Z' ∧ '.' < 'Z' := by decide
  have hfraction : ∀ c ∈ (fractionText i.fraction).toList, c < 'Z' := fun c hc => by
    by_cases hzero : i.fraction = 0
    · rw [hzero] at hc
      cases hc
    · obtain ⟨places, n, -, -, -, htext⟩ := exists_fractionText hzero fraction_lt
      rw [htext, List.mem_cons] at hc
      rcases hc with rfl | hc
      · exact hmark.2.2.2
      · exact hdigit c hc
  intro c hc
  simp only [toList_localText hyear, List.mem_append, List.mem_cons] at hc
  rcases hc with hc | rfl | hc | rfl | hc | rfl | hc | rfl | hc | rfl | hc | hc
  all_goals first | exact hdigit _ hc | exact hfraction _ hc | decide

/-- **The texts of instants are ordered as time is, but the wrong way round if one of them is cut
short within the other**, if the years have four digits. -/
theorem compare_text {a b : Instant} (ha : 0 ≤ a.year ∧ a.year ≤ 9999)
    (hb : 0 ≤ b.year ∧ b.year ≤ 9999) :
    compare a.text b.text =
      if isCutShort a b || isCutShort b a then (chronological a b).swap else chronological a b := by
  rw [compare_toList, toList_text, toList_text, compare_concat (lt_zone ha) (lt_zone hb),
    compare_localText ha hb]
  by_cases heq : a.localText = b.localText
  · -- equal texts are those of one instant, which no order tells from itself
    have hsame : chronological a b = .eq := by
      rw [← compare_localText ha hb, heq]
      simp
    simp [hsame]
  · simp only [isCutShort, Bool.or_eq_true, Bool.and_eq_true, List.isPrefixOf_iff_prefix,
      bne_iff_ne, ne_eq, heq, Ne.symm heq, not_false_eq_true, and_true]

end Instant
end EntityQuery
