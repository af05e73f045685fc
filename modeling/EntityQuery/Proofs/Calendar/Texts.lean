import EntityQuery.Proofs.Calendar.DayNumbers
import EntityQuery.Proofs.Text.Digits

/-!
# Texts of dates and instants

Every date is read back from its text, also one whose year has a sign and more than four digits.  An
instant is read back if its year has four digits: the reader of instants takes exactly four.

* `Date.takeYear?_yearText`: the year in front of a text.
* `Date.ofText?_text`: the text of a date denotes the date.
* `Instant.takeFraction?_fractionText`: the fraction of a second, of any of the four lengths.
* `Instant.ofText?_text`: the text of an instant denotes the instant, leap seconds included.
* `Instant.ofText?_text_eq_none`: the text of an instant whose year has a sign denotes none.
-/

namespace EntityQuery

/-! ## Dates

The year comes first and has no fixed width: beyond four digits it is written with a sign, which is
what tells the reader how many digits to take. -/

/-- Digits in front of a text show their first one. -/
lemma exists_digits_cons {places n : Nat} (hplaces : 0 < places) :
    ∃ c ds, digits 10 places n = c :: ds ∧ c.isDigit = true := by
  cases h : digits 10 places n with
  | nil => rw [← List.length_eq_zero_iff, length_digits] at h; omega
  | cons c ds => exact ⟨c, ds, rfl, isDigit_of_mem_digits (h ▸ List.mem_cons_self)⟩

/-- A character that is asked for is split off. -/
lemma takeChar?_cons_self (c : Char) (s : List Char) : takeChar? c (c :: s) = some s := if_pos rfl

/-- No digit is blank. -/
lemma isBlank_of_isDigit {c : Char} (h : c.isDigit = true) : isBlank c = false := by
  have hrange : '0'.toNat ≤ c.toNat ∧ c.toNat ≤ '9'.toNat := Char.isDigit_iff_toNat.1 h
  have hzero : '0'.toNat = 48 := rfl
  have hnine : '9'.toNat = 57 := rfl
  simp only [isBlank, inRanges, blankRanges, List.any_toArray, List.any_cons, List.any_nil,
    Bool.or_false, Bool.or_eq_false_iff, Bool.and_eq_false_iff, decide_eq_false_iff_not]
  omega

lemma dropWhile_isBlank_digits {places n : Nat} (hplaces : 0 < places) (rest : List Char) :
    (digits 10 places n ++ rest).dropWhile isBlank = digits 10 places n ++ rest := by
  obtain ⟨c, ds, h, hc⟩ := exists_digits_cons (n := n) hplaces
  rw [h, List.cons_append, List.dropWhile_cons_of_neg (by simp [isBlank_of_isDigit hc])]

/-- The parts of a date have two digits for month and day. -/
lemma lt_of_isDate {year : Int} {month day : Nat} (h : isDate year month day = true) :
    month < 10 ^ 2 ∧ day < 10 ^ 2 := by
  simp only [isDate, Bool.and_eq_true, decide_eq_true_eq] at h
  have hlast : daysInMonth year month ≤ 31 := by
    unfold daysInMonth
    split_ifs <;> omega
  omega

namespace Date

/-- A year that begins with a digit has at most four of them. -/
lemma takeYear?_digits {places n : Nat} (hplaces : 0 < places) (rest : List Char) :
    takeYear? (digits 10 places n ++ rest) =
      (takeNumber? 4 (digits 10 places n ++ rest)).map fun (n, rest) => ((n : Int), rest) := by
  obtain ⟨c, ds, h, hc⟩ := exists_digits_cons (n := n) hplaces
  rw [h, List.cons_append, takeYear?]
  · intro s hs
    rw [(List.cons.inj hs).1] at hc
    cases hc
  · intro s hs
    rw [(List.cons.inj hs).1] at hc
    cases hc

/-- **The year in front of a text is read back**, with its sign if it has one. -/
lemma takeYear?_yearText (year : Int) {rest : List Char}
    (hrest : ∀ c ∈ rest.head?, c.isDigit = false) :
    takeYear? ((yearText year).toList ++ rest) = some (year, rest) := by
  by_cases hfour : 0 ≤ year ∧ year ≤ 9999
  · have hyear : year.toNat < 10 ^ 4 := by omega
    have htext : yearText year = padded 4 year.toNat := by simp [yearText, hfour]
    rw [htext, toList_padded (by decide) hyear, takeYear?_digits (by decide),
      takeNumber?_digits (by decide) (Nat.le_refl 4) hyear hrest, Option.map_some]
    simp only [Int.toNat_of_nonneg hfour.1]
  · obtain ⟨places, hplaces, hyear, -, hdigits⟩ := exists_toList_padded (by decide : 0 < 4) year.natAbs
    have hread : takeNumber? (digits 10 places year.natAbs ++ rest).length
        (digits 10 places year.natAbs ++ rest) = some (year.natAbs, rest) :=
      takeNumber?_digits (by omega) (by simp) hyear hrest
    have htext : yearText year = (if year < 0 then "-" else "+") ++ padded 4 year.natAbs := by
      unfold yearText
      rw [if_neg (by simpa using hfour)]
    rw [htext, String.toList_append, hdigits]
    by_cases hsign : year < 0
    · rw [if_pos hsign, show "-".toList = ['-'] from rfl, List.cons_append, List.nil_append,
        List.cons_append, takeYear?, hread, Option.map_some]
      simp only [Option.some.injEq, Prod.mk.injEq, and_true]
      omega
    · rw [if_neg hsign, show "+".toList = ['+'] from rfl, List.cons_append, List.nil_append,
        List.cons_append, takeYear?, hread, Option.map_some]
      simp only [Option.some.injEq, Prod.mk.injEq, and_true]
      omega

/-- The text of a year begins with a sign or a digit. -/
lemma dropWhile_isBlank_yearText (year : Int) (rest : List Char) :
    ((yearText year).toList ++ rest).dropWhile isBlank = (yearText year).toList ++ rest := by
  have hminus : isBlank '-' = false := by simp [isBlank, inRanges, blankRanges]
  have hplus : isBlank '+' = false := by simp [isBlank, inRanges, blankRanges]
  unfold yearText
  split_ifs with hfour hsign
  · obtain ⟨places, hplaces, -, -, hdigits⟩ := exists_toList_padded (by decide : 0 < 4) year.toNat
    rw [hdigits, dropWhile_isBlank_digits (by omega)]
  · rw [String.toList_append, show "-".toList = ['-'] from rfl, List.cons_append, List.cons_append,
      List.dropWhile_cons_of_neg (by simp [hminus])]
  · rw [String.toList_append, show "+".toList = ['+'] from rfl, List.cons_append, List.cons_append,
      List.dropWhile_cons_of_neg (by simp [hplus])]

/-- The text of a date, as characters. -/
lemma toList_dateText {year : Int} {month day : Nat} (h : isDate year month day = true) :
    (dateText year month day).toList =
      (yearText year).toList ++ '-' :: (digits 10 2 month ++ '-' :: digits 10 2 day) := by
  obtain ⟨hmonth, hday⟩ := lt_of_isDate h
  simp only [dateText, String.toList_append, toList_padded (by decide : 0 < 2) hmonth,
    toList_padded (by decide : 0 < 2) hday, List.append_assoc]
  rfl

/-- The text of a date whose year has four digits, as characters. -/
lemma toList_dateText_of_four {year : Int} {month day : Nat} (h : isDate year month day = true)
    (hyear : 0 ≤ year ∧ year ≤ 9999) :
    (dateText year month day).toList =
      digits 10 4 year.toNat ++ '-' :: (digits 10 2 month ++ '-' :: digits 10 2 day) := by
  have htext : yearText year = padded 4 year.toNat := by simp [yearText, hyear]
  rw [toList_dateText h, htext, toList_padded (by decide) (by omega)]

/-- **The text of a date denotes the date.** -/
theorem ofText?_text (d : Date) : ofText? d.text = some d := by
  obtain ⟨year, month, day, hvalid⟩ := d
  obtain ⟨hmonth, hday⟩ := lt_of_isDate hvalid
  have hdash : ∀ s : List Char, ∀ c ∈ ('-' :: s).head?, c.isDigit = false := by
    rintro s c ⟨⟩
    rfl
  have hread : takeNumber? 2 (digits 10 2 day ++ []) = some (day, []) :=
    takeNumber?_digits (by decide) (by decide) hday (by rintro c ⟨⟩)
  rw [List.append_nil] at hread
  have hblank := dropWhile_isBlank_digits (n := day) (by decide : 0 < 2) []
  rw [List.append_nil] at hblank
  rw [ofText?, text, toList_dateText hvalid, dropWhile_isBlank_yearText,
    takeYear?_yearText year (hdash _)]
  simp only [Option.bind_eq_bind, Option.bind_some, takeChar?_cons_self,
    dropWhile_isBlank_digits (by decide : 0 < 2),
    takeNumber?_digits (by decide) (Nat.le_refl 2) hmonth (hdash _), hblank, hread,
    List.isEmpty_nil, if_true, ofParts?, dif_pos hvalid]

end Date

/-! ## Instants

An instant is written as date, time of day and fraction.  A leap second is written as the sixtieth
second of its minute, and the reader turns it back into the second before it with a whole second
more of nanoseconds. -/

namespace Instant

/-- The year of an instant in universal time. -/
def year (i : Instant) : Int := (dateParts (i.seconds / 86400)).1

/-- The month of an instant and its day. -/
def monthDay (i : Instant) : Nat × Nat := (dateParts (i.seconds / 86400)).2

/-- The second of the day. -/
def time (i : Instant) : Nat := (i.seconds % 86400).toNat

/-- Whether an instant lies in a leap second. -/
def isLeap (i : Instant) : Bool := decide (1000000000 ≤ i.nanos)

/-- The second of the minute, which is the sixtieth for a leap second. -/
def second (i : Instant) : Nat := if i.isLeap then i.time % 60 + 1 else i.time % 60

/-- The fraction of the second. -/
def fraction (i : Instant) : Nat := if i.isLeap then i.nanos - 1000000000 else i.nanos

variable {i : Instant}

lemma time_lt : i.time < 86400 := by
  unfold time
  omega

/-- Only the last second of a minute is followed by a leap second. -/
lemma time_of_isLeap (h : i.isLeap = true) : i.time % 60 = 59 := by
  have hvalid := i.valid
  simp only [isLeap, decide_eq_true_eq] at h
  simp only [isFraction, Bool.or_eq_true, Bool.and_eq_true, decide_eq_true_eq, beq_iff_eq] at hvalid
  unfold time
  omega

lemma second_le : i.second ≤ 60 := by
  unfold second
  split_ifs <;> omega

lemma fraction_lt : i.fraction < 1000000000 := by
  have hvalid := i.valid
  simp only [isFraction, Bool.or_eq_true, Bool.and_eq_true, decide_eq_true_eq] at hvalid
  unfold fraction isLeap
  split_ifs with h <;> simp only [decide_eq_true_eq] at h <;> omega

/-- **The fraction of a second has three, six or nine digits**, if it is not zero. -/
lemma exists_fractionText {nanos : Nat} (hpos : nanos ≠ 0) (h : nanos < 1000000000) :
    ∃ places n, (places = 3 ∨ places = 6 ∨ places = 9) ∧ n < 10 ^ places ∧
      n * 10 ^ (9 - places) = nanos ∧ (fractionText nanos).toList = '.' :: digits 10 places n := by
  have htext : ∀ {places n : Nat}, 0 < places → n < 10 ^ places →
      ("." ++ padded places n).toList = '.' :: digits 10 places n := fun hplaces hn => by
    rw [String.toList_append, toList_padded hplaces hn]
    rfl
  unfold fractionText
  rw [if_neg hpos]
  split_ifs with hmillis hmicros
  · exact ⟨3, nanos / 1000000, .inl rfl, by omega, by omega, htext (by decide) (by omega)⟩
  · exact ⟨6, nanos / 1000, .inr (.inl rfl), by omega, by omega, htext (by decide) (by omega)⟩
  · exact ⟨9, nanos, .inr (.inr rfl), by omega, by omega, htext (by decide) (by omega)⟩

/-- **The fraction of a second is read back**, whatever zone comes behind it. -/
lemma takeFraction?_fractionText {nanos : Nat} (h : nanos < 1000000000) (rest : List Char) :
    takeFraction? ((fractionText nanos).toList ++ 'Z' :: rest) = some (nanos, 'Z' :: rest) := by
  by_cases hpos : nanos = 0
  · subst hpos
    rfl
  · obtain ⟨places, n, hplaces, hn, hvalue, htext⟩ := exists_fractionText hpos h
    have hdigits : (digits 10 places n ++ 'Z' :: rest).takeWhile Char.isDigit = digits 10 places n :=
      takeWhile_digits (by rintro c ⟨⟩; rfl)
    have hkept : (digits 10 places n).take 9 = digits 10 places n :=
      List.take_of_length_le (by rw [length_digits]; omega)
    have hne : digits 10 places n ≠ [] :=
      List.ne_nil_of_length_pos (by rw [length_digits]; omega)
    rw [htext, List.cons_append]
    simp only [takeFraction?, hdigits, List.isEmpty_eq_false_iff.2 hne, Bool.false_eq_true, if_false,
      hkept, decimalValue_digits hn, length_digits, List.drop_left' length_digits]
    rw [show Nat.pow 10 (9 - places) = 10 ^ (9 - places) from rfl, hvalue]

lemma isDate_year_monthDay (hyear : 0 ≤ i.year ∧ i.year ≤ 9999) :
    isDate i.year i.monthDay.1 i.monthDay.2 = true := by
  refine isDate_dateParts (n := i.seconds / 86400) ?_ ?_ <;> unfold year at hyear <;> omega

/-- The text of an instant without its zone, as characters. -/
lemma toList_localText (hyear : 0 ≤ i.year ∧ i.year ≤ 9999) :
    i.localText.toList =
      digits 10 4 i.year.toNat ++ '-' :: (digits 10 2 i.monthDay.1 ++ '-' ::
        (digits 10 2 i.monthDay.2 ++ 'T' :: (digits 10 2 (i.time / 3600) ++ ':' ::
          (digits 10 2 (i.time / 60 % 60) ++ ':' :: (digits 10 2 i.second ++
            (fractionText i.fraction).toList))))) := by
  have htime := time_lt (i := i)
  have hsecond := second_le (i := i)
  have htext : i.localText = dateText i.year i.monthDay.1 i.monthDay.2 ++ "T" ++
      padded 2 (i.time / 3600) ++ ":" ++ padded 2 (i.time / 60 % 60) ++ ":" ++ padded 2 i.second ++
        fractionText i.fraction := rfl
  rw [htext]
  simp only [String.toList_append, Date.toList_dateText_of_four (isDate_year_monthDay hyear) hyear,
    toList_padded (by decide : 0 < 2) (show i.time / 3600 < 10 ^ 2 by omega),
    toList_padded (by decide : 0 < 2) (show i.time / 60 % 60 < 10 ^ 2 by omega),
    toList_padded (by decide : 0 < 2) (show i.second < 10 ^ 2 by omega), List.append_assoc,
    List.cons_append]
  rfl

lemma toList_text : i.text.toList = i.localText.toList ++ ['Z'] := by
  rw [text, String.toList_append]
  rfl

/-- Only a leap second is the sixtieth. -/
lemma second_eq_sixty : i.second = 60 ↔ i.isLeap = true := by
  unfold second
  refine ⟨fun h => ?_, fun h => ?_⟩
  · by_contra hleap
    rw [if_neg hleap] at h
    omega
  · have := time_of_isLeap h
    rw [if_pos h]
    omega

/-- The second of a day is that of its clock, where a leap second counts as the one before. -/
lemma time_eq : i.time / 3600 * 3600 + i.time / 60 % 60 * 60 +
    (if (i.second == 60) = true then 59 else i.second) = i.time := by
  simp only [beq_iff_eq, second_eq_sixty]
  split_ifs with h
  · have := time_of_isLeap h
    omega
  · rw [second, if_neg h]
    omega

/-- The fraction that follows the second of an instant, where a leap second adds a whole one. -/
lemma nanos_eq :
    (if (i.second == 60) = true then i.fraction + 1000000000 else i.fraction) = i.nanos := by
  simp only [beq_iff_eq, second_eq_sixty]
  unfold fraction
  split_ifs with h
  · rw [isLeap, decide_eq_true_eq] at h
    omega
  · rfl

/-- **The text of an instant denotes the instant**, if its year has four digits. -/
theorem ofText?_text (i : Instant) (hyear : 0 ≤ i.year ∧ i.year ≤ 9999) :
    ofText? i.text = some i := by
  have htime := time_lt (i := i)
  have hdate := isDate_year_monthDay hyear
  obtain ⟨hmonth, hday⟩ := lt_of_isDate hdate
  have hyearNat : i.year.toNat < 10 ^ 4 := by omega
  have hhour : i.time / 3600 < 10 ^ 2 := by omega
  have hminute : i.time / 60 % 60 < 10 ^ 2 := by omega
  have hsecond : i.second < 10 ^ 2 := by have := second_le (i := i); omega
  have hdate' : Date.ofParts? i.year.toNat i.monthDay.1 i.monthDay.2 =
      some ⟨i.year, i.monthDay.1, i.monthDay.2, hdate⟩ := by
    simp only [Int.toNat_of_nonneg hyear.1, Date.ofParts?, dif_pos hdate]
  have hchars : i.text.toList =
      digits 10 4 i.year.toNat ++ ('-' :: (digits 10 2 i.monthDay.1 ++ ('-' ::
        (digits 10 2 i.monthDay.2 ++ ('T' :: (digits 10 2 (i.time / 3600) ++ (':' ::
          (digits 10 2 (i.time / 60 % 60) ++ (':' :: (digits 10 2 i.second ++
            ((fractionText i.fraction).toList ++ 'Z' :: []))))))))))) := by
    rw [toList_text, toList_localText hyear]
    simp only [List.append_assoc, List.cons_append]
  rw [ofText?, hchars]
  -- the parts are read one after the other, each from what the one before has left
  refine Option.bind_eq_some_iff.2 ⟨_, takeDigits?_digits hyearNat _, ?_⟩
  refine Option.bind_eq_some_iff.2 ⟨_, takeChar?_cons_self _ _, ?_⟩
  refine Option.bind_eq_some_iff.2 ⟨_, takeDigits?_digits hmonth _, ?_⟩
  refine Option.bind_eq_some_iff.2 ⟨_, takeChar?_cons_self _ _, ?_⟩
  refine Option.bind_eq_some_iff.2 ⟨_, takeDigits?_digits hday _, ?_⟩
  refine Option.bind_eq_some_iff.2 ⟨_, rfl, ?_⟩
  refine Option.bind_eq_some_iff.2 ⟨_, takeDigits?_digits hhour _, ?_⟩
  refine Option.bind_eq_some_iff.2 ⟨_, takeChar?_cons_self _ _, ?_⟩
  refine Option.bind_eq_some_iff.2 ⟨_, takeDigits?_digits hminute _, ?_⟩
  refine Option.bind_eq_some_iff.2 ⟨_, takeChar?_cons_self _ _, ?_⟩
  refine Option.bind_eq_some_iff.2 ⟨_, takeDigits?_digits hsecond _, ?_⟩
  refine Option.bind_eq_some_iff.2 ⟨_, takeFraction?_fractionText fraction_lt _, ?_⟩
  refine Option.bind_eq_some_iff.2 ⟨0, rfl, ?_⟩
  refine Option.bind_eq_some_iff.2 ⟨_, hdate', ?_⟩
  have hclock : (decide (i.time / 3600 ≤ 23) && decide (i.time / 60 % 60 ≤ 59) &&
      decide (i.second ≤ 60)) = true := by
    simp only [Bool.and_eq_true, decide_eq_true_eq]
    exact ⟨⟨by omega, by omega⟩, second_le⟩
  have hseconds : dayNumberOf i.year i.monthDay.1 i.monthDay.2 = i.seconds / 86400 :=
    dayNumberOf_dateParts _
  have htotal : i.seconds / 86400 * 86400 + i.time - 0 = i.seconds := by unfold time; omega
  rw [if_pos hclock]
  simp only [time_eq, nanos_eq, Date.dayNumber, hseconds, htotal]
  rw [ofParts?, dif_pos i.valid]

/-- **The text of an instant in another year denotes none**: its first character is a sign. -/
theorem ofText?_text_eq_none (i : Instant) (hyear : ¬(0 ≤ i.year ∧ i.year ≤ 9999)) :
    ofText? i.text = none := by
  obtain ⟨sign, rest, hsign, hyearText⟩ : ∃ sign rest, sign.isDigit = false ∧
      (yearText i.year).toList = sign :: rest := by
    rw [yearText, if_neg (by simpa using hyear), String.toList_append]
    split
    · exact ⟨'-', _, rfl, rfl⟩
    · exact ⟨'+', _, rfl, rfl⟩
  have htext : ∃ rest, i.text.toList = sign :: rest := by
    rw [toList_text]
    show ∃ rest, (dateText i.year i.monthDay.1 i.monthDay.2 ++ "T" ++ padded 2 (i.time / 3600) ++ ":" ++
      padded 2 (i.time / 60 % 60) ++ ":" ++ padded 2 i.second ++ fractionText i.fraction).toList ++
        ['Z'] = sign :: rest
    simp only [dateText, String.toList_append, hyearText, List.cons_append]
    exact ⟨_, rfl⟩
  obtain ⟨rest, htext⟩ := htext
  have hdigits : takeDigits? 4 (sign :: rest) = none := by
    rw [takeDigits?, List.take_succ_cons, List.all_cons, hsign, Bool.false_and, Bool.and_false]
    rfl
  rw [ofText?, htext, hdigits]
  rfl

end Instant
end EntityQuery
