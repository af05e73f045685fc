import Mathlib.Tactic.Common
import Mathlib.Tactic.IntervalCases
import EntityQuery.Calendar.Date

/-!
# Day numbers

An era of 400 years has 146097 days.  A day of it is given by its century, its group of four years,
its year and its day, where only the last year of a group has a 366th day, and the last group of a
century only in the last century.  The division by which `dateParts` finds the year of a day is
justified on these parts.

* `EraDay`: the parts of a day of an era, and `exists_eraDay`: every day has such parts.
* `dayNumberOf_dateParts`: the day number of the date of a day is the day.
* `isDate_dateParts`: the date of a day is one of the calendar.
* `dayNumberOf_lt`: later dates have greater numbers.
-/

namespace EntityQuery

/-! ## Days of an era

The algorithm divides the number of a day by the length of a year after it has taken leap days off.
Why this division is exact is seen on the four parts of a day, each of which has a small range, so
that what is to be shown becomes linear arithmetic over the parts. -/

/-- A day of an era of 400 years, which begin in March. -/
structure EraDay where
  century : Int
  group : Int
  year : Int
  day : Int
  century_range : 0 ≤ century ∧ century ≤ 3
  group_range : 0 ≤ group ∧ group ≤ 24
  year_range : 0 ≤ year ∧ year ≤ 3
  day_range : 0 ≤ day ∧ day ≤ 365
  /-- Only leap years have a 366th day. -/
  leap : day = 365 → year = 3 ∧ (group = 24 → century = 3)

namespace EraDay

variable (e : EraDay)

/-- The number of the day in its era. -/
def number : Int := 36524 * e.century + 1461 * e.group + 365 * e.year + e.day

/-- The number of the day's year in its era. -/
def yearOfEra : Int := 100 * e.century + 4 * e.group + e.year

lemma yearOfEra_range : 0 ≤ e.yearOfEra ∧ e.yearOfEra ≤ 399 := by
  have := e.century_range
  have := e.group_range
  have := e.year_range
  unfold yearOfEra
  omega

/-- The day is found in its year by the days of the years before. -/
lemma number_eq :
    e.number = 365 * e.yearOfEra + e.yearOfEra / 4 - e.yearOfEra / 100 + e.day := by
  have := e.century_range
  have := e.group_range
  have := e.year_range
  have hgroups : e.yearOfEra / 4 = 25 * e.century + e.group := by unfold yearOfEra; omega
  have hcenturies : e.yearOfEra / 100 = e.century := by unfold yearOfEra; omega
  rw [hgroups, hcenturies]
  unfold number yearOfEra
  omega

/-- **The year of a day by division.**  The numbers of leap days so far are taken off first, up to
one that is late, which does not reach the next year. -/
lemma yearOfEra_eq :
    (e.number - e.number / 1460 + e.number / 36524 - e.number / 146096) / 365 = e.yearOfEra := by
  obtain ⟨c, q, r, d, hc, hq, hr, hd, hleap⟩ := e
  simp only [number, yearOfEra]
  obtain ⟨n, hn⟩ : ∃ n, n = 36524 * c + 1461 * q + 365 * r + d := ⟨_, rfl⟩
  rw [← hn]
  have hcenturies : n / 36524 - n / 146096 = c := by
    have hcs : c = 0 ∨ c = 1 ∨ c = 2 ∨ c = 3 := by omega
    rcases hcs with rfl | rfl | rfl | rfl <;> omega
  obtain ⟨k, hk⟩ : ∃ k, k = n / 1460 := ⟨_, rfl⟩
  rw [← hk]
  have hbounds : 1460 * k ≤ n ∧ n < 1460 * k + 1460 := by omega
  -- the quotient counts the groups so far, or one more
  have hgroups : (k = 25 * c + q ∧ 24 * c + q + 365 * r + d < 1460) ∨
      (k = 25 * c + q + 1 ∧ 1460 ≤ 24 * c + q + 365 * r + d) := by
    clear hk hcenturies
    omega
  have hday : 0 ≤ d - (k - 25 * c - q) ∧ d - (k - 25 * c - q) < 365 := by
    clear hk hcenturies hbounds
    omega
  have hnumber : n - k + n / 36524 - n / 146096 =
      365 * (100 * c + 4 * q + r) + (d - (k - 25 * c - q)) := by omega
  rw [hnumber]
  omega

end EraDay

/-- Every day of an era has its parts. -/
lemma exists_eraDay {n : Int} (h : 0 ≤ n ∧ n ≤ 146096) : ∃ e : EraDay, e.number = n := by
  obtain ⟨c, hc⟩ : ∃ c, c = min 3 (n / 36524) := ⟨_, rfl⟩
  obtain ⟨q, hq⟩ : ∃ q, q = (n - 36524 * c) / 1461 := ⟨_, rfl⟩
  obtain ⟨r, hr⟩ : ∃ r, r = min 3 ((n - 36524 * c - 1461 * q) / 365) := ⟨_, rfl⟩
  have hcs : c = 0 ∨ c = 1 ∨ c = 2 ∨ c = 3 := by omega
  have hranges : (0 ≤ q ∧ q ≤ 24) ∧ (0 ≤ r ∧ r ≤ 3) ∧
      0 ≤ n - 36524 * c - 1461 * q - 365 * r ∧ n - 36524 * c - 1461 * q - 365 * r ≤ 365 := by
    rcases hcs with rfl | rfl | rfl | rfl <;> omega
  have hleap : n - 36524 * c - 1461 * q - 365 * r = 365 → r = 3 ∧ (q = 24 → c = 3) := by
    rcases hcs with rfl | rfl | rfl | rfl <;> omega
  exact ⟨⟨c, q, r, _, by omega, hranges.1, hranges.2.1, hranges.2.2, hleap⟩,
    by simp only [EraDay.number]; omega⟩

/-! ## The date of a day

The months of a year that begins in March have a length that one formula gives, with the leap day at
its end.  So month and day are found without a table, and the calendar has to be consulted only to
see that the day is no later than the last one of its month. -/

/-- The month and the day of the month of a day of a year that begins in March. -/
def monthParts (day : Int) : Nat × Nat :=
  let monthFromMarch := (5 * day + 2) / 153
  let month := if monthFromMarch < 10 then monthFromMarch + 3 else monthFromMarch - 9
  (month.toNat, (day - (153 * monthFromMarch + 2) / 5 + 1).toNat)

/-- The date of a day, from the parts of the day. -/
lemma dateParts_eraDay (era : Int) (e : EraDay) :
    dateParts (era * 146097 + e.number - 719468) =
      (if (monthParts e.day).1 ≤ 2 then e.yearOfEra + era * 400 + 1 else e.yearOfEra + era * 400,
        monthParts e.day) := by
  have hnumber : 0 ≤ e.number ∧ e.number ≤ 146096 := by
    have := e.century_range
    have := e.group_range
    have := e.year_range
    have := e.day_range
    have := e.leap
    unfold EraDay.number
    omega
  have hera : (era * 146097 + e.number - 719468 + 719468) / 146097 = era := by omega
  have hrest : (era * 146097 + e.number - 719468 + 719468) % 146097 = e.number := by omega
  have hday : e.number - (365 * e.yearOfEra + e.yearOfEra / 4 - e.yearOfEra / 100) = e.day := by
    have := e.number_eq
    omega
  have hmonth : ∀ m : Int, 0 ≤ m → (m.toNat ≤ 2 ↔ m ≤ 2) := by omega
  have := e.day_range
  simp only [dateParts, hera, hrest, e.yearOfEra_eq, hday, monthParts]
  rw [Prod.mk.injEq]
  refine ⟨?_, rfl⟩
  congr 1
  apply propext
  symm
  apply hmonth
  omega

/-- Every day is a day of some era. -/
lemma exists_era (n : Int) : ∃ (era : Int) (e : EraDay), n = era * 146097 + e.number - 719468 := by
  obtain ⟨e, he⟩ := exists_eraDay (n := (n + 719468) % 146097) (by omega)
  exact ⟨(n + 719468) / 146097, e, by omega⟩

/-- The place of a month in a year that begins in March. -/
def monthFromMarch (month : Nat) : Int := if 2 < month then (month : Int) - 3 else month + 9

/-- The day of a year that begins in March, given by month and day of the month. -/
def dayOfYear (month day : Nat) : Int := (153 * monthFromMarch month + 2) / 5 + day - 1

/-- A month counted from March begins `(153 * m + 2) / 5` days into the year. -/
lemma exists_monthFromMarch {n : Int} (h : 0 ≤ n ∧ n ≤ 365) :
    ∃ m : Int, 0 ≤ m ∧ m ≤ 11 ∧ (153 * m + 2) / 5 ≤ n ∧ 5 * n + 2 < 153 * (m + 1) ∧
      ((monthParts n).1 : Int) = (if m < 10 then m + 3 else m - 9) ∧
      ((monthParts n).2 : Int) = n - (153 * m + 2) / 5 + 1 := by
  obtain ⟨m, hm⟩ : ∃ m, m = (5 * n + 2) / 153 := ⟨_, rfl⟩
  have hlow : (153 * m + 2) / 5 ≤ n := by omega
  refine ⟨m, by omega, by omega, hlow, by omega, ?_, ?_⟩
  · simp only [monthParts, ← hm]
    split_ifs <;> omega
  · simp only [monthParts, ← hm]
    omega

/-- The parts of a day of a year are those of a date, which is that day. -/
lemma monthParts_spec {n : Int} (h : 0 ≤ n ∧ n ≤ 365) :
    1 ≤ (monthParts n).1 ∧ (monthParts n).1 ≤ 12 ∧ 1 ≤ (monthParts n).2 ∧
      dayOfYear (monthParts n).1 (monthParts n).2 = n := by
  obtain ⟨m, hlow, hhigh, hstart, -, hmonth, hday⟩ := exists_monthFromMarch h
  have hback : monthFromMarch (monthParts n).1 = m := by
    unfold monthFromMarch
    split_ifs at * <;> omega
  refine ⟨?_, ?_, by omega, ?_⟩
  · split_ifs at hmonth <;> omega
  · split_ifs at hmonth <;> omega
  · rw [dayOfYear, hback]
    omega

/-- The day of the month is no later than the last one of the month, where only leap years have a
366th day. -/
lemma day_le_daysInMonth {n : Int} (h : 0 ≤ n ∧ n ≤ 365) {year : Int}
    (hleap : n = 365 → isLeapYear year = true) :
    (monthParts n).2 ≤ daysInMonth year (monthParts n).1 := by
  obtain ⟨m, hlow, hhigh, hstart, hend, hmonth, hday⟩ := exists_monthFromMarch h
  generalize (monthParts n).1 = month at *
  generalize (monthParts n).2 = day at *
  have hmonths : (m < 10 ∧ (month : Int) = m + 3) ∨ (10 ≤ m ∧ (month : Int) = m - 9) := by
    split_ifs at hmonth <;> omega
  simp only [daysInMonth, Bool.or_eq_true, decide_eq_true_eq]
  split_ifs with hfebruary hyear hshort
  · omega
  · -- February of a common year ends before the 366th day
    have hcommon : n ≠ 365 := fun hn => hyear (hleap hn)
    omega
  · rcases hshort with ((rfl | rfl) | rfl) | rfl <;> omega
  · omega

/-- **The number of the date of a day is the day.** -/
theorem dayNumberOf_dateParts (n : Int) :
    dayNumberOf (dateParts n).1 (dateParts n).2.1 (dateParts n).2.2 = n := by
  obtain ⟨era, e, rfl⟩ := exists_era n
  have hyear := e.yearOfEra_range
  have hnumber := e.number_eq
  obtain ⟨-, -, -, hday⟩ := monthParts_spec e.day_range
  rw [dateParts_eraDay]
  simp only [dayOfYear, monthFromMarch] at hday
  simp only [dayNumberOf]
  have hshifted : (if (monthParts e.day).1 ≤ 2 then
      (if (monthParts e.day).1 ≤ 2 then e.yearOfEra + era * 400 + 1 else e.yearOfEra + era * 400) - 1
      else if (monthParts e.day).1 ≤ 2 then e.yearOfEra + era * 400 + 1
        else e.yearOfEra + era * 400) = e.yearOfEra + era * 400 := by
    split_ifs <;> omega
  rw [hshifted]
  omega

/-- The year after the last day of a group of four years is a leap year. -/
lemma EraDay.isLeapYear_of_last {e : EraDay} (h : e.day = 365) (era : Int) :
    isLeapYear (e.yearOfEra + era * 400 + 1) = true := by
  obtain ⟨hyear, hcentury⟩ := e.leap h
  have := e.century_range
  have := e.group_range
  have hfour : (e.yearOfEra + era * 400 + 1) % 4 = 0 := by unfold yearOfEra; omega
  by_cases hgroup : e.group = 24
  · have hera : (e.yearOfEra + era * 400 + 1) % 400 = 0 := by
      have := hcentury hgroup
      unfold yearOfEra
      omega
    simp [isLeapYear, hfour, hera]
  · have hcenturies : (e.yearOfEra + era * 400 + 1) % 100 ≠ 0 := by unfold yearOfEra; omega
    simp [isLeapYear, hfour, hcenturies]

/-- **The date of a day is one of the calendar**, within the range of years. -/
theorem isDate_dateParts {n : Int} (hfirst : -262143 ≤ (dateParts n).1)
    (hlast : (dateParts n).1 ≤ 262142) :
    isDate (dateParts n).1 (dateParts n).2.1 (dateParts n).2.2 = true := by
  have hparts : 1 ≤ (dateParts n).2.1 ∧ (dateParts n).2.1 ≤ 12 ∧ 1 ≤ (dateParts n).2.2 ∧
      (dateParts n).2.2 ≤ daysInMonth (dateParts n).1 (dateParts n).2.1 := by
    obtain ⟨era, e, rfl⟩ := exists_era n
    rw [dateParts_eraDay]
    obtain ⟨hone, htwelve, hday, -⟩ := monthParts_spec e.day_range
    refine ⟨hone, htwelve, hday, day_le_daysInMonth e.day_range fun hlast => ?_⟩
    have hfebruary : (monthParts e.day).1 ≤ 2 := by rw [hlast]; decide
    rw [if_pos hfebruary]
    exact e.isLeapYear_of_last hlast era
  simp only [isDate, Bool.and_eq_true, decide_eq_true_eq]
  omega

/-! ## The order of dates

A day number is the sum of the days before its year and of those before it in the year, counted from
March.  Each summand decides before the next, as a year holds all of its days. -/

/-- The days before a year that begins in March, up to a constant. -/
def daysBeforeYear (year : Int) : Int := 365 * year + year / 4 - year / 100 + year / 400

/-- The days of one year that begins in March; the leap day is that of the next February. -/
lemma daysBeforeYear_succ (year : Int) :
    daysBeforeYear (year + 1) =
      daysBeforeYear year + (if isLeapYear (year + 1) then 366 else 365) := by
  simp only [daysBeforeYear, isLeapYear, Bool.and_eq_true, Bool.or_eq_true, beq_iff_eq,
    bne_iff_ne]
  split_ifs <;> omega

/-- A later year begins after all days of an earlier one. -/
lemma daysBeforeYear_lt {a b : Int} (h : a < b) :
    daysBeforeYear a + (if isLeapYear (a + 1) then 366 else 365) ≤ daysBeforeYear b := by
  rw [← daysBeforeYear_succ]
  unfold daysBeforeYear
  omega

/-- The year that begins in March and contains a month. -/
def marchYear (year : Int) (month : Nat) : Int := if month ≤ 2 then year - 1 else year

/-- A day number splits into the days before the year and the day of the year. -/
lemma dayNumberOf_eq (year : Int) (month day : Nat) :
    dayNumberOf year month day =
      daysBeforeYear (marchYear year month) + dayOfYear month day - 719468 := by
  simp only [dayNumberOf, daysBeforeYear, marchYear, dayOfYear, monthFromMarch]
  omega

/-- Whether one date is earlier than another, by their parts. -/
def Earlier (a b : Int × Nat × Nat) : Prop :=
  a.1 < b.1 ∨ a.1 = b.1 ∧ (a.2.1 < b.2.1 ∨ a.2.1 = b.2.1 ∧ a.2.2 < b.2.2)

lemma monthFromMarch_range {year : Int} {month day : Nat} (h : isDate year month day = true) :
    0 ≤ monthFromMarch month ∧ monthFromMarch month ≤ 11 := by
  simp only [isDate, Bool.and_eq_true, decide_eq_true_eq] at h
  unfold monthFromMarch
  split_ifs <;> omega

/-- A day of a month comes before the next month of the year that begins in March, and within that
year. -/
lemma dayOfYear_lt {year : Int} {month day : Nat} (h : isDate year month day = true) :
    (153 * monthFromMarch month + 2) / 5 ≤ dayOfYear month day ∧
      (monthFromMarch month < 11 → dayOfYear month day < (153 * (monthFromMarch month + 1) + 2) / 5) ∧
      dayOfYear month day < (if isLeapYear (marchYear year month + 1) then 366 else 365) := by
  simp only [isDate, Bool.and_eq_true, decide_eq_true_eq] at h
  obtain ⟨⟨⟨⟨⟨-, -⟩, hone⟩, htwelve⟩, hday⟩, hlast⟩ := h
  have hmarch : month ≤ 2 → marchYear year month + 1 = year := fun hle => by
    simp only [marchYear, if_pos hle]; omega
  simp only [daysInMonth, Bool.or_eq_true, decide_eq_true_eq] at hlast
  unfold dayOfYear monthFromMarch
  -- the lengths of the months follow no rule but the quotient by 5, so each month is looked at
  interval_cases month <;> simp at hlast hmarch ⊢ <;> (try rw [hmarch]) <;> split_ifs at * <;> omega

/-- **Later dates have greater numbers.** -/
theorem dayNumberOf_lt {a b : Int × Nat × Nat} (ha : isDate a.1 a.2.1 a.2.2 = true)
    (hb : isDate b.1 b.2.1 b.2.2 = true) (h : Earlier a b) :
    dayNumberOf a.1 a.2.1 a.2.2 < dayNumberOf b.1 b.2.1 b.2.2 := by
  obtain ⟨-, hmonth, hyear⟩ := dayOfYear_lt ha
  obtain ⟨hstart, -, -⟩ := dayOfYear_lt hb
  have hmonths : 0 ≤ monthFromMarch b.2.1 ∧ monthFromMarch b.2.1 ≤ 11 := monthFromMarch_range hb
  rw [dayNumberOf_eq, dayNumberOf_eq]
  -- counted from March, the order of the dates is still that of year, month and day
  have hmarch : marchYear a.1 a.2.1 < marchYear b.1 b.2.1 ∨
      marchYear a.1 a.2.1 = marchYear b.1 b.2.1 ∧ (monthFromMarch a.2.1 < monthFromMarch b.2.1 ∨
        a.2.1 = b.2.1 ∧ a.2.2 < b.2.2) := by
    simp only [isDate, Bool.and_eq_true, decide_eq_true_eq] at ha hb
    unfold Earlier at h
    unfold marchYear monthFromMarch
    split_ifs <;> omega
  rcases hmarch with hlt | ⟨heq, hlt | ⟨hsame, hlt⟩⟩
  · have := daysBeforeYear_lt hlt
    omega
  · have := hmonth (by omega)
    rw [heq]
    omega
  · rw [heq, hsame]
    unfold dayOfYear
    omega

end EntityQuery
