/-
  LiteratureReview.Proofs.Time.Calendar
  ─────────────────────────────────────
  Days and dates count the same.

  A day of a 400-year cycle is written by centuries, groups of four years,
  years and days of the year (`cycle_split`); the divisions of the calendar
  find these parts again, whatever the day.  So a count of days gives a
  date of the calendar (`isValid_ofDays`) that has the same count
  (`toDays_ofDays`), and the clock that is read off an instant is the
  instant (`toInstant_toDateTime`).  The count is that of the Gregorian
  calendar, day after day (`toDays_next`).
-/
import LiteratureReview.Time.Calendar

namespace LiteratureReview.Time

/-! ## §1. Parts of a cycle. -/

/-- The parts of a day of a cycle: centuries, groups of four years, years,
and days from the first of March. -/
structure CycleParts (d g q p s : Int) : Prop where
  sum : d = 36524 * g + 1461 * q + 365 * p + s
  centuries : 0 ≤ g ∧ g ≤ 3
  groups : 0 ≤ q ∧ q ≤ 24
  years : 0 ≤ p ∧ p ≤ 3
  days : 0 ≤ s ∧ s ≤ 365
  /-- Only a year that ends with a leap day has a day more. -/
  leap : s = 365 → p = 3 ∧ (q < 24 ∨ g = 3)

theorem cycle_split {d : Int} (low : 0 ≤ d) (high : d ≤ 146096) :
    ∃ g q p s, CycleParts d g q p s := by
  -- the last day of a cycle and of a group belongs to what is before it
  obtain ⟨g, r, sum, hg, hr⟩ : ∃ g r : Int, d = 36524 * g + r ∧ (0 ≤ g ∧ g ≤ 3) ∧
      (0 ≤ r ∧ (r < 36524 ∨ r = 36524 ∧ g = 3)) := by
    by_cases last : d = 146096
    · exact ⟨3, 36524, by omega, by omega, by omega⟩
    · exact ⟨d / 36524, d % 36524, by omega, by omega, by omega⟩
  obtain ⟨q, t, sum', hq, ht⟩ : ∃ q t : Int, r = 1461 * q + t ∧ (0 ≤ q ∧ q ≤ 24) ∧
      (0 ≤ t ∧ t ≤ 1460) :=
    ⟨r / 1461, r % 1461, by omega, by omega, by omega⟩
  obtain ⟨p, s, sum'', hp, hs, leap⟩ : ∃ p s : Int, t = 365 * p + s ∧ (0 ≤ p ∧ p ≤ 3) ∧
      (0 ≤ s ∧ s ≤ 365) ∧ (s = 365 → p = 3) := by
    by_cases last : t = 1460
    · exact ⟨3, 365, by omega, by omega, by omega, by omega⟩
    · exact ⟨t / 365, t % 365, by omega, by omega, by omega, by omega⟩
  exact ⟨g, q, p, s, by omega, hg, hq, hp, hs, fun h => ⟨leap h, by have := leap h; omega⟩⟩

namespace CycleParts

variable {d g q p s : Int}

/-- The year of the cycle. -/
theorem year_eq (h : CycleParts d g q p s) :
    (d - d / 1460 + d / 36524 - d / 146096) / 365 = 100 * g + 4 * q + p := by
  obtain ⟨sum, hg, hq, hp, hs, leap⟩ := h
  have fours : d / 1460 = 25 * g + q ∨ d / 1460 = 25 * g + q + 1 := by omega
  have hundreds : d / 36524 - d / 146096 = g := by
    -- a century is full only with the last day of the cycle
    have short : s = 365 → p = 3 := fun h => (leap h).1
    have within : 1461 * q + 365 * p + s < 36524 ∨ g = 3 := by
      by_cases last : s = 365
      · have := (leap last).2
        omega
      · omega
    by_cases last : d < 146096
    · have none : d / 146096 = 0 := by omega
      have some : d / 36524 = g := by omega
      omega
    · have one : d / 146096 = 1 := by omega
      have four : d / 36524 = 4 := by omega
      omega
  omega

/-- The day of the year. -/
theorem dayOfYear_eq (h : CycleParts d g q p s) :
    d - (365 * (100 * g + 4 * q + p) + (100 * g + 4 * q + p) / 4 - (100 * g + 4 * q + p) / 100) =
      s := by
  obtain ⟨sum, hg, hq, hp, hs, leap⟩ := h
  have fours : (100 * g + 4 * q + p) / 4 = 25 * g + q := by omega
  have hundreds : (100 * g + 4 * q + p) / 100 = g := by omega
  omega

end CycleParts

/-! ## §2. Months. -/

/-- The months from March on, and the days in them, make up the year. -/
theorem month_split {s : Int} (low : 0 ≤ s) (high : s ≤ 365) :
    let m := (5 * s + 2) / 153
    let day := s - (153 * m + 2) / 5 + 1
    0 ≤ m ∧ m ≤ 11 ∧ 1 ≤ day ∧ day ≤ 31 ∧
      ((m = 1 ∨ m = 3 ∨ m = 6 ∨ m = 8) → day ≤ 30) ∧
      (m = 11 → day ≤ 29 ∧ (day = 29 → s = 365)) := by
  intro m day
  have range : 0 ≤ m ∧ m ≤ 11 := by omega
  refine ⟨range.1, range.2, by omega, by omega, by omega, by omega⟩

namespace Date

/-! ## §3. Days. -/

/-- The date of some days, out of the parts of the cycle. -/
theorem ofDays_eq {days c g q p s : Int} (h : CycleParts (days + 719468 - c * 146097) g q p s)
    (cycle : (days + 719468).fdiv 146097 = c) :
    ofDays days =
      ⟨100 * g + 4 * q + p + c * 400 + (if (5 * s + 2) / 153 < 10 then 0 else 1),
        (if (5 * s + 2) / 153 < 10 then (5 * s + 2) / 153 + 3 else (5 * s + 2) / 153 - 9).toNat,
        (s - (153 * ((5 * s + 2) / 153) + 2) / 5 + 1).toNat⟩ := by
  have months := month_split h.days.1 h.days.2
  unfold ofDays
  simp only [cycle, h.year_eq, h.dayOfYear_eq]
  congr 2
  split <;> split <;> omega

theorem exists_parts (days : Int) :
    ∃ c g q p s, (days + 719468).fdiv 146097 = c ∧
      CycleParts (days + 719468 - c * 146097) g q p s := by
  obtain ⟨low, high⟩ : 0 ≤ days + 719468 - (days + 719468).fdiv 146097 * 146097 ∧
      days + 719468 - (days + 719468).fdiv 146097 * 146097 ≤ 146096 := by
    rw [Int.fdiv_eq_ediv_of_nonneg _ (by decide)]
    omega
  obtain ⟨g, q, p, s, h⟩ := cycle_split low high
  exact ⟨_, g, q, p, s, rfl, h⟩

/-- **The date of a count of days has that count.** -/
theorem toDays_ofDays (days : Int) : (ofDays days).toDays = days := by
  obtain ⟨c, g, q, p, s, cycle, h⟩ := exists_parts days
  have months := month_split h.days.1 h.days.2
  rw [ofDays_eq h cycle]
  obtain ⟨sum, hg, hq, hp, hs, leap⟩ := h
  simp only at months
  generalize hm : (5 * s + 2) / 153 = m at months ⊢
  have year : (if (if m < 10 then m + 3 else m - 9).toNat ≤ 2 then
        100 * g + 4 * q + p + c * 400 + (if m < 10 then 0 else 1) - 1
      else 100 * g + 4 * q + p + c * 400 + (if m < 10 then 0 else 1)) =
      100 * g + 4 * q + p + c * 400 := by
    split <;> split at * <;> omega
  have whole : (100 * g + 4 * q + p + c * 400).fdiv 400 = c := by
    rw [Int.fdiv_eq_ediv_of_nonneg _ (by decide)]
    omega
  have month : (((if m < 10 then m + 3 else m - 9).toNat : Int) + 9) % 12 = m := by
    split <;> omega
  have day : ((s - (153 * m + 2) / 5 + 1).toNat : Int) = s - (153 * m + 2) / 5 + 1 :=
    Int.toNat_of_nonneg (by omega)
  simp only [toDays, year, whole, month, day]
  have fours : (100 * g + 4 * q + p + c * 400 - c * 400) / 4 = 25 * g + q := by omega
  have hundreds : (100 * g + 4 * q + p + c * 400 - c * 400) / 100 = g := by omega
  rw [fours, hundreds]
  omega

/-- The date of a count of days stands in the calendar. -/
theorem ofDays_day_le (days : Int) :
    1 ≤ (ofDays days).month ∧ (ofDays days).month ≤ 12 ∧ 1 ≤ (ofDays days).day ∧
      (ofDays days).day ≤ daysInMonth (ofDays days).year (ofDays days).month := by
  obtain ⟨c, g, q, p, s, cycle, h⟩ := exists_parts days
  have months := month_split h.days.1 h.days.2
  rw [ofDays_eq h cycle]
  obtain ⟨sum, hg, hq, hp, hs, leap⟩ := h
  simp only at months ⊢
  generalize hm : (5 * s + 2) / 153 = m at months ⊢
  obtain ⟨low, high, first, last, short, february⟩ := months
  -- years of the count begin in March, so January and February belong to the next one
  by_cases early : m < 10
  · simp only [early, if_true]
    refine ⟨by omega, by omega, by omega, ?_⟩
    unfold daysInMonth
    rw [if_neg (by omega)]
    split <;> omega
  · simp only [early, if_false]
    refine ⟨by omega, by omega, by omega, ?_⟩
    unfold daysInMonth
    by_cases january : m = 10
    · rw [if_neg (by omega), if_neg (by omega)]
      omega
    · rw [if_pos (by omega)]
      obtain ⟨short, only⟩ := february (by omega)
      split
      · omega
      next common =>
        -- only a leap year has a twenty-ninth of February
        refine Nat.not_lt.1 fun long => ?_
        have closing := leap (only (by omega))
        refine common ?_
        simp only [isLeapYear, Bool.and_eq_true, Bool.or_eq_true, beq_iff_eq, bne_iff_ne]
        omega

/-- The years of four digits, by their days. -/
theorem ofDays_year {days : Int} (low : -719528 ≤ days) (high : days ≤ 2932896) :
    0 ≤ (ofDays days).year ∧ (ofDays days).year ≤ 9999 := by
  obtain ⟨c, g, q, p, s, cycle, h⟩ := exists_parts days
  rw [ofDays_eq h cycle]
  obtain ⟨sum, hg, hq, hp, hs, leap⟩ := h
  have late : s ≥ 306 → ¬(5 * s + 2) / 153 < 10 := by omega
  have early : s ≤ 305 → (5 * s + 2) / 153 < 10 := by omega
  have cycles : -1 ≤ c ∧ c ≤ 24 := by omega
  simp only
  by_cases last : s ≥ 306
  · rw [if_neg (late last)]
    -- the last cycle ends before the year 10000 does
    have notLast : c = 24 → ¬(g = 3 ∧ q = 24 ∧ p = 3) := by omega
    omega
  · rw [if_pos (early (by omega))]
    -- the cycle before the first has only its last days in the year 0
    have first : c ≠ -1 := by
      intro before
      have centuries : g = 3 := by omega
      have groups : q = 24 := by omega
      omega
    omega

end Date

/-! ## §4. One day after the other. -/

theorem isLeapYear_iff (year : Int) :
    isLeapYear year = true ↔ year % 4 = 0 ∧ (year % 100 ≠ 0 ∨ year % 400 = 0) := by
  simp [isLeapYear]

namespace Date

/-- The day after: the next of the month, or else the first of the next month. -/
def next (d : Date) : Date :=
  if d.day < daysInMonth d.year d.month then ⟨d.year, d.month, d.day + 1⟩
  else if d.month < 12 then ⟨d.year, d.month + 1, 1⟩
  else ⟨d.year + 1, 1, 1⟩

/-- The days of a month are counted from its first. -/
theorem toDays_eq (d : Date) : d.toDays = toDays ⟨d.year, d.month, 1⟩ + d.day - 1 := by
  simp only [toDays]
  omega

/-- From the first of a month to that of the next it is as many days as the month has. -/
theorem toDays_month (year : Int) {month : Nat} (first : 1 ≤ month) (last : month < 12) :
    toDays ⟨year, month + 1, 1⟩ = toDays ⟨year, month, 1⟩ + daysInMonth year month := by
  have cycle : year.fdiv 400 = year / 400 := Int.fdiv_eq_ediv_of_nonneg _ (by decide)
  have before : (year - 1).fdiv 400 = (year - 1) / 400 :=
    Int.fdiv_eq_ediv_of_nonneg _ (by decide)
  have months : month = 1 ∨ month = 2 ∨ month = 3 ∨ month = 4 ∨ month = 5 ∨ month = 6 ∨
      month = 7 ∨ month = 8 ∨ month = 9 ∨ month = 10 ∨ month = 11 := by omega
  -- in February the rule of leap years decides, and the year of the count ends
  by_cases leap : isLeapYear year = true
  · have rule := (isLeapYear_iff year).1 leap
    rcases months with rfl | rfl | rfl | rfl | rfl | rfl | rfl | rfl | rfl | rfl | rfl <;>
      simp [toDays, daysInMonth, leap, cycle, before] <;> omega
  · have rule := mt (isLeapYear_iff year).2 leap
    rcases months with rfl | rfl | rfl | rfl | rfl | rfl | rfl | rfl | rfl | rfl | rfl <;>
      simp [toDays, daysInMonth, leap, cycle, before] <;> omega

theorem toDays_newYear (year : Int) :
    toDays ⟨year + 1, 1, 1⟩ = toDays ⟨year, 12, 1⟩ + daysInMonth year 12 := by
  have cycle : year.fdiv 400 = year / 400 := Int.fdiv_eq_ediv_of_nonneg _ (by decide)
  simp [toDays, daysInMonth, cycle]
  omega

/-- **The count goes up by one from each day of the Gregorian calendar to the next.** -/
theorem toDays_next {d : Date} (month : 1 ≤ d.month ∧ d.month ≤ 12)
    (day : d.day ≤ daysInMonth d.year d.month) : d.next.toDays = d.toDays + 1 := by
  rw [toDays_eq d, next]
  by_cases inside : d.day < daysInMonth d.year d.month
  · rw [if_pos inside, toDays_eq]
    simp only
    omega
  · have ends : d.day = daysInMonth d.year d.month := Nat.le_antisymm day (Nat.not_lt.1 inside)
    rw [if_neg inside, ends]
    by_cases early : d.month < 12
    · rw [if_pos early, toDays_month d.year month.1 early]
      omega
    · have december : d.month = 12 := by omega
      rw [if_neg early, december, toDays_newYear]
      omega

example : toDays ⟨1970, 1, 1⟩ = 0 := rfl

end Date

/-! ## §5. Instants. -/

/-- An instant in a year of four digits, and outside of leap seconds. -/
structure Instant.IsClock (i : Instant) : Prop where
  from_year_0 : -62167219200 ≤ i.seconds
  to_year_9999 : i.seconds < 253402300800
  nanos : i.nanos < 1000000000

namespace Instant

variable {i : Instant}

/-- The day of an instant. -/
def day (i : Instant) : Int := i.seconds.fdiv 86400

theorem day_eq (i : Instant) : i.day = i.seconds / 86400 :=
  Int.fdiv_eq_ediv_of_nonneg _ (by decide)

theorem toDateTime_eq (whole : i.nanos < 1000000000) :
    i.toDateTime =
      { date := Date.ofDays i.day
        hour := (i.seconds - i.day * 86400).toNat / 3600
        minute := (i.seconds - i.day * 86400).toNat / 60 % 60
        second := (i.seconds - i.day * 86400).toNat % 60
        nanos := i.nanos } := by
  have notLeap : ¬1000000000 ≤ i.nanos := Nat.not_le.2 whole
  simp [toDateTime, notLeap, day]

/-- **The clock that is read off an instant shows the instant.** -/
theorem toInstant_toDateTime (whole : i.nanos < 1000000000) : i.toDateTime.toInstant 0 = i := by
  have minutes : (i.seconds - i.day * 86400).toNat % 60 < 60 := Nat.mod_lt _ (by decide)
  rw [toDateTime_eq whole, DateTime.toInstant]
  simp only [Date.toDays_ofDays, if_neg (Nat.ne_of_lt minutes)]
  have count := i.day_eq
  obtain ⟨seconds, nanos⟩ := i
  simp only at count ⊢
  congr 1
  omega

end Instant

end LiteratureReview.Time
