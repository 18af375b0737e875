import ContestPlatform.Instant.Calendar
import Mathlib.Order.Monotone.Basic
import Mathlib.Tactic.IntervalCases

/-!
# Dates of days

The date of a day exists, and its day number is the day. The year of a day within 400 years comes
from one division, after the leap days before it have been taken off. That this is the right year is
seen at the first day and the last day of each year, since a later day never has an earlier year.
-/

namespace ContestPlatform.Calendar

/-! ## Years of a cycle of 400 years -/

/-- A day of a cycle without the leap days before it. -/
def withoutLeapDays (day : Nat) : Nat :=
  day - day / 1460 + day / 36524 - day / 146096

/-- The year of a cycle that a day lies in. -/
def yearOfDay (day : Nat) : Nat :=
  withoutLeapDays day / 365

/-- The first day of a year of a cycle. -/
def firstDay (year : Nat) : Nat :=
  365 * year + year / 4 - year / 100

/-- A later day of a cycle never lies in an earlier year. -/
theorem yearOfDay_mono : Monotone yearOfDay := by
  have hstep : ∀ day, withoutLeapDays day ≤ withoutLeapDays (day + 1) := by
    intro day
    simp only [withoutLeapDays]
    omega
  intro a b h
  exact Nat.div_le_div_right (monotone_nat_of_le_succ hstep h)

/-- Each year has its first day and its last day; the last year of the cycle has one day more. -/
theorem yearOfDay_firstDay :
    ∀ year < 400, yearOfDay (firstDay year) = year ∧
      (0 < year → yearOfDay (firstDay year - 1) = year - 1) := by
  decide +kernel

/-- A day lies in its year, which is no more than 366 days long, and 365 days unless a leap day ends
    it. -/
theorem firstDay_le {day : Nat} (h : day < 146097) :
    yearOfDay day < 400 ∧ firstDay (yearOfDay day) ≤ day ∧
      (day < firstDay (yearOfDay day + 1) ∨ (yearOfDay day = 399 ∧ day = 146096)) := by
  have hlast : yearOfDay 146096 = 399 := by decide
  have hyear : yearOfDay day < 400 := by
    have hle := yearOfDay_mono (Nat.le_of_lt_succ h)
    omega
  refine ⟨hyear, ?_, ?_⟩
  · -- Before its first day a year has not begun.
    by_contra hbefore
    have hpos : 0 < yearOfDay day := by
      apply Nat.pos_of_ne_zero
      intro hzero
      simp [hzero, firstDay] at hbefore
    have hle := yearOfDay_mono (show day ≤ firstDay (yearOfDay day) - 1 by omega)
    rw [(yearOfDay_firstDay _ hyear).2 hpos] at hle
    omega
  · by_cases hend : yearOfDay day = 399
    · have hfirst : firstDay (399 + 1) = 146096 := by decide
      rw [hend, hfirst]
      omega
    · -- From the first day of the next year on the year is over.
      left
      by_contra hafter
      have hle := yearOfDay_mono (Nat.not_lt.mp hafter)
      rw [(yearOfDay_firstDay (yearOfDay day + 1) (by omega)).1] at hle
      omega

/-! ## Dates -/

/-- The day of a cycle that a day is. -/
def dayOfCycle (day : Int) : Nat :=
  ((day + 719468) % 146097).toNat

/-- The day of its year that a day is; the year begins with March. -/
def dayOfYear (day : Int) : Nat :=
  dayOfCycle day - firstDay (yearOfDay (dayOfCycle day))

/-- The year that a day lies in, if years begin with March. -/
def marchYear (day : Int) : Int :=
  yearOfDay (dayOfCycle day) + (day + 719468) / 146097 * 400

/-- The month that a day of a year lies in, if years begin with month 0, which is March. -/
def marchMonth (dayOfYear : Nat) : Nat :=
  (5 * dayOfYear + 2) / 153

/-- The days of a year before one of its months. -/
def daysBefore (marchMonth : Nat) : Nat :=
  (153 * marchMonth + 2) / 5

/-- The month by its usual number. -/
def month (marchMonth : Nat) : Nat :=
  if marchMonth < 10 then marchMonth + 3 else marchMonth - 9

theorem dateOf_eq (day : Int) :
    dateOf day =
      (if month (marchMonth (dayOfYear day)) ≤ 2 then marchYear day + 1 else marchYear day,
        month (marchMonth (dayOfYear day)),
        dayOfYear day - daysBefore (marchMonth (dayOfYear day)) + 1) :=
  rfl

theorem dayOfCycle_lt (day : Int) : dayOfCycle day < 146097 := by
  unfold dayOfCycle
  omega

theorem dayOfYear_le (day : Int) : dayOfYear day ≤ 365 := by
  obtain ⟨-, -, hnext⟩ := firstDay_le (dayOfCycle_lt day)
  simp only [dayOfYear, firstDay] at hnext ⊢
  omega

theorem marchMonth_le {dayOfYear : Nat} (h : dayOfYear ≤ 365) : marchMonth dayOfYear ≤ 11 := by
  unfold marchMonth
  omega

theorem daysBefore_le (dayOfYear : Nat) : daysBefore (marchMonth dayOfYear) ≤ dayOfYear := by
  unfold daysBefore marchMonth
  omega

/-- The day number of a date whose year and month are counted from March. -/
theorem dayNumber_march (year : Int) {m : Nat} (hm : m ≤ 11) (day : Nat) :
    dayNumber (if month m ≤ 2 then year + 1 else year) (month m) day =
      year / 400 * 146097 + (year % 400 * 365 + year % 400 / 4 - year % 400 / 100 +
        (daysBefore m + day - 1)) - 719468 := by
  have hyear : (if month m ≤ 2 then (if month m ≤ 2 then year + 1 else year) - 1
      else (if month m ≤ 2 then year + 1 else year)) = year := by
    split_ifs <;> omega
  have hmonth : ((month m : Int) + 9) % 12 = m := by
    unfold month
    split_ifs <;> omega
  have hbefore : (153 * (m : Int) + 2) / 5 = daysBefore m := by
    unfold daysBefore
    omega
  simp only [dayNumber, hyear, hmonth, hbefore]

/-- The day number of the date of a day is the day. -/
theorem dayNumber_dateOf (day : Int) :
    dayNumber (dateOf day).1 (dateOf day).2.1 (dateOf day).2.2 = day := by
  obtain ⟨hyear, hfirst, -⟩ := firstDay_le (dayOfCycle_lt day)
  have hcycle : (dayOfCycle day : Int) = (day + 719468) % 146097 := by
    unfold dayOfCycle
    omega
  have hday : dayOfYear day + firstDay (yearOfDay (dayOfCycle day)) = dayOfCycle day :=
    Nat.sub_add_cancel hfirst
  have hbefore := daysBefore_le (dayOfYear day)
  simp only [dateOf_eq]
  rw [dayNumber_march _ (marchMonth_le (dayOfYear_le day))]
  have hcycles : marchYear day / 400 = (day + 719468) / 146097 := by
    unfold marchYear
    omega
  have hofCycle : marchYear day % 400 = yearOfDay (dayOfCycle day) := by
    unfold marchYear
    omega
  rw [hcycles, hofCycle]
  simp only [firstDay] at hday
  omega

/-- Only before a leap day has a year that begins with March 366 days. -/
theorem isLeap_of_dayOfYear {day : Int} (h : dayOfYear day = 365) :
    isLeap (marchYear day + 1) = true := by
  obtain ⟨hyear, -, hnext⟩ := firstDay_le (dayOfCycle_lt day)
  simp only [dayOfYear, firstDay] at h hnext
  unfold marchYear
  generalize yearOfDay (dayOfCycle day) = year at h hnext hyear ⊢
  have hleap : (year + 1) % 4 = 0 ∧ ((year + 1) % 100 ≠ 0 ∨ (year + 1) % 400 = 0) := by omega
  simp only [isLeap, Bool.and_eq_true, beq_iff_eq, Bool.or_eq_true, bne_iff_ne]
  omega

theorem daysInMonth_le (year : Int) (m : Nat) : daysInMonth year m ≤ 31 := by
  unfold daysInMonth
  split
  · split <;> omega
  all_goals omega

/-- The date of a day exists. -/
theorem isDate_dateOf (day : Int) :
    isDate (dateOf day).1 (dateOf day).2.1 (dateOf day).2.2 = true := by
  have hle := dayOfYear_le day
  have hleap : dayOfYear day = 365 → isLeap (marchYear day + 1) = true := isLeap_of_dayOfYear
  rw [dateOf_eq]
  generalize dayOfYear day = ofYear at hle hleap ⊢
  have hlast := marchMonth_le hle
  have hmonth : marchMonth ofYear = (5 * ofYear + 2) / 153 := rfl
  generalize marchMonth ofYear = m at hlast hmonth ⊢
  by_cases hfebruary : m = 11
  · -- February comes last, and its length depends on the year.
    subst hfebruary
    by_cases hend : ofYear = 365
    · simp [isDate, daysInMonth, month, daysBefore, hleap hend, hend]
    · have hday : ofYear - 337 + 1 ≤ if isLeap (marchYear day + 1) then 29 else 28 := by
        split <;> omega
      simpa [isDate, daysInMonth, month, daysBefore] using hday
  · have hothers : m < 11 := by omega
    interval_cases m <;> simp [isDate, daysInMonth, month, daysBefore] <;> omega

/-! ## Years one after another -/

/-- A date that exists comes before the first day of the next year. -/
theorem dayNumber_lt_newYear {year : Int} {month day : Nat} (h : isDate year month day = true) :
    dayNumber year month day < dayNumber (year + 1) 1 1 := by
  have hlast := daysInMonth_le year month
  simp only [isDate, Bool.and_eq_true, decide_eq_true_eq] at h
  obtain ⟨⟨⟨hfirst, hmonth⟩, -⟩, hday⟩ := h
  simp only [dayNumber]
  interval_cases month <;> simp <;> omega

theorem newYear_mono {year year' : Int} (h : year ≤ year') :
    dayNumber year 1 1 ≤ dayNumber year' 1 1 := by
  simp only [dayNumber, Nat.one_le_ofNat, if_true]
  omega

end ContestPlatform.Calendar
