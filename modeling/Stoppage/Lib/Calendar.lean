import Mathlib.Tactic

/-! # The Gregorian calendar

Days are counted from the first of January 1970, a Thursday, and times in milliseconds from its
start. Years and months of a day are found from it and lead back to it. A week of a year starts on a
Monday; the first one is the week with the fourth of January.
-/

namespace Calendar
set_option autoImplicit false

/-! ## Years -/

def dayFromYear (y : ℤ) : ℤ :=
  365 * (y - 1970) + (y - 1969) / 4 - (y - 1901) / 100 + (y - 1601) / 400

def InLeapYear (y : ℤ) : Prop := y % 4 = 0 ∧ (y % 100 ≠ 0 ∨ y % 400 = 0)

instance (y : ℤ) : Decidable (InLeapYear y) := inferInstanceAs (Decidable (_ ∧ _))

theorem dayFromYear_succ (y : ℤ) :
    dayFromYear (y + 1) = dayFromYear y + if InLeapYear y then 366 else 365 := by
  rw [dayFromYear, dayFromYear]
  split_ifs with hleap
  · rw [InLeapYear] at hleap
    omega
  · rw [InLeapYear] at hleap
    omega

theorem dayFromYear_mono {y z : ℤ} (h : y ≤ z) : dayFromYear y ≤ dayFromYear z := by
  rw [dayFromYear, dayFromYear]
  omega

/-- The year by the mean length of 146097 / 400 days. -/
def yearNear (d : ℤ) : ℤ := 1970 + d * 400 / 146097

/-- The last year that has begun. -/
def yearFromDay (d : ℤ) : ℤ :=
  let y := yearNear d
  if dayFromYear (y + 1) ≤ d then y + 1 else if d < dayFromYear y then y - 1 else y

theorem yearNear_spec (d : ℤ) :
    dayFromYear (yearNear d - 1) ≤ d ∧ d < dayFromYear (yearNear d + 1 + 1) := by
  rw [dayFromYear, dayFromYear, yearNear]
  constructor <;> omega

theorem yearFromDay_spec (d : ℤ) :
    dayFromYear (yearFromDay d) ≤ d ∧ d < dayFromYear (yearFromDay d + 1) := by
  obtain ⟨hle, hlt⟩ := yearNear_spec d
  dsimp only [yearFromDay]
  split_ifs with hnext hbefore
  · exact ⟨hnext, hlt⟩
  · rw [sub_add_cancel]
    exact ⟨hle, hbefore⟩
  · exact ⟨not_lt.mp hbefore, not_le.mp hnext⟩

theorem le_yearFromDay_iff {y d : ℤ} : y ≤ yearFromDay d ↔ dayFromYear y ≤ d := by
  obtain ⟨hle, hlt⟩ := yearFromDay_spec d
  constructor
  · exact fun h => (dayFromYear_mono h).trans hle
  · intro h
    by_contra hnot
    have hmono := dayFromYear_mono (Int.add_one_le_iff.mpr (not_le.mp hnot))
    omega

theorem yearFromDay_lt_iff {y d : ℤ} : yearFromDay d < y ↔ d < dayFromYear y := by
  rw [← not_le, le_yearFromDay_iff, not_le]

/-! ## Months -/

/-- The days of a year before a month, January being 0. -/
def daysBeforeMonth (y : ℤ) (m : ℕ) : ℤ :=
  [0, 31, 59, 90, 120, 151, 181, 212, 243, 273, 304, 334].getD m 0 +
    if InLeapYear y ∧ 2 ≤ m then 1 else 0

def dayWithinYear (d : ℤ) : ℤ := d - dayFromYear (yearFromDay d)

/-- The last month that has begun. -/
def monthFromDay (d : ℤ) : ℕ :=
  (List.range 11).countP fun m => daysBeforeMonth (yearFromDay d) (m + 1) ≤ dayWithinYear d

def dateFromDay (d : ℤ) : ℤ :=
  dayWithinYear d - daysBeforeMonth (yearFromDay d) (monthFromDay d) + 1

/-- The day of a year, a month from 0 to 11 and any date. -/
def makeDay (y : ℤ) (m : ℕ) (date : ℤ) : ℤ :=
  dayFromYear y + daysBeforeMonth y m + date - 1

theorem makeDay_fields (d k : ℤ) :
    makeDay (yearFromDay d) (monthFromDay d) (dateFromDay d + k) = d + k := by
  rw [makeDay, dateFromDay, dayWithinYear]
  ring

theorem makeDay_newYear (y : ℤ) : makeDay y 0 1 = dayFromYear y := by
  have hzero : daysBeforeMonth y 0 = 0 := by
    rw [daysBeforeMonth, if_neg fun h => absurd h.2 (by decide)]
    rfl
  rw [makeDay, hzero]
  ring

/-! ## Weeks -/

/-- The day of the week, Sunday being 0. -/
def weekDay (d : ℤ) : ℤ := (d + 4) % 7

def monday (d : ℤ) : ℤ := d - (d + 3) % 7

/-- The Monday of the week with the fourth of January. -/
def firstMonday (y : ℤ) : ℤ := monday (dayFromYear y + 3)

/-- The day is in this week of this year, by ISO 8601. -/
def IsIsoWeek (d year week : ℤ) : Prop :=
  1 ≤ week ∧ firstMonday year + 7 * (week - 1) ≤ d ∧ d < firstMonday year + 7 * week ∧
    d < firstMonday (year + 1)

theorem firstMonday_mono {y z : ℤ} (h : y ≤ z) : firstMonday y ≤ firstMonday z := by
  rcases h.eq_or_lt with rfl | hlt
  · rfl
  · have hlong := dayFromYear_succ y
    have hmono := dayFromYear_mono (Int.add_one_le_iff.mpr hlt)
    rw [firstMonday, firstMonday, monday, monday]
    split_ifs at hlong <;> omega

/-- **A day is in one week only.** -/
theorem isIsoWeek_unique {d y y' w w' : ℤ} (h : IsIsoWeek d y w) (h' : IsIsoWeek d y' w') :
    y = y' ∧ w = w' := by
  obtain ⟨hone, hfrom, hto, hend⟩ := h
  obtain ⟨hone', hfrom', hto', hend'⟩ := h'
  have hyear : y = y' := by
    by_contra hne
    rcases lt_or_gt_of_ne hne with hlt | hlt
    · have hmono := firstMonday_mono (Int.add_one_le_iff.mpr hlt)
      omega
    · have hmono := firstMonday_mono (Int.add_one_le_iff.mpr hlt)
      omega
  subst hyear
  exact ⟨rfl, by omega⟩

/-- **The week of a day** is told by the Thursday in it. -/
theorem isIsoWeek_thursday (d : ℤ) :
    IsIsoWeek d (yearFromDay (monday d + 3)) (dayWithinYear (monday d + 3) / 7 + 1) := by
  obtain ⟨hle, hlt⟩ := yearFromDay_spec (monday d + 3)
  rw [IsIsoWeek, dayWithinYear, firstMonday, firstMonday, monday, monday, monday]
  rw [monday] at hle hlt
  omega

/-! ## Times -/

def msPerDay : ℤ := 86400000

def day (t : ℤ) : ℤ := t / msPerDay

def timeWithinDay (t : ℤ) : ℤ := t % msPerDay

def makeDate (day time : ℤ) : ℤ := day * msPerDay + time

theorem makeDate_day (t : ℤ) : makeDate (day t) (timeWithinDay t) = t := by
  rw [makeDate, day, timeWithinDay, mul_comm]
  exact Int.mul_ediv_add_emod t msPerDay

theorem day_makeDate {d time : ℤ} (h : 0 ≤ time ∧ time < msPerDay) : day (makeDate d time) = d := by
  rw [day, makeDate, msPerDay]
  rw [msPerDay] at h
  omega

theorem day_mono {s t : ℤ} (h : s ≤ t) : day s ≤ day t :=
  Int.ediv_le_ediv (by decide) h

/-! ## Dates

The methods of a `Date`, which is its time. -/

def getUTCFullYear (t : ℤ) : ℤ := yearFromDay (day t)

def getUTCMonth (t : ℤ) : ℕ := monthFromDay (day t)

def getUTCDate (t : ℤ) : ℤ := dateFromDay (day t)

def getUTCDay (t : ℤ) : ℤ := weekDay (day t)

/-- Years of two digits are of the last century. -/
def fullYear (y : ℤ) : ℤ := if 0 ≤ y ∧ y ≤ 99 then 1900 + y else y

/-- `Date.UTC(y, m, date)` -/
def dateUTC (y : ℤ) (m : ℕ) (date : ℤ) : ℤ := makeDate (makeDay (fullYear y) m date) 0

def setUTCDate (t date : ℤ) : ℤ :=
  makeDate (makeDay (getUTCFullYear t) (getUTCMonth t) date) (timeWithinDay t)

def setUTCHours (t h min s ms : ℤ) : ℤ :=
  makeDate (day t) (h * 3600000 + min * 60000 + s * 1000 + ms)

/-- A time whose year has more than two digits. -/
def Modern (t : ℤ) : Prop := 100 ≤ getUTCFullYear t

theorem fullYear_of_le {y : ℤ} (h : 100 ≤ y) : fullYear y = y := by
  rw [fullYear, if_neg]
  omega

theorem setUTCDate_add (t k : ℤ) : setUTCDate t (getUTCDate t + k) = t + k * msPerDay := by
  rw [setUTCDate, getUTCFullYear, getUTCMonth, getUTCDate, makeDay_fields, makeDate, add_mul,
    add_right_comm, ← makeDate, makeDate_day]

theorem dateUTC_fields {t : ℤ} (h : Modern t) :
    dateUTC (getUTCFullYear t) (getUTCMonth t) (getUTCDate t) = makeDate (day t) 0 := by
  have hfields := makeDay_fields (day t) 0
  rw [add_zero, add_zero] at hfields
  rw [dateUTC, fullYear_of_le h, getUTCFullYear, getUTCMonth, getUTCDate, hfields]

theorem dateUTC_newYear {y : ℤ} (h : 100 ≤ y) : dateUTC y 0 1 = makeDate (dayFromYear y) 0 := by
  rw [dateUTC, fullYear_of_le h, makeDay_newYear]

theorem le_getUTCFullYear_iff {y t : ℤ} : y ≤ getUTCFullYear t ↔ dayFromYear y ≤ day t :=
  le_yearFromDay_iff

end Calendar
