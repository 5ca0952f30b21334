import Stoppage.Lib.Calendar
import Stoppage.Keeper.Week

/-! # The weekly windows of `apps/agent/src/weekKeeper.ts`

A window closes on a Sunday, and its label has the week of that day. The first close after an
instant is a function of the instant alone, so every second is in one window, and since a week has
one Sunday, a label belongs to one close.
-/

namespace Stoppage.Keeper
open Calendar Escrow
set_option autoImplicit false

/-! ## Windows -/

@[ext]
structure IsoWeek where
  year : ℤ
  week : ℤ
deriving DecidableEq

/-- ISO-8601 week number and ISO year for the week containing `d`. -/
def isoWeek (d : ℤ) : IsoWeek :=
  let date := dateUTC (getUTCFullYear d) (getUTCMonth d) (getUTCDate d)
  let dayNum := if getUTCDay date = 0 then 7 else getUTCDay date
  let date := setUTCDate date (getUTCDate date + 4 - dayNum)
  let yearStart := dateUTC (getUTCFullYear date) 0 1
  { year := getUTCFullYear date
    week := ⌈(((date - yearStart : ℤ) : ℚ) / 86400000 + 1) / 7⌉ }

/-- The text of a number, with zeros in front up to two characters. -/
def padStart (z : ℤ) : List Char :=
  List.replicate (2 - (Decimal.ofInt z).length) '0' ++ Decimal.ofInt z

/-- `W${year}-${String(week).padStart(2, "0")}` -/
def weekLabel (w : IsoWeek) : JsString :=
  Utf16.ofChars ('W' :: (Decimal.ofInt w.year ++ '-' :: padStart w.week))

/-- The next Sunday at that hour after a time, as both `weekWindowFor` compute it. -/
def sundayAfter (closeHourUtc now : ℤ) : ℤ :=
  let sunday := dateUTC (getUTCFullYear now) (getUTCMonth now) (getUTCDate now)
  let sunday := setUTCDate sunday (getUTCDate sunday + (7 - getUTCDay sunday) % 7)
  let sunday := setUTCHours sunday closeHourUtc 0 0 0
  if sunday ≤ now then setUTCDate sunday (getUTCDate sunday + 7) else sunday

structure WeekWindow where
  label : JsString
  matchId : JsString
  closeTs : ℤ
deriving DecidableEq

/-- `${PRICE_SYMBOL}:${label}` -/
def windowMatchId (symbol label : JsString) : JsString := symbol ++ colon :: label

def weekWindowFor (symbol : JsString) (closeHourUtc nowSec : ℤ) : WeekWindow :=
  let sunday := sundayAfter closeHourUtc (nowSec * 1000)
  let label := weekLabel (isoWeek sunday)
  { label, matchId := windowMatchId symbol label, closeTs := sunday / 1000 }

/-! ## Closes -/

/-- A Sunday at that hour. -/
def IsClose (hour t : ℤ) : Prop := getUTCDay t = 0 ∧ timeWithinDay t = hour * 3600000

section Closes
variable {hour t : ℤ}

theorem makeDate_add (d time k : ℤ) : makeDate d time + k * msPerDay = makeDate (d + k) time := by
  rw [makeDate, makeDate]
  ring

theorem sundayAfter_eq (ht : Modern t) :
    sundayAfter hour t =
      let sunday := makeDate (day t + (7 - weekDay (day t)) % 7) (hour * 3600000)
      if sunday ≤ t then sunday + 7 * msPerDay else sunday := by
  have hday : day (makeDate (day t) 0) = day t := day_makeDate (by decide)
  have hhours : hour * 3600000 + 0 * 60000 + 0 * 1000 + 0 = hour * 3600000 := by ring
  rw [sundayAfter, dateUTC_fields ht]
  simp only [setUTCDate_add, makeDate_add, getUTCDay, hday, setUTCHours, hhours]
  rw [day_makeDate (by decide)]

/-- **The next close**, within a week. -/
theorem sundayAfter_spec (hhour : 0 ≤ hour ∧ hour < 24) (ht : Modern t) :
    IsClose hour (sundayAfter hour t) ∧ t < sundayAfter hour t ∧
      sundayAfter hour t ≤ t + 7 * msPerDay := by
  rw [sundayAfter_eq ht]
  simp only [IsClose, getUTCDay, weekDay, day, timeWithinDay, makeDate, msPerDay]
  split_ifs <;> omega

/-- Closes are a week apart. -/
theorem isClose_unique {c c' : ℤ} (hc : IsClose hour c) (hc' : IsClose hour c')
    (h : c < c' + 7 * msPerDay) (h' : c' < c + 7 * msPerDay) : c = c' := by
  simp only [IsClose, getUTCDay, weekDay, day, timeWithinDay, msPerDay] at *
  omega

end Closes

/-! ## Weeks -/

theorem ceil_sevenths (k : ℤ) :
    ⌈(((k * msPerDay : ℤ) : ℚ) / 86400000 + 1) / 7⌉ = k / 7 + 1 := by
  have hdays : (((k * msPerDay : ℤ) : ℚ) / 86400000 + 1) / 7 = ((k + 1 : ℤ) : ℚ) / 7 := by
    rw [msPerDay]
    push_cast
    rw [mul_div_assoc, div_self (by norm_num), mul_one]
  have hlow : 7 * (k / 7) < k + 1 := by omega
  have hhigh : k + 1 ≤ 7 * (k / 7 + 1) := by omega
  rw [hdays, Int.ceil_eq_iff, lt_div_iff₀ (by norm_num), div_le_iff₀ (by norm_num)]
  constructor
  · have hcast : ((7 * (k / 7) : ℤ) : ℚ) < ((k + 1 : ℤ) : ℚ) := Int.cast_lt.mpr hlow
    push_cast at hcast ⊢
    linarith
  · have hcast : ((k + 1 : ℤ) : ℚ) ≤ ((7 * (k / 7 + 1) : ℤ) : ℚ) := Int.cast_le.mpr hhigh
    push_cast at hcast ⊢
    linarith

def thursday (t : ℤ) : ℤ := monday (day t) + 3

section Weeks
variable {t : ℤ}

theorem isoWeek_eq (ht : Modern t) (hthursday : 100 ≤ yearFromDay (thursday t)) :
    isoWeek t = ⟨yearFromDay (thursday t), dayWithinYear (thursday t) / 7 + 1⟩ := by
  have hday (d : ℤ) : day (makeDate d 0) = d := day_makeDate (by decide)
  have hmove : day t + (4 - if weekDay (day t) = 0 then 7 else weekDay (day t)) = thursday t := by
    rw [thursday, monday, weekDay]
    split_ifs <;> omega
  have hyears : makeDate (thursday t) 0 - makeDate (dayFromYear (yearFromDay (thursday t))) 0 =
      dayWithinYear (thursday t) * msPerDay := by
    rw [makeDate, makeDate, dayWithinYear]
    ring
  rw [isoWeek, dateUTC_fields ht]
  simp only [add_sub_assoc, setUTCDate_add, makeDate_add, getUTCDay, getUTCFullYear, hday, hmove]
  rw [dateUTC_newYear hthursday, hyears, ceil_sevenths]

/-- **`isoWeek` is the week of ISO 8601.** -/
theorem isIsoWeek_isoWeek (ht : Modern t) (hthursday : 100 ≤ yearFromDay (thursday t)) :
    IsIsoWeek (day t) (isoWeek t).year (isoWeek t).week := by
  rw [isoWeek_eq ht hthursday]
  exact isIsoWeek_thursday (day t)

/-- In the years from 1000 to 9999 and in the days around them, all years have three to five
digits. -/
theorem years_around (hfrom : dayFromYear 1000 ≤ day t) (hto : day t < dayFromYear 10000 + 7) :
    Modern t ∧ 100 ≤ yearFromDay (thursday t) ∧ yearFromDay (thursday t) < 10001 := by
  have h100 : dayFromYear 100 + 7 ≤ dayFromYear 1000 := by decide
  have h10000 : dayFromYear 10000 + 11 ≤ dayFromYear 10001 := by decide
  rw [Modern, le_getUTCFullYear_iff, le_yearFromDay_iff, yearFromDay_lt_iff, thursday, monday]
  omega

end Weeks

/-! ## Labels -/

theorem ofInt_nonneg {z : ℤ} (h : 0 ≤ z) (hz : z.natAbs < 2 ^ 53) :
    Decimal.ofInt z = Nat.toDigits 10 z.natAbs := by
  rw [Decimal.ofInt, if_neg (not_lt.mpr h), Decimal.ofNat, if_pos hz, Decimal.digits]

theorem padStart_inj {y z : ℤ} (hy : 0 ≤ y) (hz : 0 ≤ z) (hy' : y.natAbs < 2 ^ 53)
    (hz' : z.natAbs < 2 ^ 53) (h : padStart y = padStart z) : y = z := by
  have hvalue {x : ℤ} (hx : 0 ≤ x) (hx' : x.natAbs < 2 ^ 53) :
      Nat.ofDigitChars 10 (padStart x) 0 = x.natAbs := by
    rw [padStart, Nat.ofDigitChars_append, Nat.ofDigitChars_replicate_zero, Nat.mul_zero,
      ofInt_nonneg hx hx', Nat.ofDigitChars_ten_toDigits]
  have hsame : y.natAbs = z.natAbs := by rw [← hvalue hy hy', ← hvalue hz hz', h]
  omega

theorem minus_notMem_ofInt {z : ℤ} (h : 0 ≤ z) (hz : z.natAbs < 2 ^ 53) :
    ∀ c ∈ Decimal.ofInt z, c ≠ '-' := by
  rw [Decimal.ofInt, if_neg (not_lt.mpr h)]
  rintro c hc rfl
  exact Decimal.minus_notMem_ofNat hz hc

/-- Numbers that are written with all their digits. -/
structure IsoWeek.Plain (w : IsoWeek) : Prop where
  year : 0 ≤ w.year ∧ w.year < 2 ^ 53
  week : 0 ≤ w.week ∧ w.week < 2 ^ 53

/-- **A label determines year and week.** -/
theorem weekLabel_inj {v w : IsoWeek} (hv : v.Plain) (hw : w.Plain)
    (h : weekLabel v = weekLabel w) : v = w := by
  obtain ⟨hvYear, hvWeek⟩ := hv
  obtain ⟨hwYear, hwWeek⟩ := hw
  have hchars := congrArg Utf16.toChars h
  rw [weekLabel, weekLabel, Utf16.toChars_ofChars, Utf16.toChars_ofChars] at hchars
  obtain ⟨hyear, hrest⟩ := Delimited.append_inj
    (minus_notMem_ofInt hvYear.1 (by omega)) (minus_notMem_ofInt hwYear.1 (by omega))
    (Delimited.outside_cons (not_not.mpr rfl)) (Delimited.outside_cons (not_not.mpr rfl))
    (List.cons.inj hchars).2
  ext
  · exact Decimal.ofInt_injOn (by omega) (by omega) hyear
  · exact padStart_inj hvWeek.1 hwWeek.1 (by omega) (by omega) (List.cons.inj hrest).2

/-! ## Windows of the years from 1000 to 9999 -/

/-- The second is in one of these years. -/
def FourDigits (nowSec : ℤ) : Prop :=
  1000 ≤ getUTCFullYear (nowSec * 1000) ∧ getUTCFullYear (nowSec * 1000) ≤ 9999

def closeAfter (nowSec : ℤ) : ℤ := sundayAfter 23 (nowSec * 1000)

section Seconds
variable {symbol : JsString} {now : ℤ}

theorem FourDigits.bounds (h : FourDigits now) :
    dayFromYear 1000 ≤ day (now * 1000) ∧ day (now * 1000) < dayFromYear 10000 := by
  obtain ⟨hfrom, hto⟩ := h
  exact ⟨le_getUTCFullYear_iff.mp hfrom, yearFromDay_lt_iff.mp (Int.lt_add_one_iff.mpr hto)⟩

theorem FourDigits.modern (h : FourDigits now) : Modern (now * 1000) :=
  le_trans (by norm_num) h.1

theorem closeAfter_spec (h : FourDigits now) : IsClose 23 (closeAfter now) ∧
    now * 1000 < closeAfter now ∧ closeAfter now ≤ now * 1000 + 7 * msPerDay :=
  sundayAfter_spec (by norm_num) h.modern

theorem IsClose.seconds {hour t : ℤ} (h : IsClose hour t) : t / 1000 * 1000 = t := by
  have htime := h.2
  rw [timeWithinDay, msPerDay] at htime
  omega

theorem closeAfter_years (h : FourDigits now) : Modern (closeAfter now) ∧
    100 ≤ yearFromDay (thursday (closeAfter now)) ∧
    yearFromDay (thursday (closeAfter now)) < 10001 := by
  obtain ⟨hfrom, hto⟩ := h.bounds
  obtain ⟨-, hlt, hle⟩ := closeAfter_spec h
  refine years_around (hfrom.trans (day_mono hlt.le)) ?_
  have hday : day (now * 1000 + 7 * msPerDay) = day (now * 1000) + 7 := by
    rw [day, day, msPerDay]
    omega
  have hmono := day_mono hle
  omega

theorem plain_isoWeek (h : FourDigits now) : (isoWeek (closeAfter now)).Plain := by
  obtain ⟨hmodern, hthursday, hlast⟩ := closeAfter_years h
  obtain ⟨hle, hlt⟩ := yearFromDay_spec (thursday (closeAfter now))
  have hlength := dayFromYear_succ (yearFromDay (thursday (closeAfter now)))
  have hyear : 0 ≤ yearFromDay (thursday (closeAfter now)) ∧
      yearFromDay (thursday (closeAfter now)) < 2 ^ 53 := by omega
  have hweek : 0 ≤ dayWithinYear (thursday (closeAfter now)) / 7 + 1 ∧
      dayWithinYear (thursday (closeAfter now)) / 7 + 1 < 2 ^ 53 := by
    rw [dayWithinYear]
    split_ifs at hlength <;> omega
  rw [isoWeek_eq hmodern hthursday]
  exact ⟨hyear, hweek⟩

/-- The close is the only one within a week after the second. -/
theorem eq_closeAfter (h : FourDigits now) {c : ℤ} (hc : IsClose 23 c) (hlt : now * 1000 < c)
    (hle : c ≤ now * 1000 + 7 * msPerDay) : c = closeAfter now := by
  obtain ⟨hclose, hfrom, hto⟩ := closeAfter_spec h
  exact isClose_unique hc hclose (by omega) (by omega)

/-- **Windows of one label are one window.** -/
theorem closeAfter_eq_of_label {a b : ℤ} (ha : FourDigits a) (hb : FourDigits b)
    (h : weekLabel (isoWeek (closeAfter a)) = weekLabel (isoWeek (closeAfter b))) :
    closeAfter a = closeAfter b := by
  have hweek := weekLabel_inj (plain_isoWeek ha) (plain_isoWeek hb) h
  obtain ⟨hmodern, hthursday, -⟩ := closeAfter_years ha
  obtain ⟨hmodern', hthursday', -⟩ := closeAfter_years hb
  obtain ⟨-, hfrom, hto, -⟩ := isIsoWeek_isoWeek hmodern hthursday
  obtain ⟨-, hfrom', hto', -⟩ := isIsoWeek_isoWeek hmodern' hthursday'
  rw [← hweek] at hfrom' hto'
  obtain ⟨hclose, -⟩ := closeAfter_spec ha
  obtain ⟨hclose', -⟩ := closeAfter_spec hb
  have hdays : day (closeAfter a) < day (closeAfter b) + 7 ∧
      day (closeAfter b) < day (closeAfter a) + 7 := ⟨by omega, by omega⟩
  have htime := hclose.2.trans hclose'.2.symm
  rw [day, day, msPerDay] at hdays
  rw [timeWithinDay, timeWithinDay, msPerDay] at htime
  refine isClose_unique hclose hclose' ?_ ?_
  · rw [msPerDay]
    omega
  · rw [msPerDay]
    omega

theorem windowMatchId_inj {label label' : JsString}
    (h : windowMatchId symbol label = windowMatchId symbol label') : label = label' :=
  (List.cons.inj (List.append_cancel_left h)).2

/-- No close lies behind one second and not behind a later one: they are in one window. -/
theorem closeAfter_eq_of_between {a b : ℤ} (ha : FourDigits a) (hb : FourDigits b) (h : a ≤ b)
    (hnone : ∀ ts, a < ts → ts ≤ b → ¬ IsClose 23 (ts * 1000)) : closeAfter a = closeAfter b := by
  obtain ⟨hclose, hlt, hle⟩ := closeAfter_spec ha
  have hseconds := hclose.seconds
  refine eq_closeAfter hb hclose ?_ (by omega)
  by_contra hnot
  refine hnone (closeAfter a / 1000) (by omega) (by omega) ?_
  rwa [hseconds]

end Seconds

end Stoppage.Keeper
