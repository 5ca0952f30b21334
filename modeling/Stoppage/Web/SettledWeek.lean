import Stoppage.Keeper.WeekWindow

/-! # `apps/web/lib/campaign/settledWeek.ts`

The site looks for the market of the week under the label that the keeper has given it. It reads
its clock in milliseconds, the keeper in seconds; a close is a whole second, so both are in the same
window.
-/

namespace Stoppage.Web
open Calendar Escrow
set_option autoImplicit false

/-- `SOL/USD` -/
def WEEK_SYMBOL : JsString := [83, 79, 76, 47, 85, 83, 68]

def WEEK_CLOSE_HOUR_UTC : ℤ := 23

structure WeekWindow where
  label : JsString
  matchId : JsString
  closeMs : ℤ

def isoWeek (d : ℤ) : Keeper.IsoWeek := Keeper.isoWeek d

/-- The active window. -/
def weekWindowFor (nowMs : ℤ) : WeekWindow :=
  let sunday := Keeper.sundayAfter WEEK_CLOSE_HOUR_UTC nowMs
  let label := Keeper.weekLabel (isoWeek sunday)
  { label, matchId := Keeper.windowMatchId WEEK_SYMBOL label, closeMs := sunday }

open Keeper in
/-- A millisecond of a second has the close of the second. -/
theorem sundayAfter_ms {now ms : ℤ} (h : FourDigits now) (hms : ms / 1000 = now) :
    sundayAfter WEEK_CLOSE_HOUR_UTC ms = closeAfter now := by
  have hday : day ms = day (now * 1000) := by
    rw [day, day, msPerDay]
    omega
  have hmodern : Modern ms := by
    rw [Modern, getUTCFullYear, hday]
    exact h.modern
  obtain ⟨hclose, hlt, hle⟩ := sundayAfter_spec (show 0 ≤ WEEK_CLOSE_HOUR_UTC ∧ _ by decide) hmodern
  have hseconds := hclose.seconds
  rw [msPerDay] at hle
  refine eq_closeAfter h hclose (by omega) ?_
  rw [msPerDay]
  omega

/-- **Weekly windows tile time**, for every second of the years from 1000 to 9999. -/
theorem weekly_windows_tile (symbol : JsString) :
    (∀ now, Keeper.FourDigits now →
      Keeper.IsClose 23 ((Keeper.weekWindowFor symbol 23 now).closeTs * 1000) ∧
        now < (Keeper.weekWindowFor symbol 23 now).closeTs ∧
        (Keeper.weekWindowFor symbol 23 now).closeTs ≤ now + 7 * 86400) ∧
    (∀ a b, Keeper.FourDigits a → Keeper.FourDigits b → a ≤ b →
      (∀ ts, a < ts → ts ≤ b → ¬ Keeper.IsClose 23 (ts * 1000)) →
      Keeper.weekWindowFor symbol 23 a = Keeper.weekWindowFor symbol 23 b) ∧
    (∀ d year week, 1000 ≤ getUTCFullYear d → getUTCFullYear d ≤ 9999 →
      (IsIsoWeek (day d) year week ↔ Keeper.isoWeek d = ⟨year, week⟩)) ∧
    (∀ a b, Keeper.FourDigits a → Keeper.FourDigits b →
      Keeper.weekWindowFor symbol 23 a ≠ Keeper.weekWindowFor symbol 23 b →
      (Keeper.weekWindowFor symbol 23 a).label ≠ (Keeper.weekWindowFor symbol 23 b).label ∧
        (Keeper.weekWindowFor symbol 23 a).matchId ≠ (Keeper.weekWindowFor symbol 23 b).matchId) ∧
    ∀ now ms, Keeper.FourDigits now → ms / 1000 = now →
      (weekWindowFor ms).label = (Keeper.weekWindowFor symbol 23 now).label ∧
        (weekWindowFor ms).closeMs = (Keeper.weekWindowFor symbol 23 now).closeTs * 1000 := by
  have hwindow {a b : ℤ} (h : Keeper.closeAfter a = Keeper.closeAfter b) :
      Keeper.weekWindowFor symbol 23 a = Keeper.weekWindowFor symbol 23 b := by
    rw [Keeper.weekWindowFor, Keeper.weekWindowFor, ← Keeper.closeAfter, ← Keeper.closeAfter, h]
  have hseconds {now : ℤ} (h : Keeper.FourDigits now) :
      (Keeper.weekWindowFor symbol 23 now).closeTs * 1000 = Keeper.closeAfter now :=
    (Keeper.closeAfter_spec h).1.seconds
  refine ⟨?_, ?_, ?_, ?_, ?_⟩
  · intro now h
    obtain ⟨hclose, hlt, hle⟩ := Keeper.closeAfter_spec h
    rw [← hseconds h] at hclose hlt hle
    rw [msPerDay] at hle
    exact ⟨hclose, by omega, by omega⟩
  · intro a b ha hb hle hnone
    exact hwindow (Keeper.closeAfter_eq_of_between ha hb hle hnone)
  · intro d year week hfrom hto
    have hbounds := le_getUTCFullYear_iff.mp hfrom
    have hlast : day d < dayFromYear 10000 := yearFromDay_lt_iff.mp (Int.lt_add_one_iff.mpr hto)
    obtain ⟨hmodern, hthursday, -⟩ := Keeper.years_around hbounds (by omega)
    have hweek := Keeper.isIsoWeek_isoWeek hmodern hthursday
    constructor
    · intro h
      obtain ⟨hyear, hnumber⟩ := isIsoWeek_unique hweek h
      exact Keeper.IsoWeek.ext hyear hnumber
    · intro h
      rwa [h] at hweek
  · intro a b ha hb hne
    have hlabel : (Keeper.weekWindowFor symbol 23 a).label ≠
        (Keeper.weekWindowFor symbol 23 b).label :=
      fun h => hne (hwindow (Keeper.closeAfter_eq_of_label ha hb h))
    exact ⟨hlabel, fun h => hlabel (Keeper.windowMatchId_inj h)⟩
  · intro now ms h hms
    have hsame := sundayAfter_ms h hms
    rw [hseconds h, weekWindowFor, hsame]
    exact ⟨rfl, rfl⟩

/-- The last Sunday of the year 2026: half an hour before the close, a second and half a second
later, and the close itself, which is in the next window. -/
theorem weekly_windows_tile_december :
    Keeper.IsClose 23 ((Keeper.weekWindowFor WEEK_SYMBOL 23 1798410600).closeTs * 1000) ∧
      Keeper.weekWindowFor WEEK_SYMBOL 23 1798410600 =
        Keeper.weekWindowFor WEEK_SYMBOL 23 1798410601 ∧
      IsIsoWeek (day 1798410600000) 2026 52 ∧
      (Keeper.weekWindowFor WEEK_SYMBOL 23 1798410600).label ≠
        (Keeper.weekWindowFor WEEK_SYMBOL 23 1798412400).label ∧
      (weekWindowFor 1798410600500).label =
        (Keeper.weekWindowFor WEEK_SYMBOL 23 1798410600).label := by
  have hfirst : Keeper.FourDigits 1798410600 := ⟨by decide +kernel, by decide +kernel⟩
  have hsecond : Keeper.FourDigits 1798410601 := ⟨by decide +kernel, by decide +kernel⟩
  have hclose : Keeper.FourDigits 1798412400 := ⟨by decide +kernel, by decide +kernel⟩
  have hnone : ∀ ts, 1798410600 < ts → ts ≤ 1798410601 → ¬ Keeper.IsClose 23 (ts * 1000) := by
    intro ts hlt hle
    obtain rfl : ts = 1798410601 := by omega
    exact fun h => absurd h.2 (by decide)
  have hnext : Keeper.weekWindowFor WEEK_SYMBOL 23 1798410600 ≠
      Keeper.weekWindowFor WEEK_SYMBOL 23 1798412400 :=
    fun h => absurd (congrArg Keeper.WeekWindow.closeTs h) (by decide +kernel)
  obtain ⟨hcloses, hconstant, hiso, hlabels, hweb⟩ := weekly_windows_tile WEEK_SYMBOL
  exact ⟨(hcloses _ hfirst).1, hconstant _ _ hfirst hsecond (by decide) hnone,
    (hiso 1798410600000 2026 52 (by decide +kernel) (by decide +kernel)).mpr (by decide +kernel),
    (hlabels _ _ hfirst hclose hnext).1, (hweb _ _ hfirst (by decide)).1⟩

end Stoppage.Web
