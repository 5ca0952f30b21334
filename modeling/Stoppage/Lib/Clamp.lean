import Mathlib.Tactic

/-! # Numbers clamped to the unit interval

Clamping is monotone and commutes with the reflection of the interval, and two numbers stay apart
exactly when they are not clamped to the same end.
-/

namespace Clamp
set_option autoImplicit false

section Order
variable {α : Type} [Zero α] [One α] [LinearOrder α] {x y : α}

def clamp (x : α) : α := max 0 (min 1 x)

theorem clamp_nonneg : 0 ≤ clamp x := le_max_left _ _

theorem clamp_mono (h : x ≤ y) : clamp x ≤ clamp y := max_le_max_left 0 (min_le_min_left 1 h)

theorem clamp_eq_max (h : x ≤ 1) : clamp x = max 0 x := by
  rw [clamp, min_eq_right h]

theorem clamp_of_mem (hlow : 0 ≤ x) (hhigh : x ≤ 1) : clamp x = x := by
  rw [clamp_eq_max hhigh, max_eq_right hlow]

theorem clamp_le_iff (hy : 0 ≤ y) : clamp x ≤ y ↔ x ≤ y ∨ 1 ≤ y := by
  rw [clamp, max_le_iff, min_le_iff, and_iff_right hy, or_comm]

theorem le_clamp_iff (hy : y ≤ 1) : y ≤ clamp x ↔ y ≤ x ∨ y ≤ 0 := by
  rw [clamp, le_max_iff, le_min_iff, and_iff_right hy, or_comm]

end Order

section Ring
variable {α : Type} [Ring α] [LinearOrder α] [IsStrictOrderedRing α] {x y : α}

theorem clamp_le_one : clamp x ≤ 1 := max_le zero_le_one (min_le_left _ _)

theorem clamp_eq_min (h : 0 ≤ x) : clamp x = min 1 x := max_eq_right (le_min zero_le_one h)

theorem clamp_lt_clamp_iff : clamp x < clamp y ↔ x < y ∧ x < 1 ∧ 0 < y := by
  have hone : (0 : α) < 1 := zero_lt_one
  simp only [clamp, max_lt_iff, lt_max_iff, min_lt_iff, lt_min_iff, lt_self_iff_false, false_or,
    false_and, hone, true_and]
  constructor
  · rintro ⟨hx, hy, hfar | hxy⟩
    · exact ⟨hx.trans hfar, hx, hy⟩
    · exact ⟨hxy, hx, hy⟩
  · rintro ⟨hxy, hx, hy⟩
    exact ⟨hx, hy, .inr hxy⟩

theorem clamp_one_sub : clamp (1 - x) = 1 - clamp x := by
  rcases le_total x 0 with hneg | hpos
  · have hlow : clamp x = 0 := max_eq_left ((min_le_right _ _).trans hneg)
    have hhigh : 1 ≤ 1 - x := le_sub_self_iff 1 |>.mpr hneg
    rw [hlow, sub_zero, clamp_eq_min (zero_le_one.trans hhigh), min_eq_left hhigh]
  · rcases le_total x 1 with hle | hgt
    · rw [clamp_of_mem hpos hle, clamp_of_mem (sub_nonneg.mpr hle) (sub_le_self 1 hpos)]
    · have hhigh : clamp x = 1 := by
        rw [clamp_eq_min hpos, min_eq_left hgt]
      have hlow : 1 - x ≤ 0 := sub_nonpos.mpr hgt
      rw [hhigh, sub_self, clamp_eq_max (hlow.trans zero_le_one), max_eq_left hlow]

end Ring

end Clamp
