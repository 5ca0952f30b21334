import Mathlib.Tactic

/-! # Throttled buffers

A buffer takes an entry only when a gap has passed since its last one, and beyond a cap it drops its
first. Its entries are then spaced, so a full buffer reaches back by the cap times the gap, and what
it drops is older than any window that is shorter than that.
-/

namespace Throttle
set_option autoImplicit false

variable {α τ : Type*} [AddCommGroup τ] [LinearOrder τ] {time : α → τ} {gap : τ} {xs : List α}
  {x y : α}

/-- Every entry comes at least a gap after all entries before it. -/
def Spaced (time : α → τ) (gap : τ) (xs : List α) : Prop :=
  xs.Pairwise fun x y => time x + gap ≤ time y

/-- A buffer without its first entry when there are more than `cap`. -/
def capped (cap : ℕ) (xs : List α) : List α := if cap < xs.length then xs.tail else xs

theorem Spaced.capped (h : Spaced time gap xs) (cap : ℕ) : Spaced time gap (capped cap xs) := by
  rw [Throttle.capped]
  split
  · exact h.sublist (List.tail_sublist xs)
  · exact h

variable [IsOrderedAddMonoid τ]

theorem Spaced.le_getLast (h : Spaced time gap xs) (hgap : 0 ≤ gap) (hx : x ∈ xs)
    (hlast : xs.getLast? = some y) : time x ≤ time y := by
  induction xs with
  | nil => cases hx
  | cons z zs ih =>
    obtain ⟨hz, hzs⟩ := List.pairwise_cons.mp h
    rcases zs with _ | ⟨w, ws⟩
    · rw [List.getLast?_singleton, Option.some_inj] at hlast
      rw [List.mem_singleton.mp hx, hlast]
    · rw [List.getLast?_cons_cons] at hlast
      rcases List.mem_cons.mp hx with rfl | hx
      · have hy := hz y (List.mem_of_getLast? hlast)
        exact (le_add_of_nonneg_right hgap).trans hy
      · exact ih hzs hx hlast

/-- An entry a gap after the last one keeps the buffer spaced. -/
theorem Spaced.concat (h : Spaced time gap xs) (hgap : 0 ≤ gap)
    (hlast : ∀ y, xs.getLast? = some y → time y + gap ≤ time x) :
    Spaced time gap (xs ++ [x]) := by
  refine List.pairwise_append.mpr ⟨h, List.pairwise_singleton _ _, ?_⟩
  intro a ha b hb
  rw [List.mem_singleton.mp hb]
  obtain ⟨y, hy⟩ := Option.isSome_iff_exists.mp (List.getLast?_isSome.mpr (List.ne_nil_of_mem ha))
  exact (add_le_add_left (h.le_getLast hgap ha hy) gap).trans (hlast y hy)

/-- From the first entry to the last one there is a gap for every entry but one. -/
theorem Spaced.span (h : Spaced time gap (x :: xs)) (hlast : (x :: xs).getLast? = some y) :
    time x + xs.length • gap ≤ time y := by
  induction xs generalizing x with
  | nil =>
    rw [List.getLast?_singleton, Option.some_inj] at hlast
    rw [hlast, List.length_nil, zero_nsmul, add_zero]
  | cons z zs ih =>
    obtain ⟨hx, hrest⟩ := List.pairwise_cons.mp h
    rw [List.getLast?_cons_cons] at hlast
    calc time x + (z :: zs).length • gap = time x + gap + zs.length • gap := by
          rw [List.length_cons, succ_nsmul', add_assoc]
      _ ≤ time z + zs.length • gap := add_le_add_left (hx z List.mem_cons_self) _
      _ ≤ time y := ih hrest hlast

theorem getLast?_capped {cap : ℕ} (hcap : 0 < cap) : (capped cap xs).getLast? = xs.getLast? := by
  rw [capped]
  split
  · rcases xs with _ | ⟨x, _ | ⟨y, ys⟩⟩
    · rfl
    · simp only [List.length_singleton] at *
      omega
    · rw [List.tail_cons, List.getLast?_cons_cons]
  · rfl

/-- **What a full buffer drops is older than the window.** -/
theorem Spaced.dropped {cap : ℕ} {window : τ} {now : α} (h : Spaced time gap xs) (hgap : 0 ≤ gap)
    (hwindow : window < cap • gap) (hnow : xs.getLast? = some now) (hx : x ∈ xs)
    (hdropped : x ∉ Throttle.capped cap xs) : time x + window < time now := by
  rw [Throttle.capped] at hdropped
  split at hdropped
  · rename_i hfull
    rcases xs with _ | ⟨z, zs⟩
    · cases hx
    · rcases List.mem_cons.mp hx with rfl | hin
      · have hlong : cap ≤ zs.length := by
          rw [List.length_cons] at hfull
          omega
        calc time x + window < time x + cap • gap := by gcongr
          _ ≤ time x + zs.length • gap := by gcongr
          _ ≤ time now := h.span hnow
      · exact absurd hin hdropped
  · exact absurd hx hdropped

end Throttle
