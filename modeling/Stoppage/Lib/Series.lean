import Mathlib.Tactic
import Mathlib.Data.List.Chain

/-! # Series in time order

A series is a list whose consecutive entries move forward in time. On a window of it, an answer
that no two consecutive entries change is the answer of every entry, and the first entry from the
start of the window on is its earliest.
-/

namespace Series
set_option autoImplicit false

variable {α τ : Type*} [LinearOrder τ] {time : α → τ} {us : List α} {u v : α} {lo hi : τ}

/-- Consecutive entries move forward in time. -/
def Forward (time : α → τ) (us : List α) : Prop := us.IsChain fun u v => time u < time v

def Within (time : α → τ) (lo hi : τ) (u : α) : Prop := lo ≤ time u ∧ time u ≤ hi

/-- No two consecutive entries of the window answer differently. -/
def Steady (time : α → τ) (lo hi : τ) (answer : α → Prop) (us : List α) : Prop :=
  us.IsChain fun u v => Within time lo hi u → Within time lo hi v → (answer u ↔ answer v)

theorem Forward.tail (h : Forward time (u :: us)) : Forward time us := List.IsChain.tail h

theorem Forward.head_lt (h : Forward time (u :: us)) (hv : v ∈ us) : time u < time v := by
  induction us generalizing u with
  | nil => cases hv
  | cons w us ih =>
    obtain ⟨hlt, hrest⟩ := List.isChain_cons_cons.mp h
    rcases List.mem_cons.mp hv with rfl | hv
    · exact hlt
    · exact hlt.trans (ih hrest hv)

/-- The head agrees with every later entry, through the entry that follows it. -/
theorem Steady.head_agree {answer : α → Prop} (hforward : Forward time (u :: us))
    (h : Steady time lo hi answer (u :: us)) (hv : v ∈ us) (huw : Within time lo hi u)
    (hvw : Within time lo hi v) : answer u ↔ answer v := by
  induction us generalizing u with
  | nil => cases hv
  | cons w us ih =>
    obtain ⟨hlt, hforward'⟩ := List.isChain_cons_cons.mp hforward
    obtain ⟨hstep, h'⟩ := List.isChain_cons_cons.mp h
    rcases List.mem_cons.mp hv with rfl | hv
    · exact hstep huw hvw
    · have hww : Within time lo hi w :=
        ⟨huw.1.trans hlt.le, (Forward.head_lt hforward' hv).le.trans hvw.2⟩
      exact (hstep huw hww).trans (ih hforward' h' hv hww)

/-- What no two consecutive entries of the window change is the same on all of it. -/
theorem Steady.agree {answer : α → Prop} (hforward : Forward time us)
    (h : Steady time lo hi answer us) (hu : u ∈ us) (hv : v ∈ us) (huw : Within time lo hi u)
    (hvw : Within time lo hi v) : answer u ↔ answer v := by
  induction us with
  | nil => cases hu
  | cons w us ih =>
    rcases List.mem_cons.mp hu with rfl | hu' <;> rcases List.mem_cons.mp hv with rfl | hv'
    · exact Iff.rfl
    · exact h.head_agree hforward hv' huw hvw
    · exact (h.head_agree hforward hu' hvw huw).symm
    · exact ih hforward.tail (List.IsChain.tail h) hu' hv'

theorem Steady.of_agree {answer : α → Prop}
    (h : ∀ u ∈ us, ∀ v ∈ us, Within time lo hi u → Within time lo hi v → (answer u ↔ answer v)) :
    Steady time lo hi answer us := by
  rw [Steady, List.isChain_iff_getElem]
  intro i hi hu hv
  exact h _ (List.getElem_mem _) _ (List.getElem_mem _) hu hv

theorem first_le {reached : α → Bool} (hreached : ∀ w, reached w = true ↔ lo ≤ time w)
    (h : Forward time us) (hfirst : us.find? reached = some u) (hv : v ∈ us) (hle : lo ≤ time v) :
    time u ≤ time v := by
  induction us with
  | nil => cases hv
  | cons w us ih =>
    by_cases hw : reached w = true
    · rw [List.find?_cons_of_pos hw] at hfirst
      cases hfirst
      rcases List.mem_cons.mp hv with rfl | hv
      · exact le_rfl
      · exact (h.head_lt hv).le
    · rw [List.find?_cons_of_neg hw] at hfirst
      rcases List.mem_cons.mp hv with rfl | hv
      · exact absurd ((hreached v).mpr hle) hw
      · exact ih h.tail hfirst hv

end Series
