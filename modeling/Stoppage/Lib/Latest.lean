import Mathlib.Data.List.Basic
import Mathlib.Data.List.Perm.Basic
import Mathlib.Order.Basic
import Mathlib.Order.Lattice

/-! # The latest entries

Of a list of entries with times, a result of at most `k` is latest when what it leaves out is no
later than any of it. The head of a sorted part of the entries is a latest result of all of them
exactly when each of the others has `k` entries of that part at its time or later.
-/

namespace Latest
set_option autoImplicit false

variable {α T : Type} [LinearOrder T] {time : α → T} {k : ℕ}

/-- `k` entries of `all`, or all of them if there are fewer, each as often as it is there, the
latest ones, and those in the order of falling times. -/
structure IsLatest (time : α → T) (k : ℕ) (all result : List α) : Prop where
  part : ∃ rest, (result ++ rest).Perm all ∧ ∀ x ∈ rest, ∀ y ∈ result, time x ≤ time y
  length : result.length = min k all.length
  falling : result.Pairwise fun x y => time y ≤ time x

/-- How many entries are not before a time. -/
def countFrom (time : α → T) (t : T) (xs : List α) : ℕ := xs.countP fun x => decide (t ≤ time x)

theorem countFrom_le_length (t : T) (xs : List α) : countFrom time t xs ≤ xs.length :=
  List.countP_le_length

theorem countFrom_perm {xs ys : List α} (h : xs.Perm ys) (t : T) :
    countFrom time t xs = countFrom time t ys := h.countP_eq _

/-- The first entries of a sorted list are not before a time that `k` of its entries reach. -/
theorem le_of_mem_take {sorted : List α} {t : T}
    (hsorted : sorted.Pairwise fun x y => time y ≤ time x) (hcount : k ≤ countFrom time t sorted) :
    ∀ y ∈ sorted.take k, t ≤ time y := by
  intro y hy
  by_contra hbefore
  obtain ⟨front, back, hsplit⟩ := List.append_of_mem hy
  have hall : sorted = front ++ y :: (back ++ sorted.drop k) := by
    rw [← List.cons_append, ← List.append_assoc, ← hsplit, List.take_append_drop]
  have hbehind : ∀ z ∈ y :: (back ++ sorted.drop k), ¬ decide (t ≤ time z) = true := by
    rw [hall] at hsorted
    obtain ⟨-, hfalling, -⟩ := List.pairwise_append.mp hsorted
    intro z hz
    rw [decide_eq_true_iff]
    rcases List.mem_cons.mp hz with rfl | hz
    · exact hbefore
    · exact fun hle => hbefore (hle.trans ((List.pairwise_cons.mp hfalling).1 z hz))
  have hfront : countFrom time t sorted ≤ front.length := by
    rw [hall, countFrom, List.countP_append, List.countP_eq_zero.mpr hbehind, Nat.add_zero]
    exact List.countP_le_length
  have hlength := congrArg List.length hsplit
  rw [List.length_append, List.length_cons, List.length_take] at hlength
  omega

/-- **When the head of a part is the latest of the whole.** -/
theorem isLatest_take_iff {gone kept sorted : List α} (hperm : sorted.Perm kept)
    (hsorted : sorted.Pairwise fun x y => time y ≤ time x) :
    IsLatest time k (gone ++ kept) (sorted.take k) ↔
      ∀ e ∈ gone, k ≤ countFrom time (time e) kept := by
  have hrest : (sorted.take k ++ (gone ++ sorted.drop k)).Perm (gone ++ kept) := by
    have hswap : (sorted.take k ++ (gone ++ sorted.drop k)).Perm
        (gone ++ (sorted.take k ++ sorted.drop k)) := by
      rw [← List.append_assoc, ← List.append_assoc]
      exact List.perm_append_comm.append_right _
    rw [List.take_append_drop] at hswap
    exact hswap.trans (hperm.append_left gone)
  constructor
  · rintro ⟨⟨rest, hpart, hle⟩, hlength, -⟩ e he
    have hmem : e ∈ rest := by
      have hcancel := (List.perm_append_left_iff _).mp (hpart.trans hrest.symm)
      exact hcancel.symm.subset (List.mem_append_left _ he)
    have hfull : (sorted.take k).length = k := by
      have hgone := List.length_pos_of_mem he
      have hkept := hperm.length_eq
      rw [List.length_append] at hlength
      rw [List.length_take] at hlength ⊢
      omega
    have hall : countFrom time (time e) (sorted.take k) = (sorted.take k).length :=
      List.countP_eq_length.mpr fun y hy => decide_eq_true (hle e hmem y hy)
    calc k = countFrom time (time e) (sorted.take k) := by rw [hall, hfull]
      _ ≤ countFrom time (time e) sorted := (List.take_sublist k sorted).countP_le
      _ = countFrom time (time e) kept := countFrom_perm hperm _
  · intro hcount
    refine ⟨⟨gone ++ sorted.drop k, hrest, ?_⟩, ?_, hsorted.sublist (List.take_sublist k sorted)⟩
    · intro x hx y hy
      rcases List.mem_append.mp hx with hgone | hdrop
      · exact le_of_mem_take hsorted (countFrom_perm hperm (time x) ▸ hcount x hgone) y hy
      · rw [← List.take_append_drop k sorted] at hsorted
        exact (List.pairwise_append.mp hsorted).2.2 y hy x hdrop
    · rw [List.length_take, List.length_append, hperm.length_eq]
      rcases List.eq_nil_or_concat' gone with rfl | ⟨front, e, rfl⟩
      · rw [List.length_nil, Nat.zero_add]
      · have hk : k ≤ countFrom time (time e) kept := hcount e (List.mem_append_right _ (.head _))
        have hle : countFrom time (time e) kept ≤ kept.length := countFrom_le_length _ _
        omega

end Latest
