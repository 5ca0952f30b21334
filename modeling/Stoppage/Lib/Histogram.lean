import Mathlib.Algebra.BigOperators.Group.Finset.Piecewise
import Mathlib.Data.List.Perm.Basic

/-! # Entries counted in bins

A loop over a list adds every entry to the accumulator that an index function picks. Each
accumulator then holds what folding over the entries of its bin alone gives, and a quantity summed
bin by bin is the quantity summed over the list.
-/

namespace Histogram
set_option autoImplicit false

variable {α β : Type} (idx : α → ℕ)

/-- The entries of a bin, in order. -/
def bin (j : ℕ) (xs : List α) : List α := xs.filter fun x => idx x == j

/-- The loop: every entry changes the accumulator of its bin. -/
def tally (f : α → β → β) (xs : List α) (bs : List β) : List β :=
  xs.foldl (fun bs x => bs.modify (idx x) (f x)) bs

theorem bin_cons (j : ℕ) (x : α) (xs : List α) :
    bin idx j (x :: xs) = if idx x = j then x :: bin idx j xs else bin idx j xs := by
  rw [bin, List.filter_cons]
  by_cases h : idx x = j <;> simp [h, bin]

theorem getElem?_tally (f : α → β → β) (xs : List α) (bs : List β) (j : ℕ) :
    (tally idx f xs bs)[j]? = bs[j]?.map fun b => (bin idx j xs).foldl (fun b x => f x b) b := by
  induction xs generalizing bs with
  | nil => simp [tally, bin]
  | cons x xs ih =>
    have hstep : tally idx f (x :: xs) bs = tally idx f xs (bs.modify (idx x) (f x)) := rfl
    rw [hstep, ih, List.getElem?_modify, bin_cons]
    by_cases h : idx x = j <;> simp [h, Function.comp_def]

theorem tally_range (f : α → β → β) (xs : List α) (k : ℕ) (init : ℕ → β) :
    tally idx f xs ((List.range k).map init) =
      (List.range k).map fun j => (bin idx j xs).foldl (fun b x => f x b) (init j) := by
  apply List.ext_getElem?
  intro j
  rw [getElem?_tally, List.getElem?_map, List.getElem?_map]
  by_cases hj : j < k
  · rw [List.getElem?_range hj]
    rfl
  · rw [List.getElem?_eq_none (by rw [List.length_range]; omega)]
    rfl

theorem perm_bin {xs ys : List α} (h : xs.Perm ys) (j : ℕ) : (bin idx j xs).Perm (bin idx j ys) :=
  h.filter _

section Sum
variable {M : Type} [AddCommMonoid M] (g : α → M)

theorem sum_range_ite {k j : ℕ} (hj : j < k) (m : M) :
    ((List.range k).map fun i => if j = i then m else 0).sum = m := by
  rw [← List.sum_toFinset _ List.nodup_range, Finset.sum_ite_eq, if_pos]
  simpa using hj

theorem sum_bins {k : ℕ} {xs : List α} (h : ∀ x ∈ xs, idx x < k) :
    ((List.range k).map fun j => ((bin idx j xs).map g).sum).sum = (xs.map g).sum := by
  induction xs with
  | nil => simp [bin]
  | cons x xs ih =>
    have hx : idx x < k := h x (List.mem_cons_self ..)
    have hrest := ih fun y hy => h y (List.mem_cons_of_mem x hy)
    have hsplit : ∀ j, ((bin idx j (x :: xs)).map g).sum =
        (if idx x = j then g x else 0) + ((bin idx j xs).map g).sum := by
      intro j
      rw [bin_cons]
      by_cases hj : idx x = j <;> simp [hj]
    simp only [hsplit, List.sum_map_add, hrest, sum_range_ite hx, List.map_cons, List.sum_cons]

end Sum

end Histogram
