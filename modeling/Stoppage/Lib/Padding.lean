import Mathlib.Data.List.DropRight
import Mathlib.Tactic

/-! # Fields of a fixed width

A field is filled up with a filler behind its contents, and read back by dropping the fillers at its
end. So two contents fill a field alike when they agree up to the fillers they end with, and the
contents that are read back are those that do not end with one.
-/

namespace Padding
set_option autoImplicit false

variable {α : Type} [DecidableEq α] {z : α}

def pad (z : α) (len : ℕ) (xs : List α) : List α := xs ++ List.replicate (len - xs.length) z

def trim (z : α) (xs : List α) : List α := xs.rdropWhile (· = z)

omit [DecidableEq α] in
theorem length_pad {len : ℕ} {xs : List α} (h : xs.length ≤ len) : (pad z len xs).length = len := by
  rw [pad, List.length_append, List.length_replicate]
  omega

theorem trim_concat_self (xs : List α) : trim z (xs ++ [z]) = trim z xs :=
  List.rdropWhile_concat_pos (fun x => decide (x = z)) xs z (decide_eq_true rfl)

theorem trim_concat_of_ne (xs : List α) {x : α} (h : x ≠ z) : trim z (xs ++ [x]) = xs ++ [x] :=
  List.rdropWhile_concat_neg (fun x => decide (x = z)) xs x (by simpa using h)

theorem trim_append_replicate (xs : List α) (n : ℕ) :
    trim z (xs ++ List.replicate n z) = trim z xs := by
  induction n with
  | zero => rw [List.replicate_zero, List.append_nil]
  | succ n ih => rw [List.replicate_succ', ← List.append_assoc, trim_concat_self, ih]

theorem trim_pad (len : ℕ) (xs : List α) : trim z (pad z len xs) = trim z xs :=
  trim_append_replicate xs _

theorem exists_eq_trim_append (xs : List α) : ∃ n, xs = trim z xs ++ List.replicate n z := by
  induction xs using List.reverseRecOn with
  | nil => exact ⟨0, rfl⟩
  | append_singleton xs x ih =>
    by_cases hx : x = z
    · obtain ⟨n, hn⟩ := ih
      refine ⟨n + 1, ?_⟩
      rw [hx, trim_concat_self, List.replicate_succ', ← List.append_assoc, ← hn]
    · refine ⟨0, ?_⟩
      rw [trim_concat_of_ne xs hx, List.replicate_zero, List.append_nil]

theorem trim_eq_self_iff {xs : List α} : trim z xs = xs ↔ xs.getLast? ≠ some z := by
  induction xs using List.reverseRecOn with
  | nil => exact iff_of_true rfl (Option.some_ne_none z).symm
  | append_singleton xs x _ =>
    rw [List.getLast?_concat]
    by_cases hx : x = z
    · refine iff_of_false (fun h => ?_) (fun h => h (congrArg some hx))
      have hlength := congrArg List.length h
      obtain ⟨n, hn⟩ := exists_eq_trim_append (z := z) xs
      have hsplit := congrArg List.length hn
      rw [hx, trim_concat_self, List.length_append, List.length_singleton] at hlength
      rw [List.length_append] at hsplit
      omega
    · refine iff_of_true (trim_concat_of_ne xs hx) fun h => ?_
      exact hx (Option.some.inj h)

/-- What is dropped at the end is filled up again. -/
theorem pad_trim {len : ℕ} {xs : List α} (h : xs.length ≤ len) :
    pad z len (trim z xs) = pad z len xs := by
  obtain ⟨n, hn⟩ := exists_eq_trim_append (z := z) xs
  have hlength := congrArg List.length hn
  rw [List.length_append, List.length_replicate] at hlength
  have hfill : len - (trim z xs).length = n + (len - xs.length) := by omega
  calc pad z len (trim z xs)
      = trim z xs ++ List.replicate (n + (len - xs.length)) z := by rw [pad, hfill]
    _ = (trim z xs ++ List.replicate n z) ++ List.replicate (len - xs.length) z := by
      rw [← List.replicate_append_replicate, List.append_assoc]
    _ = pad z len xs := by rw [← hn, pad]

/-- **What a field keeps apart.** -/
theorem pad_eq_pad_iff {len : ℕ} {xs ys : List α} (hx : xs.length ≤ len) (hy : ys.length ≤ len) :
    pad z len xs = pad z len ys ↔ trim z xs = trim z ys := by
  constructor
  · intro h
    rw [← trim_pad len xs, h, trim_pad]
  · intro h
    rw [← pad_trim hx, h, pad_trim hy]

end Padding
