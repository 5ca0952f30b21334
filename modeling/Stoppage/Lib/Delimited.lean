import Mathlib.Tactic

/-! # Texts behind one another

Two texts that are written without a separator of their own can be told apart when what follows them
starts outside their alphabet.
-/

namespace Delimited
set_option autoImplicit false

variable {α : Type} {P : α → Prop}

/-- The text starts outside the alphabet, or is empty. -/
def Outside (P : α → Prop) (ys : List α) : Prop := ∀ y ∈ ys.head?, ¬ P y

theorem outside_cons {y : α} {ys : List α} (h : ¬ P y) : Outside P (y :: ys) := by
  intro z hz
  rwa [← Option.some.inj hz]

theorem append_inj {xs xs' ys ys' : List α} (hxs : ∀ x ∈ xs, P x) (hxs' : ∀ x ∈ xs', P x)
    (hys : Outside P ys) (hys' : Outside P ys') (h : xs ++ ys = xs' ++ ys') :
    xs = xs' ∧ ys = ys' := by
  induction xs generalizing xs' with
  | nil =>
    cases xs' with
    | nil => exact ⟨rfl, h⟩
    | cons x' xs' =>
      rw [List.nil_append] at h
      rw [h] at hys
      exact absurd (hxs' x' List.mem_cons_self) (hys x' rfl)
  | cons x xs ih =>
    cases xs' with
    | nil =>
      rw [List.nil_append] at h
      rw [← h] at hys'
      exact absurd (hxs x List.mem_cons_self) (hys' x rfl)
    | cons x' xs' =>
      obtain ⟨hx, hrest⟩ := List.cons.inj h
      obtain ⟨hxs, hys⟩ := ih (fun y hy => hxs y (List.mem_cons_of_mem _ hy))
        (fun y hy => hxs' y (List.mem_cons_of_mem _ hy)) hrest
      rw [hx, hxs]
      exact ⟨rfl, hys⟩

end Delimited
