import Mathlib.Tactic

/-! # Rounds of independent visits

A visit works on one place and collects what the place alone decides. A round that visits each place
once then collects the sum of what there was at its start, and leaves every place as the visit to it
would have alone.
-/

namespace Visits
set_option autoImplicit false

variable {κ σ V : Type*} {visit : κ → σ → σ} {view : κ → σ → V} {Inv : σ → Prop}
  {gain : κ → V → ℕ} {Done : κ → V → Prop} {purse : σ → ℕ}

/-- In the states that occur, a visit leaves the other places as they are, does its own, and puts
what it collects into the purse. -/
structure Local (visit : κ → σ → σ) (view : κ → σ → V) (Inv : σ → Prop) (gain : κ → V → ℕ)
    (Done : κ → V → Prop) (purse : σ → ℕ) (ks : List κ) : Prop where
  inv : ∀ {k s}, k ∈ ks → Inv s → Inv (visit k s)
  frame : ∀ {k l s}, k ∈ ks → Inv s → l ≠ k → view l (visit k s) = view l s
  done : ∀ {k s}, k ∈ ks → Inv s → Done k (view k (visit k s))
  purse : ∀ {k s}, k ∈ ks → Inv s → purse (visit k s) = purse s + gain k (view k s)

def round (visit : κ → σ → σ) (ks : List κ) (s : σ) : σ := ks.foldl (fun s k => visit k s) s

theorem round_cons (k : κ) (ks : List κ) (s : σ) :
    round visit (k :: ks) s = round visit ks (visit k s) := rfl

theorem Local.tail {k : κ} {ks : List κ} (h : Local visit view Inv gain Done purse (k :: ks)) :
    Local visit view Inv gain Done purse ks where
  inv hk := h.inv (List.mem_cons_of_mem _ hk)
  frame hk := h.frame (List.mem_cons_of_mem _ hk)
  done hk := h.done (List.mem_cons_of_mem _ hk)
  purse hk := h.purse (List.mem_cons_of_mem _ hk)

variable {ks : List κ} {s : σ}

theorem Local.round_inv (h : Local visit view Inv gain Done purse ks) (hs : Inv s) :
    Inv (round visit ks s) := by
  induction ks generalizing s with
  | nil => exact hs
  | cons k ks ih => exact ih h.tail (h.inv List.mem_cons_self hs)

theorem Local.round_frame (h : Local visit view Inv gain Done purse ks) (hs : Inv s) {l : κ}
    (hl : l ∉ ks) : view l (round visit ks s) = view l s := by
  induction ks generalizing s with
  | nil => rfl
  | cons k ks ih =>
    rw [List.mem_cons, not_or] at hl
    rw [round_cons, ih h.tail (h.inv List.mem_cons_self hs) hl.2,
      h.frame List.mem_cons_self hs hl.1]

theorem Local.round_done (h : Local visit view Inv gain Done purse ks) (hs : Inv s)
    (hnodup : ks.Nodup) : ∀ k ∈ ks, Done k (view k (round visit ks s)) := by
  induction ks generalizing s with
  | nil =>
    intro k hk
    cases hk
  | cons k ks ih =>
    obtain ⟨hfresh, hnodup⟩ := List.nodup_cons.mp hnodup
    have hnext := h.inv List.mem_cons_self hs
    rw [List.forall_mem_cons, round_cons]
    refine ⟨?_, ih h.tail hnext hnodup⟩
    rw [h.tail.round_frame hnext hfresh]
    exact h.done List.mem_cons_self hs

/-- **A round collects what there was at its start.** -/
theorem Local.round_purse (h : Local visit view Inv gain Done purse ks) (hs : Inv s)
    (hnodup : ks.Nodup) :
    purse (round visit ks s) = purse s + (ks.map fun k => gain k (view k s)).sum := by
  induction ks generalizing s with
  | nil => rfl
  | cons k ks ih =>
    obtain ⟨hfresh, hnodup⟩ := List.nodup_cons.mp hnodup
    have hsame : ks.map (fun l => gain l (view l (visit k s))) =
        ks.map (fun l => gain l (view l s)) := by
      refine List.map_congr_left fun l hl => ?_
      rw [h.frame List.mem_cons_self hs fun hlk => hfresh (hlk ▸ hl)]
    rw [round_cons, ih h.tail (h.inv List.mem_cons_self hs) hnodup, hsame,
      h.purse List.mem_cons_self hs, List.map_cons, List.sum_cons, Nat.add_assoc]

end Visits
