import Mathlib.Order.Basic
import Mathlib.Order.Lattice
import Mathlib.Data.List.Induction
import Mathlib.Data.List.Nodup
import Mathlib.Data.List.TakeWhile
import Mathlib.Tactic.Common

/-! # Sampling a history

A history is a list in the order of its times. A sample at a time is the latest entry by then. A
search samples at one time after the other until it sees an entry from a given start on: it finds
one exactly when there is one by the last sample, and finds the first one exactly when no other
entry has come in between.
-/

namespace Sampling
set_option autoImplicit false

variable {α τ : Type*} [LinearOrder τ] {time : α → τ} {us pre post : List α} {u w x : α}
  {lo t : τ} {ps : List τ}

/-- The entries are in the order of their times. -/
def Ordered (time : α → τ) (us : List α) : Prop := us.Pairwise fun u v => time u ≤ time v

instance (time : α → τ) (us : List α) : Decidable (Ordered time us) :=
  inferInstanceAs (Decidable (us.Pairwise _))

/-- The latest entry at or before a time. -/
def latest (time : α → τ) (us : List α) (t : τ) : Option α :=
  us.reverse.find? fun u => decide (time u ≤ t)

/-- The entries from a time on. -/
def since (time : α → τ) (us : List α) (lo : τ) : List α := us.dropWhile fun u => decide (time u < lo)

/-- The first of the samples that is not before `lo`. -/
def search (time : α → τ) (us : List α) (lo : τ) : List τ → Option α
  | [] => none
  | p :: ps =>
    match latest time us p with
    | some u => if lo ≤ time u then some u else search time us lo ps
    | none => search time us lo ps

/-! ## Samples -/

theorem mem_of_latest (h : latest time us t = some u) : u ∈ us ∧ time u ≤ t := by
  have hle := List.find?_some h
  exact ⟨List.mem_reverse.mp (List.mem_of_find?_eq_some h), of_decide_eq_true hle⟩

/-- A sample is an entry that everything behind it is later than. -/
theorem latest_of_split (hu : time u ≤ t) (hpost : ∀ w ∈ post, t < time w) :
    latest time (pre ++ u :: post) t = some u := by
  have hnone : post.reverse.find? (fun w => decide (time w ≤ t)) = none := by
    rw [List.find?_eq_none]
    intro w hw
    simpa using hpost w (List.mem_reverse.mp hw)
  rw [latest, List.reverse_append, List.reverse_cons, List.find?_append, List.find?_append, hnone,
    List.find?_singleton, if_pos (decide_eq_true hu)]
  rfl

/-- Where an entry behind has come in, the sample is one of those. -/
theorem latest_of_mem_post (hw : w ∈ post) (hle : time w ≤ t) :
    ∃ x ∈ post, latest time (pre ++ u :: post) t = some x := by
  have hsome : (post.reverse.find? fun w => decide (time w ≤ t)).isSome :=
    List.find?_isSome.mpr ⟨w, List.mem_reverse.mpr hw, decide_eq_true hle⟩
  obtain ⟨x, hx⟩ := Option.isSome_iff_exists.mp hsome
  refine ⟨x, List.mem_reverse.mp (List.mem_of_find?_eq_some hx), ?_⟩
  rw [latest, List.reverse_append, List.reverse_cons, List.find?_append, List.find?_append, hx]
  rfl

theorem exists_latest (hw : w ∈ us) (hle : time w ≤ t) : ∃ x, latest time us t = some x := by
  apply Option.isSome_iff_exists.mp
  exact List.find?_isSome.mpr ⟨w, List.mem_reverse.mpr hw, decide_eq_true hle⟩

theorem Ordered.le_latest (h : Ordered time us) (hx : latest time us t = some x) (hw : w ∈ us)
    (hle : time w ≤ t) : time w ≤ time x := by
  induction us using List.reverseRecOn with
  | nil => cases hw
  | append_singleton us y ih =>
    obtain ⟨hus, -, hlast⟩ := List.pairwise_append.mp h
    rw [latest, List.reverse_append, List.reverse_singleton, List.singleton_append,
      List.find?_cons] at hx
    split at hx
    · cases hx
      rcases List.mem_append.mp hw with hw | hw
      · exact hlast w hw _ (List.mem_singleton_self _)
      · rw [List.mem_singleton.mp hw]
    · rename_i hy
      rcases List.mem_append.mp hw with hw | hw
      · exact ih hus hx hw
      · rw [List.mem_singleton.mp hw] at hle
        exact absurd hle (of_decide_eq_false hy)

/-! ## From a start on -/

theorem split_of_since (h : since time us lo = u :: post) :
    (∃ pre, us = pre ++ u :: post ∧ ∀ w ∈ pre, time w < lo) ∧ lo ≤ time u := by
  have hsplit := List.takeWhile_append_dropWhile (p := fun u => decide (time u < lo)) (l := us)
  rw [← since, h] at hsplit
  refine ⟨⟨_, hsplit.symm, fun w hw => ?_⟩, ?_⟩
  · have hlt := List.mem_takeWhile_imp hw
    exact of_decide_eq_true hlt
  · have hhead := List.head?_dropWhile_not (fun u => decide (time u < lo)) us
    rw [← since, h] at hhead
    simpa using hhead

theorem lt_of_since_nil (h : since time us lo = []) : ∀ w ∈ us, time w < lo := by
  rw [since, List.dropWhile_eq_nil_iff] at h
  intro w hw
  exact of_decide_eq_true (h w hw)

theorem Ordered.first_le (h : Ordered time us) (hsince : since time us lo = u :: post) (hw : w ∈ us)
    (hlo : lo ≤ time w) : time u ≤ time w := by
  obtain ⟨⟨pre, rfl, hpre⟩, -⟩ := split_of_since hsince
  rcases List.mem_append.mp hw with hw | hw
  · exact absurd (hpre w hw) (not_lt.mpr hlo)
  · rcases List.mem_cons.mp hw with rfl | hw
    · exact le_rfl
    · exact List.rel_of_pairwise_cons (List.pairwise_append.mp h).2.1 hw

/-- A sample is from the start on as soon as the first entry from there on has come in. -/
theorem Ordered.le_time_latest (h : Ordered time us) (hsince : since time us lo = u :: post)
    (hx : latest time us t = some x) : lo ≤ time x ↔ time u ≤ t := by
  obtain ⟨⟨pre, hus, -⟩, hlo⟩ := split_of_since hsince
  have hu : u ∈ us := hus ▸ List.mem_append_right _ List.mem_cons_self
  obtain ⟨hmem, hle⟩ := mem_of_latest hx
  constructor
  · intro hlox
    exact (h.first_le hsince hmem hlox).trans hle
  · intro hut
    exact hlo.trans (h.le_latest hx hu hut)

/-! ## Searches -/

theorem mem_of_search (h : search time us lo ps = some u) :
    u ∈ us ∧ lo ≤ time u ∧ ∃ p ∈ ps, time u ≤ p := by
  induction ps with
  | nil => cases h
  | cons p ps ih =>
    have hlater : search time us lo ps = some u → u ∈ us ∧ lo ≤ time u ∧ ∃ q ∈ p :: ps, time u ≤ q := by
      intro h
      obtain ⟨hmem, hlo, q, hq, hle⟩ := ih h
      exact ⟨hmem, hlo, q, List.mem_cons_of_mem _ hq, hle⟩
    rw [search] at h
    split at h
    · rename_i x hx
      split at h
      · rename_i hlo
        cases h
        exact ⟨(mem_of_latest hx).1, hlo, p, List.mem_cons_self, (mem_of_latest hx).2⟩
      · exact hlater h
    · exact hlater h

/-- **What a search finds**: the sample at the first time by which an entry has come in. -/
theorem Ordered.search_eq (h : Ordered time us) (hsince : since time us lo = u :: post) :
    search time us lo ps = (ps.find? fun p => decide (time u ≤ p)).bind (latest time us) := by
  obtain ⟨⟨pre, hus, -⟩, -⟩ := split_of_since hsince
  have hmem : u ∈ us := hus ▸ List.mem_append_right _ List.mem_cons_self
  induction ps with
  | nil => rfl
  | cons p ps ih =>
    rw [search, List.find?_cons]
    by_cases hp : time u ≤ p
    · obtain ⟨x, hx⟩ := exists_latest hmem hp
      rw [hx, decide_eq_true hp]
      simp only [Option.bind_some, hx, if_pos ((h.le_time_latest hsince hx).mpr hp)]
    · rw [decide_eq_false hp]
      split
      · rename_i x hx
        rw [if_neg (mt (h.le_time_latest hsince hx).mp hp)]
        exact ih
      · exact ih

theorem Ordered.search_isSome (h : Ordered time us) :
    (∃ x, search time us lo ps = some x) ↔ ∃ w ∈ us, lo ≤ time w ∧ ∃ p ∈ ps, time w ≤ p := by
  constructor
  · rintro ⟨x, hx⟩
    exact ⟨x, mem_of_search hx⟩
  · rintro ⟨w, hw, hlow, p, hp, hwp⟩
    cases hsince : since time us lo with
    | nil => exact absurd (lt_of_since_nil hsince w hw) (not_lt.mpr hlow)
    | cons u post =>
      obtain ⟨⟨pre, hus, -⟩, -⟩ := split_of_since hsince
      have hmem : u ∈ us := hus ▸ List.mem_append_right _ List.mem_cons_self
      have huw := h.first_le hsince hw hlow
      have hsome : (ps.find? fun p => decide (time u ≤ p)).isSome :=
        List.find?_isSome.mpr ⟨p, hp, decide_eq_true (huw.trans hwp)⟩
      obtain ⟨q, hq⟩ := Option.isSome_iff_exists.mp hsome
      have hle := List.find?_some hq
      obtain ⟨x, hx⟩ := exists_latest hmem (of_decide_eq_true hle)
      refine ⟨x, ?_⟩
      rw [h.search_eq hsince, hq, Option.bind_some, hx]

/-- **When a search finds the first entry**: nothing else has come in by the sample that sees
it. -/
theorem Ordered.search_eq_first_iff (h : Ordered time us) (hnodup : us.Nodup)
    (hsince : since time us lo = u :: post) :
    search time us lo ps = some u ↔
      ∃ p, ps.find? (fun p => decide (time u ≤ p)) = some p ∧ ∀ w ∈ post, p < time w := by
  rw [h.search_eq hsince, Option.bind_eq_some_iff]
  refine exists_congr fun p => and_congr_right fun hp => ?_
  obtain ⟨⟨pre, rfl, -⟩, -⟩ := split_of_since hsince
  have hle := List.find?_some hp
  constructor
  · intro hx w hw
    by_contra hwp
    obtain ⟨x, hxpost, hxlatest⟩ := latest_of_mem_post hw (not_lt.mp hwp)
    cases hx.symm.trans hxlatest
    exact (List.nodup_cons.mp (List.Nodup.of_append_right hnodup)).1 hxpost
  · exact latest_of_split (of_decide_eq_true hle)

end Sampling
