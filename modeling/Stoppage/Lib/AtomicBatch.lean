import Stoppage.Lib.Fallible

/-! # Atomic batches of independent operations

Each operation works on a place of its own: whether it goes through depends on that place only, and
it leaves the others as they are. A batch applies all of its operations or none. So in a sequence of
batches an operation that would go through is lost exactly when one of its batch would not.
-/

namespace AtomicBatch
open Fallible
set_option autoImplicit false

universe u
variable {σ α κ V ε : Type u}

/-! ## Chunks -/

/-- The first `n`, the next `n` and so on, `fuel` times at most. -/
def chunksFrom (n : ℕ) : ℕ → List α → List (List α)
  | 0, _ => []
  | _, [] => []
  | fuel + 1, x :: xs => (x :: xs).take n :: chunksFrom n fuel ((x :: xs).drop n)

def chunks (n : ℕ) (xs : List α) : List (List α) := chunksFrom n xs.length xs

theorem flatten_chunksFrom {n fuel : ℕ} (hn : 0 < n) {xs : List α} (h : xs.length ≤ fuel) :
    (chunksFrom n fuel xs).flatten = xs := by
  induction fuel generalizing xs with
  | zero =>
    obtain rfl := List.length_eq_zero_iff.mp (Nat.le_zero.mp h)
    rfl
  | succ fuel ih =>
    cases xs with
    | nil => rfl
    | cons x xs =>
      have hdrop : ((x :: xs).drop n).length ≤ fuel := by
        rw [List.length_drop]
        omega
      rw [chunksFrom, List.flatten_cons, ih hdrop, List.take_append_drop]

theorem flatten_chunks {n : ℕ} (hn : 0 < n) (xs : List α) : (chunks n xs).flatten = xs :=
  flatten_chunksFrom hn le_rfl

/-! ## Operations -/

variable (step : α → σ → Except ε σ)

def runAll : List α → σ → Except ε σ
  | [], s => .ok s
  | a :: as, s => do
    let s ← step a s
    runAll as s

def commit (as : List α) (s : σ) : σ :=
  match runAll step as s with
  | .ok t => t
  | .error _ => s

/-- `Ready` says of the place of an operation that it goes through, and `Done` that it went; `Inv`
holds of the states that occur. -/
structure Independent (key : α → κ) (view : κ → σ → V) (Inv : σ → Prop)
    (Ready Done : α → V → Prop) : Prop where
  ready : ∀ {a s}, Inv s → ((∃ t, step a s = .ok t) ↔ Ready a (view (key a) s))
  done : ∀ {a s t}, Inv s → step a s = .ok t → Done a (view (key a) t)
  frame : ∀ {a s t}, Inv s → step a s = .ok t → ∀ k, k ≠ key a → view k t = view k s
  inv : ∀ {a s t}, Inv s → step a s = .ok t → Inv t
  exclusive : ∀ {a v}, Ready a v → ¬ Done a v

section Laws
variable {step} {key : α → κ} {view : κ → σ → V} {Inv : σ → Prop} {Ready Done : α → V → Prop}
  {s t : σ} {as : List α}

theorem Independent.run (h : Independent step key view Inv Ready Done) (hs : Inv s)
    (hrun : runAll step as s = .ok t) :
    Inv t ∧ ∀ k, k ∉ as.map key → view k t = view k s := by
  induction as generalizing s with
  | nil =>
    obtain rfl := Except.ok.inj hrun
    exact ⟨hs, fun _ _ => rfl⟩
  | cons a as ih =>
    obtain ⟨u, ha, hrest⟩ := bind_eq_ok.mp hrun
    obtain ⟨hinv, hframe⟩ := ih (h.inv hs ha) hrest
    refine ⟨hinv, fun k hk => ?_⟩
    rw [List.map_cons, List.mem_cons, not_or] at hk
    rw [hframe k hk.2, h.frame hs ha k hk.1]

theorem Independent.run_done (h : Independent step key view Inv Ready Done) (hs : Inv s)
    (hkeys : (as.map key).Nodup) (hrun : runAll step as s = .ok t) :
    ∀ a ∈ as, Done a (view (key a) t) := by
  induction as generalizing s with
  | nil => exact fun a ha => absurd ha List.not_mem_nil
  | cons a as ih =>
    obtain ⟨u, ha, hrest⟩ := bind_eq_ok.mp hrun
    obtain ⟨hfresh, hkeys⟩ := List.nodup_cons.mp hkeys
    rw [List.forall_mem_cons]
    refine ⟨?_, ih (h.inv hs ha) hkeys hrest⟩
    rw [(h.run (h.inv hs ha) hrest).2 _ hfresh]
    exact h.done hs ha

/-- **A batch goes through exactly when each of its operations would.** -/
theorem Independent.run_iff (h : Independent step key view Inv Ready Done) (hs : Inv s)
    (hkeys : (as.map key).Nodup) :
    (∃ t, runAll step as s = .ok t) ↔ ∀ a ∈ as, Ready a (view (key a) s) := by
  induction as generalizing s with
  | nil => exact iff_of_true ⟨s, rfl⟩ fun a ha => absurd ha List.not_mem_nil
  | cons a as ih =>
    obtain ⟨hfresh, hkeys⟩ := List.nodup_cons.mp hkeys
    have hrest {u : σ} (ha : step a s = .ok u) : (∃ t, runAll step as u = .ok t) ↔
        ∀ b ∈ as, Ready b (view (key b) s) := by
      rw [ih (h.inv hs ha) hkeys]
      refine forall₂_congr fun b hb => ?_
      rw [h.frame hs ha (key b) fun heq => hfresh (heq ▸ List.mem_map_of_mem hb)]
    rw [List.forall_mem_cons, ← h.ready hs]
    constructor
    · rintro ⟨t, hrun⟩
      obtain ⟨u, ha, hr⟩ := bind_eq_ok.mp hrun
      exact ⟨⟨u, ha⟩, (hrest ha).mp ⟨t, hr⟩⟩
    · rintro ⟨⟨u, ha⟩, hr⟩
      obtain ⟨t, ht⟩ := (hrest ha).mpr hr
      exact ⟨t, bind_eq_ok.mpr ⟨u, ha, ht⟩⟩

/-! ## Batches -/

theorem Independent.commit_frame (h : Independent step key view Inv Ready Done) (as : List α)
    (hs : Inv s) :
    Inv (commit step as s) ∧ ∀ k, k ∉ as.map key → view k (commit step as s) = view k s := by
  rw [commit]
  cases hrun : runAll step as s with
  | ok t => exact h.run hs hrun
  | error e => exact ⟨hs, fun _ _ => rfl⟩

theorem Independent.commit_done (h : Independent step key view Inv Ready Done) (hs : Inv s)
    (hkeys : (as.map key).Nodup) (hready : ∀ a ∈ as, Ready a (view (key a) s)) :
    ∀ a ∈ as, Done a (view (key a) (commit step as s)) := by
  obtain ⟨t, ht⟩ := (h.run_iff hs hkeys).mpr hready
  rw [commit, ht]
  exact h.run_done hs hkeys ht

theorem Independent.commit_lost (h : Independent step key view Inv Ready Done) (hs : Inv s)
    (hkeys : (as.map key).Nodup) (hlost : ¬ ∀ a ∈ as, Ready a (view (key a) s)) :
    commit step as s = s := by
  rw [commit]
  cases hrun : runAll step as s with
  | ok t => exact absurd ((h.run_iff hs hkeys).mp ⟨t, hrun⟩) hlost
  | error e => rfl

def commitAll (step : α → σ → Except ε σ) (batches : List (List α)) (s : σ) : σ :=
  batches.foldl (fun s as => commit step as s) s

theorem Independent.commitAll_frame (h : Independent step key view Inv Ready Done)
    {batches : List (List α)} (hs : Inv s) :
    ∀ k, k ∉ batches.flatten.map key → view k (commitAll step batches s) = view k s := by
  induction batches generalizing s with
  | nil => exact fun _ _ => rfl
  | cons as batches ih =>
    intro k hk
    rw [List.flatten_cons, List.map_append, List.mem_append, not_or] at hk
    obtain ⟨hinv, hframe⟩ := h.commit_frame as hs
    exact (ih hinv k hk.2).trans (hframe k hk.1)

/-- **What is lost in a sequence of batches.** -/
theorem Independent.commitAll_iff (h : Independent step key view Inv Ready Done)
    {batches : List (List α)} (hs : Inv s) (hkeys : (batches.flatten.map key).Nodup) :
    (∀ a ∈ batches.flatten, Ready a (view (key a) s) →
        Done a (view (key a) (commitAll step batches s))) ↔
      ∀ as ∈ batches, (∀ a ∈ as, Ready a (view (key a) s)) ∨
        ∀ a ∈ as, ¬ Ready a (view (key a) s) := by
  induction batches generalizing s with
  | nil =>
    exact iff_of_true (fun a ha => absurd ha List.not_mem_nil) fun as has => absurd has List.not_mem_nil
  | cons as batches ih =>
    rw [List.flatten_cons, List.map_append, List.nodup_append] at hkeys
    obtain ⟨hfirst, hrest, hdisjoint⟩ := hkeys
    obtain ⟨hinv, hframe⟩ := h.commit_frame as hs
    -- The later batches do not touch the places of the first one, nor the first one theirs.
    have hplaces {a : α} (ha : a ∈ as) : view (key a) (commitAll step (as :: batches) s) =
        view (key a) (commit step as s) :=
      h.commitAll_frame hinv (key a) fun hb => hdisjoint _ (List.mem_map_of_mem ha) _ hb rfl
    have hlater {b : α} (hb : b ∈ batches.flatten) :
        view (key b) (commit step as s) = view (key b) s :=
      hframe (key b) fun ha => hdisjoint _ ha _ (List.mem_map_of_mem hb) rfl
    have hbatches := ih hinv hrest
    rw [List.flatten_cons, List.forall_mem_append, List.forall_mem_cons]
    refine and_congr ?_ ?_
    · constructor
      · intro hdone
        by_contra hmixed
        rw [not_or] at hmixed
        refine hmixed.2 fun a ha hready => h.exclusive hready ?_
        have hlost := h.commit_lost hs hfirst hmixed.1
        have hgone := hdone a ha hready
        rwa [hplaces ha, hlost] at hgone
      · rintro (hall | hnone) a ha hready
        · rw [hplaces ha]
          exact h.commit_done hs hfirst hall a ha
        · exact absurd hready (hnone a ha)
    · refine Iff.trans (forall₂_congr fun b hb => ?_) (hbatches.trans (forall₂_congr fun bs hbs => ?_))
      · rw [hlater hb]
        rfl
      · have hsame (b : α) (hb : b ∈ bs) : view (key b) (commit step as s) = view (key b) s :=
          hlater (List.mem_flatten_of_mem hbs hb)
        refine or_congr (forall₂_congr fun b hb => ?_) (forall₂_congr fun b hb => ?_)
        · rw [hsame b hb]
        · rw [hsame b hb]

end Laws

end AtomicBatch
