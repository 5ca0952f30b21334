import Mathlib.Data.List.Count
import Mathlib.Tactic

/-! # Labelled transition systems

Finite executions of a relation `step : σ → α → σ → Prop`, read left to right, and the rules by
which facts about single steps become facts about whole executions:

* `Steps.invariant`: a property kept by every step is kept by every execution.
* `Steps.history`: the same for a property of the state and of the actions that led to it.
* `Steps.exists_switch`: a property that is false first and true last switched on at some step.
* `Steps.count_le_one`: an action that needs a latch open and closes it happens at most once.
* `Steps.budget`: a measure that each step raises by no more than its action allows.
* `guarded`: the executions all of whose steps satisfy a condition on state and action.
-/

namespace TransitionSystem
set_option autoImplicit false

variable {σ α : Type*} {step : σ → α → σ → Prop}

/-- `Steps step s as t`: the actions `as`, in this order, lead from `s` to `t`. -/
inductive Steps (step : σ → α → σ → Prop) : σ → List α → σ → Prop
  | nil (s : σ) : Steps step s [] s
  | cons {s t u : σ} {a : α} {as : List α} : step s a t → Steps step t as u →
      Steps step s (a :: as) u

namespace Steps
variable {s t u : σ} {a : α} {as bs : List α}

theorem single (h : step s a t) : Steps step s [a] t := .cons h (.nil t)

theorem nil_iff : Steps step s [] t ↔ s = t :=
  ⟨fun h => by cases h; rfl, fun h => h ▸ .nil s⟩

theorem cons_iff : Steps step s (a :: as) u ↔ ∃ t, step s a t ∧ Steps step t as u := by
  constructor
  · rintro (_ | ⟨h, hs⟩)
    exact ⟨_, h, hs⟩
  · rintro ⟨t, h, hs⟩
    exact .cons h hs

theorem single_iff : Steps step s [a] t ↔ step s a t := by
  constructor
  · intro h
    obtain ⟨u, ha, hnil⟩ := cons_iff.mp h
    exact nil_iff.mp hnil ▸ ha
  · exact single

theorem append (h1 : Steps step s as t) (h2 : Steps step t bs u) : Steps step s (as ++ bs) u := by
  induction h1 with
  | nil => exact h2
  | cons h _ ih => exact .cons h (ih h2)

theorem append_iff : Steps step s (as ++ bs) u ↔ ∃ t, Steps step s as t ∧ Steps step t bs u := by
  constructor
  · intro h
    induction as generalizing s with
    | nil => exact ⟨s, .nil s, h⟩
    | cons a as ih =>
      obtain ⟨t, ha, ht⟩ := cons_iff.mp h
      obtain ⟨v, hv, hu⟩ := ih ht
      exact ⟨v, .cons ha hv, hu⟩
  · rintro ⟨t, h1, h2⟩
    exact h1.append h2

theorem mono {step' : σ → α → σ → Prop} (hle : ∀ s a t, step s a t → step' s a t)
    (h : Steps step s as t) : Steps step' s as t := by
  induction h with
  | nil => exact .nil _
  | cons ha _ ih => exact .cons (hle _ _ _ ha) ih

/-- **The invariant rule.** The actions may be restricted to those that occur. -/
theorem invariant {I : σ → Prop} (hstep : ∀ s a t, a ∈ as → step s a t → I s → I t)
    (h : Steps step s as t) (hs : I s) : I t := by
  induction h with
  | nil => exact hs
  | cons ha _ ih =>
    exact ih (fun s b t hb => hstep s b t (List.mem_cons_of_mem _ hb))
      (hstep _ _ _ List.mem_cons_self ha hs)

/-- **The history rule.** What holds at the start and is carried over every step, with the actions
so far in view, holds of the whole execution. -/
theorem history {P : List α → σ → Prop} (h0 : P [] s)
    (hstep : ∀ pre a u v, pre ++ [a] <+: as → Steps step s pre u → P pre u → step u a v →
      P (pre ++ [a]) v)
    (h : Steps step s as t) : P as t := by
  induction as using List.reverseRecOn generalizing t with
  | nil => exact nil_iff.mp h ▸ h0
  | append_singleton as a ih =>
    obtain ⟨u, hpre, hlast⟩ := append_iff.mp h
    obtain ⟨v, ha, hnil⟩ := cons_iff.mp hlast
    cases nil_iff.mp hnil
    refine hstep as a u _ List.prefix_rfl hpre (ih ?_ hpre) ha
    intro pre b w x hpre
    exact hstep pre b w x (hpre.trans (List.prefix_append as [a]))

theorem exists_of_mem (h : Steps step s as t) (ha : a ∈ as) :
    ∃ pre post u v, as = pre ++ a :: post ∧ Steps step s pre u ∧ step u a v ∧
      Steps step v post t := by
  obtain ⟨pre, post, rfl⟩ := List.append_of_mem ha
  obtain ⟨u, hpre, hrest⟩ := append_iff.mp h
  obtain ⟨v, hav, hpost⟩ := cons_iff.mp hrest
  exact ⟨pre, post, u, v, rfl, hpre, hav, hpost⟩

/-- **The switch rule.** A property that does not hold at the start and holds at the end was
switched on by one of the steps. -/
theorem exists_switch {P : σ → Prop} (h : Steps step s as t) (hs : ¬ P s) (ht : P t) :
    ∃ pre a post u v, as = pre ++ a :: post ∧ Steps step s pre u ∧ step u a v ∧
      Steps step v post t ∧ ¬ P u ∧ P v := by
  induction h with
  | nil => exact absurd ht hs
  | @cons s v t a as ha hrest ih =>
    by_cases hv : P v
    · exact ⟨[], a, as, s, v, rfl, .nil s, ha, hrest, hs, hv⟩
    · obtain ⟨pre, b, post, u, w, rfl, hpre, hb, hpost, hu, hw⟩ := ih hv ht
      exact ⟨a :: pre, b, post, u, w, rfl, .cons ha hpre, hb, hpost, hu, hw⟩

/-- Once the latch is closed and every step keeps it closed, a step that needs it open does
not occur. -/
theorem count_eq_zero {L : σ → Prop} {q : α → Bool}
    (hkeep : ∀ s a t, a ∈ as → step s a t → L s → L t)
    (hopen : ∀ s a t, a ∈ as → step s a t → q a = true → ¬ L s)
    (h : Steps step s as t) (hs : L s) : as.countP q = 0 := by
  induction h with
  | nil => rfl
  | @cons s v t a as ha _ ih =>
    have hq : q a = false := by
      by_contra hq
      exact hopen _ _ _ List.mem_cons_self ha (by simpa using hq) hs
    rw [List.countP_cons_of_neg (by simp [hq])]
    exact ih (fun s b t hb => hkeep s b t (List.mem_cons_of_mem _ hb))
      (fun s b t hb => hopen s b t (List.mem_cons_of_mem _ hb))
      (hkeep _ _ _ List.mem_cons_self ha hs)

/-- **The latch rule.** An action that needs the latch open and leaves it closed, in an execution
that never opens it, occurs at most once. -/
theorem count_le_one {L : σ → Prop} {q : α → Bool}
    (hkeep : ∀ s a t, a ∈ as → step s a t → L s → L t)
    (hopen : ∀ s a t, a ∈ as → step s a t → q a = true → ¬ L s ∧ L t)
    (h : Steps step s as t) : as.countP q ≤ 1 := by
  induction h with
  | nil => simp
  | @cons s v t a as ha hrest ih =>
    have hkeep' : ∀ s b t, b ∈ as → step s b t → L s → L t :=
      fun s b t hb => hkeep s b t (List.mem_cons_of_mem _ hb)
    have hopen' : ∀ s b t, b ∈ as → step s b t → q b = true → ¬ L s ∧ L t :=
      fun s b t hb => hopen s b t (List.mem_cons_of_mem _ hb)
    by_cases hq : q a = true
    · have hv : L v := (hopen _ _ _ List.mem_cons_self ha hq).2
      have h0 := hrest.count_eq_zero hkeep' (fun s b t hb hst hqb => (hopen' s b t hb hst hqb).1) hv
      rw [List.countP_cons_of_pos hq, h0]
    · rw [List.countP_cons_of_neg hq]
      exact ih hkeep' hopen'

/-- **The budget rule.** What a measure gains over a run is paid for by the actions. -/
theorem budget {v : σ → ℕ} {gain : α → ℕ}
    (hstep : ∀ s a t, a ∈ as → step s a t → v t ≤ v s + gain a) (h : Steps step s as t) :
    v t ≤ v s + (as.map gain).sum := by
  induction h with
  | nil => exact Nat.le_add_right _ _
  | @cons s u t a as ha _ ih =>
    have hfirst := hstep _ _ _ List.mem_cons_self ha
    have hrest := ih fun s b t hb => hstep s b t (List.mem_cons_of_mem _ hb)
    rw [List.map_cons, List.sum_cons]
    omega

end Steps

/-- The steps taken in a state and with an action that satisfy a condition. -/
def guarded (step : σ → α → σ → Prop) (c : σ → α → Prop) (s : σ) (a : α) (t : σ) : Prop :=
  step s a t ∧ c s a

theorem Steps.to_guarded {c : σ → α → Prop} {s t : σ} {as : List α} (h : Steps step s as t)
    (hc : ∀ a ∈ as, ∀ s, c s a) : Steps (guarded step c) s as t := by
  induction h with
  | nil => exact .nil _
  | cons ha _ ih =>
    refine .cons ⟨ha, hc _ List.mem_cons_self _⟩ (ih ?_)
    intro b hb
    exact hc b (List.mem_cons_of_mem _ hb)

/-- A system whose steps are a function runs in one way only. -/
theorem Steps.unique (hdet : ∀ s a t t', step s a t → step s a t' → t = t') {s t t' : σ}
    {as : List α} (h : Steps step s as t) (h' : Steps step s as t') : t = t' := by
  induction h with
  | nil => exact nil_iff.mp h'
  | cons ha _ ih =>
    obtain ⟨v, hv, hrest⟩ := cons_iff.mp h'
    cases hdet _ _ _ _ ha hv
    exact ih hrest

theorem Steps.of_guarded {c : σ → α → Prop} {s t : σ} {as : List α}
    (h : Steps (guarded step c) s as t) : Steps step s as t :=
  h.mono fun _ _ _ h => h.1

/-! ## Runs that are computed -/

/-- Whether the actions all succeed, each in a state that meets the condition, and the state they
reach has the property. -/
def reaches (next : σ → α → Option σ) (c : σ → α → Prop) [∀ s a, Decidable (c s a)]
    (P : σ → Prop) [DecidablePred P] : List α → σ → Bool
  | [], s => decide (P s)
  | a :: as, s => decide (c s a) && (next s a).any (reaches next c P as)

theorem steps_of_reaches {next : σ → α → Option σ} {c : σ → α → Prop}
    [∀ s a, Decidable (c s a)] {P : σ → Prop} [DecidablePred P] {s : σ} {as : List α}
    (h : reaches next c P as s = true) :
    ∃ t, Steps (guarded (fun s a t => next s a = some t) c) s as t ∧ P t := by
  induction as generalizing s with
  | nil => exact ⟨s, .nil s, of_decide_eq_true h⟩
  | cons a as ih =>
    rw [reaches, Bool.and_eq_true, Option.any_eq_true] at h
    obtain ⟨hc, u, hu, hrest⟩ := h
    obtain ⟨t, hsteps, ht⟩ := ih hrest
    exact ⟨t, .cons ⟨hu, of_decide_eq_true hc⟩ hsteps, ht⟩

end TransitionSystem
