import Mathlib.Tactic

/-! # Tasks that take turns

An event loop: suspended tasks share a state, and one of them at a time runs to its next
suspension or to its end. An assertion about every task, in the state it will find, is kept when
the task that runs establishes it for what is left of itself and disturbs it for no other.
-/

structure Pool (σ τ : Type*) where
  shared : σ
  tasks : List τ

namespace Pool
set_option autoImplicit false

variable {σ τ : Type*} {I : σ → Prop} {P : σ → τ → Prop} {p q : Pool σ τ}

/-- A new task runs to its first suspension. -/
def spawn (p : Pool σ τ) (run : σ → σ × Option τ) : Pool σ τ :=
  ⟨(run p.shared).1, p.tasks ++ (run p.shared).2.toList⟩

/-- The `i`-th task runs to its next suspension, if it can. -/
def resume (p : Pool σ τ) (run : τ → σ → Option (σ × Option τ)) (i : ℕ) : Option (Pool σ τ) :=
  p.tasks[i]?.bind fun t => (run t p.shared).map fun r =>
    ⟨r.1, p.tasks.eraseIdx i ++ r.2.toList⟩

/-- The other tasks while the `i`-th runs. -/
def others (p : Pool σ τ) (i : ℕ) : List τ := p.tasks.eraseIdx i

theorem mem_of_mem_others {i : ℕ} {t : τ} (h : t ∈ p.others i) : t ∈ p.tasks :=
  List.mem_of_mem_eraseIdx h

theorem resume_eq_some {run : τ → σ → Option (σ × Option τ)} {i : ℕ} :
    p.resume run i = some q ↔ ∃ t s t', p.tasks[i]? = some t ∧ run t p.shared = some (s, t') ∧
      q = ⟨s, p.others i ++ t'.toList⟩ := by
  simp only [resume, Option.bind_eq_some_iff, Option.map_eq_some_iff, Prod.exists]
  constructor
  · rintro ⟨t, ht, s, t', hrun, rfl⟩
    exact ⟨t, s, t', ht, hrun, rfl⟩
  · rintro ⟨t, s, t', ht, hrun, rfl⟩
    exact ⟨t, ht, s, t', hrun, rfl⟩

/-- The shared state satisfies `I`, and every task its assertion. -/
structure Holds (I : σ → Prop) (P : σ → τ → Prop) (p : Pool σ τ) : Prop where
  shared : I p.shared
  task : ∀ t ∈ p.tasks, P p.shared t

/-- **The interference rule.** -/
theorem Holds.turn {s : σ} {rest : List τ} {t' : Option τ} (h : Holds I P p)
    (hrest : ∀ u ∈ rest, u ∈ p.tasks) (hshared : I s)
    (hother : ∀ u ∈ rest, P p.shared u → P s u) (hself : ∀ u, t' = some u → P s u) :
    Holds I P ⟨s, rest ++ t'.toList⟩ := by
  refine ⟨hshared, fun u hu => ?_⟩
  rcases List.mem_append.mp hu with hu | hu
  · exact hother u hu (h.task u (hrest u hu))
  · exact hself u (Option.mem_toList.mp hu)

end Pool
