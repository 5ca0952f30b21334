import Stoppage.Lib.Transition

/-! # Logs that determine a view

A system whose states carry a log, and an observer who sees the log only. A `Reading` says what of
a state the observer is to know, how one entry moves what it knows, and which entries it admits
there. `Logs` is the condition on one step: at most one entry is appended, it is admitted, and the
view moves as the observer does. Whole executions then extend the log so (`steps_extend`): the view
at the end is what the observer makes of the new entries, each of which is admitted where it stands.
-/

namespace EventSourcing
open TransitionSystem
set_option autoImplicit false

variable {σ α ε V : Type*}

structure Reading (σ ε V : Type*) where
  log : σ → List ε
  view : σ → V
  see : V → ε → V
  Admits : V → ε → Prop

namespace Reading
variable (R : Reading σ ε V)

def replay (v : V) (es : List ε) : V := es.foldl R.see v

theorem replay_append (v : V) (es fs : List ε) :
    R.replay v (es ++ fs) = R.replay (R.replay v es) fs := List.foldl_append

/-- Every entry is admitted by the observer of the entries in front of it. -/
def Admitted : V → List ε → Prop
  | _, [] => True
  | v, e :: es => R.Admits v e ∧ Admitted (R.see v e) es

theorem admitted_append (v : V) (es fs : List ε) :
    R.Admitted v (es ++ fs) ↔ R.Admitted v es ∧ R.Admitted (R.replay v es) fs := by
  induction es generalizing v with
  | nil => exact (and_iff_right trivial).symm
  | cons e es ih =>
    rw [List.cons_append, Admitted, Admitted, ih, and_assoc]
    rfl

theorem admitted_iff (v : V) (es : List ε) :
    R.Admitted v es ↔ ∀ pre e post, es = pre ++ e :: post → R.Admits (R.replay v pre) e := by
  constructor
  · rintro h pre e post rfl
    exact ((R.admitted_append v pre (e :: post)).mp h).2.1
  · intro h
    induction es generalizing v with
    | nil => trivial
    | cons e es ih =>
      refine ⟨h [] e es rfl, ih _ ?_⟩
      rintro pre f post rfl
      exact h (e :: pre) f post rfl

/-- What a step may do to the log. -/
inductive Logs (s t : σ) : Prop
  | silent (hlog : R.log t = R.log s) (hview : R.view t = R.view s)
  | entry (e : ε) (hlog : R.log t = R.log s ++ [e]) (hview : R.view t = R.see (R.view s) e)
      (hadmits : R.Admits (R.view s) e)

/-- The entries `es` lead the log and the view of `s` to those of `t`. -/
structure Extends (s t : σ) (es : List ε) : Prop where
  log : R.log t = R.log s ++ es
  view : R.view t = R.replay (R.view s) es
  admitted : R.Admitted (R.view s) es

variable {R}

theorem Extends.refl (s : σ) : R.Extends s s [] := ⟨(List.append_nil _).symm, rfl, trivial⟩

theorem Extends.trans {s t u : σ} {es fs : List ε} (h : R.Extends s t es)
    (h' : R.Extends t u fs) : R.Extends s u (es ++ fs) := by
  refine ⟨?_, ?_, ?_⟩
  · rw [h'.log, h.log, List.append_assoc]
  · rw [h'.view, h.view, R.replay_append]
  · refine (R.admitted_append _ es fs).mpr ⟨h.admitted, ?_⟩
    rw [← h.view]
    exact h'.admitted

theorem Logs.extends {s t : σ} (h : R.Logs s t) : ∃ es, R.Extends s t es := by
  cases h with
  | silent hlog hview =>
    exact ⟨[], by rw [hlog, List.append_nil], hview, trivial⟩
  | entry e hlog hview hadmits =>
    exact ⟨[e], hlog, hview, hadmits, trivial⟩

/-- **The log rule.** Steps that log, under an invariant that they keep, extend the log. -/
theorem steps_extend {step : σ → α → σ → Prop} {I : σ → Prop}
    (hstep : ∀ s a t, step s a t → I s → I t ∧ R.Logs s t) {s t : σ} {as : List α}
    (h : Steps step s as t) (hs : I s) : ∃ es, R.Extends s t es := by
  induction h with
  | nil s => exact ⟨[], .refl s⟩
  | cons ha _ ih =>
    obtain ⟨hI, hlogs⟩ := hstep _ _ _ ha hs
    obtain ⟨es, hes⟩ := hlogs.extends
    obtain ⟨fs, hfs⟩ := ih hI
    exact ⟨es ++ fs, hes.trans hfs⟩

end Reading

end EventSourcing
