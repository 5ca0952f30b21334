import Mathlib.Data.List.Basic
import Mathlib.Tactic.Common

/-! # Polling until a deadline

Attempts are made one after the other until one has an answer. Whether it is too late is asked
before each attempt and never after one, so that an answer may come in however late.
-/

namespace Polling
set_option autoImplicit false

variable {α β : Type*} {late : α → Bool} {answer : α → Option β} {a : α} {as : List α} {b c : β}

inductive Result (β : Type*)
  | found (b : β)
  | expired
  | waiting

def poll (late : α → Bool) (answer : α → Option β) : List α → Result β
  | [] => .waiting
  | a :: as =>
    if late a then .expired
    else match answer a with
      | some b => .found b
      | none => poll late answer as

/-- The first answer, with no check before it too late. -/
def Finds (late : α → Bool) (answer : α → Option β) (as : List α) (b : β) : Prop :=
  ∃ before a after, as = before ++ a :: after ∧
    (∀ x ∈ before, late x = false ∧ answer x = none) ∧ late a = false ∧ answer a = some b

theorem not_finds_nil : ¬ Finds late answer [] b := by
  rintro ⟨before, a, after, has, -⟩
  cases before <;> cases has

theorem finds_cons : Finds late answer (a :: as) b ↔
    late a = false ∧ (answer a = some b ∨ answer a = none ∧ Finds late answer as b) := by
  constructor
  · rintro ⟨before, x, after, has, hbefore, hlate, hanswer⟩
    cases before with
    | nil =>
      obtain ⟨rfl, -⟩ := List.cons.inj has
      exact ⟨hlate, .inl hanswer⟩
    | cons y before =>
      obtain ⟨rfl, hrest⟩ := List.cons.inj has
      obtain ⟨hin, hnone⟩ := hbefore a (.head _)
      exact ⟨hin, .inr ⟨hnone, before, x, after, hrest,
        fun z hz => hbefore z (.tail _ hz), hlate, hanswer⟩⟩
  · rintro ⟨hin, hanswer | ⟨hnone, before, x, after, has, hbefore, hlate, hanswer⟩⟩
    · exact ⟨[], a, as, rfl, fun x hx => absurd hx List.not_mem_nil, hin, hanswer⟩
    · refine ⟨a :: before, x, after, congrArg _ has, ?_, hlate, hanswer⟩
      intro z hz
      rcases List.mem_cons.mp hz with rfl | hz
      · exact ⟨hin, hnone⟩
      · exact hbefore z hz

/-- The loop ends with an answer exactly where that is the first one. -/
theorem poll_eq_found : poll late answer as = .found b ↔ Finds late answer as b := by
  induction as with
  | nil => simp [poll, not_finds_nil]
  | cons a as ih =>
    rw [finds_cons, poll]
    cases hlate : late a with
    | true => simp
    | false =>
      cases hanswer : answer a with
      | some c => simp
      | none => simp [ih]

theorem Finds.unique (hb : Finds late answer as b) (hc : Finds late answer as c) : b = c := by
  have h := (poll_eq_found.mpr hb).symm.trans (poll_eq_found.mpr hc)
  cases h
  rfl

end Polling
