import Mathlib.Data.List.Nodup
import Mathlib.Tactic.Common

/-! # Lookups by rules in order

A list is searched by one rule after the other, and the first rule that finds anything decides.
-/

namespace Lookup
set_option autoImplicit false

variable {α : Type*} {p : α → Bool} {rules : List (α → Bool)} {xs : List α} {x : α}

/-- `xs.find(p) ?? xs.find(q) ?? …` -/
def firstBy (rules : List (α → Bool)) (xs : List α) : Option α :=
  rules.findSome? fun p => xs.find? p

def First (p : α → Bool) (xs : List α) (x : α) : Prop :=
  ∃ before after, xs = before ++ x :: after ∧ p x = true ∧ ∀ y ∈ before, p y = false

def Misses (p : α → Bool) (xs : List α) : Prop := ∀ y ∈ xs, p y = false

/-- The element is the first under the first rule that any element matches. -/
inductive Picks (xs : List α) (x : α) : List (α → Bool) → Prop
  | here {p : α → Bool} {rules : List (α → Bool)} : First p xs x → Picks xs x (p :: rules)
  | later {p : α → Bool} {rules : List (α → Bool)} :
      Misses p xs → Picks xs x rules → Picks xs x (p :: rules)

theorem find?_eq_some : xs.find? p = some x ↔ First p xs x := by
  rw [List.find?_eq_some_iff_append]
  constructor
  · rintro ⟨hx, before, after, hxs, hbefore⟩
    exact ⟨before, after, hxs, hx, fun y hy => by simpa using hbefore y hy⟩
  · rintro ⟨before, after, hxs, hx, hbefore⟩
    exact ⟨hx, before, after, hxs, fun y hy => by simp [hbefore y hy]⟩

theorem find?_eq_none : xs.find? p = none ↔ Misses p xs := by
  rw [List.find?_eq_none]
  exact forall₂_congr fun y _ => Bool.not_eq_true (p y) ▸ Iff.rfl

theorem First.match (h : First p xs x) : p x = true := by
  obtain ⟨_, _, _, hx, _⟩ := h
  exact hx

theorem First.mem (h : First p xs x) : x ∈ xs := by
  obtain ⟨before, after, rfl, _⟩ := h
  exact List.mem_append_right _ List.mem_cons_self

theorem First.not_misses (h : First p xs x) : ¬ Misses p xs := by
  intro hmiss
  exact absurd ((hmiss x h.mem).symm.trans h.match) Bool.false_ne_true

theorem firstBy_cons : firstBy (p :: rules) xs = (xs.find? p).or (firstBy rules xs) := by
  rw [firstBy, List.findSome?_cons]
  cases xs.find? p <;> rfl

theorem firstBy_eq_some : firstBy rules xs = some x ↔ Picks xs x rules := by
  induction rules with
  | nil =>
    constructor
    · intro h
      cases h
    · intro h
      cases h
  | cons p rules ih =>
    rw [firstBy_cons]
    constructor
    · intro h
      cases hfind : xs.find? p with
      | none =>
        rw [hfind] at h
        exact .later (find?_eq_none.mp hfind) (ih.mp h)
      | some y =>
        rw [hfind, Option.some_or] at h
        cases h
        exact .here (find?_eq_some.mp hfind)
    · intro h
      cases h with
      | here hfirst => rw [find?_eq_some.mpr hfirst, Option.some_or]
      | later hmiss hrest => rw [find?_eq_none.mpr hmiss, Option.none_or, ih.mpr hrest]

theorem firstBy_eq_none : firstBy rules xs = none ↔ ∀ p ∈ rules, Misses p xs := by
  rw [firstBy, List.findSome?_eq_none_iff]
  exact forall₂_congr fun _ _ => find?_eq_none

theorem Picks.match (h : Picks xs x rules) : ∃ p ∈ rules, p x = true := by
  induction h with
  | here hfirst => exact ⟨_, List.mem_cons_self, hfirst.match⟩
  | later _ _ ih =>
    obtain ⟨p, hp, hx⟩ := ih
    exact ⟨p, List.mem_cons_of_mem _ hp, hx⟩

/-- Two lookups that start with the same rule part only where that rule finds nothing. -/
theorem Picks.both_cons {other : List (α → Bool)} :
    Picks xs x (p :: rules) ∧ Picks xs x (p :: other) ↔
      First p xs x ∨ Misses p xs ∧ Picks xs x rules ∧ Picks xs x other := by
  constructor
  · rintro ⟨h, h'⟩
    cases h with
    | here hfirst => exact .inl hfirst
    | later hmiss hrules =>
      cases h' with
      | here hfirst => exact absurd hmiss hfirst.not_misses
      | later _ hother => exact .inr ⟨hmiss, hrules, hother⟩
  · rintro (hfirst | ⟨hmiss, hrules, hother⟩)
    · exact ⟨.here hfirst, .here hfirst⟩
    · exact ⟨.later hmiss hrules, .later hmiss hother⟩

theorem Picks.singleton : Picks xs x [p] ↔ First p xs x := by
  constructor
  · intro h
    cases h with
    | here hfirst => exact hfirst
    | later _ hrest => cases hrest
  · exact .here

/-- When two lookups answer alike: no rule of the one that accepts more finds anything, or both
pick the same element. -/
theorem firstBy_eq_iff {other : List (α → Bool)}
    (hsub : ∀ q ∈ other, ∀ y, q y = true → ∃ p ∈ rules, p y = true) :
    firstBy rules xs = firstBy other xs ↔
      (∀ p ∈ rules, Misses p xs) ∨ ∃ x, Picks xs x rules ∧ Picks xs x other := by
  constructor
  · intro h
    cases hfirst : firstBy rules xs with
    | none => exact .inl (firstBy_eq_none.mp hfirst)
    | some x => exact .inr ⟨x, firstBy_eq_some.mp hfirst, firstBy_eq_some.mp (h.symm.trans hfirst)⟩
  · rintro (hnone | ⟨x, hx, hx'⟩)
    · rw [firstBy_eq_none.mpr hnone, eq_comm, firstBy_eq_none]
      intro q hq y hy
      cases hmatch : q y with
      | false => rfl
      | true =>
        obtain ⟨p, hp, hpy⟩ := hsub q hq y hmatch
        exact absurd ((hnone p hp y hy).symm.trans hpy) Bool.false_ne_true
    · rw [firstBy_eq_some.mpr hx, firstBy_eq_some.mpr hx']

/-! ## Distinct keys -/

/-- The entry with a key, in a list whose keys are distinct. -/
theorem find?_key {K : Type*} [DecidableEq K] {key : α → K} (h : (xs.map key).Nodup) {k : K} :
    xs.find? (fun y => k = key y) = some x ↔ x ∈ xs ∧ key x = k := by
  constructor
  · intro hfind
    have hkey := List.find?_some hfind
    exact ⟨List.mem_of_find?_eq_some hfind, (of_decide_eq_true hkey).symm⟩
  · rintro ⟨hx, rfl⟩
    cases hfind : xs.find? (fun y => key x = key y) with
    | none =>
      have hnone := List.find?_eq_none.mp hfind x hx
      exact absurd (decide_eq_true rfl) hnone
    | some y =>
      have hsome := List.find?_some hfind
      have hkey : key x = key y := of_decide_eq_true hsome
      rw [List.inj_on_of_nodup_map h hx (List.mem_of_find?_eq_some hfind) hkey]

end Lookup
