import Mathlib.Data.List.Nodup
import Mathlib.Data.List.Perm.Basic

/-! # Registers with the last write

Values name the register that they are written to. A log has for a register the last value written
to it; a table has one value at most for each register, in any order. A table that takes the writes
of a log, each time rearranged at will, shows the last writes.
-/

namespace LastWrite
set_option autoImplicit false

variable {κ ν : Type*} (reg : ν → κ)

/-- One value at most for each register. -/
def IsTable (vs : List ν) : Prop := (vs.map reg).Nodup

theorem isTable_nil : IsTable reg [] := List.nodup_nil

theorem IsTable.perm {reg : ν → κ} {vs ws : List ν} (h : IsTable reg vs) (hperm : ws.Perm vs) :
    IsTable reg ws :=
  (hperm.map reg).nodup_iff.mpr h

theorem IsTable.sublist {reg : ν → κ} {vs ws : List ν} (h : IsTable reg vs)
    (hsub : ws.Sublist vs) : IsTable reg ws :=
  List.Nodup.sublist (hsub.map reg) h

variable [DecidableEq κ]

/-- The last write of a log to a register. -/
def last (k : κ) (log : List ν) : Option ν := log.reverse.find? fun v => reg v = k

/-- The value of a register in a table. -/
def held (k : κ) (table : List ν) : Option ν := table.find? fun v => reg v = k

def put (table : List ν) (v : ν) : List ν := table.filter (fun w => reg w ≠ reg v) ++ [v]

variable {reg} {k : κ} {v w : ν} {vs ws : List ν}

@[simp] theorem last_nil : last reg k [] = none := rfl

theorem last_append : last reg k (vs ++ ws) = (last reg k ws).or (last reg k vs) := by
  rw [last, List.reverse_append, List.find?_append, last, last]

theorem last_singleton : last reg k [v] = if reg v = k then some v else none := by
  rw [last, List.reverse_singleton, List.find?_singleton]
  simp only [decide_eq_true_iff]

theorem last_eq_none_iff : last reg k vs = none ↔ ∀ v ∈ vs, reg v ≠ k := by
  simp [last, List.find?_eq_none]

theorem of_last (h : last reg k vs = some v) : v ∈ vs ∧ reg v = k :=
  ⟨List.mem_reverse.mp (List.mem_of_find?_eq_some h), of_decide_eq_true (List.find?_some h :)⟩

theorem of_held (h : held reg k vs = some v) : v ∈ vs ∧ reg v = k :=
  ⟨List.mem_of_find?_eq_some h, of_decide_eq_true (List.find?_some h :)⟩

theorem held_eq_none_iff : held reg k vs = none ↔ ∀ v ∈ vs, reg v ≠ k := by
  simp [held, List.find?_eq_none]

/-! ## Tables -/

theorem IsTable.held_eq_some_iff (h : IsTable reg vs) :
    held reg k vs = some v ↔ v ∈ vs ∧ reg v = k := by
  refine ⟨of_held, ?_⟩
  rintro ⟨hv, rfl⟩
  cases hheld : held reg (reg v) vs with
  | none => exact absurd rfl (held_eq_none_iff.mp hheld v hv)
  | some w =>
    obtain ⟨hw, hreg⟩ := of_held hheld
    rw [List.inj_on_of_nodup_map h hw hv hreg]

/-- What a table holds does not depend on its order. -/
theorem IsTable.held_perm (h : IsTable reg vs) (hperm : ws.Perm vs) :
    held reg k ws = held reg k vs := by
  ext v
  rw [(h.perm hperm).held_eq_some_iff, h.held_eq_some_iff, hperm.mem_iff]

theorem IsTable.put (h : IsTable reg vs) (v : ν) : IsTable reg (LastWrite.put reg vs v) := by
  rw [IsTable, LastWrite.put, List.map_append, List.map_singleton]
  refine List.nodup_append.mpr ⟨?_, List.nodup_singleton _, ?_⟩
  · exact IsTable.sublist h List.filter_sublist
  · intro a ha b hb
    obtain ⟨w, hw, rfl⟩ := List.mem_map.mp ha
    rw [List.mem_singleton.mp hb]
    exact of_decide_eq_true (List.mem_filter.mp hw).2

theorem IsTable.held_put (h : IsTable reg vs) :
    held reg k (LastWrite.put reg vs v) = if reg v = k then some v else held reg k vs := by
  ext w
  rw [(h.put v).held_eq_some_iff, LastWrite.put, List.mem_append, List.mem_filter,
    List.mem_singleton, decide_eq_true_iff]
  split_ifs with hk
  · subst hk
    rw [Option.some_inj]
    constructor
    · rintro ⟨⟨-, hne⟩ | rfl, hreg⟩
      · exact absurd hreg hne
      · rfl
    · rintro rfl
      exact ⟨.inr rfl, rfl⟩
  · rw [h.held_eq_some_iff]
    constructor
    · rintro ⟨⟨hw, -⟩ | rfl, hreg⟩
      · exact ⟨hw, hreg⟩
      · exact absurd hreg hk
    · rintro ⟨hw, rfl⟩
      exact ⟨.inl ⟨hw, Ne.symm hk⟩, rfl⟩

/-- **A table that takes the writes of a log.** `step` puts a value and rearranges. -/
theorem IsTable.foldl {step : List ν → ν → List ν}
    (hstep : ∀ table v, (step table v).Perm (LastWrite.put reg table v)) (h : IsTable reg vs)
    (log : List ν) :
    IsTable reg (log.foldl step vs) ∧
      ∀ k, held reg k (log.foldl step vs) = (last reg k log).or (held reg k vs) := by
  induction log generalizing vs with
  | nil => exact ⟨h, fun _ => rfl⟩
  | cons v log ih =>
    obtain ⟨htable, hheld⟩ := ih ((h.put v).perm (hstep vs v))
    refine ⟨htable, fun k => ?_⟩
    rw [List.foldl_cons, hheld, (h.put v).held_perm (hstep vs v), h.held_put,
      ← List.singleton_append, last_append, last_singleton, Option.or_assoc]
    split_ifs
    · rfl
    · rfl

end LastWrite
