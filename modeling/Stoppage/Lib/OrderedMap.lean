import Mathlib.Tactic
import Mathlib.Data.List.Nodup

/-! # Maps in insertion order

A finite map that remembers the order in which its keys came in: `set` on a known key keeps its
place, on a new key it appends. Each key has one entry.
-/

structure OrderedMap (κ ν : Type*) where
  entries : List (κ × ν)
  nodup : (entries.map Prod.fst).Nodup

namespace OrderedMap
set_option autoImplicit false

variable {κ ν : Type*} [DecidableEq κ]

def empty : OrderedMap κ ν := ⟨[], List.nodup_nil⟩

def get (m : OrderedMap κ ν) (k : κ) : Option ν := (m.entries.find? fun e => e.1 = k).map Prod.snd

/-- The entries after a `set`. -/
def put (k : κ) (v : ν) : List (κ × ν) → List (κ × ν)
  | [] => [(k, v)]
  | e :: es => if e.1 = k then (k, v) :: es else e :: put k v es

theorem mem_keys_put {k k' : κ} {v : ν} {es : List (κ × ν)} :
    k' ∈ (put k v es).map Prod.fst ↔ k' = k ∨ k' ∈ es.map Prod.fst := by
  induction es with
  | nil => simp [put]
  | cons e es ih =>
    unfold put
    split
    · rename_i hk
      subst hk
      simp
    · rw [List.map_cons, List.mem_cons, ih, List.map_cons, List.mem_cons]
      tauto

theorem put_of_not_mem {k : κ} {es : List (κ × ν)} (h : k ∉ es.map Prod.fst) (v : ν) :
    put k v es = es ++ [(k, v)] := by
  induction es with
  | nil => rfl
  | cons e es ih =>
    rw [List.map_cons, List.mem_cons, not_or] at h
    rw [put, if_neg (Ne.symm h.1), ih h.2, List.cons_append]

theorem nodup_put (k : κ) (v : ν) {es : List (κ × ν)} (h : (es.map Prod.fst).Nodup) :
    ((put k v es).map Prod.fst).Nodup := by
  induction es with
  | nil => simp [put]
  | cons e es ih =>
    obtain ⟨hnot, hes⟩ := List.nodup_cons.mp h
    unfold put
    split
    · rename_i hk
      subst hk
      exact List.nodup_cons.mpr ⟨hnot, hes⟩
    · rename_i hk
      refine List.nodup_cons.mpr ⟨fun hmem => ?_, ih hes⟩
      rcases mem_keys_put.mp hmem with he | he
      · exact hk he
      · exact hnot he

def set (m : OrderedMap κ ν) (k : κ) (v : ν) : OrderedMap κ ν :=
  ⟨put k v m.entries, nodup_put k v m.nodup⟩

def delete (m : OrderedMap κ ν) (k : κ) : OrderedMap κ ν where
  entries := m.entries.filter fun e => e.1 ≠ k
  nodup := m.nodup.sublist (List.filter_sublist.map Prod.fst)

def filter (m : OrderedMap κ ν) (p : κ → ν → Bool) : OrderedMap κ ν where
  entries := m.entries.filter fun e => p e.1 e.2
  nodup := m.nodup.sublist (List.filter_sublist.map Prod.fst)

section Lookup
variable {m : OrderedMap κ ν} {k k' : κ} {v w : ν}

theorem find?_put_self {es : List (κ × ν)} :
    (put k v es).find? (fun e => e.1 = k) = some (k, v) := by
  induction es with
  | nil => simp [put]
  | cons e es ih =>
    unfold put
    split
    · simp
    · rename_i hk
      rw [List.find?_cons_of_neg (by simpa using hk), ih]

theorem find?_put_of_ne (h : k' ≠ k) {es : List (κ × ν)} :
    (put k v es).find? (fun e => e.1 = k') = es.find? (fun e => e.1 = k') := by
  induction es with
  | nil => simp [put, h.symm]
  | cons e es ih =>
    unfold put
    split
    · rename_i hk
      rw [List.find?_cons_of_neg (by simpa using h.symm),
        List.find?_cons_of_neg (by simpa [hk] using h.symm)]
    · by_cases he : e.1 = k'
      · rw [List.find?_cons_of_pos (by simpa using he), List.find?_cons_of_pos (by simpa using he)]
      · rw [List.find?_cons_of_neg (by simpa using he), List.find?_cons_of_neg (by simpa using he),
          ih]

@[simp] theorem get_set_self : (m.set k v).get k = some v := by
  rw [get, set, find?_put_self]
  rfl

theorem get_set_of_ne (h : k' ≠ k) : (m.set k v).get k' = m.get k' := by
  rw [get, set, find?_put_of_ne h, get]

theorem get_eq_some_iff : m.get k = some v ↔ (k, v) ∈ m.entries := by
  constructor
  · intro h
    obtain ⟨e, he, rfl⟩ := Option.map_eq_some_iff.mp h
    have hk := List.find?_some he
    simp only [decide_eq_true_eq] at hk
    subst hk
    exact List.mem_of_find?_eq_some he
  · intro h
    have hsome : (m.entries.find? fun e => e.1 = k).isSome :=
      List.find?_isSome.mpr ⟨_, h, decide_eq_true rfl⟩
    obtain ⟨e, he⟩ := Option.isSome_iff_exists.mp hsome
    have hk := List.find?_some he
    simp only [decide_eq_true_eq] at hk
    have hsame : e = (k, v) :=
      List.inj_on_of_nodup_map m.nodup (List.mem_of_find?_eq_some he) h hk
    rw [get, he, hsame]
    rfl

theorem get_delete_eq_some_iff : (m.delete k).get k' = some v ↔ k' ≠ k ∧ m.get k' = some v := by
  rw [get_eq_some_iff, get_eq_some_iff, delete, List.mem_filter, decide_eq_true_eq]
  exact and_comm

theorem get_filter_eq_some_iff {p : κ → ν → Bool} :
    (m.filter p).get k = some v ↔ m.get k = some v ∧ p k v = true := by
  rw [get_eq_some_iff, get_eq_some_iff, filter, List.mem_filter]

theorem get_delete_of_ne (h : k' ≠ k) : (m.delete k).get k' = m.get k' := by
  ext v
  rw [get_delete_eq_some_iff]
  exact and_iff_right h

end Lookup

end OrderedMap
