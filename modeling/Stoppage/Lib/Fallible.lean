import Mathlib.Tactic

/-! # Fallible computations and checked fixed-width arithmetic

Reading a computation in `Except ε` backwards: each rule turns "this step returned `ok`" into
what the step checked and what it returned, so that a guarded handler is inverted by one
`simp only` with the rules of its steps. The arithmetic is the checked arithmetic of a build with
overflow checks on: a sum, difference or product that does not fit aborts with the given error.
-/

namespace Fallible
set_option autoImplicit false

universe u v

section Rules
variable {ε : Type u} {α β : Type v}

theorem bind_eq_ok {x : Except ε α} {f : α → Except ε β} {b : β} :
    (x >>= f) = .ok b ↔ ∃ a, x = .ok a ∧ f a = .ok b := by
  cases x with
  | error e => simp [bind, Except.bind]
  | ok a => simp [bind, Except.bind]

theorem pure_eq_ok {a b : α} : (pure a : Except ε α) = .ok b ↔ a = b := by
  simp [pure, Except.pure]

theorem ok_bind {a : α} {f : α → Except ε β} : ((.ok a : Except ε α) >>= f) = f a := rfl

theorem map_eq_ok {x : Except ε α} {f : α → β} {b : β} :
    f <$> x = .ok b ↔ ∃ a, x = .ok a ∧ f a = b := by
  cases x with
  | error e => simp [Functor.map, Except.map]
  | ok a => simp [Functor.map, Except.map]

theorem exists_of_isOk {x : Except ε α} (h : x.isOk = true) : ∃ a, x = .ok a := by
  cases x with
  | error e => cases h
  | ok a => exact ⟨a, rfl⟩

theorem bind_eq_error {x : Except ε α} {f : α → Except ε β} {e : ε} :
    (x >>= f) = .error e ↔ x = .error e ∨ ∃ a, x = .ok a ∧ f a = .error e := by
  cases x with
  | error e' => simp [bind, Except.bind]
  | ok a => simp [bind, Except.bind]

/-- A guard: the computation goes on only when the condition holds. -/
def require (c : Prop) [Decidable c] (e : ε) : Except ε Unit := if c then .ok () else .error e

theorem require_eq_ok {c : Prop} [Decidable c] {e : ε} {u : Unit} :
    require c e = .ok u ↔ c := by
  unfold require
  split <;> simp_all

theorem require_of {c : Prop} [Decidable c] {e : ε} (h : c) : require c e = .ok () :=
  if_pos h

theorem require_eq_error {c : Prop} [Decidable c] {e e' : ε} :
    require c e = .error e' ↔ ¬ c ∧ e = e' := by
  unfold require
  split <;> simp_all

def getOr (e : ε) : Option α → Except ε α
  | none => .error e
  | some a => .ok a

theorem getOr_eq_ok {e : ε} {o : Option α} {a : α} : getOr e o = .ok a ↔ o = some a := by
  cases o <;> simp [getOr]

theorem getOr_eq_error {e e' : ε} {o : Option α} : getOr e o = .error e' ↔ o = none ∧ e = e' := by
  cases o <;> simp [getOr]

@[simp] theorem getOr_some {e : ε} {a : α} : getOr e (some a) = .ok a := rfl

/-! Peeling off the first step of a computation that failed with an error of a later one. -/

theorem of_bind_error {x : Except ε α} {f : α → Except ε β} {e : ε} (h : (x >>= f) = .error e)
    (hne : x ≠ .error e) : ∃ a, x = .ok a ∧ f a = .error e := by
  rcases bind_eq_error.mp h with hx | hf
  · exact absurd hx hne
  · exact hf

theorem of_getOr_bind_error {e e' : ε} {o : Option α} {f : α → Except ε β}
    (h : (getOr e o >>= f) = .error e') (hne : e ≠ e') : ∃ a, o = some a ∧ f a = .error e' := by
  obtain ⟨a, ha, hf⟩ := of_bind_error h fun hx => hne (getOr_eq_error.mp hx).2
  exact ⟨a, getOr_eq_ok.mp ha, hf⟩

/-! An error that no step of a computation has is none of the computation. -/

theorem bind_ne_error {x : Except ε α} {f : α → Except ε β} {e : ε} (hx : x ≠ .error e)
    (hf : ∀ a, x = .ok a → f a ≠ .error e) : (x >>= f) ≠ .error e := by
  intro h
  rcases bind_eq_error.mp h with h | ⟨a, ha, h⟩
  · exact hx h
  · exact hf a ha h

theorem require_ne_error {c : Prop} [Decidable c] {e e' : ε} (h : c ∨ e ≠ e') :
    require c e ≠ .error e' := by
  intro herror
  obtain ⟨hc, heq⟩ := require_eq_error.mp herror
  rcases h with h | h
  · exact hc h
  · exact h heq

theorem ok_ne_error {a : α} {e : ε} : (.ok a : Except ε α) ≠ .error e := by simp

theorem pure_ne_error {a : α} {e : ε} : (pure a : Except ε α) ≠ .error e := ok_ne_error

theorem getOr_ne_error {e e' : ε} {o : Option α} (h : e ≠ e') : getOr e o ≠ .error e' :=
  fun herror => h (getOr_eq_error.mp herror).2

end Rules

theorem of_require_bind_error {ε : Type u} {β : Type} {c : Prop} [Decidable c] {e e' : ε}
    {f : Unit → Except ε β} (h : (require c e >>= f) = .error e') (hne : e ≠ e') :
    c ∧ f () = .error e' := by
  obtain ⟨u, hu, hf⟩ := of_bind_error h fun hx => hne (require_eq_error.mp hx).2
  exact ⟨require_eq_ok.mp hu, hf⟩

section Checked
variable {ε : Type u}

/-- Unsigned 64-bit addition that aborts on overflow. -/
def checkedAdd (e : ε) (a b : UInt64) : Except ε UInt64 :=
  if a.toNat + b.toNat < 2 ^ 64 then .ok (a + b) else .error e

theorem checkedAdd_eq_ok {e : ε} {a b c : UInt64} :
    checkedAdd e a b = .ok c ↔ c.toNat = a.toNat + b.toNat := by
  have hc := c.toNat_lt
  unfold checkedAdd
  split
  · rename_i h
    rw [Except.ok.injEq, ← UInt64.toNat_inj, UInt64.toNat_add, Nat.mod_eq_of_lt h]
    exact eq_comm
  · simp only [reduceCtorEq, false_iff]
    omega

theorem checkedAdd_eq_error {e e' : ε} {a b : UInt64} :
    checkedAdd e a b = .error e' ↔ 2 ^ 64 ≤ a.toNat + b.toNat ∧ e = e' := by
  unfold checkedAdd
  split <;> simp_all

def checkedSub (e : ε) (a b : UInt64) : Except ε UInt64 :=
  if b.toNat ≤ a.toNat then .ok (a - b) else .error e

theorem checkedSub_eq_ok {e : ε} {a b c : UInt64} :
    checkedSub e a b = .ok c ↔ c.toNat + b.toNat = a.toNat := by
  unfold checkedSub
  split
  · rename_i h
    rw [Except.ok.injEq, ← UInt64.toNat_inj,
      UInt64.toNat_sub_of_le _ _ (UInt64.le_iff_toNat_le.mpr h)]
    omega
  · simp only [reduceCtorEq, false_iff]
    omega

theorem checkedSub_eq_error {e e' : ε} {a b : UInt64} :
    checkedSub e a b = .error e' ↔ a.toNat < b.toNat ∧ e = e' := by
  unfold checkedSub
  split <;> simp_all

def checkedAdd32 (e : ε) (a b : UInt32) : Except ε UInt32 :=
  if a.toNat + b.toNat < 2 ^ 32 then .ok (a + b) else .error e

/-- Unsigned 128-bit multiplication, on values carried as naturals, that aborts on overflow. -/
def checkedMul128 (e : ε) (a b : ℕ) : Except ε ℕ :=
  if a * b < 2 ^ 128 then .ok (a * b) else .error e

theorem checkedMul128_eq_ok {e : ε} {a b c : ℕ} :
    checkedMul128 e a b = .ok c ↔ a * b < 2 ^ 128 ∧ c = a * b := by
  unfold checkedMul128
  split <;> simp_all [eq_comm]

theorem checkedMul128_of_u64 {e : ε} {a b : ℕ} (ha : a < 2 ^ 64) (hb : b < 2 ^ 64) :
    checkedMul128 e a b = .ok (a * b) := by
  rw [checkedMul128_eq_ok]
  refine ⟨?_, rfl⟩
  calc a * b < 2 ^ 64 * 2 ^ 64 := Nat.mul_lt_mul'' ha hb
    _ = 2 ^ 128 := by norm_num

def checkedAddInt (e : ε) (a b : Int64) : Except ε Int64 :=
  if -2 ^ 63 ≤ a.toInt + b.toInt ∧ a.toInt + b.toInt < 2 ^ 63 then
    .ok (Int64.ofInt (a.toInt + b.toInt)) else .error e

theorem checkedAddInt_eq_ok {e : ε} {a b c : Int64} :
    checkedAddInt e a b = .ok c ↔ c.toInt = a.toInt + b.toInt := by
  have hl := c.le_toInt
  have hu := c.toInt_lt
  unfold checkedAddInt
  split
  · rename_i h
    rw [Except.ok.injEq, ← Int64.toInt_inj, Int64.toInt_ofInt_of_le h.1 h.2]
    exact eq_comm
  · simp only [reduceCtorEq, false_iff]
    omega

theorem exists_toInt {n : ℤ} (hlow : -2 ^ 63 ≤ n) (hhigh : n < 2 ^ 63) : ∃ x : Int64, x.toInt = n :=
  ⟨_, Int64.toInt_ofInt_of_le hlow hhigh⟩

theorem exists_checkedAddInt {e : ε} {a b : Int64} (hlow : -2 ^ 63 ≤ a.toInt + b.toInt)
    (hhigh : a.toInt + b.toInt < 2 ^ 63) :
    ∃ c, checkedAddInt e a b = .ok c ∧ c.toInt = a.toInt + b.toInt := by
  obtain ⟨c, hc⟩ := exists_toInt hlow hhigh
  exact ⟨c, checkedAddInt_eq_ok.mpr hc, hc⟩

/-- The end of a window that is given in unsigned 32-bit seconds. -/
theorem checkedAddInt_u32_eq_ok {e : ε} {a c : Int64} {w : UInt32} :
    checkedAddInt e a (Int64.ofNat w.toNat) = .ok c ↔ c.toInt = a.toInt + w.toNat := by
  have hw : w.toNat < 2 ^ 63 := by
    have := w.toNat_lt
    omega
  rw [checkedAddInt_eq_ok, Int64.toInt_ofNat_of_lt hw]

theorem toNat_ofNat_of_lt {n : ℕ} (h : n < 2 ^ 64) : (UInt64.ofNat n).toNat = n := by
  rw [UInt64.toNat_ofNat', Nat.mod_eq_of_lt h]

end Checked

end Fallible
