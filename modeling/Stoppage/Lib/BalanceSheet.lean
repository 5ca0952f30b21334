import Stoppage.Lib.Fallible

/-! # Balance sheets

A balance sheet is a function from account keys to unsigned 64-bit balances. A debit and a credit
are checked, each changes one entry, and a transfer is one after the other. `total` is the amount
of money on the sheet: a debit lowers it, a credit raises it, a transfer keeps it, and no balance
exceeds it.
-/

namespace BalanceSheet
open Fallible
set_option autoImplicit false
set_option linter.unusedSectionVars false

/-! ## Sums of functions that differ in one place -/

theorem sum_add_of_off {K : Type*} [Fintype K] [DecidableEq K] {f g : K → ℕ} (i : K)
    (h : ∀ j, j ≠ i → g j = f j) : ∑ j, g j + f i = ∑ j, f j + g i := by
  have hf := Finset.add_sum_erase Finset.univ f (Finset.mem_univ i)
  have hg := Finset.add_sum_erase Finset.univ g (Finset.mem_univ i)
  have hoff : ∑ j ∈ Finset.univ.erase i, g j = ∑ j ∈ Finset.univ.erase i, f j :=
    Finset.sum_congr rfl fun j hj => h j (Finset.ne_of_mem_erase hj)
  omega

/-! ## Debits and credits -/

universe u
variable {ε : Type u} {K : Type} [DecidableEq K]

/-- Take `x` from the entry `a`. -/
def debit (e : ε) (l : K → UInt64) (a : K) (x : UInt64) : Except ε (K → UInt64) := do
  let b ← checkedSub e (l a) x
  pure (Function.update l a b)

/-- Add `x` to the entry `a`. -/
def credit (e : ε) (l : K → UInt64) (a : K) (x : UInt64) : Except ε (K → UInt64) := do
  let b ← checkedAdd e (l a) x
  pure (Function.update l a b)

/-- Move `x` from `a` to `b`: `short` when `a` has too little, `wide` when `b` overflows. -/
def transfer (short wide : ε) (l : K → UInt64) (a b : K) (x : UInt64) :
    Except ε (K → UInt64) := do
  let l ← debit short l a x
  credit wide l b x

/-- What a debit did. -/
structure Debited (l : K → UInt64) (a : K) (x : UInt64) (l' : K → UInt64) : Prop where
  entry : (l' a).toNat + x.toNat = (l a).toNat
  other : ∀ k, k ≠ a → l' k = l k

/-- What a credit did. -/
structure Credited (l : K → UInt64) (a : K) (x : UInt64) (l' : K → UInt64) : Prop where
  entry : (l' a).toNat = (l a).toNat + x.toNat
  other : ∀ k, k ≠ a → l' k = l k

theorem debit_ok {e : ε} {l l' : K → UInt64} {a : K} {x : UInt64}
    (h : debit e l a x = .ok l') : Debited l a x l' := by
  simp only [debit, bind_eq_ok, pure_eq_ok, checkedSub_eq_ok] at h
  obtain ⟨b, hb, rfl⟩ := h
  exact ⟨by simpa using hb, fun k hk => by simp [hk]⟩

theorem credit_ok {e : ε} {l l' : K → UInt64} {a : K} {x : UInt64}
    (h : credit e l a x = .ok l') : Credited l a x l' := by
  simp only [credit, bind_eq_ok, pure_eq_ok, checkedAdd_eq_ok] at h
  obtain ⟨b, hb, rfl⟩ := h
  exact ⟨by simpa using hb, fun k hk => by simp [hk]⟩

theorem exists_debit {e : ε} {l : K → UInt64} {a : K} {x : UInt64}
    (h : x.toNat ≤ (l a).toNat) : ∃ l', debit e l a x = .ok l' := by
  simp only [debit, checkedSub, if_pos h]
  exact ⟨_, rfl⟩

theorem exists_credit {e : ε} {l : K → UInt64} {a : K} {x : UInt64}
    (h : (l a).toNat + x.toNat < 2 ^ 64) : ∃ l', credit e l a x = .ok l' := by
  simp only [credit, checkedAdd, if_pos h]
  exact ⟨_, rfl⟩

theorem debit_eq_error {e e' : ε} {l : K → UInt64} {a : K} {x : UInt64} :
    debit e l a x = .error e' ↔ (l a).toNat < x.toNat ∧ e = e' := by
  simp [debit, bind_eq_error, checkedSub_eq_error, pure, Except.pure]

theorem credit_eq_error {e e' : ε} {l : K → UInt64} {a : K} {x : UInt64} :
    credit e l a x = .error e' ↔ 2 ^ 64 ≤ (l a).toNat + x.toNat ∧ e = e' := by
  simp [credit, bind_eq_error, checkedAdd_eq_error, pure, Except.pure]

/-- What a transfer did. -/
def Transferred (l : K → UInt64) (a b : K) (x : UInt64) (l' : K → UInt64) : Prop :=
  ∃ l₁, Debited l a x l₁ ∧ Credited l₁ b x l'

theorem transfer_ok {short wide : ε} {l l' : K → UInt64} {a b : K} {x : UInt64}
    (h : transfer short wide l a b x = .ok l') : Transferred l a b x l' := by
  simp only [transfer, bind_eq_ok] at h
  obtain ⟨l₁, h1, h2⟩ := h
  exact ⟨l₁, debit_ok h1, credit_ok h2⟩

namespace Transferred
variable {l l' : K → UInt64} {a b : K} {x : UInt64}

theorem le (h : Transferred l a b x l') {k : K} (hk : k ≠ a) : (l k).toNat ≤ (l' k).toNat := by
  obtain ⟨l₁, hd, hc⟩ := h
  have h1 := hd.other k hk
  by_cases hb : k = b
  · subst hb
    rw [hc.entry, h1]
    omega
  · rw [hc.other k hb, h1]

theorem other (h : Transferred l a b x l') {k : K} (ha : k ≠ a) (hb : k ≠ b) : l' k = l k := by
  obtain ⟨l₁, hd, hc⟩ := h
  rw [hc.other k hb, hd.other k ha]

theorem payee (h : Transferred l a b x l') (hab : b ≠ a) :
    (l' b).toNat = (l b).toNat + x.toNat := by
  obtain ⟨l₁, hd, hc⟩ := h
  rw [hc.entry, hd.other b hab]

theorem payer (h : Transferred l a b x l') (hab : a ≠ b) :
    (l' a).toNat + x.toNat = (l a).toNat := by
  obtain ⟨l₁, hd, hc⟩ := h
  rw [hc.other a hab]
  exact hd.entry

end Transferred

/-! ## The total -/

section Total
variable [Fintype K]

/-- The money on the sheet. -/
def total (l : K → UInt64) : ℕ := ∑ k, (l k).toNat

theorem le_total (l : K → UInt64) (a : K) : (l a).toNat ≤ total l :=
  Finset.single_le_sum (f := fun k => (l k).toNat) (fun _ _ => Nat.zero_le _) (Finset.mem_univ a)

theorem add_le_total (l : K → UInt64) {a b : K} (h : a ≠ b) :
    (l a).toNat + (l b).toNat ≤ total l := by
  have hle := Finset.sum_le_univ_sum_of_nonneg (s := {a, b}) (f := fun k => (l k).toNat)
    fun _ => Nat.zero_le _
  rwa [Finset.sum_pair h] at hle

theorem total_eq_sum {l : K → UInt64} (A : Finset K) (h : ∀ k, k ∉ A → l k = 0) :
    total l = ∑ k ∈ A, (l k).toNat := by
  refine (Finset.sum_subset (Finset.subset_univ A) ?_).symm
  intro k _ hk
  rw [h k hk]
  rfl

theorem Debited.total {l l' : K → UInt64} {a : K} {x : UInt64} (h : Debited l a x l') :
    total l' + x.toNat = total l := by
  have hs := sum_add_of_off (f := fun k => (l k).toNat) (g := fun k => (l' k).toNat) a
    (fun k hk => by simp only [h.other k hk])
  have he := h.entry
  simp only [BalanceSheet.total] at *
  omega

theorem Credited.total {l l' : K → UInt64} {a : K} {x : UInt64} (h : Credited l a x l') :
    total l' = total l + x.toNat := by
  have hs := sum_add_of_off (f := fun k => (l k).toNat) (g := fun k => (l' k).toNat) a
    (fun k hk => by simp only [h.other k hk])
  have he := h.entry
  simp only [BalanceSheet.total] at *
  omega

theorem Transferred.total {l l' : K → UInt64} {a b : K} {x : UInt64}
    (h : Transferred l a b x l') : total l' = total l := by
  obtain ⟨l₁, hd, hc⟩ := h
  have h1 := hd.total
  have h2 := hc.total
  omega

end Total

end BalanceSheet
