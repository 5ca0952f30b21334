import Stoppage.Lib.BalanceSheet

/-! # Pari-mutuel pools

A vault for two-sided pari-mutuel betting over an arbitrary finite set of participants. Stakes are
natural numbers, a winner takes back the stake and a pro-rata share of the losing pool, rounded
down, and a refunded pool returns the stakes.

* `gross` and the floor-sum bounds `sum_gross_le`, `lt_sum_gross_add_card`.
* `Pool`: the state of one pool, `Pool.Step`: its transitions.
* `Pool.Sound`: the vault covers the reserve and everything it owes, `Pool.Step.sound`: kept by
  every transition.
-/

namespace PariMutuel
open BalanceSheet
set_option autoImplicit false
set_option linter.unusedSectionVars false

/-! ## Pro-rata shares -/

/-- Stake `s` and its share of the losing pool `L` when the winning pool is `W`. -/
def gross (s L W : ℕ) : ℕ := s + s * L / W

theorem share_le {s L W : ℕ} (h : s ≤ W) : s * L / W ≤ L := by
  refine Nat.div_le_of_le_mul ?_
  exact Nat.mul_le_mul_right L h

theorem gross_zero (L W : ℕ) : gross 0 L W = 0 := by simp [gross]

section Sums
variable {ι : Type*}

theorem sum_gross_le (A : Finset ι) (stake : ι → ℕ) {L W : ℕ} (h : ∑ i ∈ A, stake i ≤ W) :
    ∑ i ∈ A, gross (stake i) L W ≤ W + L := by
  have hshare : ∑ i ∈ A, stake i * L / W ≤ L := by
    rcases Nat.eq_zero_or_pos W with rfl | hW
    · simp
    · have hmul : W * ∑ i ∈ A, stake i * L / W ≤ W * L :=
        calc W * ∑ i ∈ A, stake i * L / W = ∑ i ∈ A, W * (stake i * L / W) := Finset.mul_sum ..
          _ ≤ ∑ i ∈ A, stake i * L := Finset.sum_le_sum fun i _ => Nat.mul_div_le _ _
          _ = (∑ i ∈ A, stake i) * L := (Finset.sum_mul ..).symm
          _ ≤ W * L := Nat.mul_le_mul_right L h
      exact Nat.le_of_mul_le_mul_left hmul hW
  simp only [gross, Finset.sum_add_distrib]
  omega

/-- The winners together leave less than one unit each of the two pools. -/
theorem lt_sum_gross_add_card (A : Finset ι) (stake : ι → ℕ) {L W : ℕ}
    (h : ∑ i ∈ A, stake i = W) (hW : 0 < W) :
    W + L < ∑ i ∈ A, gross (stake i) L W + A.card := by
  have hA : A.Nonempty := by
    rw [Finset.nonempty_iff_ne_empty]
    rintro rfl
    simp at h
    omega
  have hmul : W * L < W * (∑ i ∈ A, stake i * L / W + A.card) :=
    calc W * L = ∑ i ∈ A, stake i * L := by rw [← h, Finset.sum_mul]
      _ < ∑ i ∈ A, (W * (stake i * L / W) + W) :=
        Finset.sum_lt_sum_of_nonempty hA fun i _ => by
          rw [← Nat.mul_succ]
          exact Nat.lt_mul_div_succ _ hW
      _ = W * (∑ i ∈ A, stake i * L / W + A.card) := by
        rw [Finset.sum_add_distrib, Finset.sum_const, smul_eq_mul, ← Finset.mul_sum, Nat.mul_add,
          Nat.mul_comm A.card]
  have hshare := Nat.lt_of_mul_lt_mul_left hmul
  simp only [gross, Finset.sum_add_distrib]
  omega

end Sums

/-! ## Pools -/

/-- The two sides of a bet. -/
inductive Side
  | yes
  | no
deriving DecidableEq

def Side.other : Side → Side
  | .yes => .no
  | .no => .yes

/-- Bets are taken, a side has won, or the stakes are handed back. -/
inductive Phase
  | betting
  | decided (w : Side)
  | refunding
deriving DecidableEq

/-- One pool: the side and the unclaimed stake of each participant, what was ever staked on each
side, the money in the vault, and the part of it that backs no stake. -/
@[ext] structure Pool (ι : Type*) where
  phase : Phase
  side : ι → Side
  stake : ι → ℕ
  staked : Side → ℕ
  reserve : ℕ
  vault : ℕ

namespace Pool
variable {ι : Type*}

/-- What participant `i` has on side `d`. -/
def stakeOn (p : Pool ι) (d : Side) (i : ι) : ℕ := if p.side i = d then p.stake i else 0

/-- What the vault owes participant `i`. -/
def owed (p : Pool ι) (i : ι) : ℕ :=
  match p.phase with
  | .betting => p.stake i
  | .refunding => p.stake i
  | .decided w =>
    if p.side i = w then gross (p.stake i) (p.staked w.other) (p.staked w) else 0

theorem stakeOn_yes_add_no (p : Pool ι) (i : ι) :
    p.stakeOn .yes i + p.stakeOn .no i = p.stake i := by
  unfold stakeOn
  cases p.side i <;> simp

theorem owed_of_stake_eq_zero {p : Pool ι} {i : ι} (h : p.stake i = 0) : p.owed i = 0 := by
  unfold owed
  split
  · exact h
  · exact h
  · split
    · rw [h, gross_zero]
    · rfl

theorem owed_decided {p : Pool ι} {w : Side} (h : p.phase = .decided w) (i : ι) :
    p.owed i = gross (p.stakeOn w i) (p.staked w.other) (p.staked w) := by
  unfold owed stakeOn
  rw [h]
  dsimp only
  split
  · rfl
  · rw [gross_zero]

section Sound
variable [Fintype ι]

/-- **Soundness.** While bets are taken the pools are exactly the stakes; later the unclaimed
stakes on a side are at most its pool; and the vault covers the reserve and all it owes. -/
structure Sound (p : Pool ι) : Prop where
  exact : p.phase = .betting → ∀ d, ∑ i, p.stakeOn d i = p.staked d
  pools : ∀ d, ∑ i, p.stakeOn d i ≤ p.staked d
  backed : p.reserve + ∑ i, p.owed i ≤ p.vault

theorem sound_of_empty {p : Pool ι} (hstake : ∀ i, p.stake i = 0) (hstaked : ∀ d, p.staked d = 0)
    (hvault : p.reserve ≤ p.vault) : p.Sound := by
  have hon : ∀ d, ∑ i, p.stakeOn d i = 0 := by
    intro d
    refine Finset.sum_eq_zero fun i _ => ?_
    rw [stakeOn, hstake, ite_self]
  have howed : ∑ i, p.owed i = 0 :=
    Finset.sum_eq_zero fun i _ => owed_of_stake_eq_zero (hstake i)
  refine ⟨fun _ d => (hon d).trans (hstaked d).symm, fun d => (hon d).trans_le (Nat.zero_le _), ?_⟩
  rw [howed]
  exact hvault

theorem stakeOn_le {p : Pool ι} (h : p.Sound) (d : Side) (i : ι) : p.stakeOn d i ≤ p.staked d :=
  (Finset.single_le_sum (f := p.stakeOn d) (fun _ _ => Nat.zero_le _) (Finset.mem_univ i)).trans
    (h.pools d)

theorem owed_le {p : Pool ι} (h : p.Sound) (i : ι) : p.reserve + p.owed i ≤ p.vault := by
  have h1 := Finset.single_le_sum (f := p.owed) (fun _ _ => Nat.zero_le _) (Finset.mem_univ i)
  have h2 := h.backed
  omega

theorem sum_stake {p : Pool ι} : ∑ i, p.stake i = ∑ i, p.stakeOn .yes i + ∑ i, p.stakeOn .no i := by
  rw [← Finset.sum_add_distrib]
  exact Finset.sum_congr rfl fun i _ => (p.stakeOn_yes_add_no i).symm

theorem staked_le_vault {p : Pool ι} (h : p.Sound) (hb : p.phase = .betting) :
    p.reserve + p.staked .yes + p.staked .no ≤ p.vault := by
  have hbacked := h.backed
  have howed : ∑ i, p.owed i = ∑ i, p.stake i :=
    Finset.sum_congr rfl fun i _ => by simp only [owed, hb]
  rw [howed, sum_stake, h.exact hb, h.exact hb] at hbacked
  omega

end Sound

variable [DecidableEq ι]

/-- A bet of `x` by `i` on `d`. -/
def bet (p : Pool ι) (i : ι) (d : Side) (x : ℕ) : Pool ι :=
  { p with
    side := Function.update p.side i d
    stake := Function.update p.stake i (p.stake i + x)
    staked := Function.update p.staked d (p.staked d + x)
    vault := p.vault + x }

/-- Participant `i` is paid what the vault owes. -/
def pay (p : Pool ι) (i : ι) : Pool ι :=
  { p with stake := Function.update p.stake i 0, vault := p.vault - p.owed i }

inductive Step : Pool ι → Pool ι → Prop
  | bet {p : Pool ι} (i : ι) (d : Side) (x : ℕ) (hphase : p.phase = .betting)
      (hside : p.stake i = 0 ∨ p.side i = d) : Step p (p.bet i d x)
  | decide {p : Pool ι} (w : Side) (hphase : p.phase = .betting) :
      Step p { p with phase := .decided w }
  | refund {p : Pool ι} (hphase : p.phase = .betting) : Step p { p with phase := .refunding }
  | pay {p : Pool ι} (i : ι) (hphase : p.phase ≠ .betting) : Step p (p.pay i)
  | release {p : Pool ι} (x : ℕ) (hx : x ≤ p.reserve) :
      Step p { p with reserve := p.reserve - x, vault := p.vault - x }
  | gain {p : Pool ι} (x : ℕ) : Step p { p with vault := p.vault + x }

/-! ### Bets -/

theorem bet_stakeOn_self {p : Pool ι} {i : ι} {d : Side} {x : ℕ}
    (hside : p.stake i = 0 ∨ p.side i = d) (e : Side) :
    (p.bet i d x).stakeOn e i = p.stakeOn e i + if e = d then x else 0 := by
  unfold stakeOn bet
  simp only [Function.update_self]
  rcases hside with h | h
  · rw [h]
    by_cases he : e = d
    · subst he; simp
    · simp [he, Ne.symm he]
  · rw [h]
    by_cases he : e = d
    · subst he; simp
    · simp [he, Ne.symm he]

theorem bet_stakeOn_other {p : Pool ι} {i j : ι} {d : Side} {x : ℕ} (h : j ≠ i) (e : Side) :
    (p.bet i d x).stakeOn e j = p.stakeOn e j := by
  simp only [stakeOn, bet, Function.update_of_ne h]

theorem bet_staked (p : Pool ι) (i : ι) (d e : Side) (x : ℕ) :
    (p.bet i d x).staked e = p.staked e + if e = d then x else 0 := by
  by_cases h : e = d
  · subst h; simp [bet]
  · simp [bet, h]

variable [Fintype ι]

theorem sum_bet_stakeOn {p : Pool ι} {i : ι} {d : Side} {x : ℕ}
    (hside : p.stake i = 0 ∨ p.side i = d) (e : Side) :
    ∑ j, (p.bet i d x).stakeOn e j = ∑ j, p.stakeOn e j + if e = d then x else 0 := by
  have h := sum_add_of_off (f := p.stakeOn e) (g := (p.bet i d x).stakeOn e) i
    (fun j hj => bet_stakeOn_other hj e)
  rw [bet_stakeOn_self hside] at h
  omega

theorem Sound.bet {p : Pool ι} (h : p.Sound) {i : ι} {d : Side} {x : ℕ}
    (hphase : p.phase = .betting) (hside : p.stake i = 0 ∨ p.side i = d) :
    (p.bet i d x).Sound := by
  have hexact : ∀ e, ∑ j, (p.bet i d x).stakeOn e j = (p.bet i d x).staked e := fun e => by
    rw [sum_bet_stakeOn hside, bet_staked, h.exact hphase e]
  refine ⟨fun _ => hexact, fun e => (hexact e).le, ?_⟩
  have hsum := sum_add_of_off (f := p.owed) (g := (p.bet i d x).owed) i (fun j hj => by
    simp only [owed, Pool.bet, hphase, Function.update_of_ne hj])
  have hi : (p.bet i d x).owed i = p.owed i + x := by
    simp only [owed, Pool.bet, hphase, Function.update_self]
  have hbacked := h.backed
  have hv : (p.bet i d x).vault = p.vault + x := rfl
  have hr : (p.bet i d x).reserve = p.reserve := rfl
  omega

/-! ### The end of betting -/

/-- Once a side has won, the vault owes no more than the two pools. -/
theorem sum_owed_decided_le {p : Pool ι} {w : Side} (hphase : p.phase = .decided w)
    (hpools : ∀ d, ∑ i, p.stakeOn d i ≤ p.staked d) :
    ∑ i, p.owed i ≤ p.staked .yes + p.staked .no := by
  have hle := sum_gross_le Finset.univ (p.stakeOn w) (L := p.staked w.other) (hpools w)
  have howed : ∑ i, p.owed i = ∑ i, gross (p.stakeOn w i) (p.staked w.other) (p.staked w) :=
    Finset.sum_congr rfl fun i _ => owed_decided hphase i
  rw [howed]
  cases w <;> simp only [Side.other] at hle ⊢ <;> omega

theorem Sound.decide {p : Pool ι} (h : p.Sound) (w : Side) (hphase : p.phase = .betting) :
    Sound { p with phase := .decided w } := by
  have hv := staked_le_vault h hphase
  have hle := sum_owed_decided_le (p := { p with phase := .decided w }) (w := w) rfl h.pools
  exact ⟨fun hp => by simp at hp, h.pools, by dsimp only at hle ⊢; omega⟩

theorem Sound.refund {p : Pool ι} (h : p.Sound) (hphase : p.phase = .betting) :
    Sound { p with phase := .refunding } := by
  refine ⟨fun hp => by simp at hp, h.pools, ?_⟩
  have howed : ∑ i, ({ p with phase := .refunding } : Pool ι).owed i = ∑ i, p.owed i :=
    Finset.sum_congr rfl fun i _ => by simp only [owed, hphase]
  rw [howed]
  exact h.backed

/-! ### Payments -/

theorem pay_stakeOn_le (p : Pool ι) (i j : ι) (d : Side) :
    (p.pay i).stakeOn d j ≤ p.stakeOn d j := by
  by_cases h : j = i
  · subst h; simp [stakeOn, pay]
  · simp [stakeOn, pay, Function.update_of_ne h]

theorem pay_owed_other {p : Pool ι} {i j : ι} (h : j ≠ i) : (p.pay i).owed j = p.owed j := by
  simp only [owed, pay, Function.update_of_ne h]

theorem pay_owed_self (p : Pool ι) (i : ι) : (p.pay i).owed i = 0 :=
  owed_of_stake_eq_zero (by simp [pay])

theorem Sound.pay {p : Pool ι} (h : p.Sound) (i : ι) (hphase : p.phase ≠ .betting) :
    (p.pay i).Sound := by
  refine ⟨fun hp => absurd hp hphase, fun d => ?_, ?_⟩
  · exact (Finset.sum_le_sum fun j _ => pay_stakeOn_le p i j d).trans (h.pools d)
  · have hsum := sum_add_of_off (f := p.owed) (g := (p.pay i).owed) i
      (fun j hj => pay_owed_other hj)
    rw [pay_owed_self] at hsum
    have hbacked := h.backed
    have hv : (p.pay i).vault = p.vault - p.owed i := rfl
    have hr : (p.pay i).reserve = p.reserve := rfl
    omega

/-- **Every transition keeps a pool sound.** -/
theorem Step.sound {p q : Pool ι} (hs : Step p q) (h : p.Sound) : q.Sound := by
  cases hs with
  | bet i d x hphase hside => exact h.bet hphase hside
  | decide w hphase => exact h.decide w hphase
  | refund hphase => exact h.refund hphase
  | pay i hphase => exact h.pay i hphase
  | release x hx =>
    have hbacked := h.backed
    exact ⟨h.exact, h.pools, by
      change p.reserve - x + ∑ i, p.owed i ≤ p.vault - x
      omega⟩
  | gain x =>
    have hbacked := h.backed
    exact ⟨h.exact, h.pools, by
      change p.reserve + ∑ i, p.owed i ≤ p.vault + x
      omega⟩

end Pool

end PariMutuel
