import Stoppage.Instance.Change
import Stoppage.Lib.PariMutuel

/-! # A market is a pari-mutuel pool

`WellFormed` is what all reachable states satisfy. `Chain.pool` reads a market, its positions and
its balance as an abstract pool over all keys, and `Change.simulates` shows that every step but
creation and closing is a transition of that pool. Soundness of the pool is carried over from
there: it holds when a market is created over no stakes, and it is kept until the market is closed.
-/

namespace Stoppage
open Fallible BalanceSheet TransitionSystem MarketProgram PariMutuel
set_option autoImplicit false

/-! ## Well-formed markets and positions -/

structure ValidMarket (mk : Market) : Prop where
  status : mk.status = statusOpen ∨ Ended mk
  outcome : mk.status = statusSettled → mk.outcome = sideYes ∨ mk.outcome = sideNo
  fee : mk.feeBps ≤ 500

structure ValidPosition (o : Pubkey) (p : Position) : Prop where
  owner : p.owner = o
  side : p.side = sideYes ∨ p.side = sideNo

structure WellFormed (m : Pubkey) (s : Chain) : Prop where
  fee : s.FeeCapped
  market : ∀ mk, s.market m = some mk → ValidMarket mk
  position : ∀ o p, s.position (m, o) = some p → 0 < p.amountLamports → ValidPosition o p

theorem ValidMarket.isOpen {mk : Market} (h : ValidMarket mk) (hset : mk.status ≠ statusSettled)
    (hvoid : mk.status ≠ statusVoid) : mk.status = statusOpen := by
  rcases h.status with ho | hs | hv
  · exact ho
  · exact absurd hs hset
  · exact absurd hv hvoid

theorem ValidMarket.isOpen_of_unsettled {mk : Market} (h : ValidMarket mk)
    (hstatus : mk.status = statusOpen ∨ mk.status = statusAwaiting) : mk.status = statusOpen := by
  rcases hstatus with ho | ha
  · exact ho
  · refine h.isOpen ?_ ?_
    · rw [ha]
      decide
    · rw [ha]
      decide

theorem validMarket_settled {mk : Market} (h : ValidMarket mk) {outcome : UInt8} (now : Int64)
    (hout : outcome = sideYes ∨ outcome = sideNo) : ValidMarket (settled mk outcome now) :=
  ⟨.inr (.inl rfl), fun _ => hout, h.fee⟩

theorem validMarket_voided {mk : Market} (h : ValidMarket mk) (now : Int64) :
    ValidMarket (voided mk now) := by
  refine ⟨.inr (.inr rfl), ?_, h.fee⟩
  intro hstatus
  exact absurd hstatus (show statusVoid ≠ statusSettled by decide)

theorem MarketProgram.Joined.validMarket {mk mk' : Market} {p p' : Position} {o : Pubkey}
    {side : UInt8} {amount : UInt64} (hj : Joined mk p o side amount mk' p') (h : ValidMarket mk) :
    ValidMarket mk' := by
  rw [hj.market]
  exact ⟨h.status, h.outcome, h.fee⟩

theorem MarketProgram.Joined.validPosition {s : Chain} {m o : Pubkey} {mk mk' : Market}
    {p' : Position} {side : UInt8} {amount : UInt64}
    (hj : Joined mk (s.positionAt m o) o side amount mk' p')
    (h : WellFormed m s) : ValidPosition o p' := by
  refine ⟨?_, by rw [hj.side]; exact hj.valid⟩
  rw [hj.owner]
  split
  · rfl
  · rename_i hamount
    cases hp : s.position (m, o) with
    | none =>
      rw [Chain.positionAt, hp] at hamount
      exact absurd rfl hamount
    | some p =>
      rw [Chain.positionAt, hp, Option.getD_some] at hamount ⊢
      exact (h.position o p hp (UInt64.pos_iff_ne_zero.mpr hamount)).owner

theorem Change.wellFormed {rt : Runtime} {m : Pubkey} {s t : Chain} {op : Op}
    (hc : Change rt m s t op) (hfee : t.FeeCapped) (h : WellFormed m s) : WellFormed m t := by
  have hsame : (∀ o, t.position (m, o) = s.position (m, o)) →
      ∀ o p, t.position (m, o) = some p → 0 < p.amountLamports → ValidPosition o p := by
    intro heq o p hp
    exact h.position o p (heq o ▸ hp)
  have hmarket : ∀ mk, t.market m = some mk → ValidMarket mk →
      ∀ mk', t.market m = some mk' → ValidMarket mk' := by
    intro mk hmk hv mk' hmk'
    rw [hmk] at hmk'
    cases hmk'
    exact hv
  cases hc with
  | idle hm hp _ => exact ⟨hfee, fun mk hmk => h.market mk (hm ▸ hmk), hsame hp⟩
  | create creator seeds closesAt oracle feeBps _ _ _ hcap hm hp _ =>
    refine ⟨hfee, hmarket _ hm ⟨.inl rfl, ?_, hcap h.fee⟩, hsame hp⟩
    intro hstatus
    exact absurd hstatus (show statusOpen ≠ statusSettled by decide)
  | join o side amount mk mk' p' l hj hm hp hother _ =>
    refine ⟨hfee, hmarket _ hm (hj.joined.validMarket (h.market mk hj.market)), ?_⟩
    intro o' q hq hpos
    by_cases ho : o' = o
    · subst ho
      rw [hp] at hq
      cases hq
      exact hj.joined.validPosition h
    · exact h.position o' q (hother o' ho ▸ hq) hpos
  | forceSettle mk outcome hmk hout _ hm hk =>
    exact ⟨hfee, hmarket _ hm (validMarket_settled (h.market mk hmk) s.now hout),
      hsame hk.position⟩
  | settleFromProof mk outcome r hmk hout _ _ _ _ _ hm hk =>
    exact ⟨hfee, hmarket _ hm (validMarket_settled (h.market mk hmk) s.now hout),
      hsame hk.position⟩
  | void mk hmk _ _ _ hm hk =>
    exact ⟨hfee, hmarket _ hm (validMarket_voided (h.market mk hmk) s.now), hsame hk.position⟩
  | claim o mk p payout fee hcl _ _ hm hp hother =>
    refine ⟨hfee, hmarket _ hm (h.market mk hcl.market), ?_⟩
    intro o' q hq hpos
    by_cases ho : o' = o
    · subst ho
      rw [hp] at hq
      cases hq
      exact absurd hpos (show ¬(0 : UInt64) < 0 by decide)
    · exact h.position o' q (hother o' ho ▸ hq) hpos
  | claimBond mk hmk _ _ _ hm hp =>
    have hv := h.market mk hmk
    exact ⟨hfee, hmarket _ hm ⟨hv.status, hv.outcome, hv.fee⟩, hsame hp⟩
  | close mk _ _ _ hm hp =>
    refine ⟨hfee, ?_, hsame hp⟩
    intro mk' hmk'
    rw [hm] at hmk'
    cases hmk'
  | attest mk n hmk _ hm hk =>
    have hv := h.market mk hmk
    exact ⟨hfee, hmarket _ hm ⟨hv.status, hv.outcome, hv.fee⟩, hsame hk.position⟩

theorem Step.wellFormed {rt : Runtime} {s t : Chain} {a : Action} (h : Step rt s a t) {m : Pubkey}
    (hwf : WellFormed m s) : WellFormed m t :=
  (h.change m).wellFormed (h.feeCapped hwf.fee) hwf

theorem Genesis.wellFormed {s : Chain} (h : Genesis s) (m : Pubkey) : WellFormed m s := by
  refine ⟨?_, ?_, ?_⟩
  · intro c hc
    rw [h.protocolConfig] at hc
    cases hc
  · intro mk hmk
    rw [h.market] at hmk
    cases hmk
  · intro o p hp
    rw [h.position] at hp
    cases hp

theorem Reachable.wellFormed {rt : Runtime} {s : Chain} (h : Reachable rt s) (m : Pubkey) :
    WellFormed m s :=
  h.invariant (fun _ hg => hg.wellFormed m) fun _ _ _ hs => hs.wellFormed

theorem steps_total {rt : Runtime} {s t : Chain} {as : List Action}
    (h : Steps (Step rt) s as t) : total t.lamports = total s.lamports := by
  induction h with
  | nil => rfl
  | cons ha _ ih =>
    rw [ih]
    exact Step.total ha

theorem Reachable.supply {rt : Runtime} {s : Chain} (h : Reachable rt s) :
    total s.lamports < 2 ^ 64 := by
  obtain ⟨s₀, as, hg, hs⟩ := h
  rw [steps_total hs]
  exact hg.supply

/-! ## The pool of a market -/

def sideOf (x : UInt8) : Side := if x = sideYes then .yes else .no

def Chain.pool (rt : Runtime) (s : Chain) (m : Pubkey) (mk : Market) : Pool Pubkey where
  phase :=
    if mk.status = statusSettled then .decided (sideOf mk.outcome)
    else if mk.status = statusVoid then .refunding
    else .betting
  side o := sideOf (s.positionAt m o).side
  stake o := (s.positionAt m o).amountLamports.toNat
  staked
    | .yes => mk.yesPool.toNat
    | .no => mk.noPool.toNat
  reserve := (rt.minimumBalance Market.space).toNat +
    if mk.bondClaimed then 0 else mk.bondLamports.toNat
  vault := (s.lamports (.market m)).toNat

theorem sideOf_eq_iff {a b : UInt8} (ha : a = sideYes ∨ a = sideNo)
    (hb : b = sideYes ∨ b = sideNo) :
    sideOf a = sideOf b ↔ a = b := by
  rcases ha with rfl | rfl <;> rcases hb with rfl | rfl <;> decide

theorem phase_betting {rt : Runtime} {s : Chain} {m : Pubkey} {mk : Market}
    (h : mk.status = statusOpen) : (s.pool rt m mk).phase = .betting := by
  show (if mk.status = statusSettled then _ else _) = _
  rw [h]
  rfl

theorem phase_settled {rt : Runtime} {s : Chain} {m : Pubkey} {mk : Market}
    (h : mk.status = statusSettled) : (s.pool rt m mk).phase = .decided (sideOf mk.outcome) :=
  if_pos h

theorem phase_void {rt : Runtime} {s : Chain} {m : Pubkey} {mk : Market}
    (h : mk.status = statusVoid) : (s.pool rt m mk).phase = .refunding := by
  show (if mk.status = statusSettled then _ else _) = _
  rw [h]
  rfl

theorem phase_ended {rt : Runtime} {s : Chain} {m : Pubkey} {mk : Market} (h : Ended mk) :
    (s.pool rt m mk).phase ≠ .betting := by
  rcases h with h | h
  · rw [phase_settled h]
    exact Phase.noConfusion
  · rw [phase_void h]
    exact Phase.noConfusion

/-! ## What a claim pays -/

theorem losingShare_eq {stake W L : UInt64} (h : stake.toNat ≤ W.toNat) :
    ∃ x, losingShare stake W L = .ok x ∧ x.toNat = stake.toNat * L.toNat / W.toNat := by
  unfold losingShare
  split
  · rename_i hW
    have hfit : stake.toNat * L.toNat / W.toNat < 2 ^ 64 := (share_le h).trans_lt L.toNat_lt
    rw [checkedMul128_of_u64 stake.toNat_lt L.toNat_lt, ok_bind]
    exact ⟨_, rfl, toNat_ofNat_of_lt hfit⟩
  · rename_i hW
    have hzero : W.toNat = 0 := by
      rw [UInt64.lt_iff_toNat_lt, UInt64.toNat_zero] at hW
      omega
    refine ⟨0, rfl, ?_⟩
    rw [hzero, Nat.div_zero]
    rfl

/-- Payout and fee of a winner add up to the pari-mutuel claim, and no step of the computation
overflows or truncates. -/
theorem winnerSplit_eq {mk : Market} {p : Position} {W L : UInt64}
    (hW : (if p.side = sideYes then mk.yesPool else mk.noPool) = W)
    (hL : (if p.side = sideYes then mk.noPool else mk.yesPool) = L)
    (hstake : p.amountLamports.toNat ≤ W.toNat)
    (hfit : gross p.amountLamports.toNat L.toNat W.toNat < 2 ^ 64) (hfee : mk.feeBps ≤ 500) :
    ∃ payout fee, winnerSplit mk p = .ok (payout, fee) ∧
      payout.toNat + fee.toNat = gross p.amountLamports.toNat L.toNat W.toNat ∧
      fee.toNat = gross p.amountLamports.toNat L.toNat W.toNat * mk.feeBps.toNat / 10000 := by
  obtain ⟨share, hshare, hvalue⟩ := losingShare_eq (L := L) hstake
  obtain ⟨g, hg⟩ : ∃ g : UInt64, g.toNat = gross p.amountLamports.toNat L.toNat W.toNat :=
    ⟨_, toNat_ofNat_of_lt hfit⟩
  have hadd : checkedAdd (.overflow .claim : ProgramError) p.amountLamports share = .ok g := by
    rw [checkedAdd_eq_ok, hg, hvalue]
    rfl
  have hbps : mk.feeBps.toNat ≤ 500 := UInt16.le_iff_toNat_le.mp hfee
  have hmul := checkedMul128_of_u64 (e := (.overflow .claim : ProgramError)) g.toNat_lt
    (show mk.feeBps.toNat < 2 ^ 64 by omega)
  have hle : g.toNat * mk.feeBps.toNat / 10000 ≤ g.toNat := by
    have hprod : g.toNat * mk.feeBps.toNat ≤ g.toNat * 10000 := Nat.mul_le_mul_left _ (by omega)
    omega
  have hcast : (UInt64.ofNat (g.toNat * mk.feeBps.toNat / 10000)).toNat =
      g.toNat * mk.feeBps.toNat / 10000 := toNat_ofNat_of_lt (hle.trans_lt g.toNat_lt)
  obtain ⟨payout, hpayout⟩ : ∃ payout : UInt64,
      payout.toNat = g.toNat - g.toNat * mk.feeBps.toNat / 10000 :=
    ⟨UInt64.ofNat _, toNat_ofNat_of_lt (by have := g.toNat_lt; omega)⟩
  have hsub : checkedSub (.overflow .claim : ProgramError) g
      (UInt64.ofNat (g.toNat * mk.feeBps.toNat / 10000)) = .ok payout := by
    rw [checkedSub_eq_ok, hcast]
    omega
  refine ⟨payout, UInt64.ofNat (g.toNat * mk.feeBps.toNat / 10000), ?_, ?_, ?_⟩
  · simp only [winnerSplit, hW, hL, hshare, ok_bind, hadd, hmul, hsub]
    rfl
  · rw [hcast, ← hg]
    omega
  · rw [hcast, ← hg]

def winningPool (mk : Market) : UInt64 := if mk.outcome = sideYes then mk.yesPool else mk.noPool

def losingPool (mk : Market) : UInt64 := if mk.outcome = sideYes then mk.noPool else mk.yesPool

/-- The charge of a winner with the given stake, before it is split. -/
def winnerCharge (mk : Market) (stake : UInt64) : ℕ :=
  gross stake.toNat (losingPool mk).toNat (winningPool mk).toNat

/-- What `claim` is to pay: the stake of a voided market, nothing to a loser, and to a winner the
charge, the fee of which goes to the treasury. -/
structure Split (mk : Market) (p : Position) (payout fee : UInt64) : Prop where
  void : mk.status = statusVoid → payout = p.amountLamports ∧ fee = 0
  loser : mk.status = statusSettled → p.side ≠ mk.outcome → payout = 0 ∧ fee = 0
  winner : mk.status = statusSettled → p.side = mk.outcome →
    payout.toNat + fee.toNat = winnerCharge mk p.amountLamports ∧
    fee.toNat = winnerCharge mk p.amountLamports * mk.feeBps.toNat / 10000

section Claim
variable {rt : Runtime} {s : Chain} {m o : Pubkey} {mk : Market} {p : Position}

theorem MarketProgram.Claimable.side (hwf : WellFormed m s) (hc : Claimable s m o mk p) :
    p.side = sideYes ∨ p.side = sideNo :=
  (hwf.position o p hc.position hc.positive).side

theorem owed_void (hc : Claimable s m o mk p) (h : mk.status = statusVoid) :
    (s.pool rt m mk).owed o = p.amountLamports.toNat := by
  have hp := hc.positionAt
  simp only [Pool.owed, phase_void h]
  rw [← hp]
  rfl

theorem owed_loser (hwf : WellFormed m s) (hc : Claimable s m o mk p)
    (h : mk.status = statusSettled) (hside : p.side ≠ mk.outcome) :
    (s.pool rt m mk).owed o = 0 := by
  have hout := (hwf.market mk hc.market).outcome h
  have hne : (s.pool rt m mk).side o ≠ sideOf mk.outcome := by
    show sideOf (s.positionAt m o).side ≠ sideOf mk.outcome
    rw [hc.positionAt]
    intro he
    exact hside ((sideOf_eq_iff (hc.side hwf) hout).mp he)
  simp only [Pool.owed, phase_settled h]
  exact if_neg hne

theorem staked_sideOf (rt : Runtime) (s : Chain) (m : Pubkey) (mk : Market)
    (h : mk.outcome = sideYes ∨ mk.outcome = sideNo) :
    (s.pool rt m mk).staked (sideOf mk.outcome) = (winningPool mk).toNat ∧
    (s.pool rt m mk).staked (sideOf mk.outcome).other = (losingPool mk).toNat := by
  rcases h with h | h
  · rw [winningPool, losingPool, h]
    exact ⟨rfl, rfl⟩
  · rw [winningPool, losingPool, h]
    exact ⟨rfl, rfl⟩

theorem owed_winner (rt : Runtime) (hwf : WellFormed m s) (hc : Claimable s m o mk p)
    (h : mk.status = statusSettled) (hside : p.side = mk.outcome) :
    (s.pool rt m mk).owed o = winnerCharge mk p.amountLamports := by
  obtain ⟨hW, hL⟩ := staked_sideOf rt s m mk ((hwf.market mk hc.market).outcome h)
  have hs : (s.pool rt m mk).side o = sideOf mk.outcome := by
    show sideOf (s.positionAt m o).side = sideOf mk.outcome
    rw [hc.positionAt, hside]
  have hstake : (s.pool rt m mk).stake o = p.amountLamports.toNat := by
    show (s.positionAt m o).amountLamports.toNat = _
    rw [hc.positionAt]
  simp only [Pool.owed, phase_settled h]
  rw [if_pos hs, hW, hL, hstake, winnerCharge]

/-- **In a sound pool a claim computes its split**, and the split is what the pool owes. -/
theorem claimSplit_eq (hwf : WellFormed m s) (hsound : (s.pool rt m mk).Sound)
    (hc : Claimable s m o mk p) :
    ∃ payout fee, claimSplit mk p = .ok (payout, fee) ∧ Split mk p payout fee ∧
      payout.toNat + fee.toNat = (s.pool rt m mk).owed o := by
  rcases hc.ended with hstatus | hstatus
  · have hvoid : mk.status ≠ statusVoid := by
      rw [hstatus]
      decide
    by_cases hside : p.side = mk.outcome
    · have hout := (hwf.market mk hc.market).outcome hstatus
      have howed := owed_winner rt hwf hc hstatus hside
      have hle := Pool.owed_le hsound o
      have hvault : (s.pool rt m mk).vault < 2 ^ 64 := (s.lamports (.market m)).toNat_lt
      have hstake : p.amountLamports.toNat ≤ (winningPool mk).toNat := by
        have h1 := Pool.stakeOn_le hsound (sideOf mk.outcome) o
        rw [(staked_sideOf rt s m mk hout).1] at h1
        have h2 : (s.pool rt m mk).stakeOn (sideOf mk.outcome) o = p.amountLamports.toNat := by
          show (if sideOf (s.positionAt m o).side = _ then (s.positionAt m o).amountLamports.toNat
            else 0) = _
          rw [hc.positionAt, hside, if_pos rfl]
        omega
      have hW : (if p.side = sideYes then mk.yesPool else mk.noPool) = winningPool mk := by
        rw [hside, winningPool]
      have hL : (if p.side = sideYes then mk.noPool else mk.yesPool) = losingPool mk := by
        rw [hside, losingPool]
      obtain ⟨payout, fee, hsplit, hsum, hfee⟩ := winnerSplit_eq hW hL hstake
        (by unfold winnerCharge at howed; omega) (hwf.market mk hc.market).fee
      refine ⟨payout, fee, ?_, ⟨?_, ?_, fun _ _ => ⟨hsum, hfee⟩⟩, ?_⟩
      · rw [claimSplit, if_neg hvoid, if_neg (not_not.mpr hside)]
        exact hsplit
      · exact fun h => absurd h hvoid
      · exact fun _ h => absurd hside h
      · rw [howed]
        exact hsum
    · refine ⟨0, 0, ?_, ⟨fun h => absurd h hvoid, fun _ _ => ⟨rfl, rfl⟩, fun _ h => absurd h hside⟩,
        (owed_loser hwf hc hstatus hside).symm⟩
      rw [claimSplit, if_neg hvoid, if_pos hside]
      rfl
  · have hsettled : mk.status ≠ statusSettled := by
      rw [hstatus]
      decide
    refine ⟨p.amountLamports, 0, ?_, ⟨fun _ => ⟨rfl, rfl⟩, fun h => absurd h hsettled,
      fun h => absurd h hsettled⟩, ?_⟩
    · rw [claimSplit, if_pos hstatus]
      rfl
    · rw [owed_void hc hstatus]
      rfl

end Claim

/-! ## Simulation -/

section Simulation
variable {rt : Runtime} {s t : Chain} {m : Pubkey} {mk mk' : Market}

/-- A pool is determined by the fields of the market it reads, the positions and the balance. -/
theorem pool_congr (hposition : ∀ o, t.position (m, o) = s.position (m, o))
    (hyes : mk'.yesPool = mk.yesPool) (hno : mk'.noPool = mk.noPool) :
    t.pool rt m mk' = { s.pool rt m mk with
      phase := (t.pool rt m mk').phase
      reserve := (t.pool rt m mk').reserve
      vault := (t.pool rt m mk').vault } := by
  have hp : ∀ o, t.positionAt m o = s.positionAt m o := fun o => positionAt_congr (hposition o)
  ext d
  · rfl
  · show sideOf (t.positionAt m d).side = sideOf (s.positionAt m d).side
    rw [hp]
  · show (t.positionAt m d).amountLamports.toNat = (s.positionAt m d).amountLamports.toNat
    rw [hp]
  · cases d with
    | yes => exact congrArg UInt64.toNat hyes
    | no => exact congrArg UInt64.toNat hno
  · rfl
  · rfl

theorem pool_join {o : Pubkey} {side : UInt8} {amount : UInt64} {p' : Position}
    {l : Address → UInt64} (hj : JoinedAt s m o side amount mk mk' p' l)
    (hposition : t.position (m, o) = some p')
    (hother : ∀ o', o' ≠ o → t.position (m, o') = s.position (m, o')) (hl : t.lamports = l) :
    t.pool rt m mk' = (s.pool rt m mk).bet o (sideOf side) amount.toNat := by
  have hmk := hj.joined.market
  have hstatus : mk'.status = mk.status := by rw [hmk]
  have hself : t.positionAt m o = p' := by rw [Chain.positionAt, hposition, Option.getD_some]
  have hne : ∀ o', o' ≠ o → t.positionAt m o' = s.positionAt m o' :=
    fun o' h => positionAt_congr (hother o' h)
  ext d
  · show (t.pool rt m mk').phase = (s.pool rt m mk).phase
    rw [phase_betting (hstatus.trans hj.isOpen), phase_betting hj.isOpen]
  · show sideOf (t.positionAt m d).side = Function.update (s.pool rt m mk).side o (sideOf side) d
    by_cases h : d = o
    · subst h
      rw [hself, hj.joined.side, Function.update_self]
    · rw [hne d h, Function.update_of_ne h]
      rfl
  · show (t.positionAt m d).amountLamports.toNat =
      Function.update (s.pool rt m mk).stake o ((s.pool rt m mk).stake o + amount.toNat) d
    by_cases h : d = o
    · subst h
      rw [hself, hj.joined.stake, Function.update_self]
      rfl
    · rw [hne d h, Function.update_of_ne h]
      rfl
  · rw [Pool.bet_staked]
    rcases hj.joined.valid with rfl | rfl
    · cases d with
      | yes => exact hj.joined.yesPool
      | no => exact hj.joined.noPool
    · cases d with
      | yes => exact hj.joined.yesPool
      | no => exact hj.joined.noPool
  · show _ + (if mk'.bondClaimed then 0 else mk'.bondLamports.toNat) =
      _ + if mk.bondClaimed then 0 else mk.bondLamports.toNat
    rw [hmk]
  · show (t.lamports (.market m)).toNat = (s.lamports (.market m)).toNat + amount.toNat
    rw [hl]
    exact hj.vault

theorem pool_claim {o : Pubkey} {p : Position} {payout fee : UInt64}
    (hc : Claimable s m o mk p) (hl : Charged m o payout fee s.lamports t.lamports)
    (howed : payout.toNat + fee.toNat = (s.pool rt m mk).owed o)
    (hposition : t.position (m, o) = some { p with amountLamports := 0 })
    (hother : ∀ o', o' ≠ o → t.position (m, o') = s.position (m, o')) :
    t.pool rt m mk = (s.pool rt m mk).pay o := by
  have hself : t.positionAt m o = { p with amountLamports := 0 } := by
    rw [Chain.positionAt, hposition, Option.getD_some]
  have hne : ∀ o', o' ≠ o → t.positionAt m o' = s.positionAt m o' :=
    fun o' h => positionAt_congr (hother o' h)
  ext d
  · rfl
  · show sideOf (t.positionAt m d).side = sideOf (s.positionAt m d).side
    by_cases h : d = o
    · subst h
      rw [hself, hc.positionAt]
    · rw [hne d h]
  · show (t.positionAt m d).amountLamports.toNat = Function.update (s.pool rt m mk).stake o 0 d
    by_cases h : d = o
    · subst h
      rw [hself, Function.update_self]
      rfl
    · rw [hne d h, Function.update_of_ne h]
      rfl
  · rfl
  · rfl
  · show (t.lamports (.market m)).toNat = (s.lamports (.market m)).toNat - _
    have hvault := hl.vault
    rw [← howed]
    omega

theorem step_gain {phase : Phase} {reserve vault : ℕ} (hphase : phase = (s.pool rt m mk).phase)
    (hreserve : reserve = (s.pool rt m mk).reserve) (hvault : (s.pool rt m mk).vault ≤ vault) :
    Pool.Step (s.pool rt m mk) { s.pool rt m mk with
      phase := phase
      reserve := reserve
      vault := vault } := by
  obtain ⟨x, rfl⟩ := Nat.exists_eq_add_of_le hvault
  subst hphase hreserve
  exact .gain x

theorem step_settled {outcome : UInt8} {now : Int64} (hopen : mk.status = statusOpen)
    (hk : Kept m s t) :
    Pool.Step (s.pool rt m mk) (t.pool rt m (settled mk outcome now)) := by
  rw [pool_congr hk.position rfl rfl, phase_settled rfl,
    show (t.pool rt m _).vault = (s.pool rt m mk).vault from hk.vault]
  exact .decide (sideOf outcome) (phase_betting hopen)

theorem step_voided {now : Int64} (hopen : mk.status = statusOpen) (hk : Kept m s t) :
    Pool.Step (s.pool rt m mk) (t.pool rt m (voided mk now)) := by
  rw [pool_congr hk.position rfl rfl, phase_void rfl,
    show (t.pool rt m _).vault = (s.pool rt m mk).vault from hk.vault]
  exact .refund (phase_betting hopen)

theorem step_bond (hbond : mk.bondClaimed = false)
    (hvault : (t.lamports (.market m)).toNat + mk.bondLamports.toNat =
      (s.lamports (.market m)).toNat)
    (hposition : ∀ o, t.position (m, o) = s.position (m, o)) :
    Pool.Step (s.pool rt m mk) (t.pool rt m { mk with bondClaimed := true }) := by
  have hreserve : (s.pool rt m mk).reserve =
      (rt.minimumBalance Market.space).toNat + mk.bondLamports.toNat := by
    show _ + (if mk.bondClaimed then 0 else _) = _
    rw [hbond]
    rfl
  have hr : (t.pool rt m { mk with bondClaimed := true }).reserve =
      (s.pool rt m mk).reserve - mk.bondLamports.toNat := by
    rw [hreserve, Nat.add_sub_cancel]
    rfl
  have hv : (t.pool rt m { mk with bondClaimed := true }).vault =
      (s.pool rt m mk).vault - mk.bondLamports.toNat := by
    show (t.lamports (.market m)).toNat = (s.lamports (.market m)).toNat - _
    omega
  rw [pool_congr hposition rfl rfl, hr, hv]
  exact .release mk.bondLamports.toNat (by omega)

/-- **Every step of a market is a transition of its pool**, up to creation and closing. -/
theorem Change.simulates {op : Op} (h : Change rt m s t op) (hwf : WellFormed m s)
    (hmk : s.market m = some mk) (hsound : (s.pool rt m mk).Sound) (hclose : op ≠ .close) :
    ∃ mk', t.market m = some mk' ∧ Pool.Step (s.pool rt m mk) (t.pool rt m mk') := by
  cases h with
  | idle hm hp hv =>
    refine ⟨mk, hm.trans hmk, ?_⟩
    rw [pool_congr hp rfl rfl]
    exact step_gain rfl rfl hv
  | create _ _ _ _ _ _ hnone =>
    rw [hmk] at hnone
    cases hnone
  | join o side amount mk₁ mk' p' l hj hm hp hother hl =>
    cases market_inj hmk hj.market
    refine ⟨mk', hm, ?_⟩
    rw [pool_join hj hp hother hl]
    refine .bet o _ _ (phase_betting hj.isOpen) ?_
    rcases hj.joined.sameSide with h0 | h0
    · exact .inl (congrArg UInt64.toNat h0)
    · exact .inr (congrArg sideOf h0)
  | forceSettle mk₁ outcome h1 hout hstatus hm hk =>
    cases market_inj hmk h1
    exact ⟨_, hm, step_settled ((hwf.market mk hmk).isOpen_of_unsettled hstatus) hk⟩
  | settleFromProof mk₁ outcome r h1 hout hstatus hr _ _ _ hm hk =>
    cases market_inj hmk h1
    exact ⟨_, hm, step_settled ((hwf.market mk hmk).isOpen_of_unsettled hstatus) hk⟩
  | void mk₁ h1 hset hvoid _ hm hk =>
    cases market_inj hmk h1
    exact ⟨_, hm, step_voided ((hwf.market mk hmk).isOpen hset hvoid) hk⟩
  | claim o mk₁ p payout fee hc hsplit hl hm hp hother =>
    cases market_inj hmk hc.market
    obtain ⟨payout', fee', hsplit', -, howed⟩ := claimSplit_eq hwf hsound hc
    rw [hsplit] at hsplit'
    cases hsplit'
    refine ⟨mk, hm, ?_⟩
    rw [pool_claim hc hl howed hp hother]
    exact .pay o (phase_ended hc.ended)
  | claimBond mk₁ h1 _ hbond hl hm hp =>
    cases market_inj hmk h1
    exact ⟨_, hm, step_bond hbond (hl.payer Address.noConfusion) hp⟩
  | close => exact absurd rfl hclose
  | attest mk₁ n h1 _ hm hk =>
    cases market_inj hmk h1
    refine ⟨_, hm, ?_⟩
    rw [pool_congr hk.position rfl rfl]
    exact step_gain rfl rfl hk.vault.ge

end Simulation

end Stoppage
