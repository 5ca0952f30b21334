import Stoppage.Instance.Solvency

/-! # Conservation within one lifetime

The exact accounts of a market created clean: its pools are its stakes while it is open, the
charges of the winners come to the two pools up to less than one lamport a winner, and neither
joining nor claiming overflows or truncates.
-/

namespace Stoppage
open Fallible BalanceSheet TransitionSystem MarketProgram PariMutuel
set_option autoImplicit false

/-! ## No overflow in a join -/

theorem joinPool_no_overflow {mk : Market} {side : UInt8} {amount : UInt64} {e : ProgramError}
    (hyes : mk.yesPool.toNat + amount.toNat < 2 ^ 64)
    (hno : mk.noPool.toNat + amount.toNat < 2 ^ 64) : joinPool mk side amount ≠ .error e := by
  intro h
  unfold joinPool at h
  split at h
  · rcases bind_eq_error.mp h with hadd | ⟨_, -, hpure⟩
    · have hwide := (checkedAdd_eq_error.mp hadd).1
      omega
    · cases hpure
  · rcases bind_eq_error.mp h with hadd | ⟨_, -, hpure⟩
    · have hwide := (checkedAdd_eq_error.mp hadd).1
      omega
    · cases hpure

theorem joinPosition_no_overflow {m owner : Pubkey} {p : Position} {side : UInt8}
    {viaSessionKey : Bool} {bump : UInt8} {site : Site} :
    joinPosition m p owner side viaSessionKey bump ≠ .error (.overflow site) := by
  intro h
  unfold joinPosition at h
  split at h
  · cases h
  · obtain ⟨-, hpure⟩ := of_require_bind_error h ProgramError.noConfusion
    cases hpure

theorem applyJoin_no_overflow {m : Pubkey} {mk : Market} {p : Position} {owner : Pubkey}
    {side : UInt8} {amount : UInt64} {viaSessionKey : Bool} {bump : UInt8}
    (hyes : mk.yesPool.toNat + amount.toNat < 2 ^ 64)
    (hno : mk.noPool.toNat + amount.toNat < 2 ^ 64)
    (hstake : p.amountLamports.toNat + amount.toNat < 2 ^ 64) :
    applyJoin m mk p owner side amount viaSessionKey bump ≠ .error (.overflow .applyJoin) := by
  intro h
  obtain ⟨-, h⟩ := of_require_bind_error h ProgramError.noConfusion
  obtain ⟨mk', -, h⟩ := of_bind_error h (joinPool_no_overflow hyes hno)
  obtain ⟨p', hp', h⟩ := of_bind_error h joinPosition_no_overflow
  rcases bind_eq_error.mp h with hadd | ⟨_, -, hpure⟩
  · have hwide := (checkedAdd_eq_error.mp hadd).1
    rw [(joinPosition_ok hp').2.2.2] at hwide
    omega
  · cases hpure

section Joins
variable {rt : Runtime} {s : Chain} {m : Pubkey} {mk : Market}

theorem room_for_stake (hsound : (s.pool rt m mk).Sound) (hopen : mk.status = statusOpen)
    {payer o : Pubkey} {x amount : UInt64} {l₁ l : Address → UInt64}
    (hrent : Transferred s.lamports (.external payer) (.position m o) x l₁)
    (hstake : Transferred l₁ (.external payer) (.market m) amount l) :
    mk.yesPool.toNat + amount.toNat < 2 ^ 64 ∧ mk.noPool.toNat + amount.toNat < 2 ^ 64 ∧
      (s.positionAt m o).amountLamports.toNat + amount.toNat < 2 ^ 64 := by
  have hvault : (l (.market m)).toNat = (s.lamports (.market m)).toNat + amount.toNat := by
    rw [hstake.payee Address.noConfusion, hrent.other Address.noConfusion Address.noConfusion]
  have hfits := (l (.market m)).toNat_lt
  have hle : _ + mk.yesPool.toNat + mk.noPool.toNat ≤ (s.lamports (.market m)).toNat :=
    Pool.staked_le_vault hsound (phase_betting hopen)
  have hyes : (s.pool rt m mk).stakeOn .yes o ≤ mk.yesPool.toNat := Pool.stakeOn_le hsound .yes o
  have hno : (s.pool rt m mk).stakeOn .no o ≤ mk.noPool.toNat := Pool.stakeOn_le hsound .no o
  have hsum : (s.pool rt m mk).stakeOn .yes o + (s.pool rt m mk).stakeOn .no o =
      (s.positionAt m o).amountLamports.toNat := Pool.stakeOn_yes_add_no _ o
  refine ⟨by omega, by omega, by omega⟩

/-- Once the rent and the stake are paid, there is room for the stake. -/
theorem paidJoin_no_overflow (hsound : PoolSound rt m s) (hmk : s.market m = some mk)
    (hopen : mk.status = statusOpen) {payer o : Pubkey} {p : Position} {u v : Chain}
    {amount : UInt64} (hu : s.initPosition rt payer m o = .ok (p, u))
    (hv : u.systemTransfer payer (.market m) amount = .ok v) {side : UInt8} {viaSessionKey : Bool}
    {bump : UInt8} :
    applyJoin m mk p o side amount viaSessionKey bump ≠ .error (.overflow .applyJoin) := by
  obtain ⟨x, l₁, rfl, hrent, rfl⟩ := Chain.initPosition_ok hu
  obtain ⟨l, -, hstake, rfl⟩ := Chain.systemTransfer_ok hv
  obtain ⟨hyes, hno, hp⟩ := room_for_stake (hsound mk hmk) hopen hrent hstake
  exact applyJoin_no_overflow hyes hno hp

theorem joinViaWallet_no_overflow (hsound : PoolSound rt m s) (signer : Pubkey) (side : UInt8)
    (amount : UInt64) :
    joinViaWallet rt signer m side amount s ≠ .error (.overflow .applyJoin) := by
  intro h
  obtain ⟨mk, hmk, h⟩ := of_getOr_bind_error h ProgramError.noConfusion
  obtain ⟨⟨p, u⟩, hu, h⟩ := of_bind_error h (Chain.initPosition_no_overflow _ _ _ _ _ _)
  obtain ⟨-, h⟩ := of_require_bind_error h ProgramError.noConfusion
  obtain ⟨hopen, h⟩ := of_require_bind_error h ProgramError.noConfusion
  obtain ⟨-, h⟩ := of_require_bind_error h ProgramError.noConfusion
  obtain ⟨v, hv, h⟩ := of_bind_error h (Chain.systemTransfer_no_overflow _ _ _ _ _)
  obtain ⟨_, -, hpure⟩ := of_bind_error h (paidJoin_no_overflow hsound hmk hopen hu hv)
  cases hpure

theorem checkTotalStake_no_overflow {g : SessionGrant} {amount : UInt64} :
    checkTotalStake g amount ≠ .error (.overflow .applyJoin) := by
  intro h
  unfold checkTotalStake at h
  split at h
  · rcases bind_eq_error.mp h with hadd | ⟨_, -, hreq⟩
    · exact absurd (checkedAdd_eq_error.mp hadd).2 (by decide)
    · exact absurd (require_eq_error.mp hreq).2 (by decide)
  · cases h

theorem joinViaSessionKey_no_overflow (hsound : PoolSound rt m s) (k owner : Pubkey)
    (side : UInt8) (amount : UInt64) :
    joinViaSessionKey rt k owner m side amount s ≠ .error (.overflow .applyJoin) := by
  intro h
  obtain ⟨g, -, h⟩ := of_getOr_bind_error h ProgramError.noConfusion
  obtain ⟨mk, hmk, h⟩ := of_getOr_bind_error h ProgramError.noConfusion
  obtain ⟨⟨p, u⟩, hu, h⟩ := of_bind_error h (Chain.initPosition_no_overflow _ _ _ _ _ _)
  obtain ⟨-, h⟩ := of_require_bind_error h ProgramError.noConfusion
  obtain ⟨-, h⟩ := of_require_bind_error h ProgramError.noConfusion
  obtain ⟨-, h⟩ := of_require_bind_error h ProgramError.noConfusion
  obtain ⟨-, h⟩ := of_require_bind_error h ProgramError.noConfusion
  obtain ⟨_, -, h⟩ := of_bind_error h checkTotalStake_no_overflow
  obtain ⟨-, h⟩ := of_require_bind_error h ProgramError.noConfusion
  obtain ⟨-, h⟩ := of_require_bind_error h ProgramError.noConfusion
  obtain ⟨hopen, h⟩ := of_require_bind_error h ProgramError.noConfusion
  obtain ⟨-, h⟩ := of_require_bind_error h ProgramError.noConfusion
  obtain ⟨v, hv, h⟩ := of_bind_error h (Chain.systemTransfer_no_overflow _ _ _ _ _)
  obtain ⟨_, -, h⟩ := of_bind_error h fun he =>
    absurd (checkedAdd_eq_error.mp he).2 (by decide)
  obtain ⟨_, -, hpure⟩ := of_bind_error h (paidJoin_no_overflow hsound hmk hopen hu hv)
  cases hpure

end Joins

/-! ## No overflow in a claim -/

section Claims
variable {rt : Runtime} {s : Chain} {m o : Pubkey} {mk : Market} {p : Position}

theorem claim_pays (hwf : WellFormed m s) (hsound : PoolSound rt m s)
    (hsupply : total s.lamports < 2 ^ 64) (hc : Claimable s m o mk p) :
    ∃ payout fee t, claimSplit mk p = .ok (payout, fee) ∧ Split mk p payout fee ∧
      MarketProgram.claim o m s = .ok t ∧ Charged m o payout fee s.lamports t.lamports := by
  have hpool := hsound mk hc.market
  obtain ⟨payout, fee, hsplit, hspec, howed⟩ := claimSplit_eq hwf hpool hc
  have hcover : payout.toNat + fee.toNat ≤ (s.lamports (.market m)).toNat := by
    rw [howed]
    exact (Nat.le_add_left _ _).trans (Pool.owed_le hpool o)
  obtain ⟨t, ht⟩ := exists_claim hc hsplit hcover hsupply
  obtain ⟨mk', p', payout', fee', l, e, hc', hsplit', hl, rfl⟩ := claim_ok ht
  cases market_inj hc.market hc'.market
  have hp : p' = p := hc'.positionAt.symm.trans hc.positionAt
  subst hp
  rw [hsplit] at hsplit'
  cases hsplit'
  exact ⟨payout, fee, _, hsplit, hspec, ht, hl⟩

theorem claim_no_overflow (hwf : WellFormed m s) (hsound : PoolSound rt m s)
    (hsupply : total s.lamports < 2 ^ 64) (o : Pubkey) :
    MarketProgram.claim o m s ≠ .error (.overflow .claim) := by
  intro h
  have h0 := h
  obtain ⟨mk, hmk, h⟩ := of_getOr_bind_error h ProgramError.noConfusion
  obtain ⟨p, hp, h⟩ := of_getOr_bind_error h ProgramError.noConfusion
  obtain ⟨hended, h⟩ := of_require_bind_error h ProgramError.noConfusion
  obtain ⟨howner, h⟩ := of_require_bind_error h ProgramError.noConfusion
  obtain ⟨hpos, -⟩ := of_require_bind_error h ProgramError.noConfusion
  obtain ⟨_, _, t, -, -, ht, -⟩ := claim_pays hwf hsound hsupply ⟨hmk, hp, hended, howner, hpos⟩
  rw [ht] at h0
  cases h0

end Claims

/-! ## Pools and stakes -/

/-- What the position of `o` holds on the given side. -/
def Chain.stakeOn (s : Chain) (m : Pubkey) (side : UInt8) (o : Pubkey) : ℕ :=
  if (s.positionAt m o).side = side then (s.positionAt m o).amountLamports.toNat else 0

def Chain.winners (s : Chain) (m : Pubkey) (outcome : UInt8) : Finset Pubkey :=
  Finset.univ.filter fun o =>
    (s.positionAt m o).side = outcome ∧ 0 < (s.positionAt m o).amountLamports

section Stakes
variable {rt : Runtime} {s : Chain} {m : Pubkey} {mk : Market} {side : UInt8}

theorem stakeOn_eq (hwf : WellFormed m s) (hside : side = sideYes ∨ side = sideNo) (o : Pubkey) :
    s.stakeOn m side o = (s.pool rt m mk).stakeOn (sideOf side) o := by
  show (if (s.positionAt m o).side = side then (s.positionAt m o).amountLamports.toNat else 0) =
    if sideOf (s.positionAt m o).side = sideOf side then (s.positionAt m o).amountLamports.toNat
    else 0
  by_cases hzero : (s.positionAt m o).amountLamports = 0
  · rw [hzero]
    simp
  · cases hp : s.position (m, o) with
    | none =>
      rw [Chain.positionAt, hp] at hzero
      exact absurd rfl hzero
    | some p =>
      rw [positionAt_of_some hp] at hzero ⊢
      have hv := hwf.position o p hp (UInt64.pos_iff_ne_zero.mpr hzero)
      simp only [sideOf_eq_iff hv.side hside]

theorem sum_winners (rt : Runtime) (mk : Market) (hwf : WellFormed m s)
    (hside : side = sideYes ∨ side = sideNo) :
    ∑ o ∈ s.winners m side, (s.positionAt m o).amountLamports.toNat =
      ∑ o, (s.pool rt m mk).stakeOn (sideOf side) o := by
  rw [Chain.winners, Finset.sum_filter]
  refine Finset.sum_congr rfl fun o _ => ?_
  rw [← stakeOn_eq hwf hside, Chain.stakeOn]
  by_cases hs : (s.positionAt m o).side = side
  · by_cases hpos : 0 < (s.positionAt m o).amountLamports
    · rw [if_pos ⟨hs, hpos⟩, if_pos hs]
    · have hzero : (s.positionAt m o).amountLamports.toNat = 0 := by
        rw [UInt64.lt_iff_toNat_lt, UInt64.toNat_zero] at hpos
        omega
      rw [if_neg (fun h => hpos h.2), if_pos hs, hzero]
  · rw [if_neg (fun h => hs h.1), if_neg hs]

theorem pools_eq_stakes (hwf : WellFormed m s) (hsound : (s.pool rt m mk).Sound)
    (hopen : mk.status = statusOpen) :
    mk.yesPool.toNat = ∑ o, s.stakeOn m sideYes o ∧
      mk.noPool.toNat = ∑ o, s.stakeOn m sideNo o := by
  have hexact := hsound.exact (phase_betting hopen)
  constructor
  · refine (hexact .yes).symm.trans (Finset.sum_congr rfl fun o _ => ?_)
    exact (stakeOn_eq hwf (.inl rfl) o).symm
  · refine (hexact .no).symm.trans (Finset.sum_congr rfl fun o _ => ?_)
    exact (stakeOn_eq hwf (.inr rfl) o).symm

/-- The charges of all winners at the moment of settlement: the two pools, up to less than one
lamport a winner. -/
theorem winners_charge {t : Chain} {outcome : UInt8} {now : Int64} (hwf : WellFormed m s)
    (hsound : (s.pool rt m mk).Sound) (hopen : mk.status = statusOpen)
    (hout : outcome = sideYes ∨ outcome = sideNo)
    (hkept : ∀ o, t.position (m, o) = s.position (m, o)) :
    ∑ o ∈ t.winners m outcome,
        winnerCharge (settled mk outcome now) (t.positionAt m o).amountLamports ≤
      (winningPool (settled mk outcome now)).toNat + (losingPool (settled mk outcome now)).toNat ∧
    (0 < winningPool (settled mk outcome now) →
      (winningPool (settled mk outcome now)).toNat + (losingPool (settled mk outcome now)).toNat <
        ∑ o ∈ t.winners m outcome,
          winnerCharge (settled mk outcome now) (t.positionAt m o).amountLamports +
        (t.winners m outcome).card) := by
  have hsame : ∀ o, t.positionAt m o = s.positionAt m o := fun o => positionAt_congr (hkept o)
  have hwinners : t.winners m outcome = s.winners m outcome := by
    simp only [Chain.winners, hsame]
  have hW : (s.pool rt m mk).staked (sideOf outcome) =
      (winningPool (settled mk outcome now)).toNat :=
    (staked_sideOf rt s m (settled mk outcome now) hout).1
  have hsum : ∑ o ∈ s.winners m outcome, (s.positionAt m o).amountLamports.toNat =
      (winningPool (settled mk outcome now)).toNat := by
    rw [sum_winners rt mk hwf hout, hsound.exact (phase_betting hopen), hW]
  rw [hwinners]
  simp only [hsame, winnerCharge]
  refine ⟨sum_gross_le _ _ hsum.le, ?_⟩
  intro hpos
  refine lt_sum_gross_add_card _ _ hsum ?_
  rw [UInt64.lt_iff_toNat_lt] at hpos
  exact hpos

end Stakes

/-! ## Conservation -/

theorem position_of_ended {rt : Runtime} {m : Pubkey} {s t : Chain} {as : List Action}
    {mk : Market} (h : Steps (Step rt) s as t) (hmk : s.market m = some mk) (hended : Ended mk)
    (halive : ∀ a ∈ as, a.opOn rt m ≠ .close) (o : Pubkey) :
    t.positionAt m o = s.positionAt m o ∨ (t.positionAt m o).amountLamports = 0 := by
  have hjoin := no_join_of_ended h hmk hended halive
  refine h.invariant (I := fun u => u.positionAt m o = s.positionAt m o ∨
    (u.positionAt m o).amountLamports = 0) ?_ (.inl rfl)
  intro u a v ha hs hu
  rcases (hs.change m).position_kept (hjoin a ha) o with heq | hz
  · rw [heq]
    exact hu
  · exact .inr hz

theorem charge_of_settle {rt : Runtime} {m : Pubkey} {s t : Chain} {a : Action}
    (hs : Step rt s a t) (ha : a.opOn rt m = .forceSettle ∨ a.opOn rt m = .settleFromProof)
    (hwf : WellFormed m s) (hsound : PoolSound rt m s) :
    ∃ mk, t.market m = some mk ∧ mk.status = statusSettled ∧
      ∑ o ∈ t.winners m mk.outcome, winnerCharge mk (t.positionAt m o).amountLamports ≤
        (winningPool mk).toNat + (losingPool mk).toNat ∧
      (0 < winningPool mk → (winningPool mk).toNat + (losingPool mk).toNat <
        ∑ o ∈ t.winners m mk.outcome, winnerCharge mk (t.positionAt m o).amountLamports +
          (t.winners m mk.outcome).card) := by
  have hc := hs.change m
  rcases ha with ha | ha
  · rw [ha] at hc
    cases hc with
    | forceSettle mk outcome hmk hout hstatus hm hk =>
      have hopen := (hwf.market mk hmk).isOpen_of_unsettled hstatus
      exact ⟨_, hm, rfl, winners_charge hwf (hsound mk hmk) hopen hout hk.position⟩
  · rw [ha] at hc
    cases hc with
    | settleFromProof mk outcome r hmk hout hstatus _ _ _ _ hm hk =>
      have hopen := (hwf.market mk hmk).isOpen_of_unsettled hstatus
      exact ⟨_, hm, rfl, winners_charge hwf (hsound mk hmk) hopen hout hk.position⟩

/-- **Conservation.** In every state of a lifetime that began clean: while the market is open its
pools are its stakes; once it has ended every claim goes through and pays its split; a settlement
fixes what the winners are charged, which no later claim of anybody changes; and nothing
overflows. -/
theorem conservation {rt : Runtime} {m : Pubkey} {s₀ s t : Chain} {as : List Action}
    (h : Lifetime rt m s₀ s as t) (hclean : Clean m s₀) :
    ∃ mk, t.market m = some mk ∧
      (mk.status = statusOpen → mk.yesPool.toNat = ∑ o, t.stakeOn m sideYes o ∧
        mk.noPool.toNat = ∑ o, t.stakeOn m sideNo o) ∧
      (∀ o p, Claimable t m o mk p → ∃ payout fee u, claimSplit mk p = .ok (payout, fee) ∧
        Split mk p payout fee ∧ MarketProgram.claim o m t = .ok u ∧
        Charged m o payout fee t.lamports u.lamports) ∧
      (∀ a u, Step rt t a u → (a.opOn rt m = .forceSettle ∨ a.opOn rt m = .settleFromProof) →
        ∃ mk', u.market m = some mk' ∧ mk'.status = statusSettled ∧
          (∑ o ∈ u.winners m mk'.outcome, winnerCharge mk' (u.positionAt m o).amountLamports ≤
              (winningPool mk').toNat + (losingPool mk').toNat ∧
            (0 < winningPool mk' → (winningPool mk').toNat + (losingPool mk').toNat <
              ∑ o ∈ u.winners m mk'.outcome, winnerCharge mk' (u.positionAt m o).amountLamports +
                (u.winners m mk'.outcome).card)) ∧
          ∀ bs v, Steps (Step rt) u bs v → (∀ b ∈ bs, b.opOn rt m ≠ .close) →
            (∃ mk'', v.market m = some mk'' ∧ Frozen mk' mk'') ∧
            ∀ o, v.positionAt m o = u.positionAt m o ∨ (v.positionAt m o).amountLamports = 0) ∧
      (∀ o side amount, joinViaWallet rt o m side amount t ≠ .error (.overflow .applyJoin)) ∧
      (∀ k o side amount,
        joinViaSessionKey rt k o m side amount t ≠ .error (.overflow .applyJoin)) ∧
      ∀ o, MarketProgram.claim o m t ≠ .error (.overflow .claim) := by
  obtain ⟨hsound, mk, hmk⟩ := h.poolSound hclean
  have hreach := h.reachable_end
  have hwf := hreach.wellFormed m
  refine ⟨mk, hmk, ?_, ?_, ?_, ?_, ?_, ?_⟩
  · intro hopen
    exact pools_eq_stakes hwf (hsound mk hmk) hopen
  · intro o p hc
    exact claim_pays hwf hsound hreach.supply hc
  · intro a u hs ha
    obtain ⟨mk', hmk', hset, hcharge⟩ := charge_of_settle hs ha hwf hsound
    refine ⟨mk', hmk', hset, hcharge, ?_⟩
    intro bs v hbs halive
    exact ⟨frozen_of_run hbs hmk' (.inl hset) halive, position_of_ended hbs hmk' (.inl hset) halive⟩
  · exact joinViaWallet_no_overflow hsound
  · exact joinViaSessionKey_no_overflow hsound
  · exact claim_no_overflow hwf hsound hreach.supply

theorem conservation_sample :
    ∃ s₀ s t mk, Lifetime Sample.runtime Sample.market s₀ s [Sample.join sideYes 1000000] t ∧
      t.market Sample.market = some mk ∧
      mk.yesPool.toNat = ∑ o, t.stakeOn Sample.market sideYes o := by
  obtain ⟨s₀, s, t, hinit, -, hlife, hstands⟩ := Sample.lifetime_of_runsTo
    [Sample.join sideYes 1000000] (P := Sample.Stands statusOpen outcomeVoid) (by decide +kernel)
    (by decide +kernel)
  obtain ⟨mk, hmk, hpools, -⟩ := conservation hlife (Sample.clean_of_setUp hinit _)
  obtain ⟨mk₁, h1, hopen, -⟩ := hstands.market
  cases market_inj hmk h1
  exact ⟨s₀, s, t, mk, hlife, hmk, (hpools hopen).1⟩

end Stoppage
