import Stoppage.Programs.Market
import Stoppage.Chain.Ledger

/-! # What the instructions of the market program do

One specification for each instruction that touches a market: what it checked, and the chain it
returned as the chain it was given with some fields replaced. Callers use these and do not unfold
the handlers.
-/

namespace Stoppage.MarketProgram
open Fallible BalanceSheet
set_option autoImplicit false

theorem loadMarket_ok {s : Chain} {m : Pubkey} {mk : Market} (h : s.loadMarket m = .ok mk) :
    s.market m = some mk := getOr_eq_ok.mp h

/-! ## Creation -/

theorem createMarket_ok {rt : Runtime} {creator : Pubkey} {seeds : MarketSeeds} {closesAt : Int64}
    {oracle : Pubkey} {s t : Chain} (h : createMarket rt creator seeds closesAt oracle s = .ok t) :
    ∃ c l₁ l e, s.owner (.market (rt.marketAddress seeds)) = systemProgramId ∧
      s.protocolConfig = some c ∧ s.now < closesAt ∧
      Transferred s.lamports (.external creator) (.market (rt.marketAddress seeds))
        (s.rentDue rt (.market (rt.marketAddress seeds)) Market.space) l₁ ∧
      Transferred l₁ (.external creator) (.market (rt.marketAddress seeds)) minBondLamports l ∧
      t = { s with
        lamports := l
        market := Function.update s.market (rt.marketAddress seeds)
          (some (newMarket rt creator seeds closesAt oracle c.feeBps))
        events := e } := by
  simp only [createMarket, bind_eq_ok, require_eq_ok, getOr_eq_ok, pure_eq_ok] at h
  obtain ⟨u, hu, c, hc, -, hnow, -, -, v, hv, rfl⟩ := h
  obtain ⟨l₁, howner, hl₁, rfl⟩ := Chain.initAccount_ok hu
  obtain ⟨l, -, hl, rfl⟩ := Chain.systemTransfer_ok hv
  exact ⟨c, l₁, l, _, howner, hc, hnow, hl₁, hl, rfl⟩

/-! ## Joins -/

/-- What a join of `amount` on `side` does to the market and to the position. -/
structure Joined (mk : Market) (p : Position) (owner : Pubkey) (side : UInt8) (amount : UInt64)
    (mk' : Market) (p' : Position) : Prop where
  valid : side = sideYes ∨ side = sideNo
  yesPool : mk'.yesPool.toNat = mk.yesPool.toNat + if side = sideYes then amount.toNat else 0
  noPool : mk'.noPool.toNat = mk.noPool.toNat + if side = sideYes then 0 else amount.toNat
  market : mk' = { mk with yesPool := mk'.yesPool, noPool := mk'.noPool }
  sameSide : p.amountLamports = 0 ∨ p.side = side
  side : p'.side = side
  owner : p'.owner = if p.amountLamports = 0 then owner else p.owner
  stake : p'.amountLamports.toNat = p.amountLamports.toNat + amount.toNat

theorem joinPool_ok {mk mk' : Market} {side : UInt8} {amount : UInt64}
    (h : joinPool mk side amount = .ok mk') :
    mk'.yesPool.toNat = mk.yesPool.toNat + (if side = sideYes then amount.toNat else 0) ∧
    mk'.noPool.toNat = mk.noPool.toNat + (if side = sideYes then 0 else amount.toNat) ∧
    mk' = { mk with yesPool := mk'.yesPool, noPool := mk'.noPool } := by
  unfold joinPool at h
  split at h
  · rename_i hyes
    simp only [bind_eq_ok, checkedAdd_eq_ok, pure_eq_ok] at h
    obtain ⟨pool, hpool, rfl⟩ := h
    rw [if_pos hyes, if_pos hyes]
    exact ⟨hpool, rfl, rfl⟩
  · rename_i hno
    simp only [bind_eq_ok, checkedAdd_eq_ok, pure_eq_ok] at h
    obtain ⟨pool, hpool, rfl⟩ := h
    rw [if_neg hno, if_neg hno]
    exact ⟨rfl, hpool, rfl⟩

theorem joinPosition_ok {m owner : Pubkey} {p p' : Position} {side : UInt8} {viaSessionKey : Bool}
    {bump : UInt8} (h : joinPosition m p owner side viaSessionKey bump = .ok p') :
    (p.amountLamports = 0 ∨ p.side = side) ∧ p'.side = side ∧
    p'.owner = (if p.amountLamports = 0 then owner else p.owner) ∧
    p'.amountLamports = p.amountLamports := by
  unfold joinPosition at h
  split at h
  · rename_i hzero
    rw [pure_eq_ok] at h
    subst h
    exact ⟨.inl hzero, rfl, (if_pos hzero).symm, rfl⟩
  · rename_i hzero
    simp only [bind_eq_ok, require_eq_ok, pure_eq_ok] at h
    obtain ⟨-, hside, rfl⟩ := h
    exact ⟨.inr hside, hside, (if_neg hzero).symm, rfl⟩

theorem applyJoin_ok {m : Pubkey} {mk mk' : Market} {p p' : Position} {owner : Pubkey}
    {side : UInt8} {amount : UInt64} {viaSessionKey : Bool} {bump : UInt8}
    (h : applyJoin m mk p owner side amount viaSessionKey bump = .ok (mk', p')) :
    Joined mk p owner side amount mk' p' := by
  simp only [applyJoin, bind_eq_ok, require_eq_ok, pure_eq_ok, checkedAdd_eq_ok,
    Prod.mk.injEq] at h
  obtain ⟨-, hside, mk₁, hpools, p₁, hposition, stake, hstake, rfl, rfl⟩ := h
  obtain ⟨hyes, hno, hmarket⟩ := joinPool_ok hpools
  obtain ⟨hsame, hp, howner, hamount⟩ := joinPosition_ok hposition
  rw [hamount] at hstake
  exact ⟨hside, hyes, hno, hmarket, hsame, hp, howner, hstake⟩

/-- What either way of joining checks, and what it does to the market and the balances. -/
structure JoinedAt (s : Chain) (m o : Pubkey) (side : UInt8) (amount : UInt64) (mk mk' : Market)
    (p' : Position) (l : Address → UInt64) : Prop where
  market : s.market m = some mk
  isOpen : mk.status = statusOpen
  inTime : s.now < mk.closesAt
  positive : 0 < amount
  joined : Joined mk ((s.position (m, o)).getD .empty) o side amount mk' p'
  vault : (l (.market m)).toNat = (s.lamports (.market m)).toNat + amount.toNat
  paid : Paid s.lamports l

theorem joinedAt_of {s : Chain} {m o payer : Pubkey} {side : UInt8} {amount x : UInt64}
    {mk mk' : Market} {p' : Position} {l₁ l : Address → UInt64} (hmk : s.market m = some mk)
    (hopen : mk.status = statusOpen) (htime : s.now < mk.closesAt) (hpos : 0 < amount)
    (hrent : Transferred s.lamports (.external payer) (.position m o) x l₁)
    (hstake : Transferred l₁ (.external payer) (.market m) amount l)
    (hj : Joined mk ((s.position (m, o)).getD .empty) o side amount mk' p') :
    JoinedAt s m o side amount mk mk' p' l := by
  have hvault : (l (.market m)).toNat = (s.lamports (.market m)).toNat + amount.toNat := by
    rw [hstake.payee Address.noConfusion, hrent.other Address.noConfusion Address.noConfusion]
  exact ⟨hmk, hopen, htime, hpos, hj, hvault,
    (Paid.of_transfer hrent).trans (.of_transfer hstake)⟩

theorem joinViaWallet_ok {rt : Runtime} {signer m : Pubkey} {side : UInt8} {amount : UInt64}
    {s t : Chain} (h : joinViaWallet rt signer m side amount s = .ok t) :
    ∃ mk mk' p' l e, JoinedAt s m signer side amount mk mk' p' l ∧
      t = { s with
        lamports := l
        market := Function.update s.market m (some mk')
        position := Function.update s.position (m, signer) (some p')
        events := e } := by
  simp only [joinViaWallet, bind_eq_ok, require_eq_ok, pure_eq_ok] at h
  obtain ⟨mk, hmk, ⟨p, u⟩, hu, -, hpos, -, hopen, -, htime, v, hv, ⟨mk', p'⟩, hj, rfl⟩ := h
  obtain ⟨x, l₁, rfl, hrent, rfl⟩ := Chain.initPosition_ok hu
  obtain ⟨l, -, hstake, rfl⟩ := Chain.systemTransfer_ok hv
  have hjoined := joinedAt_of (loadMarket_ok hmk) hopen htime hpos hrent hstake (applyJoin_ok hj)
  exact ⟨mk, mk', p', l, _, hjoined, rfl⟩

/-- What a stake of `amount` through a grant checks, and what it leaves of the grant. -/
structure Spends (s : Chain) (g : SessionGrant) (amount : UInt64) (g' : SessionGrant) : Prop where
  inTime : s.now < g.expiresAt
  total : 0 < g.maxTotalStake → g'.stakedSoFar ≤ g.maxTotalStake
  perCall : amount ≤ g.maxStakePerMarket
  allowed : marketProgramId ∈ g.allowedPrograms
  spent : g'.stakedSoFar.toNat = g.stakedSoFar.toNat + amount.toNat
  rest : g' = { g with stakedSoFar := g'.stakedSoFar }

theorem checkTotalStake_ok {g : SessionGrant} {amount spent : UInt64}
    (h : checkTotalStake g amount = .ok ())
    (hspent : spent.toNat = g.stakedSoFar.toNat + amount.toNat) (hcap : 0 < g.maxTotalStake) :
    spent ≤ g.maxTotalStake := by
  rw [checkTotalStake, if_pos hcap] at h
  simp only [bind_eq_ok, checkedAdd_eq_ok, require_eq_ok] at h
  obtain ⟨x, hx, hle⟩ := h
  rwa [UInt64.toNat_inj.mp (hspent.trans hx.symm)]

theorem joinViaSessionKey_ok {rt : Runtime} {sessionKey owner m : Pubkey} {side : UInt8}
    {amount : UInt64} {s t : Chain}
    (h : joinViaSessionKey rt sessionKey owner m side amount s = .ok t) :
    ∃ g g' mk mk' p' l e, s.sessionGrant (owner, sessionKey) = some g ∧ Spends s g amount g' ∧
      JoinedAt s m owner side amount mk mk' p' l ∧
      t = { s with
        lamports := l
        market := Function.update s.market m (some mk')
        position := Function.update s.position (m, owner) (some p')
        sessionGrant := Function.update s.sessionGrant (owner, sessionKey) (some g')
        events := e } := by
  simp only [joinViaSessionKey, Chain.loadGrant, bind_eq_ok, require_eq_ok, getOr_eq_ok,
    checkedAdd_eq_ok, pure_eq_ok] at h
  obtain ⟨g, hg, mk, hmk, ⟨p, u⟩, hu, -, hpos, -, -, -, hlive, -, -, _, htotal, -, hcall, -,
    hallowed, -, hopen, -, htime, v, hv, staked, hstaked, ⟨mk', p'⟩, hj, rfl⟩ := h
  obtain ⟨x, l₁, rfl, hrent, rfl⟩ := Chain.initPosition_ok hu
  obtain ⟨l, -, hstake, rfl⟩ := Chain.systemTransfer_ok hv
  have hjoined := joinedAt_of (loadMarket_ok hmk) hopen htime hpos hrent hstake (applyJoin_ok hj)
  have hspends : Spends s g amount { g with stakedSoFar := staked } :=
    ⟨hlive, checkTotalStake_ok htotal hstaked, hcall, hallowed, hstaked, rfl⟩
  exact ⟨g, _, mk, mk', p', l, _, hg, hspends, hjoined, rfl⟩

/-! ## Settling and voiding -/

theorem forceSettle_ok {rt : Runtime} {authority m : Pubkey} {outcome : UInt8} {s t : Chain}
    (h : forceSettle rt authority m outcome s = .ok t) :
    ∃ c mk e, s.protocolConfig = some c ∧ c.authority = authority ∧ s.market m = some mk ∧
      (outcome = sideYes ∨ outcome = sideNo) ∧
      (mk.status = statusOpen ∨ mk.status = statusAwaiting) ∧
      t = { s with
        market := Function.update s.market m (some (settled mk outcome s.now))
        events := e } := by
  simp only [forceSettle, Chain.loadProtocolConfig, bind_eq_ok, require_eq_ok, getOr_eq_ok,
    pure_eq_ok] at h
  obtain ⟨c, ⟨_, hc, -, -, rfl⟩, mk, hmk, -, hauth, -, hout, -, hstatus, rfl⟩ := h
  exact ⟨_, mk, _, hc, hauth, loadMarket_ok hmk, hout, hstatus, rfl⟩

theorem settleFromProof_ok {m : Pubkey} {resolution : Address} {outcome : UInt8} {s t : Chain}
    (h : settleFromProof m resolution outcome s = .ok t) :
    ∃ mk e, s.market m = some mk ∧ (outcome = sideYes ∨ outcome = sideNo) ∧
      resolution = .resolution m ∧ s.owner (.resolution m) = settlementProgramId ∧
      verifyResolutionReceipt (s.data (.resolution m)) m outcome mk.oracle = .ok () ∧
      (mk.status = statusOpen ∨ mk.status = statusAwaiting) ∧
      t = { s with
        market := Function.update s.market m (some (settled mk outcome s.now))
        events := e } := by
  simp only [settleFromProof, bind_eq_ok, require_eq_ok, pure_eq_ok] at h
  obtain ⟨mk, hmk, -, hout, -, howner, -, rfl, _, hreceipt, -, hstatus, rfl⟩ := h
  exact ⟨mk, _, loadMarket_ok hmk, hout, rfl, howner, hreceipt, hstatus, rfl⟩

def voided (mk : Market) (now : Int64) : Market :=
  { mk with status := statusVoid, outcome := outcomeVoid, settlesAt := now }

theorem voidMarket_ok {m : Pubkey} {s t : Chain} (h : voidMarket m s = .ok t) :
    ∃ mk e, s.market m = some mk ∧ mk.status ≠ statusSettled ∧ mk.status ≠ statusVoid ∧
      mk.closesAt.toInt + 3600 < s.now.toInt ∧
      t = { s with
        market := Function.update s.market m (some (voided mk s.now))
        events := e } := by
  simp only [voidMarket, bind_eq_ok, require_eq_ok, checkedAddInt_eq_ok, pure_eq_ok] at h
  obtain ⟨mk, hmk, -, ⟨hset, hvoid⟩, deadline, hd, -, hlate, rfl⟩ := h
  refine ⟨mk, _, loadMarket_ok hmk, hset, hvoid, ?_, rfl⟩
  rw [Int64.lt_iff_toInt_lt, hd] at hlate
  exact hlate

/-! ## Claims -/

/-- The status after which a market is only paid out and closed. -/
def Ended (mk : Market) : Prop := mk.status = statusSettled ∨ mk.status = statusVoid

instance (mk : Market) : Decidable (Ended mk) :=
  inferInstanceAs (Decidable (mk.status = statusSettled ∨ mk.status = statusVoid))

/-- What paying `payout` to `o` and `fee` to the treasury out of the market `m` does. -/
structure Charged (m o : Pubkey) (payout fee : UInt64) (l l' : Address → UInt64) : Prop where
  vault : (l' (.market m)).toNat + payout.toNat + fee.toNat = (l (.market m)).toNat
  claimant : (l' (.external o)).toNat = (l (.external o)).toNat + payout.toNat
  treasury : (l' .treasury).toNat = (l .treasury).toNat + fee.toNat
  other : ∀ a, a ≠ .market m → a ≠ .external o → a ≠ .treasury → l' a = l a
  total : total l' = total l

theorem charged_of {m o : Pubkey} {payout fee charge : UInt64} {l l₁ l₂ l₃ : Address → UInt64}
    (hcharge : charge.toNat = payout.toNat + fee.toNat) (h1 : Debited l (.market m) charge l₁)
    (h2 : Credited l₁ (.external o) payout l₂) (h3 : Credited l₂ .treasury fee l₃) :
    Charged m o payout fee l l₃ := by
  have hvault := h1.entry
  have ht1 := h1.total
  have ht2 := h2.total
  have ht3 := h3.total
  refine ⟨?_, ?_, ?_, ?_, by omega⟩
  · rw [h3.other _ Address.noConfusion, h2.other _ Address.noConfusion]
    omega
  · rw [h3.other _ Address.noConfusion, h2.entry, h1.other _ Address.noConfusion]
  · rw [h3.entry, h2.other _ Address.noConfusion, h1.other _ Address.noConfusion]
  · intro a hm ho ht
    rw [h3.other a ht, h2.other a ho, h1.other a hm]

theorem charged_zero (m o : Pubkey) (l : Address → UInt64) : Charged m o 0 0 l l :=
  ⟨rfl, rfl, rfl, fun _ _ _ _ => rfl, rfl⟩

/-- What `claim` asks of a position before it pays. -/
structure Claimable (s : Chain) (m o : Pubkey) (mk : Market) (p : Position) : Prop where
  market : s.market m = some mk
  position : s.position (m, o) = some p
  ended : Ended mk
  owner : p.owner = o
  positive : 0 < p.amountLamports

theorem claim_ok {o m : Pubkey} {s t : Chain} (h : claim o m s = .ok t) :
    ∃ mk p payout fee l e, Claimable s m o mk p ∧ claimSplit mk p = .ok (payout, fee) ∧
      Charged m o payout fee s.lamports l ∧
      t = { s with
        lamports := l
        position := Function.update s.position (m, o) (some { p with amountLamports := 0 })
        events := e } := by
  simp only [claim, Chain.loadPosition, bind_eq_ok, require_eq_ok, getOr_eq_ok] at h
  obtain ⟨mk, hmk, p, hp, -, hended, -, howner, -, hpos, ⟨payout, fee⟩, hsplit, hpay⟩ := h
  have hc : Claimable s m o mk p := ⟨loadMarket_ok hmk, hp, hended, howner, hpos⟩
  split at hpay
  · rename_i hloser
    rw [pure_eq_ok] at hpay
    rw [claimSplit, if_neg hloser.1, if_pos hloser.2, pure_eq_ok, Prod.mk.injEq] at hsplit
    obtain ⟨rfl, rfl⟩ := hsplit
    subst hpay
    refine ⟨mk, p, 0, 0, s.lamports, _, hc, ?_, charged_zero m o _, rfl⟩
    rw [claimSplit, if_neg hloser.1, if_pos hloser.2]
    rfl
  · simp only [bind_eq_ok, checkedAdd_eq_ok] at hpay
    obtain ⟨charge, hcharge, u, hu, v, hv, hfee⟩ := hpay
    obtain ⟨l₁, h1, rfl⟩ := Chain.subLamports_ok hu
    obtain ⟨l₂, h2, rfl⟩ := Chain.addLamports_ok hv
    split at hfee
    · simp only [bind_eq_ok, pure_eq_ok] at hfee
      obtain ⟨w, hw, rfl⟩ := hfee
      obtain ⟨l₃, h3, rfl⟩ := Chain.addLamports_ok hw
      exact ⟨mk, p, payout, fee, l₃, _, hc, hsplit, charged_of hcharge h1 h2 h3, rfl⟩
    · rename_i hfree
      simp only [pure_bind, pure_eq_ok] at hfee
      subst hfee
      have hzero : fee.toNat = 0 := by
        rw [UInt64.lt_iff_toNat_lt, UInt64.toNat_zero] at hfree
        omega
      have h3 : Credited l₂ .treasury fee l₂ := ⟨by rw [hzero]; rfl, fun _ _ => rfl⟩
      exact ⟨mk, p, payout, fee, l₂, _, hc, hsplit, charged_of hcharge h1 h2 h3, rfl⟩

theorem claimBond_ok {creator m : Pubkey} {s t : Chain} (h : claimBond creator m s = .ok t) :
    ∃ mk l e, s.market m = some mk ∧ mk.creator = creator ∧ Ended mk ∧ mk.bondClaimed = false ∧
      Transferred s.lamports (.market m) (.external creator) mk.bondLamports l ∧
      t = { s with
        lamports := l
        market := Function.update s.market m (some { mk with bondClaimed := true })
        events := e } := by
  simp only [claimBond, bind_eq_ok, require_eq_ok, pure_eq_ok] at h
  obtain ⟨mk, hmk, -, hcreator, -, hended, -, hbond, u, hu, v, hv, rfl⟩ := h
  obtain ⟨l₁, h1, rfl⟩ := Chain.subLamports_ok hu
  obtain ⟨l₂, h2, rfl⟩ := Chain.addLamports_ok hv
  exact ⟨mk, l₂, _, loadMarket_ok hmk, hcreator, hended, hbond, ⟨l₁, h1, h2⟩, rfl⟩

/-! ## Closing and attesting -/

theorem closeMarket_ok {creator m : Pubkey} {s t : Chain} (h : closeMarket creator m s = .ok t) :
    ∃ mk l e, s.market m = some mk ∧ Ended mk ∧ mk.creator = creator ∧
      mk.settlesAt.toInt + 604800 < s.now.toInt ∧
      Credited s.lamports (.external creator) (s.lamports (.market m)) l ∧
      t = { s with
        lamports := Function.update l (.market m) 0
        market := Function.update s.market m none
        events := e } := by
  simp only [closeMarket, bind_eq_ok, require_eq_ok, checkedAddInt_eq_ok, pure_eq_ok] at h
  obtain ⟨mk, hmk, -, hended, -, hcreator, deadline, hd, -, hlate, u, hu, rfl⟩ := h
  obtain ⟨l, hl, rfl⟩ := Chain.sweep_ok hu
  rw [Int64.lt_iff_toInt_lt, hd] at hlate
  exact ⟨mk, l, _, loadMarket_ok hmk, hended, hcreator, hlate, hl, rfl⟩

theorem attestVerification_ok {verifier m : Pubkey} {s t : Chain}
    (h : attestVerification verifier m s = .ok t) :
    ∃ mk n e, s.market m = some mk ∧ mk.status = statusSettled ∧
      t = { s with
        market := Function.update s.market m (some { mk with verifications := n })
        events := e } := by
  simp only [attestVerification, bind_eq_ok, require_eq_ok, pure_eq_ok] at h
  obtain ⟨mk, hmk, -, hsettled, n, -, rfl⟩ := h
  exact ⟨mk, n, _, loadMarket_ok hmk, hsettled, rfl⟩

/-! ## Instructions aside from the markets -/

theorem initializeProtocol_aside {rt : Runtime} {authority : Pubkey} {feeBps : UInt16}
    {s t : Chain} (h : initializeProtocol rt authority feeBps s = .ok t) : Aside s t := by
  simp only [initializeProtocol, bind_eq_ok, require_eq_ok, pure_eq_ok] at h
  obtain ⟨u, hu, v, hv, w, hw, -, hfee, rfl⟩ := h
  have hinit := ((Aside.of_init hu).trans (.of_init hv)).trans (.of_init hw)
  refine hinit.rest _ (fun c hc => .inr ?_) _ _ _ _
  cases hc
  exact hfee

theorem setAgentAuthority_aside {rt : Runtime} {authority agentAuthority : Pubkey} {s t : Chain}
    (h : setAgentAuthority rt authority agentAuthority s = .ok t) : Aside s t := by
  simp only [setAgentAuthority, bind_eq_ok] at h
  obtain ⟨c, -, h⟩ := h
  split at h
  · simp only [pure_bind, bind_eq_ok, require_eq_ok, pure_eq_ok] at h
    obtain ⟨-, -, rfl⟩ := h
    exact (Aside.refl s).keep _ _ _ _
  · simp only [bind_eq_ok, require_eq_ok, pure_eq_ok] at h
    obtain ⟨u, hu, -, -, rfl⟩ := h
    exact (Aside.of_init hu).keep _ _ _ _

theorem delegateSessionKey_aside {rt : Runtime} {owner : Pubkey} {session : Address}
    {allowedPrograms : List Pubkey} {maxStakePerMarket maxTotalStake fundLamports : UInt64}
    {expiresAt : Int64} {s t : Chain}
    (h : delegateSessionKey rt owner session allowedPrograms maxStakePerMarket maxTotalStake
      expiresAt fundLamports s = .ok t) : Aside s t := by
  simp only [delegateSessionKey, bind_eq_ok, require_eq_ok] at h
  obtain ⟨u, hu, -, -, h⟩ := h
  have hgrant := (Aside.of_init hu).keep u.agentAuthority (Function.update u.sessionGrant
    (owner, rt.key session) (some
      { owner, sessionPubkey := rt.key session, allowedPrograms, maxStakePerMarket, maxTotalStake,
        stakedSoFar := 0, expiresAt, revoked := false,
        bump := rt.bump (.sessionGrant owner (rt.key session)) }))
    u.pricingReceipt u.events
  split at h
  · simp only [bind_eq_ok, pure_eq_ok] at h
    obtain ⟨v, hv, rfl⟩ := h
    exact (hgrant.trans (.of_transfer hv)).keep _ _ _ _
  · rw [pure_bind, pure_eq_ok] at h
    subst h
    exact hgrant.keep _ _ _ _

theorem revokeSessionKey_aside {owner sessionPubkey : Pubkey} {s t : Chain}
    (h : revokeSessionKey owner sessionPubkey s = .ok t) : Aside s t := by
  simp only [revokeSessionKey, bind_eq_ok, pure_eq_ok] at h
  obtain ⟨g, -, u, hu, rfl⟩ := h
  obtain ⟨l, hl, rfl⟩ := Chain.sweep_ok hu
  have hpaid := Paid.of_sweep (fun _ => Address.noConfusion) Address.noConfusion hl
  exact (Aside.of_paid hpaid).keep _ _ _ _

theorem sessionPing_aside {sessionKey owner : Pubkey} {s t : Chain}
    (h : sessionPing sessionKey owner s = .ok t) : Aside s t := by
  simp only [sessionPing, bind_eq_ok, require_eq_ok, pure_eq_ok] at h
  obtain ⟨g, -, -, -, -, -, rfl⟩ := h
  exact (Aside.refl s).keep _ _ _ _

/-- The receipt as `attest_pricing` fills it in. -/
def newReceipt (rt : Runtime) (m : Pubkey) (snapshotHash : List.Vector UInt8 32)
    (modelVersion : String) (fairValue bid ask : UInt64) (agentSignature : List.Vector UInt8 64)
    (ts : Int64) : PricingReceipt where
  market := m
  snapshotHash := snapshotHash
  modelVersion := modelVersion
  fairValue := fairValue
  bid := bid
  ask := ask
  agentSignature := agentSignature
  ts := ts
  bump := rt.bump (.pricingReceipt m)

section Pricing
variable {rt : Runtime} {signer m : Pubkey} {snapshotHash : List.Vector UInt8 32}
  {modelVersion : String} {fairValue bid ask : UInt64} {agentSignature : List.Vector UInt8 64}
  {ts : Int64} {s t : Chain} {r : PricingReceipt}

theorem attestPricingHandler_ok (h : attestPricingHandler rt signer m snapshotHash modelVersion
      fairValue bid ask agentSignature ts s = .ok (r, t)) :
    ∃ l e, r = newReceipt rt m snapshotHash modelVersion fairValue bid ask agentSignature ts ∧
      modelVersion.utf8ByteSize ≤ maxModelVersionLen ∧ Aside s { s with lamports := l, events := e } ∧
      t = { s with lamports := l, events := e } := by
  simp only [attestPricingHandler, bind_eq_ok, require_eq_ok] at h
  obtain ⟨_, -, -, -, _, -, h⟩ := h
  split at h
  · simp only [pure_bind, bind_eq_ok, require_eq_ok, pure_eq_ok, Prod.mk.injEq] at h
    obtain ⟨-, hversion, -, -, -, -, rfl, rfl⟩ := h
    exact ⟨_, _, rfl, hversion, (Aside.refl s).keep _ _ _ _, rfl⟩
  · simp only [bind_eq_ok, require_eq_ok, pure_eq_ok, Prod.mk.injEq] at h
    obtain ⟨u, hu, -, hversion, -, -, -, -, rfl, rfl⟩ := h
    obtain ⟨l, -, -, rfl⟩ := Chain.initAccount_ok hu
    exact ⟨l, _, rfl, hversion, (Aside.of_init hu).keep _ _ _ _, rfl⟩

theorem attestPricing_ok (h : attestPricing rt signer m snapshotHash modelVersion fairValue bid ask
      agentSignature ts s = .ok t) :
    ∃ l e, modelVersion.utf8ByteSize ≤ maxModelVersionLen ∧
      (newReceipt rt m snapshotHash modelVersion fairValue bid ask agentSignature ts).data.length ≤
        PricingReceipt.space ∧
      Aside s { s with lamports := l, events := e } ∧
      t = { s with
        lamports := l
        pricingReceipt := Function.update s.pricingReceipt m (some
          (newReceipt rt m snapshotHash modelVersion fairValue bid ask agentSignature ts))
        events := e } := by
  simp only [attestPricing, exitPricing, bind_eq_ok, require_eq_ok, pure_eq_ok] at h
  obtain ⟨⟨r, u⟩, hhandler, -, hfits, rfl⟩ := h
  obtain ⟨l, e, rfl, hversion, haside, rfl⟩ := attestPricingHandler_ok hhandler
  exact ⟨l, e, hversion, hfits, haside, rfl⟩

theorem attestPricing_aside (h : attestPricing rt signer m snapshotHash modelVersion fairValue bid
      ask agentSignature ts s = .ok t) : Aside s t := by
  obtain ⟨l, e, -, -, haside, rfl⟩ := attestPricing_ok h
  exact haside.keep _ _ _ _

end Pricing

theorem verifyPricing_aside {rt : Runtime} {m : Pubkey} {snapshotBytes : Bytes} {s t : Chain}
    (h : verifyPricing rt m snapshotBytes s = .ok t) : Aside s t := by
  simp only [verifyPricing, bind_eq_ok, require_eq_ok, pure_eq_ok] at h
  obtain ⟨r, -, -, -, rfl⟩ := h
  exact (Aside.refl s).keep _ _ _ _

theorem verifyPricing_succeeds_iff {rt : Runtime} {m : Pubkey} {snapshotBytes : Bytes} {s : Chain}
    {r : PricingReceipt} (hr : s.pricingReceipt m = some r) :
    (∃ t, verifyPricing rt m snapshotBytes s = .ok t) ↔
      rt.sha256 snapshotBytes = r.snapshotHash.1 := by
  simp only [verifyPricing, bind_eq_ok, require_eq_ok, getOr_eq_ok, pure_eq_ok, hr]
  constructor
  · rintro ⟨t, r', hr', -, hhash, -⟩
    rw [Option.some.inj hr']
    exact hhash
  · exact fun hhash => ⟨_, r, rfl, (), hhash, rfl⟩

end Stoppage.MarketProgram
