import Stoppage.Chain.Execution
import Stoppage.Programs.SettlementSpec

/-! # What a step does to one market

`Op` is the operation of an action on a given market, `idle` when there is none. `Change` says
what the step does to the market account, its positions and its balance, with everything that the
instruction checked; `Step.change` derives it from the handlers once, and the invariants below
start from it. `Near` is the frame: an instruction leaves all markets alone but its target.
-/

namespace Stoppage
open Fallible BalanceSheet TransitionSystem MarketProgram
set_option autoImplicit false

/-! ## Operations -/

inductive Op
  | idle
  | create
  | join
  | forceSettle
  | settleFromProof
  | void
  | claim (owner : Pubkey)
  | claimBond
  | close
  | attest
deriving DecidableEq

namespace Instruction

/-- The market that an instruction of the market program writes to or pays out of. -/
def target (rt : Runtime) : Instruction → Option Pubkey
  | .createMarket _ seeds _ _ => some (rt.marketAddress seeds)
  | .joinViaWallet _ m _ _ => some m
  | .joinViaSessionKey _ _ m _ _ => some m
  | .forceSettle _ m _ => some m
  | .settleFromProof _ m _ _ => some m
  | .voidMarket _ m => some m
  | .claim _ m => some m
  | .claimBond _ m => some m
  | .closeMarket _ m => some m
  | .attestVerification _ m => some m
  | _ => none

def op : Instruction → Op
  | .createMarket .. => .create
  | .joinViaWallet .. => .join
  | .joinViaSessionKey .. => .join
  | .forceSettle .. => .forceSettle
  | .settleFromProof .. => .settleFromProof
  | .voidMarket .. => .void
  | .claim o _ => .claim o
  | .claimBond .. => .claimBond
  | .closeMarket .. => .close
  | .attestVerification .. => .attest
  | _ => .idle

def resolves : Instruction → Bool
  | .resolveMarket .. => true
  | _ => false

def pins : Instruction → Bool
  | .initializeConfig .. => true
  | _ => false

end Instruction

/-- The operation of an action on the market `m`. -/
def Action.opOn (rt : Runtime) (m : Pubkey) : Action → Op
  | .call _ ix => if ix.target rt = some m then ix.op else .idle
  | _ => .idle

theorem opOn_of_target {rt : Runtime} {ctx : TxContext} {ix : Instruction} {m : Pubkey}
    (h : ix.target rt = some m) : (Action.call ctx ix).opOn rt m = ix.op := if_pos h

theorem opOn_of_not_target {rt : Runtime} {ctx : TxContext} {ix : Instruction} {m : Pubkey}
    (h : ix.target rt ≠ some m) : (Action.call ctx ix).opOn rt m = .idle := if_neg h

theorem eq_call_of_opOn {rt : Runtime} {a : Action} {m : Pubkey} {op : Op} (h : a.opOn rt m = op)
    (hop : op ≠ .idle) :
    ∃ ctx ix, a = .call ctx ix ∧ ix.target rt = some m ∧ ix.op = op := by
  cases a with
  | call ctx ix =>
    by_cases hm : ix.target rt = some m
    · rw [opOn_of_target hm] at h
      exact ⟨ctx, ix, rfl, hm, h⟩
    · rw [opOn_of_not_target hm] at h
      exact absurd h.symm hop
  | tick => exact absurd h.symm hop
  | write => exact absurd h.symm hop

/-! ## The frame of an instruction -/

structure Near (rt : Runtime) (ix : Instruction) (s t : Chain) : Prop where
  now : t.now = s.now
  market : ∀ m, ix.target rt ≠ some m → t.market m = s.market m
  position : ∀ m o, ix.target rt ≠ some m → t.position (m, o) = s.position (m, o)
  vault : ∀ m, ix.target rt ≠ some m →
    (s.lamports (.market m)).toNat ≤ (t.lamports (.market m)).toNat
  total : total t.lamports = total s.lamports
  fee : s.FeeCapped → t.FeeCapped
  resolution : ix.resolves = false → t.resolution = s.resolution
  config : ix.pins = false → t.config = s.config

theorem Aside.near {s t : Chain} (h : Aside s t) (rt : Runtime) (ix : Instruction) :
    Near rt ix s t :=
  ⟨h.now, fun _ _ => by rw [h.market], fun _ _ _ => by rw [h.position],
    fun m _ => h.paid.market m, h.paid.total, h.fee, fun _ => h.resolution, fun _ => h.config⟩

theorem near_of_target {rt : Runtime} {ix : Instruction} {s : Chain} {m : Pubkey}
    (htarget : ix.target rt = some m) (mkt : Pubkey → Option Market)
    (hmkt : ∀ m', m' ≠ m → mkt m' = s.market m') (q : Pubkey × Pubkey → Option Position)
    (hq : ∀ m' o, m' ≠ m → q (m', o) = s.position (m', o)) (l : Address → UInt64)
    (hvault : ∀ m', m' ≠ m → (s.lamports (.market m')).toNat ≤ (l (.market m')).toNat)
    (htotal : total l = total s.lamports) (sg : Pubkey × Pubkey → Option SessionGrant)
    (es : List Event) :
    Near rt ix s { s with
      lamports := l
      market := mkt
      position := q
      sessionGrant := sg
      events := es } := by
  have hne : ∀ m', ix.target rt ≠ some m' → m' ≠ m := by
    intro m' h he
    exact h (he ▸ htarget)
  refine ⟨rfl, ?_, ?_, ?_, htotal, id, fun _ => rfl, fun _ => rfl⟩
  · intro m' h
    exact hmkt m' (hne m' h)
  · intro m' o h
    exact hq m' o (hne m' h)
  · intro m' h
    exact hvault m' (hne m' h)

theorem update_market_other {s : Chain} {m : Pubkey} (x : Option Market) (m' : Pubkey)
    (h : m' ≠ m) : Function.update s.market m x m' = s.market m' := Function.update_of_ne h _ _

theorem update_position_other {s : Chain} {m : Pubkey} (o : Pubkey) (p : Option Position)
    (m' o' : Pubkey) (h : m' ≠ m) :
    Function.update s.position (m, o) p (m', o') = s.position (m', o') :=
  Function.update_of_ne (fun he => h (Prod.mk.inj he).1) _ _

theorem near_of_market {rt : Runtime} {ix : Instruction} {m : Pubkey}
    (htarget : ix.target rt = some m) (s : Chain) (x : Option Market) (es : List Event) :
    Near rt ix s { s with
      market := Function.update s.market m x
      events := es } :=
  near_of_target htarget _ (update_market_other x) _ (fun _ _ _ => rfl) _ (fun _ _ => le_rfl) rfl
    s.sessionGrant es

theorem MarketProgram.JoinedAt.near {rt : Runtime} {ix : Instruction} {s : Chain} {m o : Pubkey}
    {side : UInt8} {amount : UInt64} {mk mk' : Market} {p' : Position} {l : Address → UInt64}
    (htarget : ix.target rt = some m) (h : JoinedAt s m o side amount mk mk' p' l)
    (sg : Pubkey × Pubkey → Option SessionGrant) (es : List Event) :
    Near rt ix s { s with
      lamports := l
      market := Function.update s.market m (some mk')
      position := Function.update s.position (m, o) (some p')
      sessionGrant := sg
      events := es } :=
  near_of_target htarget _ (update_market_other _) _ (update_position_other o _) l
    (fun m' _ => h.paid.market m') h.paid.total sg es

theorem exec_near {rt : Runtime} {ctx : TxContext} {ix : Instruction} {s t : Chain}
    (h : exec rt ctx ix s = .ok t) : Near rt ix s t := by
  cases ix with
  | initializeProtocol => exact (initializeProtocol_aside h).near rt _
  | setAgentAuthority => exact (setAgentAuthority_aside h).near rt _
  | delegateSessionKey => exact (delegateSessionKey_aside h).near rt _
  | revokeSessionKey => exact (revokeSessionKey_aside h).near rt _
  | sessionPing => exact (sessionPing_aside h).near rt _
  | attestPricing => exact (attestPricing_aside h).near rt _
  | verifyPricing => exact (verifyPricing_aside h).near rt _
  | systemTransfer => exact (Aside.of_transfer h).near rt _
  | ed25519 d =>
    simp only [exec, bind_eq_ok, pure_eq_ok] at h
    obtain ⟨_, -, rfl⟩ := h
    exact (Aside.refl s).near rt _
  | setComputeUnitLimit =>
    cases h
    exact (Aside.refl s).near rt _
  | createMarket creator seeds closesAt oracle =>
    obtain ⟨c, l₁, l, e, -, -, -, h1, h2, rfl⟩ := createMarket_ok h
    have hpaid := (Paid.of_transfer h1).trans (.of_transfer h2)
    exact near_of_target rfl _ (update_market_other _) _ (fun _ _ _ => rfl) l
      (fun m' _ => hpaid.market m') hpaid.total _ _
  | joinViaWallet signer m side amount =>
    obtain ⟨mk, mk', p', l, e, hj, rfl⟩ := joinViaWallet_ok h
    exact hj.near rfl _ _
  | joinViaSessionKey k owner m side amount =>
    obtain ⟨g, g', mk, mk', p', l, e, -, -, hj, rfl⟩ := joinViaSessionKey_ok h
    exact hj.near rfl _ _
  | forceSettle authority m outcome =>
    obtain ⟨c, mk, e, -, -, -, -, -, rfl⟩ := forceSettle_ok h
    exact near_of_market rfl s _ _
  | settleFromProof resolver m resolution outcome =>
    obtain ⟨mk, r, e, -, -, -, -, -, -, -, -, rfl⟩ := settleFromProof_receipt h
    exact near_of_market rfl s _ _
  | voidMarket caller m =>
    obtain ⟨mk, e, -, -, -, -, rfl⟩ := voidMarket_ok h
    exact near_of_market rfl s _ _
  | claim o m =>
    obtain ⟨mk, p, payout, fee, l, e, hc, -, hl, rfl⟩ := claim_ok h
    have hvault : ∀ m', m' ≠ m → (s.lamports (.market m')).toNat ≤ (l (.market m')).toNat := by
      intro m' hm
      rw [hl.other _ (fun he => hm (Address.market.inj he)) Address.noConfusion
        Address.noConfusion]
    exact near_of_target rfl _ (fun _ _ => rfl) _ (update_position_other o _) l hvault hl.total _ _
  | claimBond creator m =>
    obtain ⟨mk, l, e, -, -, -, -, hl, rfl⟩ := claimBond_ok h
    exact near_of_target rfl _ (update_market_other _) _ (fun _ _ _ => rfl) l
      (fun m' hm => hl.le fun he => hm (Address.market.inj he)) hl.total _ _
  | closeMarket creator m =>
    obtain ⟨mk, l, e, -, -, -, -, hl, rfl⟩ := closeMarket_ok h
    have hswept : Debited l (.market m) (s.lamports (.market m))
        (Function.update l (.market m) 0) := by
      refine ⟨?_, fun k hk => Function.update_of_ne hk _ _⟩
      rw [Function.update_self, hl.other _ Address.noConfusion]
      exact Nat.zero_add _
    have h1 := hl.total
    have h2 := hswept.total
    refine near_of_target rfl _ (update_market_other _) _ (fun _ _ _ => rfl) _ ?_ (by omega) _ _
    intro m' hm
    rw [hswept.other _ (fun he => hm (Address.market.inj he)), hl.other _ Address.noConfusion]
  | attestVerification verifier m =>
    obtain ⟨mk, n, e, -, -, rfl⟩ := attestVerification_ok h
    exact near_of_market rfl s _ _
  | resolveMarket resolver a statement root outcome data remaining =>
    by_cases ha : ∃ m, a = .market m
    swap
    · exact (SettlementProgram.resolveMarket_stray_aside (fun m hm => ha ⟨m, hm⟩) h).near rt _
    obtain ⟨m, rfl⟩ := ha
    obtain ⟨l, v, accounts, e, -, -, -, -, hpaid, -, rfl⟩ := SettlementProgram.resolveMarket_ok h
    have haside := Aside.of_transfer hpaid
    refine ⟨rfl, fun _ _ => rfl, fun _ _ _ => rfl, fun m' _ => haside.paid.market m',
      haside.paid.total, id, ?_, fun _ => rfl⟩
    intro hres
    cases hres
  | initializeConfig payer authority =>
    obtain ⟨l, -, haside, rfl⟩ := AttestationValidator.initializeConfig_ok h
    refine ⟨rfl, fun _ _ => rfl, fun _ _ _ => rfl, fun m' _ => haside.paid.market m',
      haside.paid.total, id, fun _ => rfl, ?_⟩
    intro hpin
    cases hpin

theorem Step.total {rt : Runtime} {s t : Chain} {a : Action} (h : Step rt s a t) :
    total t.lamports = total s.lamports := by
  obtain ⟨ctx, ix, rfl, hix⟩ | ⟨now, rfl, -, rfl⟩ | ⟨k, x, rfl, rfl⟩ := h.cases
  · exact (exec_near hix).total
  · rfl
  · rfl

theorem Step.feeCapped {rt : Runtime} {s t : Chain} {a : Action} (h : Step rt s a t)
    (hfee : s.FeeCapped) : t.FeeCapped := by
  obtain ⟨ctx, ix, rfl, hix⟩ | ⟨now, rfl, -, rfl⟩ | ⟨k, x, rfl, rfl⟩ := h.cases
  · exact (exec_near hix).fee hfee
  · exact hfee
  · exact hfee

theorem Step.now_le {rt : Runtime} {s t : Chain} {a : Action} (h : Step rt s a t) :
    s.now ≤ t.now := by
  obtain ⟨ctx, ix, rfl, hix⟩ | ⟨now, rfl, hle, rfl⟩ | ⟨k, x, rfl, rfl⟩ := h.cases
  · exact (exec_near hix).now ▸ Int64.le_refl _
  · exact hle
  · exact Int64.le_refl _

/-! ## The change of one market -/

def Chain.positionAt (s : Chain) (m o : Pubkey) : Position := (s.position (m, o)).getD .empty

theorem positionAt_congr {s t : Chain} {m o : Pubkey}
    (h : t.position (m, o) = s.position (m, o)) : t.positionAt m o = s.positionAt m o := by
  rw [Chain.positionAt, Chain.positionAt, h]

theorem positionAt_of_some {s : Chain} {m o : Pubkey} {p : Position}
    (h : s.position (m, o) = some p) : s.positionAt m o = p := by
  rw [Chain.positionAt, h, Option.getD_some]

theorem MarketProgram.Claimable.positionAt {s : Chain} {m o : Pubkey} {mk : Market} {p : Position}
    (hc : Claimable s m o mk p) : s.positionAt m o = p := positionAt_of_some hc.position

structure Kept (m : Pubkey) (s t : Chain) : Prop where
  position : ∀ o, t.position (m, o) = s.position (m, o)
  vault : (t.lamports (.market m)).toNat = (s.lamports (.market m)).toNat

inductive Change (rt : Runtime) (m : Pubkey) (s t : Chain) : Op → Prop
  | idle (hmarket : t.market m = s.market m)
      (hposition : ∀ o, t.position (m, o) = s.position (m, o))
      (hvault : (s.lamports (.market m)).toNat ≤ (t.lamports (.market m)).toNat) :
      Change rt m s t .idle
  | create (creator : Pubkey) (seeds : MarketSeeds) (closesAt : Int64) (oracle : Pubkey)
      (feeBps : UInt16) (haddress : rt.marketAddress seeds = m) (hnone : s.market m = none)
      (htime : s.now < closesAt) (hfee : s.FeeCapped → feeBps ≤ 500)
      (hmarket : t.market m = some (newMarket rt creator seeds closesAt oracle feeBps))
      (hposition : ∀ o, t.position (m, o) = s.position (m, o))
      (hvault : (rt.minimumBalance Market.space).toNat + minBondLamports.toNat ≤
        (t.lamports (.market m)).toNat) : Change rt m s t .create
  | join (o : Pubkey) (side : UInt8) (amount : UInt64) (mk mk' : Market) (p' : Position)
      (l : Address → UInt64) (hj : JoinedAt s m o side amount mk mk' p' l)
      (hmarket : t.market m = some mk') (hposition : t.position (m, o) = some p')
      (hother : ∀ o', o' ≠ o → t.position (m, o') = s.position (m, o'))
      (hvault : t.lamports = l) : Change rt m s t .join
  | forceSettle (mk : Market) (outcome : UInt8) (hmk : s.market m = some mk)
      (hout : outcome = sideYes ∨ outcome = sideNo)
      (hstatus : mk.status = statusOpen ∨ mk.status = statusAwaiting)
      (hmarket : t.market m = some (settled mk outcome s.now)) (hkept : Kept m s t) :
      Change rt m s t .forceSettle
  | settleFromProof (mk : Market) (outcome : UInt8) (r : Resolution) (hmk : s.market m = some mk)
      (hout : outcome = sideYes ∨ outcome = sideNo)
      (hstatus : mk.status = statusOpen ∨ mk.status = statusAwaiting)
      (hr : s.resolution m = some r) (hrmarket : r.market = m) (hroutcome : r.outcome = outcome)
      (hrvalidator : r.validatorProgram = mk.oracle)
      (hmarket : t.market m = some (settled mk outcome s.now)) (hkept : Kept m s t) :
      Change rt m s t .settleFromProof
  | void (mk : Market) (hmk : s.market m = some mk) (hset : mk.status ≠ statusSettled)
      (hvoid : mk.status ≠ statusVoid) (hlate : mk.closesAt.toInt + 3600 < s.now.toInt)
      (hmarket : t.market m = some (voided mk s.now)) (hkept : Kept m s t) :
      Change rt m s t .void
  | claim (o : Pubkey) (mk : Market) (p : Position) (payout fee : UInt64)
      (hc : Claimable s m o mk p) (hsplit : claimSplit mk p = .ok (payout, fee))
      (hl : Charged m o payout fee s.lamports t.lamports) (hmarket : t.market m = some mk)
      (hposition : t.position (m, o) = some { p with amountLamports := 0 })
      (hother : ∀ o', o' ≠ o → t.position (m, o') = s.position (m, o')) :
      Change rt m s t (.claim o)
  | claimBond (mk : Market) (hmk : s.market m = some mk) (hended : Ended mk)
      (hbond : mk.bondClaimed = false)
      (hl : Transferred s.lamports (.market m) (.external mk.creator) mk.bondLamports t.lamports)
      (hmarket : t.market m = some { mk with bondClaimed := true })
      (hposition : ∀ o, t.position (m, o) = s.position (m, o)) : Change rt m s t .claimBond
  | close (mk : Market) (hmk : s.market m = some mk) (hended : Ended mk)
      (hlate : mk.settlesAt.toInt + 604800 < s.now.toInt) (hmarket : t.market m = none)
      (hposition : ∀ o, t.position (m, o) = s.position (m, o)) : Change rt m s t .close
  | attest (mk : Market) (n : UInt32) (hmk : s.market m = some mk)
      (hsettled : mk.status = statusSettled)
      (hmarket : t.market m = some { mk with verifications := n }) (hkept : Kept m s t) :
      Change rt m s t .attest

theorem market_inj {s : Chain} {m : Pubkey} {mk mk₁ : Market} (hmk : s.market m = some mk)
    (h : s.market m = some mk₁) : mk₁ = mk := by
  rw [hmk] at h
  exact (Option.some.inj h).symm

theorem change_of_not_target {rt : Runtime} {ctx : TxContext} {ix : Instruction} {m : Pubkey}
    {s t : Chain} (h : exec rt ctx ix s = .ok t) (hm : ix.target rt ≠ some m) :
    Change rt m s t .idle := by
  have hnear := exec_near h
  exact .idle (hnear.market m hm) (fun o => hnear.position m o hm) (hnear.vault m hm)

theorem update_position_ne {s : Chain} {m o o' : Pubkey} (p : Option Position) (h : o' ≠ o) :
    Function.update s.position (m, o) p (m, o') = s.position (m, o') :=
  Function.update_of_ne (fun he => h (Prod.mk.inj he).2) _ _

theorem change_of_target {rt : Runtime} {ctx : TxContext} {ix : Instruction} {m : Pubkey}
    {s t : Chain} (h : exec rt ctx ix s = .ok t) (hm : ix.target rt = some m) :
    Change rt m s t ix.op := by
  cases ix with
  | createMarket creator seeds closesAt oracle =>
    cases hm
    obtain ⟨c, l₁, l, e, howner, hc, htime, h1, h2, rfl⟩ := createMarket_ok h
    have hrent := Chain.minimumBalance_le_of_init Address.noConfusion h1
    have hbond := h2.payee Address.noConfusion
    refine .create creator seeds closesAt oracle c.feeBps rfl (owner_market_eq_system.mp howner)
      htime (fun hf => hf c hc) (Function.update_self ..) (fun _ => rfl) ?_
    show _ ≤ (l (.market (rt.marketAddress seeds))).toNat
    omega
  | joinViaWallet signer m' side amount =>
    cases hm
    obtain ⟨mk, mk', p', l, e, hj, rfl⟩ := joinViaWallet_ok h
    exact .join signer side amount mk mk' p' l hj (Function.update_self ..)
      (Function.update_self ..) (fun _ ho => update_position_ne _ ho) rfl
  | joinViaSessionKey k owner m' side amount =>
    cases hm
    obtain ⟨g, g', mk, mk', p', l, e, -, -, hj, rfl⟩ := joinViaSessionKey_ok h
    exact .join (rt.key owner) side amount mk mk' p' l hj (Function.update_self ..)
      (Function.update_self ..) (fun _ ho => update_position_ne _ ho) rfl
  | forceSettle authority m' outcome =>
    cases hm
    obtain ⟨c, mk, e, -, -, hmk, hout, hstatus, rfl⟩ := forceSettle_ok h
    exact .forceSettle mk outcome hmk hout hstatus (Function.update_self ..) ⟨fun _ => rfl, rfl⟩
  | settleFromProof resolver m' resolution outcome =>
    cases hm
    obtain ⟨mk, r, e, hmk, hstatus, hout, -, hr, hrm, hro, hrv, rfl⟩ := settleFromProof_receipt h
    exact .settleFromProof mk outcome r hmk hout hstatus hr hrm hro hrv (Function.update_self ..)
      ⟨fun _ => rfl, rfl⟩
  | voidMarket caller m' =>
    cases hm
    obtain ⟨mk, e, hmk, hset, hvoid, hlate, rfl⟩ := voidMarket_ok h
    exact .void mk hmk hset hvoid hlate (Function.update_self ..) ⟨fun _ => rfl, rfl⟩
  | claim o m' =>
    cases hm
    obtain ⟨mk, p, payout, fee, l, e, hc, hsplit, hl, rfl⟩ := claim_ok h
    exact .claim o mk p payout fee hc hsplit hl hc.market (Function.update_self ..)
      (fun _ ho => update_position_ne _ ho)
  | claimBond creator m' =>
    cases hm
    obtain ⟨mk, l, e, hmk, rfl, hended, hbond, hl, rfl⟩ := claimBond_ok h
    exact .claimBond mk hmk hended hbond hl (Function.update_self ..) (fun _ => rfl)
  | closeMarket creator m' =>
    cases hm
    obtain ⟨mk, l, e, hmk, hended, -, hlate, -, rfl⟩ := closeMarket_ok h
    exact .close mk hmk hended hlate (Function.update_self ..) (fun _ => rfl)
  | attestVerification verifier m' =>
    cases hm
    obtain ⟨mk, n, e, hmk, hsettled, rfl⟩ := attestVerification_ok h
    exact .attest mk n hmk hsettled (Function.update_self ..) ⟨fun _ => rfl, rfl⟩
  | _ => cases hm

/-- **What a step does to the market `m`.** -/
theorem Step.change {rt : Runtime} {s t : Chain} {a : Action} (h : Step rt s a t) (m : Pubkey) :
    Change rt m s t (a.opOn rt m) := by
  obtain ⟨ctx, ix, rfl, hix⟩ | ⟨now, rfl, -, rfl⟩ | ⟨k, x, rfl, rfl⟩ := h.cases
  · by_cases hm : ix.target rt = some m
    · rw [opOn_of_target hm]
      exact change_of_target hix hm
    · rw [opOn_of_not_target hm]
      exact change_of_not_target hix hm
  · exact .idle rfl (fun _ => rfl) le_rfl
  · exact .idle rfl (fun _ => rfl) le_rfl

/-! ## The lifetime of a market -/

/-- The market `m` is created in `s₀`, which leads to `s`, and the actions `as` lead from there to
`t` without closing it. -/
structure Lifetime (rt : Runtime) (m : Pubkey) (s₀ s : Chain) (as : List Action) (t : Chain) :
    Prop where
  reachable : Reachable rt s₀
  created : ∃ a, Step rt s₀ a s ∧ a.opOn rt m = .create
  run : Steps (Step rt) s as t
  alive : ∀ a ∈ as, a.opOn rt m ≠ .close

theorem exists_lifetime {rt : Runtime} {m : Pubkey} {g t : Chain} (before : List Action)
    (a : Action) (as : List Action) (hg : Genesis g) (h : Steps (Step rt) g (before ++ a :: as) t)
    (ha : a.opOn rt m = .create) (halive : ∀ b ∈ as, b.opOn rt m ≠ .close) :
    ∃ s₀ s, Steps (Step rt) g before s₀ ∧ Step rt s₀ a s ∧ Lifetime rt m s₀ s as t := by
  obtain ⟨s₀, hbefore, hrest⟩ := Steps.append_iff.mp h
  obtain ⟨s, hcreate, hrun⟩ := Steps.cons_iff.mp hrest
  exact ⟨s₀, s, hbefore, hcreate, ⟨g, before, hg, hbefore⟩, ⟨a, hcreate, ha⟩, hrun, halive⟩

/-- A run that sets the protocol up and creates the market of the sample world in it. -/
theorem Sample.lifetime_of_runsTo (as : List Action) {P : Chain → Prop} [DecidablePred P]
    (hrun : Action.runsTo runtime ([setUp] ++ create 1700001000 echo :: as) genesis P = true)
    (halive : ∀ b ∈ as, b.opOn runtime market ≠ .close) :
    ∃ s₀ s t, Step runtime genesis setUp s₀ ∧ Step runtime s₀ (create 1700001000 echo) s ∧
      Lifetime runtime market s₀ s as t ∧ P t := by
  obtain ⟨t, hsteps, ht⟩ := steps_of_runsTo hrun
  obtain ⟨s₀, s, hsetup, hcreate, hlife⟩ := exists_lifetime _ _ _ genesis_ok hsteps rfl halive
  exact ⟨s₀, s, t, Steps.single_iff.mp hsetup, hcreate, hlife, ht⟩

end Stoppage
