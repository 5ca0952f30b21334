import Stoppage.Chain.Observer
import Stoppage.Programs.SettlementSpec

/-! # The event log is the state

Every instruction emits the event that an observer needs: from the log alone the ledger of
`Observer` follows the chain through every run, and every event passes the audit of the ledger in
front of it.
-/

namespace Stoppage
open Fallible EventSourcing TransitionSystem MarketProgram
set_option autoImplicit false

/-- Records under a derived address name the keys it is derived from, and every bond is the same. -/
structure Keyed (s : Chain) : Prop where
  grant : ∀ o k g, s.sessionGrant (o, k) = some g → g.owner = o ∧ g.sessionPubkey = k
  price : ∀ m r, s.pricingReceipt m = some r → r.market = m
  bond : ∀ m mk, s.market m = some mk → mk.bondLamports = minBondLamports

def Recorded (s t : Chain) : Prop := Keyed s → Keyed t ∧ eventLog.Logs s t

/-! ## Keeping the records -/

theorem all_update {K A : Type*} [DecidableEq K] {P : K → A → Prop} {f : K → Option A}
    {k : K} {x : Option A} (hf : ∀ j a, f j = some a → P j a) (hx : ∀ a, x = some a → P k a) :
    ∀ j a, Function.update f k x j = some a → P j a := by
  intro j a h
  by_cases hj : j = k
  · subst hj
    rw [Function.update_self] at h
    exact hx a h
  · rw [Function.update_of_ne hj] at h
    exact hf j a h

theorem seen_update {K A B : Type*} [DecidableEq K] (g : Option A → Option B) (f : K → Option A)
    (k : K) (x : Option A) :
    (fun j => g (Function.update f k x j)) = Function.update (fun j => g (f j)) k (g x) :=
  Function.comp_update g f k x

theorem seen_update_position (f : Pubkey × Pubkey → Option Position) (k : Pubkey × Pubkey)
    (x : Option Position) : (fun j => (Function.update f k x j).bind Position.seen) =
      Function.update (fun j => (f j).bind Position.seen) k (x.bind Position.seen) :=
  seen_update (fun o => o.bind Position.seen) f k x

theorem Keyed.market {s t : Chain} {m : Pubkey} {x : Option Market} (hs : Keyed s)
    (hgrant : t.sessionGrant = s.sessionGrant) (hprice : t.pricingReceipt = s.pricingReceipt)
    (hmarket : t.market = Function.update s.market m x)
    (hx : ∀ mk, x = some mk → mk.bondLamports = minBondLamports) : Keyed t := by
  refine ⟨?_, ?_, ?_⟩
  · rw [hgrant]
    exact hs.grant
  · rw [hprice]
    exact hs.price
  · rw [hmarket]
    exact all_update hs.bond hx

/-! ## The ledger of an account -/

theorem observed_market {s : Chain} {m : Pubkey} {mk : Market} (h : s.market m = some mk) :
    s.observed.market m = some mk.seen := congrArg (Option.map Market.seen) h

theorem observed_market_none {s : Chain} {m : Pubkey} (h : s.market m = none) :
    s.observed.market m = none := congrArg (Option.map Market.seen) h

theorem observed_protocol {s : Chain} {c : ProtocolConfig} (h : s.protocolConfig = some c) :
    s.observed.protocol = some c.seen := congrArg (Option.map ProtocolConfig.seen) h

theorem observed_grant {s : Chain} {o k : Pubkey} {g : SessionGrant}
    (h : s.sessionGrant (o, k) = some g) : s.observed.grant (o, k) = some g.seen :=
  congrArg (Option.map SessionGrant.seen) h

theorem observed_resolution {s : Chain} {m : Pubkey} {r : Resolution}
    (h : s.resolution m = some r) : s.observed.resolution m = some r.seen :=
  congrArg (Option.map Resolution.seen) h

theorem observed_price {s : Chain} {m : Pubkey} {r : PricingReceipt}
    (h : s.pricingReceipt m = some r) : s.observed.price m = some r.seen :=
  congrArg (Option.map PricingReceipt.seen) h

theorem ne_none_of_eq_some {A : Type*} {o : Option A} {a : A} (h : o = some a) : o ≠ none := by
  rw [h]
  exact Option.some_ne_none a

/-! ## Creating and joining a market -/

theorem createMarket_recorded {rt : Runtime} {creator : Pubkey} {seeds : MarketSeeds}
    {closesAt : Int64} {oracle : Pubkey} {s t : Chain}
    (h : createMarket rt creator seeds closesAt oracle s = .ok t) : Recorded s t := by
  intro hs
  simp only [createMarket, bind_eq_ok, require_eq_ok, getOr_eq_ok, pure_eq_ok] at h
  obtain ⟨u, hu, c, hc, -, -, -, hkind, v, hv, rfl⟩ := h
  obtain ⟨l₁, howner, -, rfl⟩ := Chain.initAccount_ok hu
  obtain ⟨l, -, -, rfl⟩ := Chain.systemTransfer_ok hv
  have hconfig : s.protocolConfig = some c := hc
  refine ⟨hs.market rfl rfl rfl (fun mk hmk => Option.some.inj hmk ▸ rfl), .entry _ rfl ?_ ?_⟩
  · simp only [eventLog, Chain.observed, Chain.emit, Chain.setMarket, Observer.see, seen_update,
      hconfig]
    rfl
  · exact ⟨observed_market_none (owner_market_eq_system.mp howner),
      ne_none_of_eq_some (observed_protocol hconfig), hkind⟩

/-- A join as the observer books it. -/
structure JoinSeen (mk : Market) (p : Position) (side : UInt8) (amount : UInt64) (via : Bool)
    (mk' : Market) (p' : Position) : Prop where
  market : mk'.seen = mk.seen.join side amount
  position : p'.seen = some (.join p.seen side amount via)
  valid : side = sideYes ∨ side = sideNo
  pool : (if side = sideYes then mk.yesPool else mk.noPool).toNat + amount.toNat < 2 ^ 64
  again : ∀ q, p.seen = some q → q.side = side ∧ q.amount.toNat + amount.toNat < 2 ^ 64
  bond : mk'.bondLamports = mk.bondLamports

theorem checkedAdd_ok {ε : Type} {e : ε} {a b c : UInt64} (h : checkedAdd e a b = .ok c) :
    a.toNat + b.toNat < 2 ^ 64 ∧ c = a + b := by
  unfold checkedAdd at h
  split at h
  · rename_i hlt
    exact ⟨hlt, (Except.ok.inj h).symm⟩
  · cases h

theorem joinPool_seen {mk mk' : Market} {side : UInt8} {amount : UInt64}
    (h : joinPool mk side amount = .ok mk') :
    mk'.seen = mk.seen.join side amount ∧
      (if side = sideYes then mk.yesPool else mk.noPool).toNat + amount.toNat < 2 ^ 64 ∧
      mk'.bondLamports = mk.bondLamports := by
  unfold joinPool at h
  split at h
  · rename_i hyes
    simp only [bind_eq_ok, pure_eq_ok] at h
    obtain ⟨pool, hpool, rfl⟩ := h
    obtain ⟨hlt, rfl⟩ := checkedAdd_ok hpool
    rw [SeenMarket.join, if_pos hyes, if_pos hyes]
    exact ⟨rfl, hlt, rfl⟩
  · rename_i hno
    simp only [bind_eq_ok, pure_eq_ok] at h
    obtain ⟨pool, hpool, rfl⟩ := h
    obtain ⟨hlt, rfl⟩ := checkedAdd_ok hpool
    rw [SeenMarket.join, if_neg hno, if_neg hno]
    exact ⟨rfl, hlt, rfl⟩

theorem seen_of_pos {p : Position} (h : p.amountLamports ≠ 0) : p.seen = some p.stake := if_neg h

theorem applyJoin_seen {m : Pubkey} {mk mk' : Market} {p p' : Position} {owner : Pubkey}
    {side : UInt8} {amount : UInt64} {via : Bool} {bump : UInt8} (hpos : 0 < amount)
    (h : applyJoin m mk p owner side amount via bump = .ok (mk', p')) :
    JoinSeen mk p side amount via mk' p' := by
  simp only [applyJoin, bind_eq_ok, require_eq_ok, pure_eq_ok, Prod.mk.injEq] at h
  obtain ⟨-, hside, mk₁, hpool, p₁, hposition, stake, hstake, rfl, rfl⟩ := h
  obtain ⟨hmarket, hlt, hbond⟩ := joinPool_seen hpool
  obtain ⟨hfits, rfl⟩ := checkedAdd_ok hstake
  have hsum : p₁.amountLamports + amount ≠ 0 := by
    intro hzero
    have hval := congrArg UInt64.toNat hzero
    rw [UInt64.toNat_add, Nat.mod_eq_of_lt hfits, UInt64.toNat_zero] at hval
    rw [UInt64.lt_iff_toNat_lt, UInt64.toNat_zero] at hpos
    omega
  unfold joinPosition at hposition
  split at hposition
  · rename_i hzero
    rw [pure_eq_ok] at hposition
    subst hposition
    have hnone : p.seen = none := if_pos hzero
    refine ⟨hmarket, ?_, hside, hlt, ?_, hbond⟩
    · rw [seen_of_pos hsum, hnone]
      simp only [Position.stake, SeenPosition.join, hzero, UInt64.zero_add]
    · intro q hq
      rw [hnone] at hq
      cases hq
  · rename_i hzero
    simp only [bind_eq_ok, require_eq_ok, pure_eq_ok] at hposition
    obtain ⟨-, hsame, rfl⟩ := hposition
    refine ⟨hmarket, ?_, hside, hlt, ?_, hbond⟩
    · rw [seen_of_pos hsum, seen_of_pos hzero]
      rfl
    · intro q hq
      rw [seen_of_pos hzero] at hq
      cases hq
      exact ⟨hsame, hfits⟩

theorem seen_getD_empty (o : Option Position) : (o.getD .empty).seen = o.bind Position.seen := by
  cases o with
  | none => rfl
  | some p => rfl

theorem recorded_join {s : Chain} {m owner : Pubkey} {side : UInt8} {amount : UInt64} {via : Bool}
    {mk mk' : Market} {p' : Position} (l : Address → UInt64)
    {sg : Pubkey × Pubkey → Option SessionGrant} (hmk : s.market m = some mk)
    (hopen : mk.status = statusOpen) (hpos : 0 < amount)
    (hj : JoinSeen mk ((s.position (m, owner)).getD .empty) side amount via mk' p')
    (hkeys : Keyed s → ∀ o k g, sg (o, k) = some g → g.owner = o ∧ g.sessionPubkey = k)
    (hseen : ∀ k, (sg k).map SessionGrant.seen = (s.sessionGrant k).map SessionGrant.seen) :
    Recorded s { s with
      lamports := l
      market := Function.update s.market m (some mk')
      position := Function.update s.position (m, owner) (some p')
      sessionGrant := sg
      events := s.events ++ [.positionOpened m owner side amount via] } := by
  intro hs
  have hposition := hj.position
  have hagain := hj.again
  rw [seen_getD_empty] at hposition hagain
  refine ⟨⟨hkeys hs, hs.price, all_update hs.bond ?_⟩, .entry _ rfl ?_ ?_⟩
  · rintro _ ⟨⟩
    exact hj.bond.trans (hs.bond m mk hmk)
  · simp only [eventLog, Chain.observed, Observer.see, Observer.onMarket, seen_update,
      seen_update_position, hmk, hseen, Option.map_some, Option.bind_some, hposition, hj.market]
  · exact ⟨hj.valid, hpos, hagain, mk.seen, observed_market hmk, hopen, hj.pool⟩

theorem joinViaWallet_recorded {rt : Runtime} {signer m : Pubkey} {side : UInt8} {amount : UInt64}
    {s t : Chain} (h : joinViaWallet rt signer m side amount s = .ok t) : Recorded s t := by
  simp only [joinViaWallet, bind_eq_ok, require_eq_ok, pure_eq_ok] at h
  obtain ⟨mk, hmk, ⟨p, u⟩, hu, -, hpos, -, hopen, -, -, v, hv, ⟨mk', p'⟩, hj, rfl⟩ := h
  obtain ⟨x, l₁, rfl, -, rfl⟩ := Chain.initPosition_ok hu
  obtain ⟨l, -, -, rfl⟩ := Chain.systemTransfer_ok hv
  exact recorded_join l (loadMarket_ok hmk) hopen hpos (applyJoin_seen hpos hj) Keyed.grant
    fun _ => rfl

theorem joinViaSessionKey_recorded {rt : Runtime} {sessionKey owner m : Pubkey} {side : UInt8}
    {amount : UInt64} {s t : Chain}
    (h : joinViaSessionKey rt sessionKey owner m side amount s = .ok t) : Recorded s t := by
  simp only [joinViaSessionKey, Chain.loadGrant, bind_eq_ok, require_eq_ok, getOr_eq_ok,
    pure_eq_ok] at h
  obtain ⟨g, hg, mk, hmk, ⟨p, u⟩, hu, -, hpos, -, -, -, -, -, -, -, -, -, -, -, -, -, hopen, -, -,
    v, hv, staked, -, ⟨mk', p'⟩, hj, rfl⟩ := h
  obtain ⟨x, l₁, rfl, -, rfl⟩ := Chain.initPosition_ok hu
  obtain ⟨l, -, -, rfl⟩ := Chain.systemTransfer_ok hv
  refine recorded_join l (loadMarket_ok hmk) hopen hpos (applyJoin_seen hpos hj) ?_ ?_
  · intro hs o k g' hg'
    refine all_update (P := fun ok (g : SessionGrant) => g.owner = ok.1 ∧ g.sessionPubkey = ok.2)
      (fun ok g => hs.grant ok.1 ok.2 g) ?_ (o, k) g' hg'
    rintro _ ⟨⟩
    exact hs.grant owner sessionKey g hg
  · intro k
    show (Function.update s.sessionGrant (owner, sessionKey) (some { g with stakedSoFar := staked })
      k).map SessionGrant.seen = _
    by_cases hk : k = (owner, sessionKey)
    · subst hk
      rw [Function.update_self, hg]
      rfl
    · rw [Function.update_of_ne hk]

/-! ## Settling and voiding -/

/-- A market account rewritten with its bond untouched, and the event that says how. -/
theorem recorded_market {s : Chain} {m : Pubkey} {mk mk' : Market} {e : Event}
    {f : SeenMarket → SeenMarket} (l : Address → UInt64) (hmk : s.market m = some mk)
    (hbond : mk'.bondLamports = mk.bondLamports) (hseen : mk'.seen = f mk.seen)
    (hsee : s.observed.see e = s.observed.onMarket m f)
    (hadmits : Keyed s → s.observed.Admits e) :
    Recorded s { s with
      lamports := l
      market := Function.update s.market m (some mk')
      events := s.events ++ [e] } := by
  intro hs
  refine ⟨hs.market rfl rfl rfl ?_, .entry e rfl ?_ (hadmits hs)⟩
  · rintro _ ⟨⟩
    exact hbond.trans (hs.bond m mk hmk)
  · show _ = s.observed.see e
    rw [hsee]
    simp only [eventLog, Chain.observed, Observer.onMarket, seen_update, hmk, Option.map_some,
      hseen]

theorem forceSettle_recorded {rt : Runtime} {authority m : Pubkey} {outcome : UInt8} {s t : Chain}
    (h : forceSettle rt authority m outcome s = .ok t) : Recorded s t := by
  simp only [forceSettle, Chain.loadProtocolConfig, bind_eq_ok, require_eq_ok, getOr_eq_ok,
    pure_eq_ok] at h
  obtain ⟨c, ⟨_, hc, -, -, rfl⟩, mk, hmk, -, -, -, hout, -, hstatus, rfl⟩ := h
  have hmarket := loadMarket_ok hmk
  exact recorded_market s.lamports hmarket rfl rfl rfl fun _ =>
    ⟨hout, mk.seen, observed_market hmarket, hstatus, ne_none_of_eq_some (observed_protocol hc)⟩

theorem settleFromProof_recorded {m : Pubkey} {resolution : Address} {outcome : UInt8}
    {s t : Chain} (h : settleFromProof m resolution outcome s = .ok t) : Recorded s t := by
  obtain ⟨mk, r, e, hmk, hstatus, hout, -, hr, -, hroutcome, hvalidator, -⟩ :=
    settleFromProof_receipt h
  simp only [settleFromProof, bind_eq_ok, require_eq_ok, pure_eq_ok] at h
  obtain ⟨mk', hmk', -, -, -, -, -, -, -, -, -, -, rfl⟩ := h
  cases hmk.symm.trans (loadMarket_ok hmk')
  exact recorded_market s.lamports hmk rfl rfl rfl fun _ => ⟨hout, mk.seen, observed_market hmk,
    hstatus, r.seen, observed_resolution hr, hroutcome, hvalidator⟩

theorem voidMarket_recorded {m : Pubkey} {s t : Chain} (h : voidMarket m s = .ok t) :
    Recorded s t := by
  obtain ⟨mk, e, hmk, hset, hvoid, hlate, -⟩ := voidMarket_ok h
  simp only [voidMarket, bind_eq_ok, require_eq_ok, pure_eq_ok] at h
  obtain ⟨mk', hmk', -, -, deadline, -, -, -, rfl⟩ := h
  cases hmk.symm.trans (loadMarket_ok hmk')
  have hlive : ¬ mk.seen.Ended := fun h => h.elim hset hvoid
  exact recorded_market s.lamports hmk rfl rfl rfl fun _ =>
    ⟨mk.seen, observed_market hmk, hlive, hlate⟩

theorem attestVerification_recorded {verifier m : Pubkey} {s t : Chain}
    (h : attestVerification verifier m s = .ok t) : Recorded s t := by
  simp only [attestVerification, bind_eq_ok, require_eq_ok, pure_eq_ok] at h
  obtain ⟨mk, hmk, -, hsettled, n, hn, rfl⟩ := h
  have hmarket := loadMarket_ok hmk
  have hcount : n.toNat = mk.verifications.toNat + 1 := by
    unfold checkedAdd32 at hn
    split at hn
    · rename_i hlt
      cases hn
      rw [UInt32.toNat_add, Nat.mod_eq_of_lt hlt]
      rfl
    · cases hn
  exact recorded_market s.lamports hmarket rfl rfl rfl fun _ =>
    ⟨mk.seen, observed_market hmarket, hsettled, hcount⟩

/-! ## Claims -/

theorem losingShare_ok {stake winning losing share : UInt64}
    (h : losingShare stake winning losing = .ok share) :
    share = UInt64.ofNat (stake.toNat * losing.toNat / winning.toNat) := by
  unfold losingShare at h
  split at h
  · simp only [bind_eq_ok, checkedMul128_eq_ok, pure_eq_ok] at h
    obtain ⟨_, ⟨-, rfl⟩, rfl⟩ := h
    rfl
  · rename_i hzero
    have hwinning : winning.toNat = 0 := by
      rw [UInt64.lt_iff_toNat_lt, UInt64.toNat_zero] at hzero
      omega
    rw [pure_eq_ok] at h
    rw [hwinning, Nat.div_zero]
    exact h.symm

theorem winnerSplit_seen {mk : Market} {p : Position} {payout fee : UInt64}
    (hvoid : mk.status ≠ statusVoid) (hwins : p.side = mk.outcome)
    (h : winnerSplit mk p = .ok (payout, fee)) : mk.seen.payout p.stake = (payout, fee) := by
  simp only [winnerSplit, bind_eq_ok, checkedMul128_eq_ok, pure_eq_ok, Prod.mk.injEq] at h
  obtain ⟨share, hshare, gross, hgross, _, ⟨-, rfl⟩, _, hpayout, rfl, rfl⟩ := h
  obtain ⟨-, rfl⟩ := checkedAdd_ok hgross
  cases losingShare_ok hshare
  have hsub := checkedSub_eq_ok.mp hpayout
  refine (if_neg hvoid).trans ((if_neg (not_not.mpr hwins)).trans (Prod.ext ?_ rfl))
  rw [← UInt64.toNat_inj]
  refine (UInt64.toNat_sub_of_le _ _ ?_).trans ?_
  · rw [UInt64.le_iff_toNat_le]
    exact Nat.le.intro ((Nat.add_comm _ _).trans hsub)
  · exact Nat.sub_eq_of_eq_add hsub.symm

theorem claimSplit_seen {mk : Market} {p : Position} {payout fee : UInt64}
    (h : claimSplit mk p = .ok (payout, fee)) : mk.seen.payout p.stake = (payout, fee) := by
  unfold claimSplit at h
  split at h
  · rename_i hvoid
    exact (if_pos hvoid).trans (pure_eq_ok.mp h)
  · rename_i hvoid
    split at h
    · rename_i hloses
      exact ((if_neg hvoid).trans (if_pos hloses)).trans (pure_eq_ok.mp h)
    · rename_i hwins
      exact winnerSplit_seen hvoid (not_not.mp hwins) h

theorem claim_event {o m : Pubkey} {s t : Chain} (h : claim o m s = .ok t) :
    ∃ mk p payout fee, Claimable s m o mk p ∧ claimSplit mk p = .ok (payout, fee) ∧
      t.events = s.events ++ [.positionClaimed m o payout fee] := by
  simp only [claim, Chain.loadPosition, bind_eq_ok, require_eq_ok, getOr_eq_ok] at h
  obtain ⟨mk, hmk, p, hp, -, hended, -, howner, -, hpos, ⟨payout, fee⟩, hsplit, hpay⟩ := h
  have hc : Claimable s m o mk p := ⟨loadMarket_ok hmk, hp, hended, howner, hpos⟩
  split at hpay
  · rename_i hloser
    have hzero := hsplit
    rw [claimSplit, if_neg hloser.1, if_pos hloser.2, pure_eq_ok, Prod.mk.injEq] at hzero
    obtain ⟨rfl, rfl⟩ := hzero
    rw [pure_eq_ok] at hpay
    subst hpay
    exact ⟨mk, p, 0, 0, hc, hsplit, rfl⟩
  · simp only [bind_eq_ok] at hpay
    obtain ⟨charge, -, u, hu, v, hv, hfee⟩ := hpay
    obtain ⟨l₁, -, rfl⟩ := Chain.subLamports_ok hu
    obtain ⟨l₂, -, rfl⟩ := Chain.addLamports_ok hv
    refine ⟨mk, p, payout, fee, hc, hsplit, ?_⟩
    split at hfee
    · simp only [bind_eq_ok, pure_eq_ok] at hfee
      obtain ⟨w, hw, rfl⟩ := hfee
      obtain ⟨l₃, -, rfl⟩ := Chain.addLamports_ok hw
      rfl
    · simp only [pure_bind, pure_eq_ok] at hfee
      subst hfee
      rfl

theorem claim_recorded {o m : Pubkey} {s t : Chain} (h : claim o m s = .ok t) : Recorded s t := by
  intro hs
  obtain ⟨mk, p, payout, fee, hc, hsplit, hevents⟩ := claim_event h
  obtain ⟨mk', p', _, _, l, e, hc', -, -, rfl⟩ := claim_ok h
  cases hc.market.symm.trans hc'.market
  cases hc.position.symm.trans hc'.position
  have hne : p.amountLamports ≠ 0 := by
    intro hzero
    have hpos := hc.positive
    rw [hzero] at hpos
    exact absurd hpos (by decide)
  have hposition : s.observed.position (m, o) = some p.stake := by
    show (s.position (m, o)).bind Position.seen = _
    rw [hc.position, Option.bind_some, seen_of_pos hne]
  refine ⟨⟨hs.grant, hs.price, hs.bond⟩, .entry _ hevents ?_ ?_⟩
  · simp only [eventLog, Chain.observed, Observer.see, seen_update_position]
    rfl
  · exact ⟨mk.seen, observed_market hc.market, hc.ended, _, hposition, claimSplit_seen hsplit⟩

theorem claimBond_recorded {creator m : Pubkey} {s t : Chain}
    (h : claimBond creator m s = .ok t) : Recorded s t := by
  simp only [claimBond, bind_eq_ok, require_eq_ok, pure_eq_ok] at h
  obtain ⟨mk, hmk, -, hcreator, -, hended, -, hbond, u, hu, v, hv, rfl⟩ := h
  obtain ⟨l₁, -, rfl⟩ := Chain.subLamports_ok hu
  obtain ⟨l, -, rfl⟩ := Chain.addLamports_ok hv
  have hmarket := loadMarket_ok hmk
  exact recorded_market l hmarket rfl rfl rfl fun hs =>
    ⟨hs.bond m mk hmarket, mk.seen, observed_market hmarket, hended, hcreator, hbond⟩

theorem closeMarket_recorded {creator m : Pubkey} {s t : Chain}
    (h : closeMarket creator m s = .ok t) : Recorded s t := by
  intro hs
  simp only [closeMarket, bind_eq_ok, require_eq_ok, pure_eq_ok] at h
  obtain ⟨mk, hmk, -, hended, -, hcreator, deadline, -, -, -, u, hu, rfl⟩ := h
  obtain ⟨l, -, rfl⟩ := Chain.sweep_ok hu
  refine ⟨hs.market rfl rfl rfl (fun _ hnone => by cases hnone), .entry _ rfl ?_ ?_⟩
  · simp only [eventLog, Chain.observed, Chain.emit, Observer.see, seen_update]
    rfl
  · exact ⟨mk.seen, observed_market (loadMarket_ok hmk), hended, hcreator⟩

/-! ## Protocol configuration -/

theorem initializeProtocol_recorded {rt : Runtime} {authority : Pubkey} {feeBps : UInt16}
    {s t : Chain} (h : initializeProtocol rt authority feeBps s = .ok t) : Recorded s t := by
  intro hs
  simp only [initializeProtocol, bind_eq_ok, require_eq_ok, pure_eq_ok] at h
  obtain ⟨u, hu, v, hv, w, hw, -, hfee, rfl⟩ := h
  obtain ⟨l₁, hconfig, -, rfl⟩ := Chain.initAccount_ok hu
  obtain ⟨l₂, hagent, -, rfl⟩ := Chain.initAccount_ok hv
  obtain ⟨l, -, -, rfl⟩ := Chain.initAccount_ok hw
  have hnone : s.protocolConfig = none := (ite_isSome_eq_system (by decide)).mp hconfig
  have hfree : s.agentAuthority = none := (ite_isSome_eq_system (by decide)).mp hagent
  refine ⟨⟨hs.grant, hs.price, hs.bond⟩, .entry _ rfl rfl ?_⟩
  exact ⟨congrArg (Option.map _) hnone, congrArg (Option.map _) hfree, hfee, rfl, rfl⟩

theorem setAgentAuthority_recorded {rt : Runtime} {authority agentAuthority : Pubkey} {s t : Chain}
    (h : setAgentAuthority rt authority agentAuthority s = .ok t) : Recorded s t := by
  intro hs
  simp only [setAgentAuthority, Chain.loadProtocolConfig, bind_eq_ok, require_eq_ok, getOr_eq_ok,
    pure_eq_ok] at h
  obtain ⟨_, ⟨c, hc, -, -, rfl⟩, h⟩ := h
  have hadmits (hauth : c.authority = authority) :
      s.observed.Admits (.agentAuthoritySet authority agentAuthority) :=
    ⟨_, observed_protocol hc, hauth⟩
  split at h
  · simp only [pure_bind, bind_eq_ok, require_eq_ok, pure_eq_ok] at h
    obtain ⟨-, hauth, rfl⟩ := h
    exact ⟨⟨hs.grant, hs.price, hs.bond⟩, .entry _ rfl rfl (hadmits hauth)⟩
  · simp only [bind_eq_ok, require_eq_ok, pure_eq_ok] at h
    obtain ⟨u, hu, -, hauth, rfl⟩ := h
    obtain ⟨l, -, -, rfl⟩ := Chain.initAccount_ok hu
    exact ⟨⟨hs.grant, hs.price, hs.bond⟩, .entry _ rfl rfl (hadmits hauth)⟩

/-! ## Session keys -/

theorem Keyed.grants {s t : Chain} {k : Pubkey × Pubkey} {x : Option SessionGrant} (hs : Keyed s)
    (hgrant : t.sessionGrant = Function.update s.sessionGrant k x)
    (hprice : t.pricingReceipt = s.pricingReceipt) (hmarket : t.market = s.market)
    (hx : ∀ g, x = some g → g.owner = k.1 ∧ g.sessionPubkey = k.2) : Keyed t := by
  refine ⟨?_, ?_, ?_⟩
  · rw [hgrant]
    intro o k'
    exact all_update (P := fun ok (g : SessionGrant) => g.owner = ok.1 ∧ g.sessionPubkey = ok.2)
      (fun ok g => hs.grant ok.1 ok.2 g) hx (o, k')
  · rw [hprice]
    exact hs.price
  · rw [hmarket]
    exact hs.bond

theorem delegateSessionKey_recorded {rt : Runtime} {owner : Pubkey} {session : Address}
    {allowedPrograms : List Pubkey} {maxStakePerMarket maxTotalStake fundLamports : UInt64}
    {expiresAt : Int64} {s t : Chain}
    (h : delegateSessionKey rt owner session allowedPrograms maxStakePerMarket maxTotalStake
      expiresAt fundLamports s = .ok t) : Recorded s t := by
  intro hs
  simp only [delegateSessionKey, bind_eq_ok, require_eq_ok] at h
  generalize rt.key session = sessionPubkey at h
  obtain ⟨u, hu, -, -, h⟩ := h
  obtain ⟨l₁, howner, -, rfl⟩ := Chain.initAccount_ok hu
  have hnone : s.sessionGrant (owner, sessionPubkey) = none :=
    (ite_isSome_eq_system (by decide)).mp howner
  have hgrant (l : Address → UInt64) (g : SessionGrant) (hg : g.owner = owner ∧
      g.sessionPubkey = sessionPubkey) (hseen : g.seen = ⟨expiresAt, maxTotalStake⟩) :
      Keyed (({ s with lamports := l }.setGrant owner sessionPubkey g).emit
        (.sessionKeyDelegated owner sessionPubkey expiresAt maxTotalStake)) ∧
      eventLog.Logs s (({ s with lamports := l }.setGrant owner sessionPubkey g).emit
        (.sessionKeyDelegated owner sessionPubkey expiresAt maxTotalStake)) := by
    refine ⟨hs.grants rfl rfl rfl ?_, .entry _ rfl ?_ ?_⟩
    · rintro _ ⟨⟩
      exact hg
    · simp only [eventLog, Chain.observed, Chain.emit, Chain.setGrant, Observer.see, seen_update,
        Option.map_some, hseen]
    · exact congrArg (Option.map SessionGrant.seen) hnone
  split at h
  · simp only [bind_eq_ok, pure_eq_ok] at h
    obtain ⟨v, hv, rfl⟩ := h
    obtain ⟨l, -, -, rfl⟩ := Chain.systemTransfer_ok hv
    exact hgrant l _ ⟨rfl, rfl⟩ rfl
  · rw [pure_bind, pure_eq_ok] at h
    subst h
    exact hgrant l₁ _ ⟨rfl, rfl⟩ rfl

theorem revokeSessionKey_recorded {owner sessionPubkey : Pubkey} {s t : Chain}
    (h : revokeSessionKey owner sessionPubkey s = .ok t) : Recorded s t := by
  intro hs
  simp only [revokeSessionKey, Chain.loadGrant, bind_eq_ok, getOr_eq_ok, pure_eq_ok] at h
  obtain ⟨g, hg, u, hu, rfl⟩ := h
  obtain ⟨l, -, rfl⟩ := Chain.sweep_ok hu
  obtain ⟨rfl, rfl⟩ := hs.grant _ _ g hg
  refine ⟨hs.grants rfl rfl rfl (fun _ hnone => by cases hnone), .entry _ rfl ?_ ?_⟩
  · simp only [eventLog, Chain.observed, Chain.emit, Observer.see, seen_update]
    rfl
  · exact ⟨g.seen, observed_grant hg⟩

theorem sessionPing_recorded {sessionKey owner : Pubkey} {s t : Chain}
    (h : sessionPing sessionKey owner s = .ok t) : Recorded s t := by
  intro hs
  simp only [sessionPing, Chain.loadGrant, bind_eq_ok, require_eq_ok, getOr_eq_ok, pure_eq_ok] at h
  obtain ⟨g, hg, -, -, -, hlive, rfl⟩ := h
  obtain ⟨rfl, rfl⟩ := hs.grant _ _ g hg
  exact ⟨⟨hs.grant, hs.price, hs.bond⟩, .entry _ rfl rfl ⟨g.seen, observed_grant hg, hlive⟩⟩

/-! ## Pricing receipts -/

section Pricing
variable {rt : Runtime} {signer m : Pubkey} {snapshotHash : List.Vector UInt8 32}
  {modelVersion : String} {fairValue bid ask : UInt64} {agentSignature : List.Vector UInt8 64}
  {ts : Int64} {s t : Chain} {r : PricingReceipt}

theorem attestPricingHandler_event (h : attestPricingHandler rt signer m snapshotHash modelVersion
      fairValue bid ask agentSignature ts s = .ok (r, t)) :
    ∃ l, s.agentAuthority ≠ none ∧ s.market m ≠ none ∧ t = { s with
      lamports := l
      events := s.events ++ [.marketPriced m snapshotHash modelVersion fairValue bid ask ts] } := by
  simp only [attestPricingHandler, bind_eq_ok, require_eq_ok, getOr_eq_ok] at h
  obtain ⟨agent, hagent, -, -, mk, hmk, h⟩ := h
  have hsome := ne_none_of_eq_some hagent
  have hlisted := ne_none_of_eq_some (loadMarket_ok hmk)
  split at h
  · simp only [pure_bind, bind_eq_ok, require_eq_ok, pure_eq_ok, Prod.mk.injEq] at h
    obtain ⟨-, -, -, -, -, -, -, rfl⟩ := h
    exact ⟨s.lamports, hsome, hlisted, rfl⟩
  · simp only [bind_eq_ok, require_eq_ok, pure_eq_ok, Prod.mk.injEq] at h
    obtain ⟨u, hu, -, -, -, -, -, -, -, rfl⟩ := h
    obtain ⟨l, -, -, rfl⟩ := Chain.initAccount_ok hu
    exact ⟨l, hsome, hlisted, rfl⟩

theorem attestPricing_recorded (h : attestPricing rt signer m snapshotHash modelVersion fairValue
      bid ask agentSignature ts s = .ok t) : Recorded s t := by
  intro hs
  simp only [attestPricing, exitPricing, bind_eq_ok, require_eq_ok, pure_eq_ok] at h
  obtain ⟨⟨r, u⟩, hhandler, -, -, rfl⟩ := h
  obtain ⟨-, -, rfl, hversion, -⟩ := attestPricingHandler_ok hhandler
  obtain ⟨l, hagent, hmarket, rfl⟩ := attestPricingHandler_event hhandler
  refine ⟨⟨hs.grant, all_update hs.price ?_, hs.bond⟩, .entry _ rfl ?_ ?_⟩
  · rintro _ ⟨⟩
    rfl
  · simp only [eventLog, Chain.observed, Observer.see, seen_update]
    rfl
  · exact ⟨fun h => hagent (Option.map_eq_none_iff.mp h),
      fun h => hmarket (Option.map_eq_none_iff.mp h), hversion⟩

end Pricing

theorem verifyPricing_recorded {rt : Runtime} {m : Pubkey} {snapshotBytes : Bytes} {s t : Chain}
    (h : verifyPricing rt m snapshotBytes s = .ok t) : Recorded s t := by
  intro hs
  simp only [verifyPricing, bind_eq_ok, require_eq_ok, getOr_eq_ok, pure_eq_ok] at h
  obtain ⟨r, hr, -, -, rfl⟩ := h
  cases hs.price m r hr
  exact ⟨⟨hs.grant, hs.price, hs.bond⟩, .entry _ rfl rfl
    ⟨r.seen, observed_price hr, rfl, rfl, rfl, rfl, rfl⟩⟩

/-! ## Resolutions -/

theorem resolveMarket_recorded {rt : Runtime} {ctx : TxContext} {resolver : Pubkey} {a : Address}
    {statement : String} {root : List.Vector UInt8 32} {outcome : UInt8} {data : Bytes}
    {remaining : List Address} {s t : Chain}
    (h : SettlementProgram.resolveMarket rt ctx resolver a statement root outcome data remaining s =
      .ok t) : Recorded s t := by
  intro hs
  have hseen {x : Option Resolution} (hx : x = none) : x.map Resolution.seen = none :=
    congrArg (Option.map Resolution.seen) hx
  by_cases ha : ∃ m, a = .market m
  · obtain ⟨m, rfl⟩ := ha
    obtain ⟨l, v, accounts, hunused, hout, howner, -, -, -, rfl⟩ :=
      SettlementProgram.resolveMarket_inv h
    obtain ⟨mk, hmk⟩ := owner_market_eq_market.mp howner
    refine ⟨⟨hs.grant, hs.price, hs.bond⟩, .entry _ rfl ?_ ⟨⟨rfl, ?_, ?_⟩, hout, rfl, rfl⟩⟩
    · simp only [eventLog, Chain.observed, Chain.emit, Chain.setReceipt, Observer.see, seen_update]
      rfl
    · exact hseen (owner_resolution_eq_system.mp hunused)
    · exact ne_none_of_eq_some (observed_market hmk)
  · obtain ⟨l, r, -, hnone, hout, rfl, rfl, rfl, rfl, hat⟩ :=
      SettlementProgram.resolveMarket_stray (fun m hm => ha ⟨m, hm⟩) h
    refine ⟨⟨hs.grant, hs.price, hs.bond⟩, .entry _ rfl ?_ ⟨⟨rfl, hseen hnone⟩, hout, rfl, rfl⟩⟩
    simp only [eventLog, Chain.observed, Chain.emit, Observer.see, Observer.file, seen_update,
      Option.map_some, Resolution.seen, hat]

theorem recorded_of_lamports (s : Chain) (l : Address → UInt64) :
    Recorded s { s with lamports := l } := by
  intro hs
  exact ⟨⟨hs.grant, hs.price, hs.bond⟩, .silent rfl rfl⟩

/-! ## Steps and runs -/

theorem exec_recorded {rt : Runtime} {ctx : TxContext} {ix : Instruction} {s t : Chain}
    (h : exec rt ctx ix s = .ok t) : Recorded s t := by
  cases ix with
  | initializeProtocol => exact initializeProtocol_recorded h
  | setAgentAuthority => exact setAgentAuthority_recorded h
  | delegateSessionKey => exact delegateSessionKey_recorded h
  | revokeSessionKey => exact revokeSessionKey_recorded h
  | sessionPing => exact sessionPing_recorded h
  | createMarket => exact createMarket_recorded h
  | joinViaWallet => exact joinViaWallet_recorded h
  | joinViaSessionKey => exact joinViaSessionKey_recorded h
  | forceSettle => exact forceSettle_recorded h
  | settleFromProof => exact settleFromProof_recorded h
  | voidMarket => exact voidMarket_recorded h
  | claim => exact claim_recorded h
  | claimBond => exact claimBond_recorded h
  | closeMarket => exact closeMarket_recorded h
  | attestVerification => exact attestVerification_recorded h
  | attestPricing => exact attestPricing_recorded h
  | verifyPricing => exact verifyPricing_recorded h
  | resolveMarket => exact resolveMarket_recorded h
  | initializeConfig payer authority =>
    obtain ⟨l, -, -, rfl⟩ := AttestationValidator.initializeConfig_ok h
    intro hs
    exact ⟨⟨hs.grant, hs.price, hs.bond⟩, .silent rfl rfl⟩
  | systemTransfer =>
    obtain ⟨l, -, -, rfl⟩ := Chain.systemTransfer_ok h
    exact recorded_of_lamports s l
  | ed25519 =>
    simp only [exec, bind_eq_ok, pure_eq_ok] at h
    obtain ⟨_, -, rfl⟩ := h
    exact recorded_of_lamports s s.lamports
  | setComputeUnitLimit =>
    cases h
    exact recorded_of_lamports s s.lamports

theorem Step.recorded {rt : Runtime} {s t : Chain} {a : Action} (h : Step rt s a t) :
    Recorded s t := by
  obtain ⟨ctx, ix, rfl, hix⟩ | ⟨now, rfl, -, rfl⟩ | ⟨k, x, rfl, rfl⟩ := h.cases
  · exact exec_recorded hix
  · intro hs
    exact ⟨⟨hs.grant, hs.price, hs.bond⟩, .silent rfl rfl⟩
  · intro hs
    exact ⟨⟨hs.grant, hs.price, hs.bond⟩, .silent rfl rfl⟩

/-- Nothing that the audit admits changes the protocol once it is initialised. -/
theorem Observer.protocol_see {o : Observer} {p : SeenProtocol} {e : Event}
    (hp : o.protocol = some p) (he : o.Admits e) : (o.see e).protocol = some p := by
  cases e with
  | protocolInitialized => exact absurd hp (he.1 ▸ Option.some_ne_none p).symm
  | marketResolved _ resolution => cases resolution <;> exact hp
  | _ => exact hp

theorem Recorded.protocol {s t : Chain} {p : SeenProtocol} (h : Recorded s t) (hs : Keyed s)
    (hp : s.observed.protocol = some p) : t.observed.protocol = some p := by
  rcases (h hs).2 with ⟨-, hview⟩ | ⟨e, -, hview, hadmits⟩
  · exact (congrArg Observer.protocol hview).trans hp
  · exact (congrArg Observer.protocol hview).trans (Observer.protocol_see hp hadmits)

theorem Genesis.keyed {s : Chain} (h : Genesis s) : Keyed s := by
  refine ⟨fun o k g hg => ?_, fun m r hr => ?_, fun m mk hmk => ?_⟩
  · rw [h.sessionGrant] at hg
    cases hg
  · rw [h.pricingReceipt] at hr
    cases hr
  · rw [h.market] at hmk
    cases hmk

theorem Reachable.keyed {rt : Runtime} {s : Chain} (h : Reachable rt s) : Keyed s :=
  h.invariant (fun _ => Genesis.keyed) fun _ _ _ ha hs => (ha.recorded hs).1

theorem Genesis.extends {rt : Runtime} {s₀ s : Chain} {as : List Action} (hg : Genesis s₀)
    (h : Steps (Step rt) s₀ as s) : ∃ es, eventLog.Extends s₀ s es :=
  Reading.steps_extend (fun _ _ _ ha hs => ha.recorded hs) h hg.keyed

/-- **The log is the state.** -/
theorem log_replays {rt : Runtime} {s₀ s : Chain} {as : List Action} (hg : Genesis s₀)
    (h : Steps (Step rt) s₀ as s) :
    ∃ es, s.events = s₀.events ++ es ∧ s.observed = es.foldl Observer.see .empty := by
  obtain ⟨es, hes⟩ := hg.extends h
  refine ⟨es, hes.log, ?_⟩
  rw [← hg.observed]
  exact hes.view

/-- A market that is staked on, resolved, settled and claimed from. -/
def Sample.claimed : List Action :=
  [setUp, create 1700001000 echo, join sideYes 1000000, resolve 0 [1], settle sideYes, claim]

theorem log_replays_sample : ∃ t es, Steps (Step Sample.runtime) Sample.genesis Sample.claimed t ∧
    t.events = es ∧ t.observed = es.foldl Observer.see .empty ∧
      Sample.Stands statusSettled sideYes t := by
  have hrun : Action.runsTo Sample.runtime Sample.claimed Sample.genesis
      (Sample.Stands statusSettled sideYes) = true := by decide +kernel
  obtain ⟨t, hsteps, ht⟩ := steps_of_runsTo hrun
  obtain ⟨es, hlog, hobserved⟩ := log_replays Sample.genesis_ok hsteps
  exact ⟨t, es, hsteps, hlog, hobserved, ht⟩

/-- The last event, where it is a claim. -/
def Sample.lastClaim (t : Chain) : Option (Pubkey × Pubkey × UInt64 × UInt64) :=
  match t.events.getLast? with
  | some (.positionClaimed m o payout fee) => some (m, o, payout, fee)
  | _ => none

theorem Sample.events_of_lastClaim {t : Chain} {m o : Pubkey} {payout fee : UInt64}
    (h : lastClaim t = some (m, o, payout, fee)) :
    ∃ pre, t.events = pre ++ [.positionClaimed m o payout fee] := by
  unfold lastClaim at h
  split at h
  · rename_i hlast
    cases h
    exact List.getLast?_eq_some_iff.mp hlast
  · cases h

end Stoppage
