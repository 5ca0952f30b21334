import Stoppage.Instance.EventLog
import Stoppage.Instance.Change

/-! # The books of the treasury and of the vaults

The treasury and the market accounts hold lamports of their own. What the log says was paid into
them and out of them, with what wallets transferred to them directly or in the place of a session
key, is exactly by how much their balance changes over a run. Nothing ever leaves the treasury.
-/

namespace Stoppage
open Fallible BalanceSheet TransitionSystem MarketProgram
set_option autoImplicit false

/-! ## Funds -/

inductive Fund
  | treasury
  | vault (m : Pubkey)

def Fund.address : Fund → Address
  | .treasury => .treasury
  | .vault m => .market m

def Address.isFund : Address → Bool
  | .treasury => true
  | .market _ => true
  | _ => false

theorem Fund.address_ne (f : Fund) {b : Address} (h : b.isFund = false) : f.address ≠ b := by
  rintro rfl
  cases f with
  | treasury => cases h
  | vault m => cases h

/-- The lamports that an event brings into the account. -/
def Event.paidIn (a : Address) : Event → ℕ
  | .positionOpened m _ _ amount _ => if a = .market m then amount.toNat else 0
  | .positionClaimed _ _ _ fee => if a = .treasury then fee.toNat else 0
  | _ => 0

/-- The lamports that an event takes out of the account. -/
def Event.paidOut (a : Address) : Event → ℕ
  | .positionClaimed m _ payout fee => if a = .market m then payout.toNat + fee.toNat else 0
  | .bondClaimed m _ bond => if a = .market m then bond.toNat else 0
  | .marketClosed m _ refunded => if a = .market m then refunded.toNat else 0
  | _ => 0

/-- A transfer that no event tells of: one of its own, or the funds of a session key, which may be
any account. -/
def Action.donated (a : Address) : Action → ℕ
  | .call _ (.systemTransfer _ target x) => if a = target then x.toNat else 0
  | .call _ (.delegateSessionKey _ session _ _ _ _ fundLamports) =>
    if a = session then fundLamports.toNat else 0
  | _ => 0

def paidIn (a : Address) (es : List Event) : ℕ := (es.map (Event.paidIn a)).sum

def paidOut (a : Address) (es : List Event) : ℕ := (es.map (Event.paidOut a)).sum

def donated (a : Address) (as : List Action) : ℕ := (as.map (Action.donated a)).sum

/-- The balance of `a` moves with the log and a donation of `d`. -/
def Balanced (a : Address) (d : ℕ) (s t : Chain) : Prop :=
  ∃ es, t.events = s.events ++ es ∧
    (t.lamports a).toNat + paidOut a es = (s.lamports a).toNat + paidIn a es + d

theorem balanced_of {a : Address} {s t : Chain} {e : Event} (hlog : t.events = s.events ++ [e])
    (h : (t.lamports a).toNat + e.paidOut a = (s.lamports a).toNat + e.paidIn a) :
    Balanced a 0 s t := by
  refine ⟨[e], hlog, ?_⟩
  simpa only [paidOut, paidIn, List.map_cons, List.map_nil, List.sum_singleton, Nat.add_zero] using h

/-- An event that moves nothing, with a donation. -/
theorem balanced_of_gift {a : Address} {s t : Chain} {e : Event} {d : ℕ}
    (hlog : t.events = s.events ++ [e]) (hout : e.paidOut a = 0) (hin : e.paidIn a = 0)
    (h : (t.lamports a).toNat = (s.lamports a).toNat + d) : Balanced a d s t := by
  refine ⟨[e], hlog, ?_⟩
  simp only [paidOut, paidIn, List.map_cons, List.map_nil, List.sum_singleton, hout, hin,
    Nat.add_zero]
  exact h

/-- An event that moves nothing, with the balance unchanged. -/
theorem balanced_of_eq {a : Address} {s t : Chain} {e : Event} (hlog : t.events = s.events ++ [e])
    (hout : e.paidOut a = 0) (hin : e.paidIn a = 0) (h : t.lamports a = s.lamports a) :
    Balanced a 0 s t := balanced_of hlog (by rw [hout, hin, h])

theorem balanced_silent {a : Address} {s t : Chain} {d : ℕ} (hlog : t.events = s.events)
    (h : (t.lamports a).toNat = (s.lamports a).toNat + d) : Balanced a d s t :=
  ⟨[], by rw [hlog, List.append_nil], h⟩

theorem Balanced.trans {a : Address} {s t u : Chain} {c d : ℕ} (h : Balanced a c s t)
    (h' : Balanced a d t u) : Balanced a (c + d) s u := by
  obtain ⟨es, hlog, hes⟩ := h
  obtain ⟨fs, hlog', hfs⟩ := h'
  refine ⟨es ++ fs, by rw [hlog', hlog, List.append_assoc], ?_⟩
  simp only [paidOut, paidIn, List.map_append, List.sum_append] at hes hfs ⊢
  omega

/-! ## Instructions that leave the funds alone -/

section Funds
variable (f : Fund)

theorem init_fund {s t : Chain} {rt : Runtime} {payer : Pubkey} {a : Address} {space : ℕ}
    (h : s.initAccount rt payer a space = .ok t) (ha : a.isFund = false) :
    ∃ l, t = { s with lamports := l } ∧ l f.address = s.lamports f.address := by
  obtain ⟨l, -, hl, rfl⟩ := Chain.initAccount_ok h
  exact ⟨l, rfl, hl.other (f.address_ne rfl) (f.address_ne ha)⟩

theorem transferred_into {l l' : Address → UInt64} {source : Pubkey} {a : Address} {x : UInt64}
    (h : Transferred l (.external source) a x l') (ha : a.isFund = true) :
    (l' f.address).toNat = (l f.address).toNat + if f.address = a then x.toNat else 0 := by
  have hne : a ≠ .external source := by
    rintro rfl
    cases ha
  by_cases hf : f.address = a
  · rw [if_pos hf, hf]
    exact h.payee hne
  · rw [if_neg hf, h.other (f.address_ne rfl) hf, Nat.add_zero]

theorem transfer_fund {s t : Chain} {source : Pubkey} {a : Address} {x : UInt64}
    (h : s.systemTransfer source a x = .ok t) :
    ∃ l, t = { s with lamports := l } ∧ (l f.address).toNat =
      (s.lamports f.address).toNat + if f.address = a then x.toNat else 0 := by
  obtain ⟨l, -, hl, rfl⟩ := Chain.systemTransfer_ok h
  refine ⟨l, rfl, ?_⟩
  by_cases hfund : a.isFund = true
  · exact transferred_into f hl hfund
  · have hne := f.address_ne (Bool.eq_false_iff.mpr hfund)
    rw [if_neg hne]
    exact congrArg UInt64.toNat (hl.other (f.address_ne rfl) hne)

theorem initializeProtocol_refused {rt : Runtime} {authority : Pubkey} {feeBps : UInt16}
    {s t : Chain} (hs : s.protocolConfig ≠ none) :
    initializeProtocol rt authority feeBps s ≠ .ok t := by
  intro h
  simp only [initializeProtocol, bind_eq_ok] at h
  obtain ⟨u, hu, -⟩ := h
  obtain ⟨-, howner, -⟩ := Chain.initAccount_ok hu
  exact hs ((ite_isSome_eq_system (by decide)).mp howner)

theorem setAgentAuthority_balanced {rt : Runtime} {authority agentAuthority : Pubkey} {s t : Chain}
    (h : setAgentAuthority rt authority agentAuthority s = .ok t) :
    Balanced f.address 0 s t := by
  simp only [setAgentAuthority, bind_eq_ok] at h
  obtain ⟨c, -, h⟩ := h
  split at h
  · simp only [pure_bind, bind_eq_ok, pure_eq_ok] at h
    obtain ⟨-, -, rfl⟩ := h
    exact balanced_of_eq rfl rfl rfl rfl
  · simp only [bind_eq_ok, pure_eq_ok] at h
    obtain ⟨u, hu, -, -, rfl⟩ := h
    obtain ⟨l, rfl, hl⟩ := init_fund f hu rfl
    exact balanced_of_eq rfl rfl rfl hl

theorem revokeSessionKey_balanced {owner sessionPubkey : Pubkey} {s t : Chain}
    (h : revokeSessionKey owner sessionPubkey s = .ok t) : Balanced f.address 0 s t := by
  simp only [revokeSessionKey, bind_eq_ok, pure_eq_ok] at h
  obtain ⟨g, -, u, hu, rfl⟩ := h
  obtain ⟨l, hl, rfl⟩ := Chain.sweep_ok hu
  have hkept : Function.update l (.sessionGrant owner sessionPubkey) 0 f.address =
      s.lamports f.address :=
    (Function.update_of_ne (f.address_ne rfl) _ _).trans (hl.other _ (f.address_ne rfl))
  exact balanced_of_eq rfl rfl rfl hkept

theorem attestPricing_balanced {rt : Runtime} {signer m : Pubkey}
    {snapshotHash : List.Vector UInt8 32} {modelVersion : String} {fairValue bid ask : UInt64}
    {agentSignature : List.Vector UInt8 64} {ts : Int64} {s t : Chain}
    (h : attestPricing rt signer m snapshotHash modelVersion fairValue bid ask agentSignature ts s =
      .ok t) : Balanced f.address 0 s t := by
  simp only [attestPricing, attestPricingHandler, exitPricing, bind_eq_ok, pure_eq_ok] at h
  obtain ⟨⟨r, u⟩, ⟨_, -, -, -, _, -, h⟩, -, -, rfl⟩ := h
  split at h
  · simp only [pure_bind, bind_eq_ok, pure_eq_ok, Prod.mk.injEq] at h
    obtain ⟨-, -, -, -, -, -, -, rfl⟩ := h
    exact balanced_of_eq rfl rfl rfl rfl
  · simp only [bind_eq_ok, pure_eq_ok, Prod.mk.injEq] at h
    obtain ⟨u, hu, -, -, -, -, -, -, -, rfl⟩ := h
    obtain ⟨l, rfl, hl⟩ := init_fund f hu rfl
    exact balanced_of_eq rfl rfl rfl hl

theorem resolveMarket_balanced {rt : Runtime} {ctx : TxContext} {resolver : Pubkey} {a : Address}
    {statement : String} {root : List.Vector UInt8 32} {outcome : UInt8} {data : Bytes}
    {remaining : List Address} {s t : Chain}
    (h : SettlementProgram.resolveMarket rt ctx resolver a statement root outcome data remaining s =
      .ok t) : Balanced f.address 0 s t := by
  simp only [SettlementProgram.resolveMarket, bind_eq_ok, pure_eq_ok] at h
  obtain ⟨u, hu, -, -, -, -, v, -, ret, -, returnData, -, -, -, -, -, rfl⟩ := h
  cases a <;> obtain ⟨l, rfl, hl⟩ := init_fund f hu rfl <;> exact balanced_of_eq rfl rfl rfl hl

theorem createMarket_balanced {rt : Runtime} {creator : Pubkey} {seeds : MarketSeeds}
    {closesAt : Int64} {oracle : Pubkey} {s t : Chain}
    (h : createMarket rt creator seeds closesAt oracle s = .ok t)
    (hf : f.address ≠ .market (rt.marketAddress seeds)) : Balanced f.address 0 s t := by
  simp only [createMarket, bind_eq_ok, pure_eq_ok] at h
  obtain ⟨u, hu, c, -, -, -, -, -, v, hv, rfl⟩ := h
  obtain ⟨l₁, -, hl₁, rfl⟩ := Chain.initAccount_ok hu
  obtain ⟨l, -, hl, rfl⟩ := Chain.systemTransfer_ok hv
  have h1 : l₁ f.address = s.lamports f.address := hl₁.other (f.address_ne rfl) hf
  have h2 : l f.address = l₁ f.address := hl.other (f.address_ne rfl) hf
  exact balanced_of_eq rfl rfl rfl (h2.trans h1)

/-! ## Instructions that move a fund -/

theorem join_balanced {s t : Chain} {rt : Runtime} {payer m o : Pubkey} {p : Position} {u v : Chain}
    {side : UInt8} {amount : UInt64} {via : Bool} (hinit : s.initPosition rt payer m o = .ok (p, u))
    (hpaid : u.systemTransfer payer (.market m) amount = .ok v) (hlamports : t.lamports = v.lamports)
    (hlog : t.events = v.events ++ [.positionOpened m o side amount via]) :
    Balanced f.address 0 s t := by
  obtain ⟨x, l₁, -, h1, rfl⟩ := Chain.initPosition_ok hinit
  obtain ⟨l, -, h2, rfl⟩ := Chain.systemTransfer_ok hpaid
  have hrent : l₁ f.address = s.lamports f.address := h1.other (f.address_ne rfl) (f.address_ne rfl)
  have hstake : (l f.address).toNat = (l₁ f.address).toNat +
      if f.address = .market m then amount.toNat else 0 := transferred_into f h2 rfl
  refine balanced_of hlog ?_
  rw [hlamports]
  show (l f.address).toNat + 0 = _
  rw [hstake, hrent]
  rfl

theorem joinViaWallet_balanced {rt : Runtime} {signer m : Pubkey} {side : UInt8} {amount : UInt64}
    {s t : Chain} (h : joinViaWallet rt signer m side amount s = .ok t) :
    Balanced f.address 0 s t := by
  simp only [joinViaWallet, bind_eq_ok, pure_eq_ok] at h
  obtain ⟨mk, -, ⟨p, u⟩, hu, -, -, -, -, -, -, v, hv, ⟨mk', p'⟩, -, rfl⟩ := h
  exact join_balanced f hu hv rfl rfl

theorem joinViaSessionKey_balanced {rt : Runtime} {sessionKey owner m : Pubkey} {side : UInt8}
    {amount : UInt64} {s t : Chain}
    (h : joinViaSessionKey rt sessionKey owner m side amount s = .ok t) :
    Balanced f.address 0 s t := by
  simp only [joinViaSessionKey, bind_eq_ok, pure_eq_ok] at h
  obtain ⟨g, -, mk, -, ⟨p, u⟩, hu, -, -, -, -, -, -, -, -, -, -, -, -, -, -, -, -, -, -, v, hv,
    staked, -, ⟨mk', p'⟩, -, rfl⟩ := h
  exact join_balanced f hu hv rfl rfl

theorem claim_balanced {o m : Pubkey} {s t : Chain} (h : claim o m s = .ok t) :
    Balanced f.address 0 s t := by
  obtain ⟨mk, p, payout, fee, hc, hsplit, hlog⟩ := claim_event h
  obtain ⟨mk', p', payout', fee', l, e, hc', hsplit', hl, rfl⟩ := claim_ok h
  cases hc.market.symm.trans hc'.market
  cases hc.position.symm.trans hc'.position
  cases hsplit.symm.trans hsplit'
  refine balanced_of hlog ?_
  cases f with
  | treasury => exact hl.treasury
  | vault m' =>
    show (l (.market m')).toNat + (if Address.market m' = .market m then payout.toNat + fee.toNat
      else 0) = (s.lamports (.market m')).toNat + 0
    by_cases hm : Address.market m' = .market m
    · rw [if_pos hm, hm, ← Nat.add_assoc]
      exact hl.vault
    · rw [if_neg hm, hl.other _ hm Address.noConfusion Address.noConfusion]

theorem claimBond_balanced {creator m : Pubkey} {s t : Chain}
    (h : claimBond creator m s = .ok t) : Balanced f.address 0 s t := by
  simp only [claimBond, bind_eq_ok, pure_eq_ok] at h
  obtain ⟨mk, -, -, -, -, -, -, -, u, hu, v, hv, rfl⟩ := h
  obtain ⟨l₁, h1, rfl⟩ := Chain.subLamports_ok hu
  obtain ⟨l, h2, rfl⟩ := Chain.addLamports_ok hv
  have hkept : l f.address = l₁ f.address := h2.other _ (f.address_ne rfl)
  refine balanced_of rfl ?_
  show (l f.address).toNat + (if f.address = .market m then mk.bondLamports.toNat else 0) = _
  rw [hkept]
  by_cases hf : f.address = .market m
  · rw [if_pos hf, hf]
    exact h1.entry
  · rw [if_neg hf, h1.other _ hf]
    rfl

theorem closeMarket_balanced {creator m : Pubkey} {s t : Chain}
    (h : closeMarket creator m s = .ok t) : Balanced f.address 0 s t := by
  simp only [closeMarket, bind_eq_ok, pure_eq_ok] at h
  obtain ⟨mk, -, -, -, -, -, deadline, -, -, -, u, hu, rfl⟩ := h
  obtain ⟨l, hl, rfl⟩ := Chain.sweep_ok hu
  refine balanced_of rfl ?_
  show (Function.update l (.market m) 0 f.address).toNat +
    (if f.address = .market m then (s.lamports (.market m)).toNat else 0) = _
  by_cases hf : f.address = .market m
  · rw [if_pos hf, hf, Function.update_self]
    exact Nat.zero_add _
  · rw [if_neg hf, Function.update_of_ne hf, hl.other _ (f.address_ne rfl)]
    rfl

theorem systemTransfer_balanced {source : Pubkey} {target : Address} {x : UInt64} {s t : Chain}
    (h : s.systemTransfer source target x = .ok t) :
    Balanced f.address (if f.address = target then x.toNat else 0) s t := by
  obtain ⟨l, rfl, hl⟩ := transfer_fund f h
  exact balanced_silent rfl hl

theorem delegateSessionKey_balanced {rt : Runtime} {owner : Pubkey} {session : Address}
    {allowedPrograms : List Pubkey} {maxStakePerMarket maxTotalStake fundLamports : UInt64}
    {expiresAt : Int64} {s t : Chain}
    (h : delegateSessionKey rt owner session allowedPrograms maxStakePerMarket maxTotalStake
      expiresAt fundLamports s = .ok t) :
    Balanced f.address (if f.address = session then fundLamports.toNat else 0) s t := by
  simp only [delegateSessionKey, bind_eq_ok] at h
  obtain ⟨u, hu, -, -, h⟩ := h
  obtain ⟨l₁, rfl, hl₁⟩ := init_fund f hu rfl
  split at h
  · simp only [bind_eq_ok, pure_eq_ok] at h
    obtain ⟨v, hv, rfl⟩ := h
    obtain ⟨l, rfl, hl⟩ := transfer_fund f hv
    exact balanced_of_gift rfl rfl rfl (by rw [← hl₁]; exact hl)
  · rename_i hnone
    rw [pure_bind, pure_eq_ok] at h
    subst h
    have hzero : fundLamports.toNat = 0 := by
      rw [UInt64.lt_iff_toNat_lt] at hnone
      exact Nat.le_zero.mp (Nat.le_of_not_lt hnone)
    exact balanced_of_gift rfl rfl rfl (by rw [hzero, ite_self]; exact congrArg UInt64.toNat hl₁)

/-! ## Steps and runs -/

theorem exec_balanced {rt : Runtime} {ctx : TxContext} {ix : Instruction} {s t : Chain}
    (hs : s.protocolConfig ≠ none) (h : exec rt ctx ix s = .ok t)
    (hf : ∀ m, f = .vault m → (Action.call ctx ix).opOn rt m ≠ .create) :
    Balanced f.address ((Action.call ctx ix).donated f.address) s t := by
  cases ix with
  | initializeProtocol => exact absurd h (initializeProtocol_refused hs)
  | setAgentAuthority => exact setAgentAuthority_balanced f h
  | delegateSessionKey => exact delegateSessionKey_balanced f h
  | revokeSessionKey => exact revokeSessionKey_balanced f h
  | sessionPing =>
    simp only [exec, sessionPing, bind_eq_ok, pure_eq_ok] at h
    obtain ⟨g, -, -, -, -, -, rfl⟩ := h
    exact balanced_of_eq rfl rfl rfl rfl
  | createMarket creator seeds closesAt oracle =>
    refine createMarket_balanced f h ?_
    intro he
    cases f with
    | treasury => cases he
    | vault m =>
      cases he
      exact hf _ rfl (opOn_of_target rfl)
  | joinViaWallet => exact joinViaWallet_balanced f h
  | joinViaSessionKey => exact joinViaSessionKey_balanced f h
  | forceSettle =>
    simp only [exec, forceSettle, bind_eq_ok, pure_eq_ok] at h
    obtain ⟨c, -, mk, -, -, -, -, -, -, -, rfl⟩ := h
    exact balanced_of_eq rfl rfl rfl rfl
  | settleFromProof =>
    simp only [exec, settleFromProof, bind_eq_ok, pure_eq_ok] at h
    obtain ⟨mk, -, -, -, -, -, -, -, -, -, -, -, rfl⟩ := h
    exact balanced_of_eq rfl rfl rfl rfl
  | voidMarket =>
    simp only [exec, voidMarket, bind_eq_ok, pure_eq_ok] at h
    obtain ⟨mk, -, -, -, deadline, -, -, -, rfl⟩ := h
    exact balanced_of_eq rfl rfl rfl rfl
  | claim => exact claim_balanced f h
  | claimBond => exact claimBond_balanced f h
  | closeMarket => exact closeMarket_balanced f h
  | attestVerification =>
    simp only [exec, attestVerification, bind_eq_ok, pure_eq_ok] at h
    obtain ⟨mk, -, -, -, n, -, rfl⟩ := h
    exact balanced_of_eq rfl rfl rfl rfl
  | attestPricing => exact attestPricing_balanced f h
  | verifyPricing =>
    simp only [exec, verifyPricing, bind_eq_ok, pure_eq_ok] at h
    obtain ⟨r, -, -, -, rfl⟩ := h
    exact balanced_of_eq rfl rfl rfl rfl
  | resolveMarket => exact resolveMarket_balanced f h
  | initializeConfig payer authority =>
    simp only [exec, AttestationValidator.initializeConfig, bind_eq_ok, pure_eq_ok] at h
    obtain ⟨u, hu, rfl⟩ := h
    obtain ⟨l, rfl, hl⟩ := init_fund f hu rfl
    exact balanced_silent rfl (congrArg UInt64.toNat hl)
  | systemTransfer => exact systemTransfer_balanced f h
  | ed25519 =>
    simp only [exec, bind_eq_ok, pure_eq_ok] at h
    obtain ⟨_, -, rfl⟩ := h
    exact balanced_silent rfl rfl
  | setComputeUnitLimit =>
    cases h
    exact balanced_silent rfl rfl

theorem Step.balanced {rt : Runtime} {s t : Chain} {a : Action} (hs : s.protocolConfig ≠ none)
    (h : Step rt s a t) (hf : ∀ m, f = .vault m → a.opOn rt m ≠ .create) :
    Balanced f.address (a.donated f.address) s t := by
  obtain ⟨ctx, ix, rfl, hix⟩ | ⟨now, rfl, -, rfl⟩ | ⟨k, x, rfl, rfl⟩ := h.cases
  · exact exec_balanced f hs hix hf
  · exact balanced_silent rfl rfl
  · exact balanced_silent rfl rfl

end Funds

theorem Step.protocolConfig_ne_none {rt : Runtime} {s t : Chain} {a : Action} (h : Step rt s a t)
    (hkeyed : Keyed s) (hs : s.protocolConfig ≠ none) : t.protocolConfig ≠ none := by
  obtain ⟨c, hc⟩ := Option.ne_none_iff_exists'.mp hs
  have hp := h.recorded.protocol hkeyed (observed_protocol hc)
  intro hnone
  have hlost : t.observed.protocol = none := congrArg (Option.map ProtocolConfig.seen) hnone
  exact Option.some_ne_none _ (hp.symm.trans hlost)

end Stoppage
