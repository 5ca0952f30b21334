import Stoppage.Instance.Change

/-! # What a session key can spend

A grant lives from its delegation to its revocation. Its counter is the sum of all stakes made
through it and stays within the total cap, every stake is made in time and for an allowed program,
and the owner's positions only grow. The cap for one market is compared with one call at a time:
`session_limits_iff` says when it holds of the sums all the same.
-/

namespace Stoppage
open Fallible TransitionSystem MarketProgram
set_option autoImplicit false

/-! ## The grant an instruction writes -/

def Instruction.grant (rt : Runtime) : Instruction → Option (Pubkey × Pubkey)
  | .delegateSessionKey owner session _ _ _ _ _ => some (owner, rt.key session)
  | .revokeSessionKey owner session => some (owner, rt.key session)
  | .joinViaSessionKey k owner _ _ _ => some (rt.key owner, k)
  | _ => none

/-- The market whose pricing receipt an instruction writes. -/
def Instruction.receipt : Instruction → Option Pubkey
  | .attestPricing _ m _ _ _ _ _ _ _ => some m
  | _ => none

theorem MarketProgram.initializeProtocol_ok {rt : Runtime} {authority : Pubkey}
    {feeBps : UInt16} {s t : Chain} (h : initializeProtocol rt authority feeBps s = .ok t) :
    ∃ l c a e, t = { s with
      lamports := l, protocolConfig := c, agentAuthority := a, events := e } := by
  simp only [initializeProtocol, bind_eq_ok, pure_eq_ok] at h
  obtain ⟨u, hu, v, hv, w, hw, -, -, rfl⟩ := h
  obtain ⟨_, -, -, rfl⟩ := Chain.initAccount_ok hu
  obtain ⟨_, -, -, rfl⟩ := Chain.initAccount_ok hv
  obtain ⟨_, -, -, rfl⟩ := Chain.initAccount_ok hw
  exact ⟨_, _, _, _, rfl⟩

theorem MarketProgram.setAgentAuthority_ok {rt : Runtime} {authority agentAuthority : Pubkey}
    {s t : Chain} (h : setAgentAuthority rt authority agentAuthority s = .ok t) :
    ∃ l a e, t = { s with lamports := l, agentAuthority := a, events := e } := by
  simp only [setAgentAuthority, bind_eq_ok] at h
  obtain ⟨c, -, h⟩ := h
  split at h
  · simp only [pure_bind, bind_eq_ok, pure_eq_ok] at h
    obtain ⟨-, -, rfl⟩ := h
    exact ⟨_, _, _, rfl⟩
  · simp only [bind_eq_ok, pure_eq_ok] at h
    obtain ⟨u, hu, -, -, rfl⟩ := h
    obtain ⟨_, -, -, rfl⟩ := Chain.initAccount_ok hu
    exact ⟨_, _, _, rfl⟩

theorem MarketProgram.sessionPing_ok {k owner : Pubkey} {s t : Chain}
    (h : sessionPing k owner s = .ok t) : ∃ e, t = { s with events := e } := by
  simp only [sessionPing, bind_eq_ok, pure_eq_ok] at h
  obtain ⟨g, -, -, -, -, -, rfl⟩ := h
  exact ⟨_, rfl⟩

theorem MarketProgram.verifyPricing_ok {rt : Runtime} {m : Pubkey} {snapshotBytes : Bytes}
    {s t : Chain} (h : verifyPricing rt m snapshotBytes s = .ok t) :
    ∃ r e, s.pricingReceipt m = some r ∧ rt.sha256 snapshotBytes = r.snapshotHash.1 ∧
      t = { s with events := e } := by
  simp only [verifyPricing, bind_eq_ok, require_eq_ok, getOr_eq_ok, pure_eq_ok] at h
  obtain ⟨r, hr, -, hhash, rfl⟩ := h
  exact ⟨r, _, hr, hhash, rfl⟩

/-- The grant as `delegate_session_key` writes it. -/
def newGrant (rt : Runtime) (owner k : Pubkey) (allowedPrograms : List Pubkey)
    (maxStakePerMarket maxTotalStake : UInt64) (expiresAt : Int64) : SessionGrant where
  owner := owner
  sessionPubkey := k
  allowedPrograms := allowedPrograms
  maxStakePerMarket := maxStakePerMarket
  maxTotalStake := maxTotalStake
  stakedSoFar := 0
  expiresAt := expiresAt
  revoked := false
  bump := rt.bump (.sessionGrant owner k)

theorem MarketProgram.delegateSessionKey_ok {rt : Runtime} {owner : Pubkey} {session : Address}
    {allowedPrograms : List Pubkey} {maxStakePerMarket maxTotalStake fundLamports : UInt64}
    {expiresAt : Int64} {s t : Chain}
    (h : delegateSessionKey rt owner session allowedPrograms maxStakePerMarket maxTotalStake
      expiresAt fundLamports s = .ok t) :
    ∃ l e, s.sessionGrant (owner, rt.key session) = none ∧
      allowedPrograms.length ≤ maxPrograms ∧
      t = { s with
        lamports := l
        sessionGrant := Function.update s.sessionGrant (owner, rt.key session) (some
          (newGrant rt owner (rt.key session) allowedPrograms maxStakePerMarket maxTotalStake
            expiresAt))
        events := e } := by
  simp only [delegateSessionKey, bind_eq_ok, require_eq_ok] at h
  obtain ⟨u, hu, -, hallowed, h⟩ := h
  obtain ⟨l, howner, -, rfl⟩ := Chain.initAccount_ok hu
  have hnone := (ite_isSome_eq_system (by decide)).mp howner
  split at h
  · simp only [bind_eq_ok, pure_eq_ok] at h
    obtain ⟨v, hv, rfl⟩ := h
    obtain ⟨l', -, -, rfl⟩ := Chain.systemTransfer_ok hv
    exact ⟨l', _, hnone, hallowed, rfl⟩
  · rw [pure_bind, pure_eq_ok] at h
    subst h
    exact ⟨l, _, hnone, hallowed, rfl⟩

theorem MarketProgram.delegateSessionKey_grant {rt : Runtime} {owner : Pubkey} {session : Address}
    {allowedPrograms : List Pubkey} {maxStakePerMarket maxTotalStake fundLamports : UInt64}
    {expiresAt : Int64} {s t : Chain}
    (h : delegateSessionKey rt owner session allowedPrograms maxStakePerMarket maxTotalStake
      expiresAt fundLamports s = .ok t) :
    t.sessionGrant (owner, rt.key session) = some (newGrant rt owner (rt.key session)
      allowedPrograms maxStakePerMarket maxTotalStake expiresAt) := by
  obtain ⟨_, _, -, -, rfl⟩ := delegateSessionKey_ok h
  exact Function.update_self _ _ _

theorem MarketProgram.revokeSessionKey_ok {owner k : Pubkey} {s t : Chain}
    (h : revokeSessionKey owner k s = .ok t) :
    ∃ l e, t = { s with
      lamports := l
      sessionGrant := Function.update s.sessionGrant (owner, k) none
      events := e } := by
  simp only [revokeSessionKey, bind_eq_ok, pure_eq_ok] at h
  obtain ⟨g, -, u, hu, rfl⟩ := h
  obtain ⟨l, -, rfl⟩ := Chain.sweep_ok hu
  exact ⟨_, _, rfl⟩

/-- An instruction leaves every grant and every pricing receipt alone but the one it writes. -/
theorem exec_records {rt : Runtime} {ctx : TxContext} {ix : Instruction} {s t : Chain}
    (h : exec rt ctx ix s = .ok t) :
    (∀ key, ix.grant rt ≠ some key → t.sessionGrant key = s.sessionGrant key) ∧
      ∀ m, ix.receipt ≠ some m → t.pricingReceipt m = s.pricingReceipt m := by
  cases ix with
  | initializeProtocol =>
    obtain ⟨_, _, _, _, rfl⟩ := initializeProtocol_ok h
    exact ⟨fun _ _ => rfl, fun _ _ => rfl⟩
  | setAgentAuthority =>
    obtain ⟨_, _, _, rfl⟩ := setAgentAuthority_ok h
    exact ⟨fun _ _ => rfl, fun _ _ => rfl⟩
  | delegateSessionKey =>
    obtain ⟨_, _, -, -, rfl⟩ := delegateSessionKey_ok h
    refine ⟨fun key hkey => Function.update_of_ne (fun he => ?_) _ _, fun _ _ => rfl⟩
    exact hkey (congrArg some he.symm)
  | revokeSessionKey =>
    obtain ⟨_, _, rfl⟩ := revokeSessionKey_ok h
    refine ⟨fun key hkey => Function.update_of_ne (fun he => ?_) _ _, fun _ _ => rfl⟩
    exact hkey (congrArg some he.symm)
  | sessionPing =>
    obtain ⟨_, rfl⟩ := sessionPing_ok h
    exact ⟨fun _ _ => rfl, fun _ _ => rfl⟩
  | attestPricing =>
    obtain ⟨_, _, -, -, -, rfl⟩ := attestPricing_ok h
    refine ⟨fun _ _ => rfl, fun m hm => Function.update_of_ne (fun he => ?_) _ _⟩
    exact hm (congrArg some he.symm)
  | verifyPricing =>
    obtain ⟨_, _, -, -, rfl⟩ := verifyPricing_ok h
    exact ⟨fun _ _ => rfl, fun _ _ => rfl⟩
  | systemTransfer =>
    obtain ⟨_, -, -, rfl⟩ := Chain.systemTransfer_ok h
    exact ⟨fun _ _ => rfl, fun _ _ => rfl⟩
  | ed25519 d =>
    simp only [exec, bind_eq_ok, pure_eq_ok] at h
    obtain ⟨_, -, rfl⟩ := h
    exact ⟨fun _ _ => rfl, fun _ _ => rfl⟩
  | setComputeUnitLimit =>
    cases h
    exact ⟨fun _ _ => rfl, fun _ _ => rfl⟩
  | createMarket =>
    obtain ⟨_, _, _, _, -, -, -, -, -, rfl⟩ := createMarket_ok h
    exact ⟨fun _ _ => rfl, fun _ _ => rfl⟩
  | joinViaWallet =>
    obtain ⟨_, _, _, _, _, -, rfl⟩ := joinViaWallet_ok h
    exact ⟨fun _ _ => rfl, fun _ _ => rfl⟩
  | joinViaSessionKey =>
    obtain ⟨_, _, _, _, _, _, _, -, -, -, rfl⟩ := joinViaSessionKey_ok h
    refine ⟨fun key hkey => Function.update_of_ne (fun he => ?_) _ _, fun _ _ => rfl⟩
    exact hkey (congrArg some he.symm)
  | forceSettle =>
    obtain ⟨_, _, _, -, -, -, -, -, rfl⟩ := forceSettle_ok h
    exact ⟨fun _ _ => rfl, fun _ _ => rfl⟩
  | settleFromProof =>
    obtain ⟨_, _, -, -, -, -, -, -, rfl⟩ := settleFromProof_ok h
    exact ⟨fun _ _ => rfl, fun _ _ => rfl⟩
  | voidMarket =>
    obtain ⟨_, _, -, -, -, -, rfl⟩ := voidMarket_ok h
    exact ⟨fun _ _ => rfl, fun _ _ => rfl⟩
  | claim =>
    obtain ⟨_, _, _, _, _, _, -, -, -, rfl⟩ := claim_ok h
    exact ⟨fun _ _ => rfl, fun _ _ => rfl⟩
  | claimBond =>
    obtain ⟨_, _, _, -, -, -, -, -, rfl⟩ := claimBond_ok h
    exact ⟨fun _ _ => rfl, fun _ _ => rfl⟩
  | closeMarket =>
    obtain ⟨_, _, _, -, -, -, -, -, rfl⟩ := closeMarket_ok h
    exact ⟨fun _ _ => rfl, fun _ _ => rfl⟩
  | attestVerification =>
    obtain ⟨_, _, _, -, -, rfl⟩ := attestVerification_ok h
    exact ⟨fun _ _ => rfl, fun _ _ => rfl⟩
  | resolveMarket _ a =>
    obtain ⟨_, _, _, -, -, -, -, -, -, rfl⟩ := SettlementProgram.resolveMarket_inv h
    cases a <;> exact ⟨fun _ _ => rfl, fun _ _ => rfl⟩
  | initializeConfig =>
    obtain ⟨_, -, -, rfl⟩ := AttestationValidator.initializeConfig_ok h
    exact ⟨fun _ _ => rfl, fun _ _ => rfl⟩

/-! ## Stakes through a grant -/

/-- The market and the amount of a stake through the grant of `owner` to `k`. -/
def Action.stake (rt : Runtime) (owner k : Pubkey) : Action → Option (Pubkey × UInt64)
  | .call _ (.joinViaSessionKey k' owner' m _ amount) =>
    if (rt.key owner', k') = (owner, k) then some (m, amount) else none
  | _ => none

/-- The sum of the stakes that the actions make through the grant. -/
def staked (rt : Runtime) (owner k : Pubkey) (as : List Action) : ℕ :=
  ((as.filterMap (Action.stake rt owner k)).map fun x => x.2.toNat).sum

/-- The same, into the market `m`. -/
def stakedInto (rt : Runtime) (owner k m : Pubkey) (as : List Action) : ℕ :=
  (((as.filterMap (Action.stake rt owner k)).filter fun x => x.1 = m).map fun x => x.2.toNat).sum

section Sums
variable {rt : Runtime} {owner k : Pubkey} {as : List Action} {a : Action}

theorem staked_concat_none (h : a.stake rt owner k = none) :
    staked rt owner k (as ++ [a]) = staked rt owner k as := by
  rw [staked, List.filterMap_append, List.filterMap_cons_none h, List.filterMap_nil,
    List.append_nil, staked]

theorem staked_concat_some {m : Pubkey} {x : UInt64} (h : a.stake rt owner k = some (m, x)) :
    staked rt owner k (as ++ [a]) = staked rt owner k as + x.toNat := by
  rw [staked, List.filterMap_append, List.filterMap_cons_some h, List.map_append, List.sum_append,
    staked]
  rfl

theorem stakedInto_concat_none (m : Pubkey) (h : a.stake rt owner k = none) :
    stakedInto rt owner k m (as ++ [a]) = stakedInto rt owner k m as := by
  rw [stakedInto, List.filterMap_append, List.filterMap_cons_none h, List.filterMap_nil,
    List.append_nil, stakedInto]

theorem stakedInto_concat_some (m : Pubkey) {m' : Pubkey} {x : UInt64}
    (h : a.stake rt owner k = some (m', x)) :
    stakedInto rt owner k m (as ++ [a]) =
      stakedInto rt owner k m as + if m' = m then x.toNat else 0 := by
  rw [stakedInto, List.filterMap_append, List.filterMap_cons_some h, List.filterMap_nil,
    List.filter_append, List.map_append, List.sum_append, stakedInto]
  by_cases hm : m' = m
  · rw [if_pos hm, List.filter_cons_of_pos (by simpa using hm)]
    rfl
  · rw [if_neg hm, List.filter_cons_of_neg (by simpa using hm)]
    rfl

theorem stakedInto_le_of_prefix (m : Pubkey) {bs : List Action} (h : bs <+: as) :
    stakedInto rt owner k m bs ≤ stakedInto rt owner k m as := by
  obtain ⟨cs, rfl⟩ := h
  rw [stakedInto, stakedInto, List.filterMap_append, List.filter_append, List.map_append,
    List.sum_append]
  exact Nat.le_add_right _ _

end Sums

/-! ## The life of a grant -/

/-- The grant `g` is delegated on entering `s`, and the actions `as` lead from there to `t` without
revoking it. -/
structure GrantLife (rt : Runtime) (owner k : Pubkey) (g : SessionGrant) (s : Chain)
    (as : List Action) (t : Chain) : Prop where
  delegated : ∃ s₀ ctx session fundLamports, rt.key session = k ∧
    exec rt ctx (.delegateSessionKey owner session g.allowedPrograms g.maxStakePerMarket
      g.maxTotalStake g.expiresAt fundLamports) s₀ = .ok s
  grant : s.sessionGrant (owner, k) = some g
  run : Steps (Step rt) s as t
  alive : ∀ ctx session, rt.key session = k → .call ctx (.revokeSessionKey owner session) ∉ as

/-- What a successful stake through the grant checks and does. -/
structure StakeStep (owner : Pubkey) (g : SessionGrant) (u v : Chain) : Prop where
  inTime : u.now < g.expiresAt
  allowed : marketProgramId ∈ g.allowedPrograms
  positions : ∀ m, (u.positionAt m owner).amountLamports ≤ (v.positionAt m owner).amountLamports

/-- The limits of a grant over its life so far. -/
structure Limited (rt : Runtime) (owner k : Pubkey) (g : SessionGrant) (s : Chain)
    (as : List Action) (t : Chain) : Prop where
  counter : ∃ g', t.sessionGrant (owner, k) = some g' ∧ g'.stakedSoFar.toNat = staked rt owner k as
  total : 0 < g.maxTotalStake → staked rt owner k as ≤ g.maxTotalStake.toNat
  perMarket : ∀ m, stakedInto rt owner k m as ≤ g.maxStakePerMarket.toNat
  stakes : ∀ pre a post u v, as = pre ++ a :: post → Steps (Step rt) s pre u → Step rt u a v →
    a.stake rt owner k ≠ none → StakeStep owner g u v

/-- Topping up a market keeps the stakes into it within the cap for one market. -/
def TopsUpWithin (rt : Runtime) (owner k : Pubkey) (g : SessionGrant) (as : List Action) : Prop :=
  ∀ pre a m amount, pre ++ [a] <+: as → a.stake rt owner k = some (m, amount) →
    0 < stakedInto rt owner k m pre →
    stakedInto rt owner k m pre + amount.toNat ≤ g.maxStakePerMarket.toNat

/-! ## One step -/

theorem Step.grant_kept {rt : Runtime} {u v : Chain} {a : Action} {owner k : Pubkey}
    {g : SessionGrant} (h : Step rt u a v) (hg : u.sessionGrant (owner, k) = some g)
    (halive : ∀ ctx session, rt.key session = k → a ≠ .call ctx (.revokeSessionKey owner session))
    (hstake : a.stake rt owner k = none) : v.sessionGrant (owner, k) = some g := by
  obtain ⟨ctx, ix, rfl, hix⟩ | ⟨now, rfl, -, rfl⟩ | ⟨key, x, rfl, rfl⟩ := h.cases
  · by_cases hkey : ix.grant rt = some (owner, k)
    · cases ix with
      | delegateSessionKey =>
        cases hkey
        obtain ⟨_, _, hnone, -⟩ := delegateSessionKey_ok hix
        rw [hnone] at hg
        cases hg
      | revokeSessionKey =>
        cases hkey
        exact absurd rfl (halive ctx _ rfl)
      | joinViaSessionKey =>
        cases hkey
        rw [Action.stake, if_pos rfl] at hstake
        cases hstake
      | _ => cases hkey
    · rw [(exec_records hix).1 _ hkey, hg]
  · exact hg
  · exact hg

theorem MarketProgram.JoinedAt.positionAt_le {s t : Chain} {m o : Pubkey} {side : UInt8}
    {amount : UInt64} {mk mk' : Market} {p' : Position} {l : Address → UInt64}
    (h : JoinedAt s m o side amount mk mk' p' l)
    (ht : t.position = Function.update s.position (m, o) (some p')) (m' : Pubkey) :
    (s.positionAt m' o).amountLamports ≤ (t.positionAt m' o).amountLamports := by
  rw [Chain.positionAt, Chain.positionAt, ht]
  by_cases hm : m' = m
  · subst hm
    have hstake := h.joined.stake
    rw [Function.update_self, UInt64.le_iff_toNat_le, Option.getD_some]
    omega
  · rw [Function.update_of_ne fun he => hm (Prod.mk.inj he).1]
    exact UInt64.le_refl _

theorem Step.stake {rt : Runtime} {u v : Chain} {a : Action} {owner k m : Pubkey} {x : UInt64}
    (h : Step rt u a v) (hstake : a.stake rt owner k = some (m, x)) :
    ∃ g g', u.sessionGrant (owner, k) = some g ∧ v.sessionGrant (owner, k) = some g' ∧
      Spends u g x g' ∧ 0 < x ∧
      ∀ m', (u.positionAt m' owner).amountLamports ≤ (v.positionAt m' owner).amountLamports := by
  obtain ⟨ctx, ix, rfl, hix⟩ | ⟨now, rfl, -, -⟩ | ⟨key, x, rfl, -⟩ := h.cases
  · cases ix with
    | joinViaSessionKey k' owner' m' side amount =>
      rw [Action.stake] at hstake
      split at hstake
      · rename_i hkey
        cases hkey
        cases hstake
        obtain ⟨g, g', mk, mk', p', l, e, hg, hspends, hj, rfl⟩ := joinViaSessionKey_ok hix
        exact ⟨g, g', hg, Function.update_self .., hspends, hj.positive, hj.positionAt_le rfl⟩
      · cases hstake
    | _ => cases hstake
  · cases hstake
  · cases hstake

/-! ## A whole life -/

/-- The grant after the actions `as`: its counter has moved, and nothing else. -/
structure Counted (rt : Runtime) (owner k : Pubkey) (g : SessionGrant) (as : List Action)
    (u : Chain) : Prop where
  grant : ∃ g', u.sessionGrant (owner, k) = some g' ∧ g' = { g with stakedSoFar := g'.stakedSoFar } ∧
    g'.stakedSoFar.toNat = staked rt owner k as
  total : 0 < g.maxTotalStake → staked rt owner k as ≤ g.maxTotalStake.toNat

theorem Counted.step {rt : Runtime} {owner k : Pubkey} {g : SessionGrant} {as : List Action}
    {a : Action} {u v : Chain} (hu : Counted rt owner k g as u) (h : Step rt u a v)
    (halive : ∀ ctx session, rt.key session = k → a ≠ .call ctx (.revokeSessionKey owner session)) :
    Counted rt owner k g (as ++ [a]) v := by
  obtain ⟨⟨g₁, hg₁, hrest, hcount⟩, htotal⟩ := hu
  cases hstake : a.stake rt owner k with
  | none =>
    have hsum : staked rt owner k (as ++ [a]) = staked rt owner k as := staked_concat_none hstake
    exact ⟨⟨g₁, h.grant_kept hg₁ halive hstake, hrest, hcount.trans hsum.symm⟩,
      fun hcap => hsum ▸ htotal hcap⟩
  | some mx =>
    obtain ⟨m, x⟩ := mx
    have hsum : staked rt owner k (as ++ [a]) = staked rt owner k as + x.toNat :=
      staked_concat_some hstake
    obtain ⟨g₂, g', hg₂, hg', hspends, -, -⟩ := h.stake hstake
    cases hg₁.symm.trans hg₂
    have hspent := hspends.spent
    have hnew : g'.stakedSoFar.toNat = staked rt owner k (as ++ [a]) := by omega
    refine ⟨⟨g', hg', ?_, hnew⟩, ?_⟩
    · rw [hspends.rest, hrest]
    · intro hcap
      have hmax : g₁.maxTotalStake = g.maxTotalStake := by rw [hrest]
      rw [← hmax] at hcap ⊢
      rw [← hnew, ← UInt64.le_iff_toNat_le]
      exact hspends.total hcap

theorem GrantLife.counted {rt : Runtime} {owner k : Pubkey} {g : SessionGrant} {s t : Chain}
    {as pre : List Action} (h : GrantLife rt owner k g s as t) (hpre : pre <+: as) {u : Chain}
    (hu : Steps (Step rt) s pre u) : Counted rt owner k g pre u := by
  have hzero : g.stakedSoFar = 0 := by
    obtain ⟨s₀, ctx, session, fund, rfl, hdelegate⟩ := h.delegated
    have hg := h.grant
    rw [delegateSessionKey_grant hdelegate] at hg
    rw [← Option.some.inj hg]
    rfl
  refine hu.history (P := Counted rt owner k g) ⟨⟨g, h.grant, rfl, ?_⟩, ?_⟩ ?_
  · rw [hzero]
    rfl
  · intro
    exact Nat.zero_le _
  · intro before a w x hbefore _ hw hstep
    refine hw.step hstep ?_
    rintro ctx session hk rfl
    have hmem := (hbefore.trans hpre).subset (List.mem_append_right before List.mem_cons_self)
    exact h.alive ctx session hk hmem

theorem Counted.stakeStep {rt : Runtime} {owner k : Pubkey} {g : SessionGrant} {as : List Action}
    {a : Action} {u v : Chain} (hu : Counted rt owner k g as u) (h : Step rt u a v) {m : Pubkey}
    {x : UInt64} (hstake : a.stake rt owner k = some (m, x)) :
    StakeStep owner g u v ∧ x ≤ g.maxStakePerMarket ∧ 0 < x := by
  obtain ⟨⟨g₁, hg₁, hrest, -⟩, -⟩ := hu
  obtain ⟨g₂, g', hg₂, -, hspends, hpos, hle⟩ := h.stake hstake
  cases hg₁.symm.trans hg₂
  have htime := hspends.inTime
  have hcall := hspends.perCall
  have hallowed := hspends.allowed
  rw [hrest] at htime hcall hallowed
  exact ⟨⟨htime, hallowed, hle⟩, hcall, hpos⟩

theorem topsUpWithin_of_le {rt : Runtime} {owner k : Pubkey} {g : SessionGrant} {as : List Action}
    (h : ∀ m, stakedInto rt owner k m as ≤ g.maxStakePerMarket.toNat) :
    TopsUpWithin rt owner k g as := by
  intro pre a m amount hpre hstake _
  have hle : stakedInto rt owner k m (pre ++ [a]) ≤ stakedInto rt owner k m as :=
    stakedInto_le_of_prefix m hpre
  rw [stakedInto_concat_some m hstake, if_pos rfl] at hle
  exact hle.trans (h m)

/-- **What a grant limits.** The total, the deadline, the allowlist and the positions always; the
stakes into one market exactly when no top-up takes them over the cap. -/
theorem session_limits_iff {rt : Runtime} {owner k : Pubkey} {g : SessionGrant} {s t : Chain}
    {as : List Action} (h : GrantLife rt owner k g s as t) :
    Limited rt owner k g s as t ↔ TopsUpWithin rt owner k g as := by
  constructor
  · intro hlimited
    exact topsUpWithin_of_le hlimited.perMarket
  · intro hwithin
    obtain ⟨⟨g', hg', -, hcount⟩, htotal⟩ := h.counted List.prefix_rfl h.run
    refine ⟨⟨g', hg', hcount⟩, htotal, ?_, ?_⟩
    · intro m
      refine h.run.history
        (P := fun pre _ => stakedInto rt owner k m pre ≤ g.maxStakePerMarket.toNat)
        (Nat.zero_le _) ?_
      intro pre a u v hpre hu hle hstep
      cases hstake : a.stake rt owner k with
      | none => rwa [stakedInto_concat_none m hstake]
      | some mx =>
        obtain ⟨m', x⟩ := mx
        rw [stakedInto_concat_some m hstake]
        by_cases hm : m' = m
        · subst hm
          have hcounted := h.counted ((List.prefix_append pre [a]).trans hpre) hu
          obtain ⟨-, hcall, -⟩ := hcounted.stakeStep hstep hstake
          rw [if_pos rfl]
          -- The first stake into a market is bounded by the check of the call itself.
          rcases Nat.eq_zero_or_pos (stakedInto rt owner k m' pre) with hzero | hpos
          · rw [hzero, Nat.zero_add]
            exact UInt64.le_iff_toNat_le.mp hcall
          · exact hwithin pre a m' x hpre hstake hpos
        · rw [if_neg hm]
          exact hle
    · rintro pre a post u v rfl hu hstep hstake
      obtain ⟨⟨m, x⟩, hsome⟩ := Option.ne_none_iff_exists'.mp hstake
      have hcounted := h.counted (List.prefix_append pre (a :: post)) hu
      exact (hcounted.stakeStep hstep hsome).1

namespace Sample

/-- Bob lets carol's key stake up to 1000 lamports a market. -/
def grant : SessionGrant := newGrant runtime bob carol [marketProgramId] 1000 0 1700000900

def delegate : Instruction :=
  .delegateSessionKey bob (.external carol) [marketProgramId] 1000 0 1700000900 0

def spend (amount : UInt64) : Action :=
  call (.joinViaSessionKey carol (.external bob) market sideYes amount)

theorem grantLife_of_runsTo (as : List Action)
    (hrun : Action.runsTo runtime ([setUp, create 1700001000 echo, call delegate] ++ as) genesis
      (fun _ => True) = true)
    (halive : ∀ ctx session, .call ctx (.revokeSessionKey bob session) ∉ as) :
    ∃ s t, Reachable runtime s ∧ GrantLife runtime bob carol grant s as t := by
  obtain ⟨t, hsteps, -⟩ := steps_of_runsTo hrun
  obtain ⟨s, hbefore, hrest⟩ := Steps.append_iff.mp hsteps
  obtain ⟨_, _, h⟩ := Steps.cons_iff.mp hbefore
  obtain ⟨s₀, _, h⟩ := Steps.cons_iff.mp h
  have hexec : exec runtime ⟨[delegate], 0⟩ delegate s₀ = .ok s := Steps.single_iff.mp h
  have hgrant : s.sessionGrant (bob, carol) = some grant := by
    exact delegateSessionKey_grant hexec
  exact ⟨s, t, ⟨_, _, genesis_ok, hbefore⟩, ⟨s₀, _, .external carol, 0, rfl, hexec⟩, hgrant, hrest,
    fun ctx session _ => halive ctx session⟩

end Sample

theorem session_limits_iff_sample :
    ∃ s t, Limited Sample.runtime Sample.bob Sample.carol Sample.grant s
      [Sample.spend 400, Sample.spend 500] t := by
  obtain ⟨s, t, -, hlife⟩ := Sample.grantLife_of_runsTo [Sample.spend 400, Sample.spend 500]
    (by decide +kernel) (by simp [Sample.spend, Sample.call])
  have hstakes : ∀ m, stakedInto Sample.runtime Sample.bob Sample.carol m
      [Sample.spend 400, Sample.spend 500] ≤ Sample.grant.maxStakePerMarket.toNat := by
    intro m
    refine (List.Sublist.sum_le_sum (List.filter_sublist.map _) ?_).trans ?_
    · exact fun _ _ => Nat.zero_le _
    · decide
  exact ⟨s, t, (session_limits_iff hlife).mpr (topsUpWithin_of_le hstakes)⟩

/-- Two stakes of 800 lamports into one market, under a cap of 1000 lamports for one market. -/
theorem staked_over_cap :
    ∃ s t, Reachable Sample.runtime s ∧
      GrantLife Sample.runtime Sample.bob Sample.carol Sample.grant s
        [Sample.spend 800, Sample.spend 800] t ∧
      Sample.grant.maxStakePerMarket.toNat = 1000 ∧
      stakedInto Sample.runtime Sample.bob Sample.carol Sample.market
        [Sample.spend 800, Sample.spend 800] = 1600 ∧
      ¬ Limited Sample.runtime Sample.bob Sample.carol Sample.grant s
        [Sample.spend 800, Sample.spend 800] t := by
  obtain ⟨s, t, hs, hlife⟩ := Sample.grantLife_of_runsTo [Sample.spend 800, Sample.spend 800]
    (by decide +kernel) (by simp [Sample.spend, Sample.call])
  have hsum : stakedInto Sample.runtime Sample.bob Sample.carol Sample.market
      [Sample.spend 800, Sample.spend 800] = 1600 := by decide
  refine ⟨s, t, hs, hlife, rfl, hsum, ?_⟩
  intro hlimited
  have hle := hlimited.perMarket Sample.market
  rw [hsum] at hle
  exact absurd hle (by decide)

end Stoppage
