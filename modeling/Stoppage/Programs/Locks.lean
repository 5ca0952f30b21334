import Stoppage.Chain.Execution
import Stoppage.Chain.Graft
import Stoppage.Programs.Dispatch

/-! # Instructions and the accounts they declare

An instruction of the programs gets the accounts that its struct declares, some of them to write. It
reads no other account and writes none that it has not declared to be written: on a graft that has
the declared accounts it does the same, and all others are kept.
-/

namespace Stoppage
open Fallible BalanceSheet Footprint Chain
set_option autoImplicit false

/-! ## Declared accounts -/

namespace SettlementProgram

/-- The account struct `ResolveMarket`, and behind it the accounts of the validator. -/
def ResolveMarket.metas (rt : Runtime) (resolver : Pubkey) (market : Address)
    (remaining : List Address) : List AccountMeta :=
  ⟨.external resolver, true, true⟩ :: ⟨market, false, true⟩ :: ⟨rt.receipt market, false, true⟩ ::
    ⟨.external systemProgramId, false, false⟩ :: remaining.map fun a => ⟨a, false, false⟩

end SettlementProgram

namespace AttestationValidator

def InitializeConfig.metas (payer authority : Pubkey) : List AccountMeta :=
  [⟨.config authority, false, true⟩, ⟨.external payer, true, true⟩,
    ⟨.external systemProgramId, false, false⟩]

end AttestationValidator

open MarketProgram in
def Instruction.metas (rt : Runtime) : Instruction → List AccountMeta
  | .initializeProtocol authority _ => InitializeProtocol.metas authority
  | .setAgentAuthority authority _ => SetAgentAuthority.metas authority
  | .delegateSessionKey owner session _ _ _ _ _ => DelegateSessionKey.metas rt (owner, session)
  | .revokeSessionKey owner session => RevokeSessionKey.metas rt (owner, session)
  | .sessionPing k owner => SessionPing.metas rt (k, owner)
  | .createMarket creator seeds _ _ => CreateMarket.metas rt seeds creator
  | .joinViaWallet signer m _ _ => JoinWallet.metas (signer, m)
  | .joinViaSessionKey k owner m _ _ => JoinSessionKey.metas rt (k, owner, m)
  | .forceSettle authority m _ => ForceSettle.metas (authority, m)
  | .settleFromProof resolver m resolution _ => SettleFromProof.metas (resolver, m, resolution)
  | .voidMarket caller m => VoidMarket.metas (caller, m)
  | .claim claimant m => Claim.metas (claimant, m)
  | .claimBond creator m => ClaimBond.metas (creator, m)
  | .closeMarket creator m => CloseMarket.metas (creator, m)
  | .attestVerification verifier m => AttestVerification.metas (verifier, m)
  | .attestPricing signer m _ _ _ _ _ _ _ => AttestPricing.metas (signer, m)
  | .verifyPricing m _ => VerifyPricing.metas m
  | .resolveMarket resolver market _ _ _ _ remaining =>
    SettlementProgram.ResolveMarket.metas rt resolver market remaining
  | .initializeConfig payer authority => AttestationValidator.InitializeConfig.metas payer authority
  | .systemTransfer source target _ => [⟨.external source, true, true⟩, ⟨target, false, true⟩]
  | .ed25519 _ => []
  | .setComputeUnitLimit _ => []

/-- The accounts of the layout. -/
theorem Instruction.metas_of_layout {rt : Runtime} {ix : Instruction} {l : MarketProgram.Layout}
    (h : ix.layout rt = some l) : l.accounts = ix.metas rt := by
  cases ix <;> simp only [Instruction.layout, Option.ite_none_right_eq_some, Option.some_inj,
    reduceCtorEq] at h <;> first | (subst h; rfl) | (obtain ⟨-, rfl⟩ := h; rfl)

def Instruction.accounts (rt : Runtime) (ix : Instruction) : List Address :=
  (ix.metas rt).map AccountMeta.pubkey

def Instruction.writable (rt : Runtime) (ix : Instruction) : List Address :=
  ((ix.metas rt).filter AccountMeta.isWritable).map AccountMeta.pubkey

/-! ## What an instruction reads -/

theorem bind_congr_ok {ε α β : Type} {x : Except ε α} {f g : α → Except ε β}
    (h : ∀ a, x = .ok a → f a = g a) : (x >>= f) = x >>= g := by
  cases x with
  | error e => rfl
  | ok a => exact h a rfl

section Reads
variable {rt : Runtime} {F : List Address} {s t : Chain}

namespace MarketProgram

theorem initializeProtocol_graft {authority : Pubkey} {feeBps : UInt16}
    (hauthority : .external authority ∈ F) (hconfig : .protocolConfig ∈ F)
    (hagent : .agentAuthority ∈ F) (htreasury : .treasury ∈ F) :
    initializeProtocol rt authority feeBps (s.graft F t) =
      (graft F · t) <$> initializeProtocol rt authority feeBps s := by
  have hfits (u : Chain) : Fits F u t := fun _ => .inl hconfig
  simp only [initializeProtocol, initAccount_graft (hfits _) hauthority hconfig,
    initAccount_graft (hfits _) hauthority hagent, initAccount_graft (hfits _) hauthority htreasury,
    map_bind, bind_map_left, map_pure, ← emit_graft]
  simp only [graft, if_pos hconfig, if_pos hagent]

theorem setAgentAuthority_graft {authority agentAuthority : Pubkey}
    (hauthority : .external authority ∈ F) (hconfig : .protocolConfig ∈ F)
    (hagent : .agentAuthority ∈ F) : setAgentAuthority rt authority agentAuthority (s.graft F t) =
      (graft F · t) <$> setAgentAuthority rt authority agentAuthority s := by
  have hfits (u : Chain) : Fits F u t := fun _ => .inl hconfig
  simp only [setAgentAuthority, graft_loadProtocolConfig hconfig, graft_agentAuthority hagent,
    map_bind]
  refine bind_congr fun c => ?_
  cases s.agentAuthority <;>
    simp only [initAccount_graft (hfits _) hauthority hagent, map_bind, bind_map_left, map_pure,
      pure_bind, ← emit_graft] <;>
    simp only [graft, if_pos hagent]

theorem delegateSessionKey_graft {owner : Pubkey} {session : Address} {programs : List Pubkey}
    {perMarket total fund : UInt64} {expiresAt : Int64} (hfits : Fits F s t)
    (howner : .external owner ∈ F) (hsession : session ∈ F)
    (hgrant : .sessionGrant owner (rt.key session) ∈ F) :
    delegateSessionKey rt owner session programs perMarket total expiresAt fund (s.graft F t) =
      (graft F · t) <$>
        delegateSessionKey rt owner session programs perMarket total expiresAt fund s := by
  simp only [delegateSessionKey, initAccount_graft hfits howner hgrant, map_bind, bind_map_left,
    setGrant_graft hgrant]
  refine bind_congr fun u => bind_congr fun _ => ?_
  split <;> simp only [systemTransfer_graft howner hsession, map_bind, bind_map_left, map_pure,
    pure_bind, emit_graft]

theorem revokeSessionKey_graft {owner k : Pubkey} (howner : .external owner ∈ F)
    (hgrant : .sessionGrant owner k ∈ F) :
    revokeSessionKey owner k (s.graft F t) = (graft F · t) <$> revokeSessionKey owner k s := by
  simp only [revokeSessionKey, graft_loadGrant hgrant, sweep_graft hgrant howner, map_bind,
    bind_map_left, map_pure, ← emit_graft]
  refine bind_congr fun g => bind_congr fun u => ?_
  have hcleared : Function.update (u.graft F t).sessionGrant (owner, k) none = fun x =>
      if .sessionGrant x.1 x.2 ∈ F then Function.update u.sessionGrant (owner, k) none x
      else t.sessionGrant x :=
    update_ite (p := fun x : Pubkey × Pubkey => Address.sessionGrant x.1 x.2 ∈ F) hgrant
      none
  rw [hcleared]
  rfl

theorem sessionPing_graft {k owner : Pubkey} (hgrant : .sessionGrant owner k ∈ F) :
    sessionPing k owner (s.graft F t) = (graft F · t) <$> sessionPing k owner s := by
  simp only [sessionPing, graft_loadGrant hgrant, graft_now, map_bind, map_pure, emit_graft]
  rfl

theorem createMarket_graft {creator oracle : Pubkey} {seeds : MarketSeeds} {closesAt : Int64}
    (hfits : Fits F s t) (hcreator : .external creator ∈ F)
    (hm : .market (rt.marketAddress seeds) ∈ F) (hconfig : .protocolConfig ∈ F) :
    createMarket rt creator seeds closesAt oracle (s.graft F t) =
      (graft F · t) <$> createMarket rt creator seeds closesAt oracle s := by
  simp only [createMarket, initAccount_graft hfits hcreator hm, graft_protocolConfig hconfig,
    graft_now, setMarket_graft hm, systemTransfer_graft hcreator hm, map_bind, bind_map_left,
    map_pure, emit_graft]
  rfl

theorem joinViaWallet_graft {signer m : Pubkey} {side : UInt8} {amount : UInt64}
    (hfits : Fits F s t) (hsigner : .external signer ∈ F) (hm : .market m ∈ F)
    (hposition : .position m signer ∈ F) : joinViaWallet rt signer m side amount (s.graft F t) =
      (graft F · t) <$> joinViaWallet rt signer m side amount s := by
  simp only [joinViaWallet, graft_loadMarket hm, initPosition_graft hfits hsigner hposition,
    graft_now, systemTransfer_graft hsigner hm, setMarket_graft hm, setPosition_graft hposition,
    map_bind, bind_map_left, map_pure, emit_graft]
  rfl

theorem joinViaSessionKey_graft {k owner m : Pubkey} {side : UInt8} {amount : UInt64}
    (hfits : Fits F s t) (hk : .external k ∈ F) (hgrant : .sessionGrant owner k ∈ F)
    (hm : .market m ∈ F) (hposition : .position m owner ∈ F) :
    joinViaSessionKey rt k owner m side amount (s.graft F t) =
      (graft F · t) <$> joinViaSessionKey rt k owner m side amount s := by
  simp only [joinViaSessionKey, graft_loadGrant hgrant, graft_loadMarket hm,
    initPosition_graft hfits hk hposition, graft_now, systemTransfer_graft hk hm,
    setGrant_graft hgrant, setMarket_graft hm, setPosition_graft hposition, map_bind, bind_map_left,
    map_pure, emit_graft]
  rfl

theorem forceSettle_graft {authority m : Pubkey} {outcome : UInt8} (hconfig : .protocolConfig ∈ F)
    (hm : .market m ∈ F) : forceSettle rt authority m outcome (s.graft F t) =
      (graft F · t) <$> forceSettle rt authority m outcome s := by
  simp only [forceSettle, graft_loadProtocolConfig hconfig, graft_loadMarket hm, graft_now,
    setMarket_graft hm, map_bind, map_pure, emit_graft]

theorem settleFromProof_graft {m : Pubkey} {resolution : Address} {outcome : UInt8}
    (hfits : Fits F s t) (hm : .market m ∈ F) (hresolution : resolution ∈ F) :
    settleFromProof m resolution outcome (s.graft F t) =
      (graft F · t) <$> settleFromProof m resolution outcome s := by
  simp only [settleFromProof, graft_loadMarket hm, graft_owner hfits hresolution,
    graft_data hfits hresolution, graft_now, setMarket_graft hm, map_bind, map_pure, emit_graft]

theorem voidMarket_graft {m : Pubkey} (hm : .market m ∈ F) :
    voidMarket m (s.graft F t) = (graft F · t) <$> voidMarket m s := by
  simp only [voidMarket, graft_loadMarket hm, graft_now, setMarket_graft hm, map_bind, map_pure,
    emit_graft]
  rfl

theorem claim_graft {claimant m : Pubkey} (hclaimant : .external claimant ∈ F) (hm : .market m ∈ F)
    (hposition : .position m claimant ∈ F) (htreasury : .treasury ∈ F) :
    claim claimant m (s.graft F t) = (graft F · t) <$> claim claimant m s := by
  simp only [claim, graft_loadMarket hm, graft_loadPosition hposition, map_bind]
  refine bind_congr fun mk => bind_congr fun p => bind_congr fun _ => bind_congr fun _ =>
    bind_congr fun _ => bind_congr fun r => ?_
  split
  · simp only [setPosition_graft hposition, map_pure, emit_graft]
  · simp only [subLamports_graft hm, addLamports_graft hclaimant, map_bind, bind_map_left]
    refine bind_congr fun charge => bind_congr fun u => bind_congr fun v => ?_
    split <;> simp only [addLamports_graft htreasury, setPosition_graft hposition, map_bind,
      bind_map_left, map_pure, pure_bind, emit_graft]

theorem claimBond_graft {creator m : Pubkey} (hcreator : .external creator ∈ F)
    (hm : .market m ∈ F) :
    claimBond creator m (s.graft F t) = (graft F · t) <$> claimBond creator m s := by
  simp only [claimBond, graft_loadMarket hm, subLamports_graft hm, addLamports_graft hcreator,
    setMarket_graft hm, map_bind, bind_map_left, map_pure, emit_graft]

theorem closeMarket_graft {creator m : Pubkey} (hcreator : .external creator ∈ F)
    (hm : .market m ∈ F) :
    closeMarket creator m (s.graft F t) = (graft F · t) <$> closeMarket creator m s := by
  simp only [closeMarket, graft_loadMarket hm, graft_now, graft_lamports hm, emit_graft,
    sweep_graft hm hcreator, map_bind, bind_map_left, map_pure]
  refine bind_congr fun mk => bind_congr fun _ => bind_congr fun _ => bind_congr fun _ =>
    bind_congr fun _ => bind_congr fun u => ?_
  exact congrArg (fun f => pure ({ u.graft F t with market := f } : Chain))
    (update_ite (p := fun m => .market m ∈ F) hm _)

theorem attestVerification_graft {verifier m : Pubkey} (hm : .market m ∈ F) :
    attestVerification verifier m (s.graft F t) =
      (graft F · t) <$> attestVerification verifier m s := by
  simp only [attestVerification, graft_loadMarket hm, setMarket_graft hm, map_bind, map_pure,
    emit_graft]

theorem attestPricing_graft {signer m : Pubkey} {snapshotHash : List.Vector UInt8 32}
    {modelVersion : String} {fairValue bid ask : UInt64} {agentSignature : List.Vector UInt8 64}
    {ts : Int64} (hfits : Fits F s t) (hsigner : .external signer ∈ F)
    (hagent : .agentAuthority ∈ F) (hm : .market m ∈ F) (hreceipt : .pricingReceipt m ∈ F) :
    attestPricing rt signer m snapshotHash modelVersion fairValue bid ask agentSignature ts
      (s.graft F t) = (graft F · t) <$>
        attestPricing rt signer m snapshotHash modelVersion fairValue bid ask agentSignature ts s := by
  have hexit (r : PricingReceipt) (u : Chain) :
      exitPricing m r (u.graft F t) = (graft F · t) <$> exitPricing m r u := by
    rw [exitPricing, exitPricing, map_bind]
    refine bind_congr fun _ => ?_
    exact congrArg (fun f => pure ({ u.graft F t with pricingReceipt := f } : Chain))
      (update_ite (p := fun m => .pricingReceipt m ∈ F) hreceipt _)
  simp only [attestPricing, attestPricingHandler, graft_agentAuthority hagent, graft_loadMarket hm,
    graft_pricingReceipt hreceipt, map_bind, bind_assoc]
  refine bind_congr fun agent => bind_congr fun _ => bind_congr fun mk => ?_
  cases s.pricingReceipt m <;>
    simp only [initAccount_graft hfits hsigner hreceipt, bind_map_left, bind_assoc, pure_bind,
      emit_graft, hexit]

theorem verifyPricing_graft {m : Pubkey} {snapshotBytes : Bytes} (hreceipt : .pricingReceipt m ∈ F) :
    verifyPricing rt m snapshotBytes (s.graft F t) =
      (graft F · t) <$> verifyPricing rt m snapshotBytes s := by
  simp only [verifyPricing, graft_pricingReceipt hreceipt, map_bind, map_pure, emit_graft]

end MarketProgram

/-! ### Validators -/

/-- A program outside the repository sees of the chain its clock and the accounts it is called with. -/
def Runtime.Confined (rt : Runtime) : Prop :=
  ∀ program data accounts ctx (s t : Chain), s.now = t.now →
    (∀ a ∈ accounts, s.Same t (some a)) →
    rt.program program data accounts ctx s = rt.program program data accounts ctx t

theorem PythValidator.entry_congr {data : Bytes} {accounts : List Address}
    (h : ∀ a ∈ accounts, s.SameAccount t a) : entry s data accounts = entry t data accounts := by
  rw [entry, entry]
  refine bind_congr fun _ => bind_congr fun args => bind_congr_ok fun a ha => ?_
  have hsame := h a (List.mem_of_head? (getOr_eq_ok.mp ha))
  rw [owner_of_same hsame, data_of_same hsame]

theorem AttestationValidator.loadConfig_congr {a : Address} (h : s.SameAccount t a) :
    loadConfig s a = loadConfig t a := by
  cases a with
  | config k =>
    have hk : s.config k = t.config k := h
    rw [loadConfig, hk, loadConfig]
  | _ => rfl

theorem AttestationValidator.entry_congr {ctx : TxContext} {data : Bytes} {accounts : List Address}
    (h : ∀ a ∈ accounts, s.SameAccount t a) :
    entry ctx s data accounts = entry ctx t data accounts := by
  rw [entry, entry]
  refine bind_congr fun _ => bind_congr fun args => bind_congr_ok fun a ha => ?_
  rw [loadConfig_congr (h a (List.mem_of_getElem? (getOr_eq_ok.mp ha)))]

namespace SettlementProgram

theorem invoke_congr (hrt : rt.Confined) {ctx : TxContext} {program : Pubkey} {data : Bytes}
    {accounts : List Address} (hnow : s.now = t.now) (h : ∀ a ∈ accounts, s.Same t (some a)) :
    invoke rt ctx s program data accounts = invoke rt ctx t program data accounts := by
  rw [invoke, invoke, PythValidator.entry_congr fun a ha => (h a ha).2,
    AttestationValidator.entry_congr fun a ha => (h a ha).2, hrt _ _ _ _ s t hnow h]

theorem resolveMarket_graft (hrt : rt.Confined) {ctx : TxContext} {resolver : Pubkey}
    {market : Address} {statement : String} {root : List.Vector UInt8 32} {outcome : UInt8}
    {data : Bytes} {remaining : List Address} (hfits : Fits F s t)
    (hresolver : .external resolver ∈ F) (hm : market ∈ F) (hresolution : rt.receipt market ∈ F)
    (hremaining : ∀ a ∈ remaining, a ∈ F) :
    resolveMarket rt ctx resolver market statement root outcome data remaining (s.graft F t) =
      (graft F · t) <$>
        resolveMarket rt ctx resolver market statement root outcome data remaining s := by
  rw [resolveMarket, resolveMarket, initAccount_graft hfits hresolver hresolution, map_bind,
    bind_map_left]
  refine bind_congr_ok fun u hu => ?_
  obtain ⟨l, -, -, rfl⟩ := Chain.initAccount_ok hu
  generalize hu' : ({ s with lamports := l } : Chain) = u
  have hfits' : Fits F u t := hu' ▸ hfits
  have hinvoke (program : Pubkey) : invoke rt ctx (u.graft F t) program data remaining.tail =
      invoke rt ctx u program data remaining.tail :=
    invoke_congr hrt rfl fun a ha => ⟨graft_lamports (hremaining a (List.mem_of_mem_tail ha)),
      graft_account hfits' (hremaining a (List.mem_of_mem_tail ha))⟩
  simp only [graft_owner hfits' hm, hinvoke, graft_now, setReceipt_graft hresolution, emit_graft,
    map_bind, map_pure]

end SettlementProgram

theorem AttestationValidator.initializeConfig_graft {payer authority : Pubkey} (hfits : Fits F s t)
    (hpayer : .external payer ∈ F) (hconfig : .config authority ∈ F) :
    initializeConfig rt payer authority (s.graft F t) =
      (graft F · t) <$> initializeConfig rt payer authority s := by
  simp only [initializeConfig, initAccount_graft hfits hpayer hconfig, map_bind, bind_map_left,
    map_pure]
  refine bind_congr fun u => ?_
  exact congrArg (fun f => pure ({ u.graft F t with config := f } : Chain))
    (update_ite (p := fun a => Address.config a ∈ F) hconfig _)

/-- **An instruction reads no account that it does not declare.** -/
theorem exec_graft (hrt : rt.Confined) (ctx : TxContext) {ix : Instruction} (hfits : Fits F s t)
    (hF : ∀ a ∈ ix.accounts rt, a ∈ F) :
    exec rt ctx ix (s.graft F t) = (graft F · t) <$> exec rt ctx ix s := by
  cases ix <;> simp only [Instruction.accounts, Instruction.metas, List.map_cons, List.map_nil,
    List.forall_mem_cons, MarketProgram.InitializeProtocol.metas,
    MarketProgram.SetAgentAuthority.metas, MarketProgram.DelegateSessionKey.metas,
    MarketProgram.RevokeSessionKey.metas, MarketProgram.SessionPing.metas,
    MarketProgram.CreateMarket.metas, MarketProgram.JoinWallet.metas,
    MarketProgram.JoinSessionKey.metas, MarketProgram.ForceSettle.metas,
    MarketProgram.SettleFromProof.metas, MarketProgram.VoidMarket.metas, MarketProgram.Claim.metas,
    MarketProgram.ClaimBond.metas, MarketProgram.CloseMarket.metas,
    MarketProgram.AttestVerification.metas, MarketProgram.AttestPricing.metas,
    MarketProgram.VerifyPricing.metas, SettlementProgram.ResolveMarket.metas,
    AttestationValidator.InitializeConfig.metas] at hF
  case initializeProtocol =>
    exact MarketProgram.initializeProtocol_graft hF.1 hF.2.1 hF.2.2.1 hF.2.2.2.1
  case setAgentAuthority => exact MarketProgram.setAgentAuthority_graft hF.1 hF.2.1 hF.2.2.1
  case delegateSessionKey =>
    exact MarketProgram.delegateSessionKey_graft hfits hF.1 hF.2.1 hF.2.2.1
  case revokeSessionKey => exact MarketProgram.revokeSessionKey_graft hF.1 hF.2.2.1
  case sessionPing => exact MarketProgram.sessionPing_graft hF.2.2.1
  case createMarket => exact MarketProgram.createMarket_graft hfits hF.1 hF.2.1 hF.2.2.1
  case joinViaWallet => exact MarketProgram.joinViaWallet_graft hfits hF.1 hF.2.1 hF.2.2.1
  case joinViaSessionKey =>
    exact MarketProgram.joinViaSessionKey_graft hfits hF.1 hF.2.2.1 hF.2.2.2.1 hF.2.2.2.2.1
  case forceSettle => exact MarketProgram.forceSettle_graft hF.2.1 hF.2.2.1
  case settleFromProof => exact MarketProgram.settleFromProof_graft hfits hF.2.1 hF.2.2.1
  case voidMarket => exact MarketProgram.voidMarket_graft hF.2.1
  case claim => exact MarketProgram.claim_graft hF.1 hF.2.1 hF.2.2.1 hF.2.2.2.1
  case claimBond => exact MarketProgram.claimBond_graft hF.1 hF.2.1
  case closeMarket => exact MarketProgram.closeMarket_graft hF.1 hF.2.1
  case attestVerification => exact MarketProgram.attestVerification_graft hF.2.1
  case attestPricing =>
    exact MarketProgram.attestPricing_graft hfits hF.1 hF.2.1 hF.2.2.1 hF.2.2.2.1
  case verifyPricing => exact MarketProgram.verifyPricing_graft hF.1
  case resolveMarket =>
    obtain ⟨hresolver, hm, hresolution, -, hremaining⟩ := hF
    refine SettlementProgram.resolveMarket_graft hrt hfits hresolver hm hresolution fun a ha => ?_
    exact hremaining a (by simpa using ha)
  case initializeConfig => exact AttestationValidator.initializeConfig_graft hfits hF.2.1 hF.1
  case systemTransfer => exact systemTransfer_graft hF.1 hF.2.1
  case ed25519 d =>
    simp only [exec, map_bind, map_pure]
  case setComputeUnitLimit => rfl

end Reads

/-! ## What an instruction writes -/

section Writes
variable {rt : Runtime} {W : List Address} {s t : Chain}

namespace MarketProgram

theorem initializeProtocol_keeps {authority : Pubkey} {feeBps : UInt16}
    (h : initializeProtocol rt authority feeBps s = .ok t) (hauthority : .external authority ∈ W)
    (hconfig : .protocolConfig ∈ W) (hagent : .agentAuthority ∈ W) (htreasury : .treasury ∈ W) :
    Keeps W s t := by
  simp only [initializeProtocol, bind_eq_ok, pure_eq_ok] at h
  obtain ⟨u, hu, v, hv, w, hw, -, -, rfl⟩ := h
  have hinit := (((Keeps.refl W s).initAccount hu hauthority hconfig).initAccount hv hauthority
    hagent).initAccount hw hauthority htreasury
  exact (hinit.protocol hconfig hagent htreasury _ _).emit _

theorem setAgentAuthority_keeps {authority agentAuthority : Pubkey}
    (h : setAgentAuthority rt authority agentAuthority s = .ok t)
    (hauthority : .external authority ∈ W) (hagent : .agentAuthority ∈ W) : Keeps W s t := by
  simp only [setAgentAuthority, bind_eq_ok] at h
  obtain ⟨c, -, h⟩ := h
  split at h
  · simp only [pure_bind, bind_eq_ok, pure_eq_ok] at h
    obtain ⟨-, -, rfl⟩ := h
    exact ((Keeps.refl W s).agentAuthority hagent _).emit _
  · simp only [bind_eq_ok, pure_eq_ok] at h
    obtain ⟨u, hu, -, -, rfl⟩ := h
    exact (((Keeps.refl W s).initAccount hu hauthority hagent).agentAuthority hagent _).emit _

theorem delegateSessionKey_keeps {owner : Pubkey} {session : Address} {programs : List Pubkey}
    {perMarket total fund : UInt64} {expiresAt : Int64}
    (h : delegateSessionKey rt owner session programs perMarket total expiresAt fund s = .ok t)
    (howner : .external owner ∈ W) (hsession : session ∈ W)
    (hgrant : .sessionGrant owner (rt.key session) ∈ W) : Keeps W s t := by
  simp only [delegateSessionKey, bind_eq_ok] at h
  obtain ⟨u, hu, -, -, h⟩ := h
  have hset := fun g => ((Keeps.refl W s).initAccount hu howner hgrant).setGrant hgrant g
  split at h
  · simp only [bind_eq_ok, pure_eq_ok] at h
    obtain ⟨v, hv, rfl⟩ := h
    exact ((hset _).systemTransfer hv howner hsession).emit _
  · rw [pure_bind, pure_eq_ok] at h
    subst h
    exact (hset _).emit _

theorem revokeSessionKey_keeps {owner k : Pubkey} (h : revokeSessionKey owner k s = .ok t)
    (howner : .external owner ∈ W) (hgrant : .sessionGrant owner k ∈ W) : Keeps W s t := by
  simp only [revokeSessionKey, bind_eq_ok, pure_eq_ok] at h
  obtain ⟨g, -, u, hu, rfl⟩ := h
  exact (((Keeps.refl W s).sweep hu hgrant howner).sessionGrant hgrant none).emit _

theorem sessionPing_keeps {k owner : Pubkey} (h : sessionPing k owner s = .ok t) : Keeps W s t := by
  simp only [sessionPing, bind_eq_ok, pure_eq_ok] at h
  obtain ⟨g, -, -, -, -, -, rfl⟩ := h
  exact (Keeps.refl W s).emit _

theorem createMarket_keeps {creator oracle : Pubkey} {seeds : MarketSeeds} {closesAt : Int64}
    (h : createMarket rt creator seeds closesAt oracle s = .ok t) (hcreator : .external creator ∈ W)
    (hm : .market (rt.marketAddress seeds) ∈ W) : Keeps W s t := by
  simp only [createMarket, bind_eq_ok, pure_eq_ok] at h
  obtain ⟨u, hu, c, -, -, -, -, -, v, hv, rfl⟩ := h
  exact ((((Keeps.refl W s).initAccount hu hcreator hm).setMarket hm _).systemTransfer hv hcreator
    hm).emit _

theorem joinViaWallet_keeps {signer m : Pubkey} {side : UInt8} {amount : UInt64}
    (h : joinViaWallet rt signer m side amount s = .ok t) (hsigner : .external signer ∈ W)
    (hm : .market m ∈ W) (hposition : .position m signer ∈ W) : Keeps W s t := by
  simp only [joinViaWallet, bind_eq_ok, pure_eq_ok] at h
  obtain ⟨mk, -, ⟨p, u⟩, hu, -, -, -, -, -, -, v, hv, ⟨mk', p'⟩, -, rfl⟩ := h
  have hpaid := ((Keeps.refl W s).initPosition hu hsigner hposition).systemTransfer hv hsigner hm
  exact ((hpaid.setMarket hm _).setPosition hposition _).emit _

theorem joinViaSessionKey_keeps {k owner m : Pubkey} {side : UInt8} {amount : UInt64}
    (h : joinViaSessionKey rt k owner m side amount s = .ok t) (hk : .external k ∈ W)
    (hgrant : .sessionGrant owner k ∈ W) (hm : .market m ∈ W) (hposition : .position m owner ∈ W) :
    Keeps W s t := by
  simp only [joinViaSessionKey, bind_eq_ok, pure_eq_ok] at h
  obtain ⟨g, -, mk, -, ⟨p, u⟩, hu, -, -, -, -, -, -, -, -, -, -, -, -, -, -, -, -, -, -, v, hv, _, -,
    ⟨mk', p'⟩, -, rfl⟩ := h
  have hpaid := ((Keeps.refl W s).initPosition hu hk hposition).systemTransfer hv hk hm
  exact (((hpaid.setGrant hgrant _).setMarket hm _).setPosition hposition _).emit _

theorem forceSettle_keeps {authority m : Pubkey} {outcome : UInt8}
    (h : forceSettle rt authority m outcome s = .ok t) (hm : .market m ∈ W) : Keeps W s t := by
  simp only [forceSettle, bind_eq_ok, pure_eq_ok] at h
  obtain ⟨c, -, mk, -, -, -, -, -, -, -, rfl⟩ := h
  exact ((Keeps.refl W s).setMarket hm _).emit _

theorem settleFromProof_keeps {m : Pubkey} {resolution : Address} {outcome : UInt8}
    (h : settleFromProof m resolution outcome s = .ok t) (hm : .market m ∈ W) : Keeps W s t := by
  simp only [settleFromProof, bind_eq_ok, pure_eq_ok] at h
  obtain ⟨mk, -, -, -, -, -, -, -, -, -, -, -, rfl⟩ := h
  exact ((Keeps.refl W s).setMarket hm _).emit _

theorem voidMarket_keeps {m : Pubkey} (h : voidMarket m s = .ok t) (hm : .market m ∈ W) :
    Keeps W s t := by
  simp only [voidMarket, bind_eq_ok, pure_eq_ok] at h
  obtain ⟨mk, -, -, -, _, -, -, -, rfl⟩ := h
  exact ((Keeps.refl W s).setMarket hm _).emit _

theorem claim_keeps {claimant m : Pubkey} (h : claim claimant m s = .ok t)
    (hclaimant : .external claimant ∈ W) (hm : .market m ∈ W) (hposition : .position m claimant ∈ W)
    (htreasury : .treasury ∈ W) : Keeps W s t := by
  simp only [claim, bind_eq_ok] at h
  obtain ⟨mk, -, p, -, -, -, -, -, -, -, ⟨payout, fee⟩, -, h⟩ := h
  dsimp only at h
  split at h
  · rw [pure_eq_ok] at h
    subst h
    exact ((Keeps.refl W s).setPosition hposition _).emit _
  · simp only [bind_eq_ok] at h
    obtain ⟨charge, -, u, hu, v, hv, h⟩ := h
    have hpaid := ((Keeps.refl W s).subLamports hu hm).addLamports hv hclaimant
    split at h
    · simp only [bind_eq_ok, pure_eq_ok] at h
      obtain ⟨w, hw, rfl⟩ := h
      exact ((hpaid.addLamports hw htreasury).setPosition hposition _).emit _
    · rw [pure_bind, pure_eq_ok] at h
      subst h
      exact (hpaid.setPosition hposition _).emit _

theorem claimBond_keeps {creator m : Pubkey} (h : claimBond creator m s = .ok t)
    (hcreator : .external creator ∈ W) (hm : .market m ∈ W) : Keeps W s t := by
  simp only [claimBond, bind_eq_ok, pure_eq_ok] at h
  obtain ⟨mk, -, -, -, -, -, -, -, u, hu, v, hv, rfl⟩ := h
  exact ((((Keeps.refl W s).subLamports hu hm).addLamports hv hcreator).setMarket hm _).emit _

theorem closeMarket_keeps {creator m : Pubkey} (h : closeMarket creator m s = .ok t)
    (hcreator : .external creator ∈ W) (hm : .market m ∈ W) : Keeps W s t := by
  simp only [closeMarket, bind_eq_ok, pure_eq_ok] at h
  obtain ⟨mk, -, -, -, -, -, _, -, -, -, u, hu, rfl⟩ := h
  exact (((Keeps.refl W s).emit _).sweep hu hm hcreator).market hm none

theorem attestVerification_keeps {verifier m : Pubkey} (h : attestVerification verifier m s = .ok t)
    (hm : .market m ∈ W) : Keeps W s t := by
  simp only [attestVerification, bind_eq_ok, pure_eq_ok] at h
  obtain ⟨mk, -, -, -, _, -, rfl⟩ := h
  exact ((Keeps.refl W s).setMarket hm _).emit _

theorem attestPricing_keeps {signer m : Pubkey} {snapshotHash : List.Vector UInt8 32}
    {modelVersion : String} {fairValue bid ask : UInt64} {agentSignature : List.Vector UInt8 64}
    {ts : Int64} (h : attestPricing rt signer m snapshotHash modelVersion fairValue bid ask
      agentSignature ts s = .ok t) (hsigner : .external signer ∈ W)
    (hreceipt : .pricingReceipt m ∈ W) : Keeps W s t := by
  simp only [attestPricing, attestPricingHandler, exitPricing, bind_eq_ok, pure_eq_ok] at h
  obtain ⟨⟨r, u⟩, ⟨agent, -, -, -, mk, -, h⟩, -, -, rfl⟩ := h
  split at h
  · simp only [pure_bind, bind_eq_ok, pure_eq_ok, Prod.mk.injEq] at h
    obtain ⟨-, -, -, -, -, -, -, rfl⟩ := h
    exact ((Keeps.refl W s).emit _).pricingReceipt hreceipt _
  · simp only [bind_eq_ok, pure_eq_ok, Prod.mk.injEq] at h
    obtain ⟨v, hv, -, -, -, -, -, -, -, rfl⟩ := h
    exact (((Keeps.refl W s).initAccount hv hsigner hreceipt).emit _).pricingReceipt hreceipt _

theorem verifyPricing_keeps {m : Pubkey} {snapshotBytes : Bytes}
    (h : verifyPricing rt m snapshotBytes s = .ok t) : Keeps W s t := by
  simp only [verifyPricing, bind_eq_ok, pure_eq_ok] at h
  obtain ⟨r, -, -, -, rfl⟩ := h
  exact (Keeps.refl W s).emit _

end MarketProgram

theorem SettlementProgram.resolveMarket_keeps {ctx : TxContext} {resolver : Pubkey}
    {market : Address} {statement : String} {root : List.Vector UInt8 32} {outcome : UInt8}
    {data : Bytes} {remaining : List Address}
    (h : resolveMarket rt ctx resolver market statement root outcome data remaining s = .ok t)
    (hresolver : .external resolver ∈ W) (hresolution : rt.receipt market ∈ W) : Keeps W s t := by
  simp only [resolveMarket, bind_eq_ok, pure_eq_ok] at h
  obtain ⟨u, hu, -, -, -, -, _, -, _, -, _, -, -, -, -, -, rfl⟩ := h
  exact (((Keeps.refl W s).initAccount hu hresolver hresolution).setReceipt hresolution _).emit _

theorem AttestationValidator.initializeConfig_keeps {payer authority : Pubkey}
    (h : initializeConfig rt payer authority s = .ok t) (hpayer : .external payer ∈ W)
    (hconfig : .config authority ∈ W) : Keeps W s t := by
  simp only [initializeConfig, bind_eq_ok, pure_eq_ok] at h
  obtain ⟨u, hu, rfl⟩ := h
  exact ((Keeps.refl W s).initAccount hu hpayer hconfig).config hconfig _

/-- **An instruction writes no account but those that it declares to be written.** -/
theorem exec_keeps {ctx : TxContext} {ix : Instruction} (h : exec rt ctx ix s = .ok t)
    (hW : ∀ a ∈ ix.writable rt, a ∈ W) : Keeps W s t := by
  cases ix <;> simp only [Instruction.writable, Instruction.metas, List.filter_cons_of_pos,
    List.filter_cons_of_neg, List.filter_nil, Bool.false_eq_true, not_false_eq_true,
    List.map_cons, List.map_nil, List.forall_mem_cons, MarketProgram.InitializeProtocol.metas,
    MarketProgram.SetAgentAuthority.metas, MarketProgram.DelegateSessionKey.metas,
    MarketProgram.RevokeSessionKey.metas, MarketProgram.SessionPing.metas,
    MarketProgram.CreateMarket.metas, MarketProgram.JoinWallet.metas,
    MarketProgram.JoinSessionKey.metas, MarketProgram.ForceSettle.metas,
    MarketProgram.SettleFromProof.metas, MarketProgram.VoidMarket.metas, MarketProgram.Claim.metas,
    MarketProgram.ClaimBond.metas, MarketProgram.CloseMarket.metas,
    MarketProgram.AttestVerification.metas, MarketProgram.AttestPricing.metas,
    MarketProgram.VerifyPricing.metas, SettlementProgram.ResolveMarket.metas,
    AttestationValidator.InitializeConfig.metas] at hW
  case initializeProtocol =>
    exact MarketProgram.initializeProtocol_keeps h hW.1 hW.2.1 hW.2.2.1 hW.2.2.2.1
  case setAgentAuthority => exact MarketProgram.setAgentAuthority_keeps h hW.1 hW.2.1
  case delegateSessionKey => exact MarketProgram.delegateSessionKey_keeps h hW.1 hW.2.1 hW.2.2.1
  case revokeSessionKey => exact MarketProgram.revokeSessionKey_keeps h hW.1 hW.2.1
  case sessionPing => exact MarketProgram.sessionPing_keeps h
  case createMarket => exact MarketProgram.createMarket_keeps h hW.1 hW.2.1
  case joinViaWallet => exact MarketProgram.joinViaWallet_keeps h hW.1 hW.2.1 hW.2.2.1
  case joinViaSessionKey =>
    exact MarketProgram.joinViaSessionKey_keeps h hW.1 hW.2.1 hW.2.2.1 hW.2.2.2.1
  case forceSettle => exact MarketProgram.forceSettle_keeps h hW.2.1
  case settleFromProof => exact MarketProgram.settleFromProof_keeps h hW.1
  case voidMarket => exact MarketProgram.voidMarket_keeps h hW.2.1
  case claim => exact MarketProgram.claim_keeps h hW.1 hW.2.1 hW.2.2.1 hW.2.2.2.1
  case claimBond => exact MarketProgram.claimBond_keeps h hW.1 hW.2.1
  case closeMarket => exact MarketProgram.closeMarket_keeps h hW.1 hW.2.1
  case attestVerification => exact MarketProgram.attestVerification_keeps h hW.1
  case attestPricing => exact MarketProgram.attestPricing_keeps h hW.1 hW.2.1
  case verifyPricing => exact MarketProgram.verifyPricing_keeps h
  case resolveMarket => exact SettlementProgram.resolveMarket_keeps h hW.1 hW.2.2.1
  case initializeConfig => exact AttestationValidator.initializeConfig_keeps h hW.2.1 hW.1
  case systemTransfer => exact (Keeps.refl W s).systemTransfer h hW.1 hW.2.1
  case ed25519 d =>
    simp only [exec, bind_eq_ok, pure_eq_ok] at h
    obtain ⟨-, -, rfl⟩ := h
    exact .refl W s
  case setComputeUnitLimit =>
    cases h
    exact .refl W s

end Writes

/-! ## Transactions -/

section Transactions
variable {rt : Runtime}

/-- The accounts that the instructions declare, and the clock. -/
def declared (rt : Runtime) (ixs : List Instruction) : Set (Option Address) :=
  {p | ∀ a, p = some a → ∃ ix ∈ ixs, a ∈ ix.accounts rt}

/-- The accounts that the instructions declare to be written. -/
def locked (rt : Runtime) (ixs : List Instruction) : Set (Option Address) :=
  {p | ∃ a, p = some a ∧ ∃ ix ∈ ixs, a ∈ ix.writable rt}

theorem Instruction.accounts_of_writable {ix : Instruction} {a : Address}
    (h : a ∈ ix.writable rt) : a ∈ ix.accounts rt := by
  obtain ⟨x, hmem, rfl⟩ := List.mem_map.mp h
  exact List.mem_map_of_mem (List.mem_of_mem_filter hmem)

theorem locked_subset (ixs : List Instruction) : locked rt ixs ⊆ declared rt ixs := by
  rintro _ ⟨a, rfl, ix, hix, ha⟩ b hb
  cases hb
  exact ⟨ix, hix, Instruction.accounts_of_writable ha⟩

theorem declared_cons {ix : Instruction} (ixs : List Instruction) :
    declared rt [ix] ∪ declared rt ixs ⊆ declared rt (ix :: ixs) := by
  rintro p (hp | hp) a ha
  · obtain ⟨jx, hjx, hmem⟩ := hp a ha
    exact ⟨jx, List.mem_cons.mpr (.inl (List.mem_singleton.mp hjx)), hmem⟩
  · obtain ⟨jx, hjx, hmem⟩ := hp a ha
    exact ⟨jx, List.mem_cons_of_mem _ hjx, hmem⟩

theorem locked_cons {ix : Instruction} (ixs : List Instruction) :
    locked rt [ix] ∪ locked rt ixs ⊆ locked rt (ix :: ixs) := by
  rintro _ (⟨a, rfl, jx, hjx, hmem⟩ | ⟨a, rfl, jx, hjx, hmem⟩)
  · exact ⟨a, rfl, jx, List.mem_cons.mpr (.inl (List.mem_singleton.mp hjx)), hmem⟩
  · exact ⟨a, rfl, jx, List.mem_cons_of_mem _ hjx, hmem⟩

/-- Chains with the same declared accounts: one does what the other does, behind its own log. -/
theorem exec_of_agree (hrt : rt.Confined) {ctx : TxContext} {ix : Instruction} {s t : Chain}
    (hagree : store.Agree (declared rt [ix]) s t) :
    exec rt ctx ix t = (graft (ix.accounts rt) · t) <$> exec rt ctx ix s.silent := by
  have hnow : s.now = t.now := hagree none fun a ha => by cases ha
  have hsame (a : Address) (ha : a ∈ ix.accounts rt) : s.Same t (some a) := by
    refine hagree (some a) fun b hb => ?_
    cases hb
    exact ⟨ix, List.mem_singleton_self ix, ha⟩
  have hfits : Fits (ix.accounts rt) s.silent t := fun h => .inr (hsame .treasury h).2
  have hgraft := exec_graft (s := s.silent) (t := t) hrt ctx hfits fun _ h => h
  rwa [graft_of_agree hnow hsame] at hgraft

theorem exec_confined (hrt : rt.Confined) (ctx : TxContext) (ix : Instruction) :
    Confined store (declared rt [ix]) (locked rt [ix]) (exec rt ctx ix) where
  subset := locked_subset [ix]
  frame s s' h p hp := by
    have hkeeps := exec_keeps h fun _ ha => ha
    cases p with
    | none => exact hkeeps.now
    | some a =>
      exact hkeeps.account a fun ha => hp ⟨a, rfl, ix, List.mem_singleton_self ix, ha⟩
  succeeds s t s' hagree h := by
    rw [exec_of_agree hrt (.refl store _ s)] at h
    rw [exec_of_agree hrt hagree]
    cases hu : exec rt ctx ix s.silent with
    | error e =>
      rw [hu] at h
      cases h
    | ok u =>
      rw [hu] at h
      cases h
      refine ⟨u.graft (ix.accounts rt) t, rfl, fun p hp => ?_, u.events, rfl, rfl⟩
      cases p with
      | none => rfl
      | some a =>
        obtain ⟨jx, hjx, ha⟩ := hp a rfl
        obtain rfl := List.mem_singleton.mp hjx
        exact graft_same (hagree (some a) hp) ha
  fails s t e hagree h := by
    rw [exec_of_agree hrt (.refl store _ s)] at h
    rw [exec_of_agree hrt hagree]
    cases hu : exec rt ctx ix s.silent with
    | error e' =>
      rw [hu] at h
      cases h
      rfl
    | ok u =>
      rw [hu] at h
      cases h

theorem execFrom_confined (hrt : rt.Confined) (ixs rest : List Instruction) (n : ℕ) :
    Confined store (declared rt rest) (locked rt rest) (execFrom rt ixs rest n) := by
  induction rest generalizing n with
  | nil => exact Confined.skip.mono (Set.empty_subset _) (Set.empty_subset _) (locked_subset [])
  | cons ix rest ih =>
    exact ((exec_confined hrt ⟨ixs, n⟩ ix).andThen (ih (n + 1))).mono (declared_cons rest)
      (locked_cons rest) (locked_subset (ix :: rest))

/-- A transaction with the accounts that its instructions declare. -/
def transaction (hrt : rt.Confined) (ixs : List Instruction) : Op store ProgramError where
  run := execTx rt ixs
  reads := declared rt ixs
  writes := locked rt ixs
  confined := execFrom_confined hrt ixs ixs 0

/-- Neither transaction writes an account that the other declares. -/
def Apart (rt : Runtime) (ixs jxs : List Instruction) : Prop :=
  ∀ ix ∈ ixs, ∀ jx ∈ jxs, (∀ a ∈ ix.writable rt, a ∉ jx.accounts rt) ∧
    ∀ a ∈ jx.writable rt, a ∉ ix.accounts rt

instance (ixs jxs : List Instruction) : Decidable (Apart rt ixs jxs) :=
  decidable_of_iff (ixs.all fun ix => jxs.all fun jx =>
      (ix.writable rt).all (fun a => a ∉ jx.accounts rt) &&
        (jx.writable rt).all (fun a => a ∉ ix.accounts rt)) <| by
    simp only [List.all_eq_true, Bool.and_eq_true, decide_eq_true_eq, Apart]

theorem Apart.independent (hrt : rt.Confined) {ixs jxs : List Instruction}
    (h : Apart rt ixs jxs) : (transaction hrt ixs).Independent (transaction hrt jxs) := by
  constructor
  · rintro _ ⟨a, rfl, ix, hix, ha⟩ hdeclared
    obtain ⟨jx, hjx, hmem⟩ := hdeclared a rfl
    exact (h ix hix jx hjx).1 a ha hmem
  · rintro _ ⟨a, rfl, jx, hjx, ha⟩ hdeclared
    obtain ⟨ix, hix, hmem⟩ := hdeclared a rfl
    exact (h ix hix jx hjx).2 a ha hmem

/-- Transactions one after another, each with its events or its error. A transaction that fails
changes nothing. -/
def execBlock (rt : Runtime) : List (List Instruction) → Chain →
    List (List Instruction × Except ProgramError (List Event)) × Chain
  | [], s => ([], s)
  | tx :: txs, s =>
    match execTx rt tx s with
    | .ok t =>
      let (results, u) := execBlock rt txs t
      ((tx, .ok (t.events.drop s.events.length)) :: results, u)
    | .error e =>
      let (results, u) := execBlock rt txs s
      ((tx, .error e) :: results, u)

theorem execBlock_eq (hrt : rt.Confined) (txs : List (List Instruction)) (s : Chain) :
    execBlock rt txs s = runAll (transaction hrt) txs s := by
  induction txs generalizing s with
  | nil => rfl
  | cons tx txs ih =>
    rw [execBlock, runAll, Op.attempt]
    show (match execTx rt tx s with | .ok t => _ | .error e => _) = _
    cases h : execTx rt tx s with
    | ok t => simp only [transaction, h, ih]; rfl
    | error e => simp only [transaction, h, ih]

/-- **Transactions that write no account that another declares come to the same in every order**:
the same of them fail, with the same errors, the others log the same events, and all accounts are
the same after them. -/
theorem block_reordered (hrt : rt.Confined) {txs txs' : List (List Instruction)}
    (hperm : txs.Perm txs') (hapart : txs.Pairwise (Apart rt)) (s : Chain) :
    (execBlock rt txs s).1.Perm (execBlock rt txs' s).1 ∧
    (execBlock rt txs s).2.silent = (execBlock rt txs' s).2.silent ∧
    (execBlock rt txs s).2.events.Perm (execBlock rt txs' s).2.events := by
  obtain ⟨hresults, hagree⟩ := runAll_perm (transaction hrt) hperm
    (hapart.imp fun h => h.independent hrt) s
  rw [execBlock_eq hrt, execBlock_eq hrt]
  have hlog (txs : List (List Instruction)) := runAll_log (transaction hrt) txs s
  refine ⟨hresults, eq_of_same (fun p => hagree p trivial) rfl, ?_⟩
  show (store.log _).Perm (store.log _)
  rw [hlog, hlog]
  exact (hresults.flatMap_right _).append_left _

end Transactions

namespace Sample

/-- Two transactions of different wallets. -/
def block : List (List Instruction) :=
  [[.setComputeUnitLimit 200000, .initializeProtocol alice 200],
    [.delegateSessionKey bob (.external carol) [] 1000 1000 1800000000 5000000]]

theorem runtime_confined : runtime.Confined := fun _ _ _ _ _ _ _ _ => rfl

end Sample

theorem block_reordered_sample :
    (execBlock Sample.runtime Sample.block Sample.genesis).1.all (fun r => r.2.toBool) = true ∧
    (execBlock Sample.runtime Sample.block Sample.genesis).2.silent =
      (execBlock Sample.runtime Sample.block.reverse Sample.genesis).2.silent :=
  ⟨by decide +kernel, (block_reordered Sample.runtime_confined (List.reverse_perm _).symm
    (by decide +kernel) Sample.genesis).2.1⟩

end Stoppage
