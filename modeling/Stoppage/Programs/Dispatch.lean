import Stoppage.Programs.Handler
import Stoppage.Lib.Lookup

/-! # Dispatch of `programs/market`

For every account struct of the program, the accounts it takes and the list of them with their
flags; then the instructions by their discriminators. `Instruction.layout` is what an instruction
looks like, its data and its accounts, and the program reads exactly the instructions that are laid
out so. `idl/market.json` has the same data, accounts and flags, but neither an address nor seeds
for any `market`: that of `create_market` is fixed by the struct alone.
-/

namespace Stoppage
open LittleEndian AccountReader
set_option autoImplicit false

namespace MarketProgram

/-! ## Account structs -/

namespace InitializeProtocol

def accounts : AccountReader Pubkey := do
  let authority ← signer true
  seeded .protocolConfig true
  seeded .agentAuthority true
  seeded .treasury true
  systemProgram
  pure authority

def metas (authority : Pubkey) : List AccountMeta :=
  [⟨.external authority, true, true⟩, ⟨.protocolConfig, false, true⟩,
    ⟨.agentAuthority, false, true⟩, ⟨.treasury, false, true⟩,
    ⟨.external systemProgramId, false, false⟩]

theorem takes : Takes accounts metas := by
  intro keys b
  simp only [accounts, metas, Covers, Borsh.bind_eq_some, Borsh.pure_eq_some, signer_eq_some,
    seeded_eq_some, systemProgram_eq_some]
  grind

end InitializeProtocol

namespace SetAgentAuthority

def accounts : AccountReader Pubkey := do
  let authority ← signer true
  seeded .protocolConfig false
  seeded .agentAuthority true
  systemProgram
  pure authority

def metas (authority : Pubkey) : List AccountMeta :=
  [⟨.external authority, true, true⟩, ⟨.protocolConfig, false, false⟩,
    ⟨.agentAuthority, false, true⟩, ⟨.external systemProgramId, false, false⟩]

theorem takes : Takes accounts metas := by
  intro keys b
  simp only [accounts, metas, Covers, Borsh.bind_eq_some, Borsh.pure_eq_some, signer_eq_some,
    seeded_eq_some, systemProgram_eq_some]
  grind

end SetAgentAuthority

namespace DelegateSessionKey

def accounts (rt : Runtime) : AccountReader (Pubkey × Address) := do
  let owner ← signer true
  let session ← unchecked true
  seeded (.sessionGrant owner (rt.key session)) true
  systemProgram
  pure (owner, session)

def metas (rt : Runtime) (a : Pubkey × Address) : List AccountMeta :=
  [⟨.external a.1, true, true⟩, ⟨a.2, false, true⟩, ⟨.sessionGrant a.1 (rt.key a.2), false, true⟩,
    ⟨.external systemProgramId, false, false⟩]

theorem takes (rt : Runtime) : Takes (accounts rt) (metas rt) := by
  intro keys b
  simp only [accounts, metas, Covers, Borsh.bind_eq_some, Borsh.pure_eq_some, signer_eq_some,
    unchecked_eq_some, seeded_eq_some, systemProgram_eq_some]
  grind

end DelegateSessionKey

namespace RevokeSessionKey

def accounts (rt : Runtime) : AccountReader (Pubkey × Address) := do
  let owner ← signer true
  let session ← unchecked false
  seeded (.sessionGrant owner (rt.key session)) true
  pure (owner, session)

def metas (rt : Runtime) (a : Pubkey × Address) : List AccountMeta :=
  [⟨.external a.1, true, true⟩, ⟨a.2, false, false⟩,
    ⟨.sessionGrant a.1 (rt.key a.2), false, true⟩]

theorem takes (rt : Runtime) : Takes (accounts rt) (metas rt) := by
  intro keys b
  simp only [accounts, metas, Covers, Borsh.bind_eq_some, Borsh.pure_eq_some, signer_eq_some,
    unchecked_eq_some, seeded_eq_some]
  grind

end RevokeSessionKey

namespace SessionPing

def accounts (rt : Runtime) : AccountReader (Pubkey × Address) := do
  let sessionKey ← signer true
  let owner ← unchecked false
  seeded (.sessionGrant (rt.key owner) sessionKey) false
  pure (sessionKey, owner)

def metas (rt : Runtime) (a : Pubkey × Address) : List AccountMeta :=
  [⟨.external a.1, true, true⟩, ⟨a.2, false, false⟩,
    ⟨.sessionGrant (rt.key a.2) a.1, false, false⟩]

theorem takes (rt : Runtime) : Takes (accounts rt) (metas rt) := by
  intro keys b
  simp only [accounts, metas, Covers, Borsh.bind_eq_some, Borsh.pure_eq_some, signer_eq_some,
    unchecked_eq_some, seeded_eq_some]
  grind

end SessionPing

namespace CreateMarket

def accounts (rt : Runtime) (seeds : MarketSeeds) : AccountReader Pubkey := do
  let creator ← signer true
  seeded (.market (rt.marketAddress seeds)) true
  seeded .protocolConfig false
  systemProgram
  pure creator

def metas (rt : Runtime) (seeds : MarketSeeds) (creator : Pubkey) : List AccountMeta :=
  [⟨.external creator, true, true⟩, ⟨.market (rt.marketAddress seeds), false, true⟩,
    ⟨.protocolConfig, false, false⟩, ⟨.external systemProgramId, false, false⟩]

theorem takes (rt : Runtime) (seeds : MarketSeeds) :
    Takes (accounts rt seeds) (metas rt seeds) := by
  intro keys b
  simp only [accounts, metas, Covers, Borsh.bind_eq_some, Borsh.pure_eq_some, signer_eq_some,
    seeded_eq_some, systemProgram_eq_some]
  grind

end CreateMarket

namespace JoinWallet

def accounts : AccountReader (Pubkey × Pubkey) := do
  let wallet ← signer true
  let m ← market true
  seeded (.position m wallet) true
  systemProgram
  pure (wallet, m)

def metas (a : Pubkey × Pubkey) : List AccountMeta :=
  [⟨.external a.1, true, true⟩, ⟨.market a.2, false, true⟩, ⟨.position a.2 a.1, false, true⟩,
    ⟨.external systemProgramId, false, false⟩]

theorem takes : Takes accounts metas := by
  intro keys b
  simp only [accounts, metas, Covers, Borsh.bind_eq_some, Borsh.pure_eq_some, signer_eq_some,
    market_eq_some, seeded_eq_some, systemProgram_eq_some]
  grind

end JoinWallet

namespace JoinSessionKey

def accounts (rt : Runtime) : AccountReader (Pubkey × Address × Pubkey) := do
  let sessionKey ← signer true
  let owner ← unchecked false
  seeded (.sessionGrant (rt.key owner) sessionKey) true
  let m ← market true
  seeded (.position m (rt.key owner)) true
  systemProgram
  pure (sessionKey, owner, m)

def metas (rt : Runtime) (a : Pubkey × Address × Pubkey) : List AccountMeta :=
  [⟨.external a.1, true, true⟩, ⟨a.2.1, false, false⟩,
    ⟨.sessionGrant (rt.key a.2.1) a.1, false, true⟩, ⟨.market a.2.2, false, true⟩,
    ⟨.position a.2.2 (rt.key a.2.1), false, true⟩, ⟨.external systemProgramId, false, false⟩]

theorem takes (rt : Runtime) : Takes (accounts rt) (metas rt) := by
  intro keys b
  simp only [accounts, metas, Covers, Borsh.bind_eq_some, Borsh.pure_eq_some, signer_eq_some,
    unchecked_eq_some, seeded_eq_some, market_eq_some, systemProgram_eq_some]
  grind

end JoinSessionKey

namespace ForceSettle

def accounts : AccountReader (Pubkey × Pubkey) := do
  let authority ← signer true
  seeded .protocolConfig false
  let m ← market true
  pure (authority, m)

def metas (a : Pubkey × Pubkey) : List AccountMeta :=
  [⟨.external a.1, true, true⟩, ⟨.protocolConfig, false, false⟩, ⟨.market a.2, false, true⟩]

theorem takes : Takes accounts metas := by
  intro keys b
  simp only [accounts, metas, Covers, Borsh.bind_eq_some, Borsh.pure_eq_some, signer_eq_some,
    seeded_eq_some, market_eq_some]
  grind

end ForceSettle

namespace SettleFromProof

def accounts : AccountReader (Pubkey × Pubkey × Address) := do
  let resolver ← signer false
  let m ← market true
  let resolution ← unchecked false
  pure (resolver, m, resolution)

def metas (a : Pubkey × Pubkey × Address) : List AccountMeta :=
  [⟨.external a.1, true, false⟩, ⟨.market a.2.1, false, true⟩, ⟨a.2.2, false, false⟩]

theorem takes : Takes accounts metas := by
  intro keys b
  simp only [accounts, metas, Covers, Borsh.bind_eq_some, Borsh.pure_eq_some, signer_eq_some,
    market_eq_some, unchecked_eq_some]
  grind

end SettleFromProof

namespace VoidMarket

def accounts : AccountReader (Pubkey × Pubkey) := do
  let caller ← signer true
  let m ← market true
  pure (caller, m)

def metas (a : Pubkey × Pubkey) : List AccountMeta :=
  [⟨.external a.1, true, true⟩, ⟨.market a.2, false, true⟩]

theorem takes : Takes accounts metas := by
  intro keys b
  simp only [accounts, metas, Covers, Borsh.bind_eq_some, Borsh.pure_eq_some, signer_eq_some,
    market_eq_some]
  grind

end VoidMarket

namespace Claim

def accounts : AccountReader (Pubkey × Pubkey) := do
  let claimant ← signer true
  let m ← market true
  seeded (.position m claimant) true
  seeded .treasury true
  pure (claimant, m)

def metas (a : Pubkey × Pubkey) : List AccountMeta :=
  [⟨.external a.1, true, true⟩, ⟨.market a.2, false, true⟩, ⟨.position a.2 a.1, false, true⟩,
    ⟨.treasury, false, true⟩]

theorem takes : Takes accounts metas := by
  intro keys b
  simp only [accounts, metas, Covers, Borsh.bind_eq_some, Borsh.pure_eq_some, signer_eq_some,
    market_eq_some, seeded_eq_some]
  grind

end Claim

namespace ClaimBond

def accounts : AccountReader (Pubkey × Pubkey) := do
  let creator ← signer true
  let m ← market true
  pure (creator, m)

def metas (a : Pubkey × Pubkey) : List AccountMeta :=
  [⟨.external a.1, true, true⟩, ⟨.market a.2, false, true⟩]

theorem takes : Takes accounts metas := by
  intro keys b
  simp only [accounts, metas, Covers, Borsh.bind_eq_some, Borsh.pure_eq_some, signer_eq_some,
    market_eq_some]
  grind

end ClaimBond

namespace CloseMarket

def accounts : AccountReader (Pubkey × Pubkey) := do
  let creator ← signer true
  let m ← market true
  pure (creator, m)

def metas (a : Pubkey × Pubkey) : List AccountMeta :=
  [⟨.external a.1, true, true⟩, ⟨.market a.2, false, true⟩]

theorem takes : Takes accounts metas := by
  intro keys b
  simp only [accounts, metas, Covers, Borsh.bind_eq_some, Borsh.pure_eq_some, signer_eq_some,
    market_eq_some]
  grind

end CloseMarket

namespace AttestVerification

def accounts : AccountReader (Pubkey × Pubkey) := do
  let verifier ← signer false
  let m ← market true
  pure (verifier, m)

def metas (a : Pubkey × Pubkey) : List AccountMeta :=
  [⟨.external a.1, true, false⟩, ⟨.market a.2, false, true⟩]

theorem takes : Takes accounts metas := by
  intro keys b
  simp only [accounts, metas, Covers, Borsh.bind_eq_some, Borsh.pure_eq_some, signer_eq_some,
    market_eq_some]
  grind

end AttestVerification

namespace AttestPricing

def accounts : AccountReader (Pubkey × Pubkey) := do
  let agentAuthoritySigner ← signer true
  seeded .agentAuthority false
  let m ← market false
  seeded (.pricingReceipt m) true
  systemProgram
  pure (agentAuthoritySigner, m)

def metas (a : Pubkey × Pubkey) : List AccountMeta :=
  [⟨.external a.1, true, true⟩, ⟨.agentAuthority, false, false⟩, ⟨.market a.2, false, false⟩,
    ⟨.pricingReceipt a.2, false, true⟩, ⟨.external systemProgramId, false, false⟩]

theorem takes : Takes accounts metas := by
  intro keys b
  simp only [accounts, metas, Covers, Borsh.bind_eq_some, Borsh.pure_eq_some, signer_eq_some,
    seeded_eq_some, market_eq_some, systemProgram_eq_some]
  grind

end AttestPricing

namespace VerifyPricing

def accounts : AccountReader Pubkey := pricingReceipt

def metas (m : Pubkey) : List AccountMeta := [⟨.pricingReceipt m, false, false⟩]

theorem takes : Takes accounts metas := by
  intro keys b
  simp only [accounts, metas, Covers, pricingReceipt_eq_some]
  grind

end VerifyPricing

/-! ## Discriminators

The first eight bytes of `sha256("global:<name>")`, as in `idl/market.json`. -/

def initializeProtocolDiscriminator : Bytes := [188, 233, 252, 106, 134, 146, 202, 91]

def setAgentAuthorityDiscriminator : Bytes := [250, 203, 192, 81, 102, 63, 241, 120]

def delegateSessionKeyDiscriminator : Bytes := [49, 17, 156, 96, 82, 135, 9, 67]

def revokeSessionKeyDiscriminator : Bytes := [81, 192, 32, 110, 104, 116, 144, 151]

def sessionPingDiscriminator : Bytes := [109, 151, 199, 217, 151, 127, 137, 108]

def joinViaWalletDiscriminator : Bytes := [150, 139, 26, 211, 175, 22, 217, 200]

def joinViaSessionKeyDiscriminator : Bytes := [231, 53, 200, 135, 252, 45, 34, 17]

def forceSettleDiscriminator : Bytes := [201, 10, 239, 245, 47, 198, 225, 204]

def voidMarketDiscriminator : Bytes := [243, 175, 46, 124, 95, 101, 39, 69]

def claimDiscriminator : Bytes := [62, 198, 214, 193, 213, 159, 108, 210]

def claimBondDiscriminator : Bytes := [173, 34, 157, 61, 45, 120, 246, 11]

def closeMarketDiscriminator : Bytes := [88, 154, 248, 186, 48, 14, 123, 244]

/-! ## Layouts -/

/-- The data of an instruction and its accounts with their flags. -/
structure Layout where
  data : Bytes
  accounts : List AccountMeta

end MarketProgram

open MarketProgram in
/-- The layout of an instruction of the program, if its vectors fit the format. -/
def Instruction.layout (rt : Runtime) : Instruction → Option Layout
  | .initializeProtocol authority feeBps =>
    some ⟨initializeProtocolDiscriminator ++ encodeU16 feeBps, InitializeProtocol.metas authority⟩
  | .setAgentAuthority authority agentAuthority =>
    some ⟨setAgentAuthorityDiscriminator ++ agentAuthority.bytes, SetAgentAuthority.metas authority⟩
  | .delegateSessionKey owner session allowedPrograms maxStakePerMarket maxTotalStake expiresAt
      fundLamports =>
    let a : DelegateSessionKeyArgs :=
      ⟨allowedPrograms, maxStakePerMarket, maxTotalStake, expiresAt, fundLamports⟩
    if a.allowedPrograms.length < 2 ^ 32 then
      some ⟨delegateSessionKeyDiscriminator ++ a.data,
        DelegateSessionKey.metas rt (owner, session)⟩
    else none
  | .revokeSessionKey owner session =>
    some ⟨revokeSessionKeyDiscriminator, RevokeSessionKey.metas rt (owner, session)⟩
  | .sessionPing sessionKey owner =>
    some ⟨sessionPingDiscriminator, SessionPing.metas rt (sessionKey, owner)⟩
  | .createMarket creator seeds closesAt oracle =>
    some ⟨createMarketDiscriminator ++ CreateMarketArgs.data ⟨seeds, closesAt, oracle⟩,
      CreateMarket.metas rt seeds creator⟩
  | .joinViaWallet signer m side amount =>
    some ⟨joinViaWalletDiscriminator ++ JoinArgs.data ⟨side, amount⟩, JoinWallet.metas (signer, m)⟩
  | .joinViaSessionKey sessionKey owner m side amount =>
    some ⟨joinViaSessionKeyDiscriminator ++ JoinArgs.data ⟨side, amount⟩,
      JoinSessionKey.metas rt (sessionKey, owner, m)⟩
  | .forceSettle authority m outcome =>
    some ⟨forceSettleDiscriminator ++ [outcome], ForceSettle.metas (authority, m)⟩
  | .settleFromProof resolver m resolution outcome =>
    some ⟨settleFromProofDiscriminator ++ [outcome],
      SettleFromProof.metas (resolver, m, resolution)⟩
  | .voidMarket caller m => some ⟨voidMarketDiscriminator, VoidMarket.metas (caller, m)⟩
  | .claim claimant m => some ⟨claimDiscriminator, Claim.metas (claimant, m)⟩
  | .claimBond creator m => some ⟨claimBondDiscriminator, ClaimBond.metas (creator, m)⟩
  | .closeMarket creator m => some ⟨closeMarketDiscriminator, CloseMarket.metas (creator, m)⟩
  | .attestVerification verifier m =>
    some ⟨attestVerificationDiscriminator, AttestVerification.metas (verifier, m)⟩
  | .attestPricing signer m snapshotHash modelVersion fairValue bid ask agentSignature ts =>
    let a : AttestPricingArgs :=
      ⟨snapshotHash, modelVersion, fairValue, bid, ask, agentSignature, ts⟩
    if (utf8 a.modelVersion).length < 2 ^ 32 then
      some ⟨attestPricingDiscriminator ++ a.data, AttestPricing.metas (signer, m)⟩
    else none
  | .verifyPricing m snapshotBytes =>
    if snapshotBytes.length < 2 ^ 32 then
      some ⟨verifyPricingDiscriminator ++ (encode 4 snapshotBytes.length ++ snapshotBytes),
        VerifyPricing.metas m⟩
    else none
  | _ => none

/-- The instruction is carried so: anything may follow its data and its accounts. -/
def Instruction.Laid (rt : Runtime) (i : Instruction) (ix : TransactionInstruction) : Prop :=
  ∃ l, i.layout rt = some l ∧ l.data <+: ix.data ∧ Covers l.accounts ix.keys

namespace MarketProgram

/-! ## The instructions -/

structure Handler where
  Args : Type
  Accounts : Type
  discriminator : Bytes
  args : Borsh.Reader Args
  accounts : Args → AccountReader Accounts
  call : Args → Accounts → Instruction

def Handler.run (h : Handler) : TransactionInstruction → Option Instruction :=
  handle h.discriminator h.args h.accounts h.call

/-- The handler reads its own instructions as they are laid out. -/
def Handler.Agrees (rt : Runtime) (h : Handler) : Prop :=
  ∀ ix i, h.run ix = some i ↔ (∃ a b, i = h.call a b) ∧ i.Laid rt ix

theorem Handler.agrees {rt : Runtime} {h : Handler} {fits : h.Args → Prop} {enc : h.Args → Bytes}
    {needs : h.Args → h.Accounts → List AccountMeta} (hlength : h.discriminator.length = 8)
    (hargs : Borsh.Canonical h.args fits enc) (haccounts : ∀ a, Takes (h.accounts a) (needs a))
    (hlayout : ∀ a b l, (h.call a b).layout rt = some l ↔
      fits a ∧ l = ⟨h.discriminator ++ enc a, needs a b⟩) : h.Agrees rt := by
  intro ix i
  rw [Handler.run, handle_eq_some hlength hargs haccounts]
  constructor
  · rintro ⟨a, b, rfl, hfits, hdata, hkeys⟩
    exact ⟨⟨a, b, rfl⟩, _, (hlayout a b _).mpr ⟨hfits, rfl⟩, hdata, hkeys⟩
  · rintro ⟨⟨a, b, rfl⟩, l, hl, hdata, hkeys⟩
    obtain ⟨hfits, rfl⟩ := (hlayout a b l).mp hl
    exact ⟨a, b, rfl, hfits, hdata, hkeys⟩

theorem laid_always {l l' : Layout} : some l' = some l ↔ True ∧ l = l' := by
  rw [Option.some_inj, true_and, eq_comm]

theorem laid_if {c : Prop} [Decidable c] {l l' : Layout} :
    (if c then some l' else none) = some l ↔ c ∧ l = l' := by
  rw [Option.ite_none_right_eq_some, Option.some_inj, eq_comm]

section Handlers
variable (rt : Runtime)

def Handler.initializeProtocol : Handler where
  Args := UInt16
  Accounts := Pubkey
  discriminator := initializeProtocolDiscriminator
  args := Borsh.u16
  accounts := fun _ => InitializeProtocol.accounts
  call := fun feeBps authority => .initializeProtocol authority feeBps

theorem Handler.initializeProtocol_agrees : Handler.initializeProtocol.Agrees rt :=
  Handler.agrees rfl Borsh.canonical_u16 (fun _ => InitializeProtocol.takes)
    fun _ _ _ => laid_always

def Handler.setAgentAuthority : Handler where
  Args := Pubkey
  Accounts := Pubkey
  discriminator := setAgentAuthorityDiscriminator
  args := Pubkey.read
  accounts := fun _ => SetAgentAuthority.accounts
  call := fun agentAuthority authority => .setAgentAuthority authority agentAuthority

theorem Handler.setAgentAuthority_agrees : Handler.setAgentAuthority.Agrees rt :=
  Handler.agrees rfl Pubkey.canonical (fun _ => SetAgentAuthority.takes) fun _ _ _ => laid_always

def Handler.delegateSessionKey : Handler where
  Args := DelegateSessionKeyArgs
  Accounts := Pubkey × Address
  discriminator := delegateSessionKeyDiscriminator
  args := DelegateSessionKeyArgs.read
  accounts := fun _ => DelegateSessionKey.accounts rt
  call := fun a b => .delegateSessionKey b.1 b.2 a.allowedPrograms a.maxStakePerMarket
    a.maxTotalStake a.expiresAt a.fundLamports

theorem Handler.delegateSessionKey_agrees : (Handler.delegateSessionKey rt).Agrees rt :=
  Handler.agrees rfl DelegateSessionKeyArgs.canonical (fun _ => DelegateSessionKey.takes rt)
    fun _ _ _ => laid_if

def Handler.revokeSessionKey : Handler where
  Args := Unit
  Accounts := Pubkey × Address
  discriminator := revokeSessionKeyDiscriminator
  args := pure ()
  accounts := fun _ => RevokeSessionKey.accounts rt
  call := fun _ b => .revokeSessionKey b.1 b.2

theorem Handler.revokeSessionKey_agrees : (Handler.revokeSessionKey rt).Agrees rt :=
  Handler.agrees rfl Borsh.canonical_unit (fun _ => RevokeSessionKey.takes rt)
    fun _ _ _ => laid_always

def Handler.sessionPing : Handler where
  Args := Unit
  Accounts := Pubkey × Address
  discriminator := sessionPingDiscriminator
  args := pure ()
  accounts := fun _ => SessionPing.accounts rt
  call := fun _ b => .sessionPing b.1 b.2

theorem Handler.sessionPing_agrees : (Handler.sessionPing rt).Agrees rt :=
  Handler.agrees rfl Borsh.canonical_unit (fun _ => SessionPing.takes rt) fun _ _ _ => laid_always

def Handler.createMarket : Handler where
  Args := CreateMarketArgs
  Accounts := Pubkey
  discriminator := createMarketDiscriminator
  args := CreateMarketArgs.read
  accounts := fun a => CreateMarket.accounts rt a.seeds
  call := fun a creator => .createMarket creator a.seeds a.closesAt a.oracle

theorem Handler.createMarket_agrees : (Handler.createMarket rt).Agrees rt :=
  Handler.agrees rfl CreateMarketArgs.canonical (fun a => CreateMarket.takes rt a.seeds)
    fun _ _ _ => laid_always

def Handler.joinViaWallet : Handler where
  Args := JoinArgs
  Accounts := Pubkey × Pubkey
  discriminator := joinViaWalletDiscriminator
  args := JoinArgs.read
  accounts := fun _ => JoinWallet.accounts
  call := fun a b => .joinViaWallet b.1 b.2 a.side a.amount

theorem Handler.joinViaWallet_agrees : Handler.joinViaWallet.Agrees rt :=
  Handler.agrees rfl JoinArgs.canonical (fun _ => JoinWallet.takes) fun _ _ _ => laid_always

def Handler.joinViaSessionKey : Handler where
  Args := JoinArgs
  Accounts := Pubkey × Address × Pubkey
  discriminator := joinViaSessionKeyDiscriminator
  args := JoinArgs.read
  accounts := fun _ => JoinSessionKey.accounts rt
  call := fun a b => .joinViaSessionKey b.1 b.2.1 b.2.2 a.side a.amount

theorem Handler.joinViaSessionKey_agrees : (Handler.joinViaSessionKey rt).Agrees rt :=
  Handler.agrees rfl JoinArgs.canonical (fun _ => JoinSessionKey.takes rt) fun _ _ _ => laid_always

def Handler.forceSettle : Handler where
  Args := UInt8
  Accounts := Pubkey × Pubkey
  discriminator := forceSettleDiscriminator
  args := Borsh.byte
  accounts := fun _ => ForceSettle.accounts
  call := fun outcome b => .forceSettle b.1 b.2 outcome

theorem Handler.forceSettle_agrees : Handler.forceSettle.Agrees rt :=
  Handler.agrees rfl Borsh.canonical_byte (fun _ => ForceSettle.takes) fun _ _ _ => laid_always

def Handler.settleFromProof : Handler where
  Args := UInt8
  Accounts := Pubkey × Pubkey × Address
  discriminator := settleFromProofDiscriminator
  args := Borsh.byte
  accounts := fun _ => SettleFromProof.accounts
  call := fun outcome b => .settleFromProof b.1 b.2.1 b.2.2 outcome

theorem Handler.settleFromProof_agrees : Handler.settleFromProof.Agrees rt :=
  Handler.agrees rfl Borsh.canonical_byte (fun _ => SettleFromProof.takes) fun _ _ _ => laid_always

def Handler.voidMarket : Handler where
  Args := Unit
  Accounts := Pubkey × Pubkey
  discriminator := voidMarketDiscriminator
  args := pure ()
  accounts := fun _ => VoidMarket.accounts
  call := fun _ b => .voidMarket b.1 b.2

theorem Handler.voidMarket_agrees : Handler.voidMarket.Agrees rt :=
  Handler.agrees rfl Borsh.canonical_unit (fun _ => VoidMarket.takes) fun _ _ _ => laid_always

def Handler.claim : Handler where
  Args := Unit
  Accounts := Pubkey × Pubkey
  discriminator := claimDiscriminator
  args := pure ()
  accounts := fun _ => Claim.accounts
  call := fun _ b => .claim b.1 b.2

theorem Handler.claim_agrees : Handler.claim.Agrees rt :=
  Handler.agrees rfl Borsh.canonical_unit (fun _ => Claim.takes) fun _ _ _ => laid_always

def Handler.claimBond : Handler where
  Args := Unit
  Accounts := Pubkey × Pubkey
  discriminator := claimBondDiscriminator
  args := pure ()
  accounts := fun _ => ClaimBond.accounts
  call := fun _ b => .claimBond b.1 b.2

theorem Handler.claimBond_agrees : Handler.claimBond.Agrees rt :=
  Handler.agrees rfl Borsh.canonical_unit (fun _ => ClaimBond.takes) fun _ _ _ => laid_always

def Handler.closeMarket : Handler where
  Args := Unit
  Accounts := Pubkey × Pubkey
  discriminator := closeMarketDiscriminator
  args := pure ()
  accounts := fun _ => CloseMarket.accounts
  call := fun _ b => .closeMarket b.1 b.2

theorem Handler.closeMarket_agrees : Handler.closeMarket.Agrees rt :=
  Handler.agrees rfl Borsh.canonical_unit (fun _ => CloseMarket.takes) fun _ _ _ => laid_always

def Handler.attestVerification : Handler where
  Args := Unit
  Accounts := Pubkey × Pubkey
  discriminator := attestVerificationDiscriminator
  args := pure ()
  accounts := fun _ => AttestVerification.accounts
  call := fun _ b => .attestVerification b.1 b.2

theorem Handler.attestVerification_agrees : Handler.attestVerification.Agrees rt :=
  Handler.agrees rfl Borsh.canonical_unit (fun _ => AttestVerification.takes)
    fun _ _ _ => laid_always

def Handler.attestPricing : Handler where
  Args := AttestPricingArgs
  Accounts := Pubkey × Pubkey
  discriminator := attestPricingDiscriminator
  args := AttestPricingArgs.read
  accounts := fun _ => AttestPricing.accounts
  call := fun a b => .attestPricing b.1 b.2 a.snapshotHash a.modelVersion a.fairValue a.bid a.ask
    a.agentSignature a.ts

theorem Handler.attestPricing_agrees : Handler.attestPricing.Agrees rt :=
  Handler.agrees rfl AttestPricingArgs.canonical (fun _ => AttestPricing.takes) fun _ _ _ => laid_if

def Handler.verifyPricing : Handler where
  Args := Bytes
  Accounts := Pubkey
  discriminator := verifyPricingDiscriminator
  args := Borsh.vec
  accounts := fun _ => VerifyPricing.accounts
  call := fun snapshotBytes m => .verifyPricing m snapshotBytes

theorem Handler.verifyPricing_agrees : Handler.verifyPricing.Agrees rt :=
  Handler.agrees rfl Borsh.canonical_vec (fun _ => VerifyPricing.takes) fun _ _ _ => laid_if

end Handlers

/-! ## Dispatch -/

def handlers (rt : Runtime) : List Handler :=
  [.initializeProtocol, .setAgentAuthority, .delegateSessionKey rt, .revokeSessionKey rt,
    .sessionPing rt, .createMarket rt, .joinViaWallet, .joinViaSessionKey rt, .forceSettle,
    .settleFromProof, .voidMarket, .claim, .claimBond, .closeMarket, .attestVerification,
    .attestPricing, .verifyPricing]

def dispatch (rt : Runtime) (ix : TransactionInstruction) : Option Instruction :=
  ((handlers rt).find? fun h => ix.data.take 8 = h.discriminator).bind fun h => h.run ix

theorem discriminators_nodup (rt : Runtime) :
    ((handlers rt).map Handler.discriminator).Nodup := by
  show [initializeProtocolDiscriminator, setAgentAuthorityDiscriminator,
    delegateSessionKeyDiscriminator, revokeSessionKeyDiscriminator, sessionPingDiscriminator,
    createMarketDiscriminator, joinViaWalletDiscriminator, joinViaSessionKeyDiscriminator,
    forceSettleDiscriminator, settleFromProofDiscriminator, voidMarketDiscriminator,
    claimDiscriminator, claimBondDiscriminator, closeMarketDiscriminator,
    attestVerificationDiscriminator, attestPricingDiscriminator, verifyPricingDiscriminator].Nodup
  decide +kernel

theorem Handler.take_of_run {h : Handler} {ix : TransactionInstruction} {i : Instruction}
    (hrun : h.run ix = some i) : ix.data.take 8 = h.discriminator := by
  obtain ⟨data, hdata, -⟩ := Option.bind_eq_some_iff.mp hrun
  unfold afterDiscriminator at hdata
  split at hdata
  · assumption
  · cases hdata

theorem dispatch_eq_some_iff {rt : Runtime} {ix : TransactionInstruction} {i : Instruction} :
    dispatch rt ix = some i ↔ ∃ h ∈ handlers rt, h.run ix = some i := by
  rw [dispatch, Option.bind_eq_some_iff]
  constructor
  · rintro ⟨h, hfind, hrun⟩
    exact ⟨h, ((Lookup.find?_key (discriminators_nodup rt)).mp hfind).1, hrun⟩
  · rintro ⟨h, hmem, hrun⟩
    have hfind := (Lookup.find?_key (discriminators_nodup rt)).mpr
      ⟨hmem, (Handler.take_of_run hrun).symm⟩
    exact ⟨h, hfind, hrun⟩

theorem handlers_agree (rt : Runtime) : ∀ h ∈ handlers rt, h.Agrees rt := by
  simp only [handlers, List.forall_mem_cons]
  exact ⟨Handler.initializeProtocol_agrees rt, Handler.setAgentAuthority_agrees rt,
    Handler.delegateSessionKey_agrees rt, Handler.revokeSessionKey_agrees rt,
    Handler.sessionPing_agrees rt, Handler.createMarket_agrees rt, Handler.joinViaWallet_agrees rt,
    Handler.joinViaSessionKey_agrees rt, Handler.forceSettle_agrees rt,
    Handler.settleFromProof_agrees rt, Handler.voidMarket_agrees rt, Handler.claim_agrees rt,
    Handler.claimBond_agrees rt, Handler.closeMarket_agrees rt,
    Handler.attestVerification_agrees rt, Handler.attestPricing_agrees rt,
    Handler.verifyPricing_agrees rt, fun _ hmem => absurd hmem List.not_mem_nil⟩

/-- Every instruction of the program has its handler. -/
theorem exists_handler {rt : Runtime} {i : Instruction} {l : Layout} (h : i.layout rt = some l) :
    ∃ h ∈ handlers rt, ∃ a b, i = h.call a b := by
  have hmem (n : ℕ) {h : Handler} (hn : (handlers rt)[n]? = some h) : h ∈ handlers rt :=
    List.mem_of_getElem? hn
  cases i with
  | initializeProtocol authority feeBps => exact ⟨_, hmem 0 rfl, feeBps, authority, rfl⟩
  | setAgentAuthority authority agentAuthority =>
    exact ⟨_, hmem 1 rfl, agentAuthority, authority, rfl⟩
  | delegateSessionKey owner session programs perMarket total expiresAt fund =>
    exact ⟨_, hmem 2 rfl, ⟨programs, perMarket, total, expiresAt, fund⟩, (owner, session), rfl⟩
  | revokeSessionKey owner session => exact ⟨_, hmem 3 rfl, (), (owner, session), rfl⟩
  | sessionPing k owner => exact ⟨_, hmem 4 rfl, (), (k, owner), rfl⟩
  | createMarket creator seeds closesAt oracle =>
    exact ⟨_, hmem 5 rfl, ⟨seeds, closesAt, oracle⟩, creator, rfl⟩
  | joinViaWallet signer m side amount => exact ⟨_, hmem 6 rfl, ⟨side, amount⟩, (signer, m), rfl⟩
  | joinViaSessionKey k owner m side amount =>
    exact ⟨_, hmem 7 rfl, ⟨side, amount⟩, (k, owner, m), rfl⟩
  | forceSettle authority m outcome => exact ⟨_, hmem 8 rfl, outcome, (authority, m), rfl⟩
  | settleFromProof resolver m resolution outcome =>
    exact ⟨_, hmem 9 rfl, outcome, (resolver, m, resolution), rfl⟩
  | voidMarket caller m => exact ⟨_, hmem 10 rfl, (), (caller, m), rfl⟩
  | claim claimant m => exact ⟨_, hmem 11 rfl, (), (claimant, m), rfl⟩
  | claimBond creator m => exact ⟨_, hmem 12 rfl, (), (creator, m), rfl⟩
  | closeMarket creator m => exact ⟨_, hmem 13 rfl, (), (creator, m), rfl⟩
  | attestVerification verifier m => exact ⟨_, hmem 14 rfl, (), (verifier, m), rfl⟩
  | attestPricing signer m hash version fairValue bid ask signature ts =>
    exact ⟨_, hmem 15 rfl, ⟨hash, version, fairValue, bid, ask, signature, ts⟩, (signer, m), rfl⟩
  | verifyPricing m bytes => exact ⟨_, hmem 16 rfl, bytes, m, rfl⟩
  | _ => cases h

theorem dispatch_of_laid {rt : Runtime} {ix : TransactionInstruction} {i : Instruction}
    (h : i.Laid rt ix) : dispatch rt ix = some i := by
  obtain ⟨l, hl, -⟩ := id h
  obtain ⟨handler, hmem, hcall⟩ := exists_handler hl
  have hrun := (handlers_agree rt handler hmem ix i).mpr ⟨hcall, h⟩
  exact dispatch_eq_some_iff.mpr ⟨handler, hmem, hrun⟩

/-- **The program reads exactly what its account structs describe.** An instruction is read off a
transaction exactly when the transaction carries it as it is laid out, whatever account, derived or
not, stands in a slot that is not checked. -/
theorem dispatch_iff_laid (rt : Runtime) (ix : TransactionInstruction) (i : Instruction) :
    dispatch rt ix = some i ↔ i.Laid rt ix := by
  constructor
  · intro h
    obtain ⟨handler, hmem, hrun⟩ := dispatch_eq_some_iff.mp h
    exact ((handlers_agree rt handler hmem ix i).mp hrun).2
  · exact dispatch_of_laid

/-! ## The entry points -/

theorem grants_self {a : AccountMeta} {x : Address} (h : a.pubkey = x) :
    a.Grants ⟨x, false, false⟩ := ⟨h, Bool.noConfusion, Bool.noConfusion⟩

theorem grants_mut {a : AccountMeta} {x : Address} (h : a.pubkey = x) (hw : a.isWritable = true) :
    a.Grants ⟨x, false, true⟩ := ⟨h, Bool.noConfusion, fun _ => hw⟩

theorem mutSigner_grants {a : AccountMeta} {k : Pubkey} (h : a.signer = some k)
    (hw : a.isWritable = true) : a.Grants ⟨.external k, true, true⟩ := by
  obtain ⟨hkey, hsigns, -⟩ := AccountMeta.signer_eq_some.mp h
  exact ⟨hkey, hsigns, fun _ => hw⟩

section Entries
variable {rt : Runtime} {ix : TransactionInstruction} {i : Instruction}

theorem settleFromProofEntry_laid (h : settleFromProofEntry ix = some i) : i.Laid rt ix := by
  simp only [settleFromProofEntry, Option.bind_eq_bind, Option.bind_eq_some_iff] at h
  obtain ⟨data, hdata, outcome, houtcome, h⟩ := h
  split at h
  · rename_i resolver market resolution rest hkeys
    simp only [Option.bind_eq_some_iff, AccountMeta.signer_eq_some, AccountMeta.mutMarket_eq_some,
      Option.some_inj] at h
    obtain ⟨k, hk, m, hm, rfl⟩ := h
    obtain ⟨-, hprefix⟩ := Borsh.canonical_byte.run_iff.mp houtcome
    refine ⟨_, rfl, ?_, ?_⟩
    · rw [(afterDiscriminator_eq_some rfl).mp hdata]
      exact (List.prefix_append_right_inj _).mpr hprefix
    · rw [hkeys]
      exact ⟨_, _, rfl, hk, _, _, rfl, hm, _, _, rfl, grants_self rfl, trivial⟩
  · cases h

theorem attestVerificationEntry_laid (h : attestVerificationEntry ix = some i) :
    i.Laid rt ix := by
  simp only [attestVerificationEntry, Option.bind_eq_bind, Option.bind_eq_some_iff] at h
  obtain ⟨data, hdata, h⟩ := h
  split at h
  · rename_i verifier market rest hkeys
    simp only [Option.bind_eq_some_iff, AccountMeta.signer_eq_some, AccountMeta.mutMarket_eq_some,
      Option.some_inj] at h
    obtain ⟨k, hk, m, hm, rfl⟩ := h
    refine ⟨_, rfl, ?_, ?_⟩
    · rw [(afterDiscriminator_eq_some rfl).mp hdata]
      exact List.prefix_append _ _
    · rw [hkeys]
      exact ⟨_, _, rfl, hk, _, _, rfl, hm, trivial⟩
  · cases h

theorem createMarketEntry_laid (h : createMarketEntry rt ix = some i) : i.Laid rt ix := by
  simp only [createMarketEntry, Option.bind_eq_bind, Option.bind_eq_some_iff] at h
  obtain ⟨data, hdata, a, ha, h⟩ := h
  split at h
  · rename_i creator market config systemProgram rest hkeys
    split at h
    · rename_i hw
      obtain ⟨k, hk, h⟩ := Option.bind_eq_some_iff.mp h
      obtain ⟨⟨hmarket, hwritable, hconfig, hsystem⟩, he⟩ := Option.ite_none_right_eq_some.mp h
      cases he
      obtain ⟨-, hprefix⟩ := CreateMarketArgs.canonical.run_iff.mp ha
      refine ⟨_, rfl, ?_, ?_⟩
      · rw [(afterDiscriminator_eq_some rfl).mp hdata]
        exact (List.prefix_append_right_inj _).mpr hprefix
      · rw [hkeys]
        exact ⟨_, _, rfl, mutSigner_grants hk hw, _, _, rfl, grants_mut hmarket hwritable, _, _,
          rfl, grants_self hconfig, _, _, rfl, grants_self hsystem, trivial⟩
    · cases h
  · cases h

theorem attestPricingEntry_laid (h : attestPricingEntry ix = some i) : i.Laid rt ix := by
  simp only [attestPricingEntry, Option.bind_eq_bind, Option.bind_eq_some_iff] at h
  obtain ⟨data, hdata, a, ha, h⟩ := h
  split at h
  · rename_i signer authority market receipt systemProgram rest hkeys
    split at h
    · rename_i hw
      obtain ⟨k, hk, h⟩ := Option.bind_eq_some_iff.mp h
      split at h
      · rename_i m hmarket
        obtain ⟨⟨hauthority, hreceipt, hwritable, hsystem⟩, he⟩ :=
          Option.ite_none_right_eq_some.mp h
        cases he
        obtain ⟨hversion, hprefix⟩ := AttestPricingArgs.canonical.run_iff.mp ha
        refine ⟨_, if_pos hversion, ?_, ?_⟩
        · rw [(afterDiscriminator_eq_some rfl).mp hdata]
          exact (List.prefix_append_right_inj _).mpr hprefix
        · rw [hkeys]
          exact ⟨_, _, rfl, mutSigner_grants hk hw, _, _, rfl, grants_self hauthority, _, _, rfl,
            grants_self hmarket, _, _, rfl, grants_mut hreceipt hwritable, _, _, rfl,
            grants_self hsystem, trivial⟩
      · cases h
    · cases h
  · cases h

theorem verifyPricingEntry_laid (h : verifyPricingEntry ix = some i) : i.Laid rt ix := by
  simp only [verifyPricingEntry, Option.bind_eq_bind, Option.bind_eq_some_iff] at h
  obtain ⟨data, hdata, bytes, hbytes, h⟩ := h
  split at h
  · rename_i receipt rest hkeys
    split at h
    · rename_i m hm
      cases h
      obtain ⟨hlength, hprefix⟩ := Borsh.canonical_vec.run_iff.mp hbytes
      refine ⟨_, if_pos hlength, ?_, ?_⟩
      · rw [(afterDiscriminator_eq_some rfl).mp hdata]
        exact (List.prefix_append_right_inj _).mpr hprefix
      · rw [hkeys]
        exact ⟨_, _, rfl, grants_self hm, trivial⟩
    · cases h
  · cases h

/-- What an entry point reads, the program reads. -/
theorem dispatch_of_entry (h : createMarketEntry rt ix = some i ∨ entrypoint ix = some i ∨
    attestPricingEntry ix = some i ∨ verifyPricingEntry ix = some i) : dispatch rt ix = some i := by
  refine dispatch_of_laid ?_
  rcases h with h | h | h | h
  · exact createMarketEntry_laid h
  · have hor : (settleFromProofEntry ix).or (attestVerificationEntry ix) = some i := by
      rw [← h, entrypoint]
      cases settleFromProofEntry ix <;> rfl
    rcases Option.or_eq_some_iff.mp hor with h | ⟨-, h⟩
    · exact settleFromProofEntry_laid h
    · exact attestVerificationEntry_laid h
  · exact attestPricingEntry_laid h
  · exact verifyPricingEntry_laid h

end Entries

end MarketProgram

end Stoppage
