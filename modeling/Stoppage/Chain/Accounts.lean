import Stoppage.Lib.LittleEndian
import Mathlib.Data.FinEnum
import Mathlib.Data.Fintype.Vector
import Mathlib.Tactic.DeriveFintype

/-! # Keys, addresses and the accounts of the programs

The account data of `programs/market`, `programs/settlement` and `programs/attestation_validator`,
field by field, with the byte layouts that one program reads of another. A program-derived address
is represented by its program and seeds (`Address`), which is how the runtime tells accounts apart
as long as the address hash has no collisions. The address of a market is also stored as data, so
it stays a 32-byte key.
-/

namespace Stoppage
open LittleEndian
set_option autoImplicit false

abbrev Bytes := List UInt8

/-! ## Keys -/

structure Pubkey where
  bytes : Bytes
  size : bytes.length = 32
deriving DecidableEq

def Pubkey.equivVector : Pubkey ≃ List.Vector UInt8 32 where
  toFun k := ⟨k.bytes, k.size⟩
  invFun v := ⟨v.1, v.2⟩
  left_inv _ := rfl
  right_inv _ := rfl

theorem Pubkey.bytes_inj {k l : Pubkey} : k.bytes = l.bytes ↔ k = l := by
  rw [Pubkey.mk.injEq]

instance : Fintype Pubkey := Fintype.ofEquiv _ Pubkey.equivVector.symm

/-- `Pubkey::try_from`. -/
def Pubkey.tryFrom (bs : Bytes) : Option Pubkey :=
  if h : bs.length = 32 then some ⟨bs, h⟩ else none

theorem Pubkey.tryFrom_bytes (k : Pubkey) : Pubkey.tryFrom k.bytes = some k := dif_pos k.size

/-- The default key, 32 zero bytes, is also the id of the system program. -/
def systemProgramId : Pubkey := ⟨List.replicate 32 0, rfl⟩

/-- `92TmrM6wKEUWnnH9QAo7VNjzHhTFeAxz8MB7v2wQzjLG` -/
def marketProgramId : Pubkey :=
  ⟨[119, 61, 89, 79, 224, 158, 25, 254, 180, 52, 60, 17, 47, 191, 67, 119,
    99, 182, 5, 105, 72, 177, 16, 8, 185, 84, 32, 157, 197, 92, 80, 29], rfl⟩

/-- `5vCo4bXgUJrDiYLs8Lg4s5CGp1D9CBCBr5WsKCUnkLcF` -/
def settlementProgramId : Pubkey :=
  ⟨[73, 15, 221, 197, 204, 141, 132, 203, 48, 231, 209, 169, 105, 249, 8, 116,
    220, 183, 110, 48, 194, 58, 11, 186, 181, 137, 152, 167, 163, 142, 183, 208], rfl⟩

/-- `73co8qb1DPiQP9zphReVNdsUPsHJZ5EoD3RpfKWUoQQG` -/
def pythValidatorId : Pubkey :=
  ⟨[89, 209, 193, 215, 249, 100, 44, 136, 115, 105, 135, 95, 221, 152, 166, 70,
    97, 111, 9, 111, 106, 209, 26, 35, 233, 119, 222, 89, 81, 45, 161, 1], rfl⟩

/-- `CJ5VvvWqFeP6MfNyyDPvZ3kNNj4h1bbQrv1iQsPF4TDp` -/
def attestationValidatorId : Pubkey :=
  ⟨[167, 208, 132, 73, 16, 247, 191, 163, 113, 148, 136, 123, 61, 52, 102, 229,
    104, 40, 133, 183, 125, 186, 226, 85, 191, 159, 244, 109, 97, 248, 184, 167], rfl⟩

/-- `rec5EKMGg6MxZYaMdyBfgwp4d5rB9T1VQH5pJv5LtFJ` -/
def pythReceiverProgramId : Pubkey :=
  ⟨[12, 183, 250, 187, 82, 247, 166, 72, 187, 91, 49, 125, 154, 1, 139, 144,
    87, 203, 2, 71, 116, 250, 254, 1, 230, 196, 223, 152, 204, 56, 88, 129], rfl⟩

/-- `Sysvar1nstructions1111111111111111111111111` -/
def instructionsSysvarId : Pubkey :=
  ⟨[6, 167, 213, 23, 24, 123, 209, 102, 53, 218, 212, 4, 85, 253, 194, 192,
    193, 36, 198, 143, 33, 86, 117, 165, 219, 186, 203, 95, 8, 0, 0, 0], rfl⟩

/-! ## Addresses -/

/-- `external` is every account that is not derived by one of the programs: wallets, programs,
sysvars, accounts of other programs. The other constructors carry the seeds of the derived ones.
`strayResolution` is the receipt of an account that is no market: its seed is no market's key. -/
inductive Address
  | external (key : Pubkey)
  | market (key : Pubkey)
  | position (market owner : Pubkey)
  | sessionGrant (owner session : Pubkey)
  | pricingReceipt (market : Pubkey)
  | resolution (market : Pubkey)
  | strayResolution (key : Pubkey)
  | config (authority : Pubkey)
  | protocolConfig
  | agentAuthority
  | treasury
deriving DecidableEq, Fintype

/-- The seeds of a market address, besides the constant prefix. -/
structure MarketSeeds where
  matchId : List.Vector UInt8 32
  kind : UInt8
  team : List.Vector UInt8 8
  paramU64 : UInt64
deriving DecidableEq

/-! ## Accounts of `programs/market` -/

def sideYes : UInt8 := 0
def sideNo : UInt8 := 1
def outcomeVoid : UInt8 := 2

def statusOpen : UInt8 := 0
def statusAwaiting : UInt8 := 1
def statusSettled : UInt8 := 2
def statusVoid : UInt8 := 3

def gracePeriodSeconds : Int64 := 3600
def marketCloseGraceSeconds : Int64 := 604800
def minBondLamports : UInt64 := 10000000
def maxModelVersionLen : ℕ := 64
def maxPrograms : ℕ := 4

structure ProtocolConfig where
  authority : Pubkey
  feeBps : UInt16
  treasury : Address
  bump : UInt8

def ProtocolConfig.space : ℕ := 8 + 32 + 2 + 32 + 1

structure AgentAuthority where
  authority : Pubkey
  bump : UInt8

def AgentAuthority.space : ℕ := 8 + 32 + 1

structure SessionGrant where
  owner : Pubkey
  sessionPubkey : Pubkey
  allowedPrograms : List Pubkey
  maxStakePerMarket : UInt64
  maxTotalStake : UInt64
  stakedSoFar : UInt64
  expiresAt : Int64
  revoked : Bool
  bump : UInt8

def SessionGrant.space : ℕ := 8 + 32 + 32 + 4 + maxPrograms * 32 + 8 + 8 + 8 + 8 + 1 + 1

structure Market where
  kind : UInt8
  matchId : List.Vector UInt8 32
  team : List.Vector UInt8 8
  paramU64 : UInt64
  creator : Pubkey
  oracle : Pubkey
  bondLamports : UInt64
  bondClaimed : Bool
  yesPool : UInt64
  noPool : UInt64
  closesAt : Int64
  settlesAt : Int64
  status : UInt8
  outcome : UInt8
  feeBps : UInt16
  verifications : UInt32
  bump : UInt8
deriving DecidableEq

def Market.space : ℕ := 8 + 1 + 32 + 8 + 8 + 32 + 32 + 8 + 1 + 8 + 8 + 8 + 8 + 1 + 1 + 2 + 4 + 1

structure Position where
  market : Pubkey
  owner : Pubkey
  side : UInt8
  amountLamports : UInt64
  openedViaSessionKey : Bool
  bump : UInt8
deriving DecidableEq

def Position.space : ℕ := 8 + 32 + 32 + 1 + 8 + 1 + 1

def Position.empty : Position :=
  ⟨systemProgramId, systemProgramId, 0, 0, false, 0⟩

structure PricingReceipt where
  market : Pubkey
  snapshotHash : List.Vector UInt8 32
  modelVersion : String
  fairValue : UInt64
  bid : UInt64
  ask : UInt64
  agentSignature : List.Vector UInt8 64
  ts : Int64
  bump : UInt8

def PricingReceipt.space : ℕ := 8 + 32 + 4 + maxModelVersionLen + 8 + 8 + 8 + 64 + 8 + 1

/-! ## The receipt of `programs/settlement` -/

structure Resolution where
  market : Pubkey
  outcome : UInt8
  validatorProgram : Pubkey
  merkleRoot : List.Vector UInt8 32
  resolver : Pubkey
  resolvedAt : Int64
  bump : UInt8
deriving DecidableEq

def Resolution.space : ℕ := 8 + 32 + 1 + 32 + 32 + 32 + 8 + 1

/-- The first eight bytes of `sha256("account:Resolution")`, which the account macro prepends. -/
def Resolution.discriminator : Bytes := [31, 13, 235, 201, 17, 66, 5, 138]

/-- The bytes of the account: discriminator, then the fields in order. -/
def Resolution.data (r : Resolution) : Bytes :=
  Resolution.discriminator ++ (r.market.bytes ++ ([r.outcome] ++ (r.validatorProgram.bytes ++
    (r.merkleRoot.1 ++ (r.resolver.bytes ++ (encodeI64 r.resolvedAt ++ [r.bump]))))))

theorem Resolution.length_data (r : Resolution) : r.data.length = Resolution.space := by
  simp only [Resolution.data, List.length_append, Pubkey.size, r.merkleRoot.2, length_encodeI64,
    Resolution.discriminator, List.length_cons, List.length_nil, Resolution.space]

/-! ## The operator key of `programs/attestation_validator` -/

structure Config where
  authority : Pubkey

def Config.space : ℕ := 8 + 32

/-! ## Accounts of other programs -/

structure ExternalAccount where
  owner : Pubkey
  data : Bytes

/-- A wallet: owned by the system program and without data. -/
def ExternalAccount.wallet : ExternalAccount := ⟨systemProgramId, []⟩

def ExternalAccount.IsWallet (a : ExternalAccount) : Prop :=
  a.owner = systemProgramId ∧ a.data = []

instance (a : ExternalAccount) : Decidable a.IsWallet :=
  inferInstanceAs (Decidable (a.owner = systemProgramId ∧ a.data = []))

end Stoppage
