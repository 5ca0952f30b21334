import Stoppage.Programs.AttestationValidator
import Stoppage.Lib.Borsh

/-! # Entry points

What a transaction carries for each of its instructions, a program, its accounts in order and the
data, and the instruction the program reads out of it: the discriminator selects the handler, the
arguments are decoded one after the other, and the accounts are taken in the order of the handler's
account struct with the checks of that struct. Covered are the instructions of a settlement: those
of the two programs that settle a market, the ed25519 precompile and the compute budget.
-/

namespace Stoppage
open LittleEndian
set_option autoImplicit false

structure AccountMeta where
  pubkey : Address
  isSigner : Bool
  isWritable : Bool

structure TransactionInstruction where
  programId : Pubkey
  keys : List AccountMeta
  data : Bytes

/-- `Ed25519SigVerify111111111111111111111111111` -/
def ed25519ProgramId : Pubkey :=
  ⟨[3, 125, 70, 214, 124, 147, 251, 190, 18, 249, 66, 143, 131, 141, 64, 255,
    5, 112, 116, 73, 39, 244, 138, 100, 252, 202, 112, 68, 128, 0, 0, 0], rfl⟩

/-- `ComputeBudget111111111111111111111111111111` -/
def computeBudgetProgramId : Pubkey :=
  ⟨[3, 6, 70, 111, 229, 33, 23, 50, 255, 236, 173, 186, 114, 195, 155, 231,
    188, 140, 229, 187, 197, 247, 18, 107, 44, 67, 155, 58, 64, 0, 0, 0], rfl⟩

/-! ## Accounts -/

namespace AccountMeta

/-- `Signer<'info>` -/
def signer (a : AccountMeta) : Option Pubkey :=
  match a.pubkey with
  | .external k => if a.isSigner then some k else none
  | _ => none

/-- `Account<'info, Market>`, marked `mut`. -/
def mutMarket (a : AccountMeta) : Option Pubkey :=
  match a.pubkey with
  | .market m => if a.isWritable then some m else none
  | _ => none

end AccountMeta

def afterDiscriminator (discriminator data : Bytes) : Option Bytes :=
  if data.take 8 = discriminator then some (data.drop 8) else none

theorem afterDiscriminator_append {discriminator : Bytes} (h : discriminator.length = 8)
    (data : Bytes) : afterDiscriminator discriminator (discriminator ++ data) = some data := by
  rw [afterDiscriminator, if_pos (List.take_left' h), List.drop_left' h]

/-! ## `programs/settlement` -/

namespace SettlementProgram

/-- The first eight bytes of `sha256("global:resolve_market")`. -/
def resolveMarketDiscriminator : Bytes := [155, 23, 80, 173, 46, 74, 23, 239]

structure ResolveMarketArgs where
  statement : String
  merkleRoot : List.Vector UInt8 32
  outcome : UInt8
  validatorIxData : Bytes

def ResolveMarketArgs.read : Borsh.Reader ResolveMarketArgs := do
  let statement ← Borsh.string
  let merkleRoot ← Borsh.array 32
  let outcome ← Borsh.byte
  let validatorIxData ← Borsh.vec
  pure { statement, merkleRoot, outcome, validatorIxData }

/-- The accounts of `resolve_market`: who pays, the market, which is any account, and the remaining
ones. -/
structure ResolveMarket where
  resolver : Pubkey
  market : Address
  remaining : List Address

def ResolveMarket.tryAccounts (rt : Runtime) : List AccountMeta → Option ResolveMarket
  | resolver :: market :: resolution :: systemProgram :: remaining => do
    let payer ← if resolver.isWritable then resolver.signer else none
    if market.isWritable ∧ resolution.pubkey = rt.receipt market.pubkey ∧ resolution.isWritable ∧
        systemProgram.pubkey = .external systemProgramId then
      some { resolver := payer, market := market.pubkey, remaining := remaining.map (·.pubkey) }
    else none
  | _ => none

def entrypoint (rt : Runtime) (ix : TransactionInstruction) : Option Instruction := do
  let data ← afterDiscriminator resolveMarketDiscriminator ix.data
  let a ← Borsh.run ResolveMarketArgs.read data
  let accounts ← ResolveMarket.tryAccounts rt ix.keys
  some (.resolveMarket accounts.resolver accounts.market a.statement a.merkleRoot a.outcome
    a.validatorIxData accounts.remaining)

theorem entrypoint_of {rt : Runtime} {keys : List AccountMeta} {data : Bytes}
    {a : ResolveMarketArgs} {accounts : ResolveMarket} (ha : Borsh.run ResolveMarketArgs.read data = some a)
    (haccounts : ResolveMarket.tryAccounts rt keys = some accounts) (programId : Pubkey) :
    entrypoint rt ⟨programId, keys, resolveMarketDiscriminator ++ data⟩ =
      some (.resolveMarket accounts.resolver accounts.market a.statement a.merkleRoot a.outcome
        a.validatorIxData accounts.remaining) := by
  rw [entrypoint, afterDiscriminator_append rfl, Option.bind_eq_bind, Option.bind_some, ha,
    Option.bind_eq_bind, Option.bind_some, haccounts]
  rfl

end SettlementProgram

/-! ## `programs/market` -/

namespace MarketProgram

/-- The first eight bytes of `sha256("global:settle_from_proof")`. -/
def settleFromProofDiscriminator : Bytes := [232, 8, 28, 31, 83, 231, 83, 105]

/-- The first eight bytes of `sha256("global:attest_verification")`. -/
def attestVerificationDiscriminator : Bytes := [174, 250, 164, 34, 215, 158, 186, 134]

/-- `settle_from_proof`: the resolver, the market, and the account to read the receipt from. -/
def settleFromProofEntry (ix : TransactionInstruction) : Option Instruction := do
  let data ← afterDiscriminator settleFromProofDiscriminator ix.data
  let outcome ← Borsh.run Borsh.byte data
  match ix.keys with
  | resolver :: market :: resolution :: _ => do
    let k ← resolver.signer
    let m ← market.mutMarket
    some (.settleFromProof k m resolution.pubkey outcome)
  | _ => none

/-- `attest_verification`: the verifier and the market. -/
def attestVerificationEntry (ix : TransactionInstruction) : Option Instruction := do
  let _ ← afterDiscriminator attestVerificationDiscriminator ix.data
  match ix.keys with
  | verifier :: market :: _ => do
    let k ← verifier.signer
    let m ← market.mutMarket
    some (.attestVerification k m)
  | _ => none

def entrypoint (ix : TransactionInstruction) : Option Instruction :=
  settleFromProofEntry ix <|> attestVerificationEntry ix

end MarketProgram

/-! ## Transactions -/

/-- `SetComputeUnitLimit`, the variant 2 of the compute budget's instructions. -/
def computeBudgetEntry (ix : TransactionInstruction) : Option Instruction :=
  match ix.data with
  | 2 :: data => Instruction.setComputeUnitLimit <$> Borsh.run Borsh.u32 data
  | _ => none

def TransactionInstruction.load (rt : Runtime) (ix : TransactionInstruction) :
    Option Instruction :=
  if ix.programId = settlementProgramId then SettlementProgram.entrypoint rt ix
  else if ix.programId = marketProgramId then MarketProgram.entrypoint ix
  else if ix.programId = ed25519ProgramId then some (.ed25519 ix.data)
  else if ix.programId = computeBudgetProgramId then computeBudgetEntry ix
  else none

end Stoppage
