import Stoppage.Programs.Entrypoint
import Stoppage.Programs.Market

/-! # Entry points of `programs/market`

The instructions that create a market, and those that commit a price and check it, as the program
reads them out of a transaction.
-/

namespace Stoppage
open LittleEndian
set_option autoImplicit false

def Pubkey.read : Borsh.Reader Pubkey := do
  let bs ← Borsh.bytes 32
  StateT.lift (Pubkey.tryFrom bs)

theorem Pubkey.reads (k : Pubkey) : Borsh.Reads Pubkey.read k.bytes k := by
  have hlast : Borsh.Reads (StateT.lift (Pubkey.tryFrom k.bytes)) [] k := by
    intro rest
    rw [k.tryFrom_bytes]
    rfl
  have hall := (Borsh.reads_bytes k.size).bind (q := fun bs => StateT.lift (Pubkey.tryFrom bs)) hlast
  rw [List.append_nil] at hall
  exact hall

namespace MarketProgram

/-! ## `create_market` -/

def createMarketDiscriminator : Bytes := [103, 226, 97, 235, 200, 188, 251, 254]

structure CreateMarketArgs where
  seeds : MarketSeeds
  closesAt : Int64
  oracle : Pubkey

def CreateMarketArgs.read : Borsh.Reader CreateMarketArgs := do
  let kind ← Borsh.byte
  let matchId ← Borsh.array 32
  let team ← Borsh.array 8
  let paramU64 ← Borsh.u64
  let closesAt ← Borsh.i64
  let oracle ← Pubkey.read
  pure { seeds := { matchId, kind, team, paramU64 }, closesAt, oracle }

def CreateMarketArgs.data (a : CreateMarketArgs) : Bytes :=
  [a.seeds.kind] ++ (a.seeds.matchId.1 ++ (a.seeds.team.1 ++ (encodeU64 a.seeds.paramU64 ++
    (encodeI64 a.closesAt ++ a.oracle.bytes))))

theorem CreateMarketArgs.reads (a : CreateMarketArgs) :
    Borsh.Reads CreateMarketArgs.read a.data a := by
  refine (Borsh.reads_byte a.seeds.kind).bind ?_
  refine (Borsh.reads_array a.seeds.matchId).bind ?_
  refine (Borsh.reads_array a.seeds.team).bind ?_
  refine (Borsh.reads_u64 a.seeds.paramU64).bind ?_
  refine (Borsh.reads_i64 a.closesAt).bind ?_
  exact (Pubkey.reads a.oracle).map fun oracle => { a with oracle }

def createMarketEntry (rt : Runtime) (ix : TransactionInstruction) : Option Instruction := do
  let data ← afterDiscriminator createMarketDiscriminator ix.data
  let a ← Borsh.run CreateMarketArgs.read data
  match ix.keys with
  | creator :: market :: config :: systemProgram :: _ => do
    let k ← if creator.isWritable then creator.signer else none
    if market.pubkey = .market (rt.marketAddress a.seeds) ∧ market.isWritable ∧
        config.pubkey = .protocolConfig ∧ systemProgram.pubkey = .external systemProgramId then
      some (.createMarket k a.seeds a.closesAt a.oracle)
    else none
  | _ => none

theorem createMarketEntry_data (rt : Runtime) (programId creator : Pubkey)
    (a : CreateMarketArgs) : createMarketEntry rt ⟨programId,
      [⟨.external creator, true, true⟩, ⟨.market (rt.marketAddress a.seeds), false, true⟩,
        ⟨.protocolConfig, false, false⟩, ⟨.external systemProgramId, false, false⟩],
      createMarketDiscriminator ++ a.data⟩ = some (.createMarket creator a.seeds a.closesAt a.oracle) := by
  rw [createMarketEntry, afterDiscriminator_append rfl, Option.bind_eq_bind, Option.bind_some,
    a.reads.run, Option.bind_eq_bind, Option.bind_some]
  have hkeys : Address.market (rt.marketAddress a.seeds) = .market (rt.marketAddress a.seeds) ∧
      true = true ∧ Address.protocolConfig = .protocolConfig ∧
        Address.external systemProgramId = .external systemProgramId := ⟨rfl, rfl, rfl, rfl⟩
  exact if_pos hkeys

/-! ## `attest_pricing` -/

def attestPricingDiscriminator : Bytes := [23, 229, 37, 222, 205, 245, 88, 3]

structure AttestPricingArgs where
  snapshotHash : List.Vector UInt8 32
  modelVersion : String
  fairValue : UInt64
  bid : UInt64
  ask : UInt64
  agentSignature : List.Vector UInt8 64
  ts : Int64

def AttestPricingArgs.read : Borsh.Reader AttestPricingArgs := do
  let snapshotHash ← Borsh.array 32
  let modelVersion ← Borsh.string
  let fairValue ← Borsh.u64
  let bid ← Borsh.u64
  let ask ← Borsh.u64
  let agentSignature ← Borsh.array 64
  let ts ← Borsh.i64
  pure { snapshotHash, modelVersion, fairValue, bid, ask, agentSignature, ts }

def AttestPricingArgs.data (a : AttestPricingArgs) : Bytes :=
  a.snapshotHash.1 ++ ((encode 4 (utf8 a.modelVersion).length ++ utf8 a.modelVersion) ++
    (encodeU64 a.fairValue ++ (encodeU64 a.bid ++ (encodeU64 a.ask ++
      (a.agentSignature.1 ++ encodeI64 a.ts)))))

theorem AttestPricingArgs.reads (a : AttestPricingArgs)
    (hversion : (utf8 a.modelVersion).length < 2 ^ 32) :
    Borsh.Reads AttestPricingArgs.read a.data a := by
  refine (Borsh.reads_array a.snapshotHash).bind ?_
  refine (Borsh.reads_string (utf8_toByteArray _) hversion).bind ?_
  refine (Borsh.reads_u64 a.fairValue).bind ?_
  refine (Borsh.reads_u64 a.bid).bind ?_
  refine (Borsh.reads_u64 a.ask).bind ?_
  refine (Borsh.reads_array a.agentSignature).bind ?_
  exact (Borsh.reads_i64 a.ts).map fun ts => { a with ts }

/-- `attest_pricing`: the agent, who pays, its authority record, the market and the receipt. -/
def attestPricingEntry (ix : TransactionInstruction) : Option Instruction := do
  let data ← afterDiscriminator attestPricingDiscriminator ix.data
  let a ← Borsh.run AttestPricingArgs.read data
  match ix.keys with
  | signer :: authority :: market :: receipt :: systemProgram :: _ => do
    let k ← if signer.isWritable then signer.signer else none
    match market.pubkey with
    | .market m =>
      if authority.pubkey = .agentAuthority ∧ receipt.pubkey = .pricingReceipt m ∧
          receipt.isWritable ∧ systemProgram.pubkey = .external systemProgramId then
        some (.attestPricing k m a.snapshotHash a.modelVersion a.fairValue a.bid a.ask
          a.agentSignature a.ts)
      else none
    | _ => none
  | _ => none

theorem attestPricingEntry_data (programId signer m : Pubkey) {a : AttestPricingArgs}
    (hversion : (utf8 a.modelVersion).length < 2 ^ 32) : attestPricingEntry ⟨programId,
      [⟨.external signer, true, true⟩, ⟨.agentAuthority, false, false⟩, ⟨.market m, false, false⟩,
        ⟨.pricingReceipt m, false, true⟩, ⟨.external systemProgramId, false, false⟩],
      attestPricingDiscriminator ++ a.data⟩ = some (.attestPricing signer m a.snapshotHash
        a.modelVersion a.fairValue a.bid a.ask a.agentSignature a.ts) := by
  rw [attestPricingEntry, afterDiscriminator_append rfl, Option.bind_eq_bind, Option.bind_some,
    (a.reads hversion).run, Option.bind_eq_bind, Option.bind_some]
  have hkeys : Address.agentAuthority = .agentAuthority ∧
      Address.pricingReceipt m = .pricingReceipt m ∧ true = true ∧
        Address.external systemProgramId = .external systemProgramId := ⟨rfl, rfl, rfl, rfl⟩
  exact if_pos hkeys

/-! ## `verify_pricing` -/

def verifyPricingDiscriminator : Bytes := [148, 208, 151, 250, 30, 144, 142, 74]

def verifyPricingEntry (ix : TransactionInstruction) : Option Instruction := do
  let data ← afterDiscriminator verifyPricingDiscriminator ix.data
  let snapshotBytes ← Borsh.run Borsh.vec data
  match ix.keys with
  | receipt :: _ =>
    match receipt.pubkey with
    | .pricingReceipt m => some (.verifyPricing m snapshotBytes)
    | _ => none
  | _ => none

theorem verifyPricingEntry_data (programId m : Pubkey) {snapshotBytes : Bytes}
    (hlength : snapshotBytes.length < 2 ^ 32) : verifyPricingEntry ⟨programId,
      [⟨.pricingReceipt m, false, false⟩],
      verifyPricingDiscriminator ++ (encode 4 snapshotBytes.length ++ snapshotBytes)⟩ =
        some (.verifyPricing m snapshotBytes) := by
  rw [verifyPricingEntry, afterDiscriminator_append rfl, Option.bind_eq_bind, Option.bind_some,
    (Borsh.reads_vec hlength).run]
  rfl

end MarketProgram

end Stoppage
