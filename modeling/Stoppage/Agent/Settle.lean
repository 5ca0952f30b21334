import Stoppage.Agent.AttestationKeeper
import Stoppage.Agent.State
import Stoppage.Sdk.Pyth
import Stoppage.Sdk.Txline

/-! # `apps/agent/src/settle.ts` and the keepers: the instructions of a settlement

A transaction is the list of its instructions.
-/

namespace Stoppage.Agent
open Fallible Sdk
set_option autoImplicit false

/-! ## The instructions -/

/-- What `fetchStatValidation` answers, its hashes already turned to bytes by `toBytes32`. -/
structure StatValidation where
  fixtureId : ℤ
  updateStats : Sdk.ScoresUpdateStats
  eventStatsSubTreeRoot : List.Vector UInt8 32
  subTreeProof : JsArray Sdk.ProofNode
  mainTreeProof : JsArray Sdk.ProofNode
  eventStatRoot : List.Vector UInt8 32
  statToProve : StatToProve
  statToProve2 : Option StatToProve
  statProof : JsArray Sdk.ProofNode
  statProof2 : Option (JsArray Sdk.ProofNode)

/-- The TxLINE program, and the address that `deriveDailyScoresRootsPda` has for a day. -/
structure TxlineProgram where
  programId : Pubkey
  dailyScoresRoots : ℕ → Pubkey

def epochDayFromTimestamp (proofTimestampMs : ℤ) : Except SdkError ℕ := do
  require (0 ≤ proofTimestampMs ∧ proofTimestampMs < 2 ^ 53)
    (.error "Expected a non-negative proof timestamp in milliseconds")
  let epochDay := proofTimestampMs / 86400000
  require (epochDay ≤ 0xffff) (.error "Proof timestamp is outside the u16 epoch-day range")
  pure epochDay.toNat

def statTerm (root : List.Vector UInt8 32) (stat : StatToProve)
    (proofNodes : JsArray Sdk.ProofNode) : Sdk.StatTerm where
  statToProve := ⟨stat.key, stat.value, stat.period.getD 0⟩
  eventStatRoot := root.1
  statProof := proofNodes

/-- The second statistic of a total, if it was asked for and is there. -/
def secondStat (proof : StatValidation) (args : SettleProofArgs) : Option Sdk.StatTerm := do
  let _ ← args.statKey2
  let stat ← proof.statToProve2
  let proofNodes ← proof.statProof2
  some (statTerm proof.eventStatRoot stat proofNodes)

/-- `toSide` of the two enumerations of sides. -/
def Side.toSdk : Side → Sdk.Side
  | .yes => .yes
  | .no => .no

structure SettleIxs where
  budgetIx : TransactionInstruction
  resolveIx : TransactionInstruction
  settleIx : TransactionInstruction

def buildSettleFromProofIxs (txline : TxlineProgram) (proof : StatValidation)
    (args : SettleProofArgs) (wallet : Pubkey) : Except SdkError SettleIxs := do
  let epochDay ← epochDayFromTimestamp proof.updateStats.minTimestamp
  let statB := secondStat proof args
  let txlineIxData ← buildTxlineValidateStatData
    { ts := proof.updateStats.minTimestamp
      fixtureSummary :=
        { fixtureId := proof.fixtureId
          updateStats := proof.updateStats
          eventsSubTreeRoot := proof.eventStatsSubTreeRoot.1 }
      fixtureProof := proof.subTreeProof
      mainTreeProof := proof.mainTreeProof
      predicate := ⟨args.threshold, .greaterThan⟩
      statA := statTerm proof.eventStatRoot proof.statToProve proof.statProof
      statB
      op := statB.map fun _ => .add }
  let resolveIx ← buildResolveMarketIx wallet args.marketPda txline.programId
    [.external (txline.dailyScoresRoots epochDay)] args.statement proof.eventStatRoot.1
    (if args.outcome = .yes then 0 else 1) txlineIxData
  pure
    { budgetIx := setComputeUnitLimit 1400000
      resolveIx
      settleIx := buildSettleFromProofIx wallet args.marketPda args.outcome.toSdk }

/-! ## The transactions -/

def SettleIxs.all (ixs : SettleIxs) : List TransactionInstruction :=
  [ixs.budgetIx, ixs.resolveIx, ixs.settleIx]

/-- The instructions in two halves, each with its own compute budget. -/
def SettleIxs.parts (ixs : SettleIxs) : List (List TransactionInstruction) :=
  [[ixs.budgetIx, ixs.resolveIx], [setComputeUnitLimit 1400000, ixs.settleIx]]

/-! ## The keepers -/

/-- The second transaction of `settlePriceMarket`; the first posts the price. -/
def settlePriceMarketTxs (js : Packages) (wallet marketPda : Pubkey) (statement : String)
    (outcome : ℤ) (proof : PythProof) : Except SdkError (List (List TransactionInstruction)) := do
  let resolveIx ← buildResolveMarketIxFromOracle (pythOracle js.sha256) wallet marketPda statement
    outcome proof
  pure
    [[setComputeUnitLimit 1400000, resolveIx,
      buildSettleFromProofIx wallet marketPda (if outcome = 0 then .yes else .no),
      buildAttestVerificationIx wallet marketPda]]

/-- The one transaction of the attestation keeper, and of the price keeper with that oracle. -/
def attestationKeeperTxs (js : Packages) (cfg : AttestationKeeperConfig) (marketPda : Pubkey)
    (statement : String) (outcome : ℤ) (observation : AttestationObservation)
    (claim : AttestationClaim) (message : Bytes) :
    Except SdkError (List (List TransactionInstruction)) := do
  let bundle ← buildSettlementBundle js cfg marketPda statement outcome observation claim message
  pure [bundle]

end Stoppage.Agent
