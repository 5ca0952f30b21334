import Stoppage.Chain.Accounts
import Stoppage.Lib.BalanceSheet

/-! # The chain the programs run on

The state of the ledger as the four programs see it, the instructions a transaction can carry, and
the operations of the runtime they share: moving lamports, creating an account, reading its owner
and its raw bytes. What the runtime supplies and the repository does not (address derivation, rent,
hashing, signature verification, other programs) is the structure `Runtime`, a parameter of
everything that follows.

Transaction fees are ordinary transfers out of a wallet and are not singled out.
-/

namespace Stoppage
open Fallible
set_option autoImplicit false

/-! ## Errors -/

inductive AnchorError
  | accountNotInitialized
  | accountNotEnoughKeys
  | constraintSeeds
  | instructionFallbackNotFound
  | instructionDidNotDeserialize
  | accountDidNotSerialize
deriving DecidableEq

inductive MarketError
  | tooManyPrograms
  | grantRevoked
  | grantExpired
  | ownerMismatch
  | spendCapExceeded
  | stakeCapExceeded
  | programNotAllowed
  | feeTooHigh
  | marketNotOpen
  | marketClosed
  | notSettled
  | alreadySettled
  | gracePeriodNotElapsed
  | invalidSide
  | alreadyJoinedOtherSide
  | invalidOutcome
  | invalidPredicateKind
  | closesInPast
  | zeroAmount
  | nothingToClaim
  | notPositionOwner
  | invalidResolutionOwner
  | invalidResolutionPda
  | malformedResolution
  | resolutionMarketMismatch
  | resolutionOutcomeMismatch
  | resolutionOracleMismatch
  | notCreator
  | bondAlreadyClaimed
  | claimWindowOpen
  | notProtocolAuthority
  | notAgentAuthority
  | snapshotHashMismatch
  | modelVersionTooLong
  | emptyAgentSignature
deriving DecidableEq

inductive SettlementError
  | noReturnData
  | invalidReturnSource
  | proofOutcomeMismatch
  | invalidOutcome
  | invalidMarketOwner
  | missingValidatorProgram
deriving DecidableEq

/-- `ValidatorError` of `programs/pyth_validator`. -/
inductive PythError
  | notPythReceiverAccount
  | malformedUpdate
  | feedMismatch
  | beforeReference
  | outsideWindow
  | overflow
deriving DecidableEq

/-- `ValidatorError` of `programs/attestation_validator`. -/
inductive AttestationError
  | missingInstructionsSysvar
  | missingEd25519Instruction
  | malformedSigIx
  | crossInstructionReference
  | signerMismatch
  | messageMismatch
  | beforeReference
  | outsideWindow
  | invalidOp
  | overflow
deriving DecidableEq

/-- Where an arithmetic panic happened: release builds keep the overflow checks. -/
inductive Site
  | applyJoin
  | joinViaSessionKey
  | voidMarket
  | claim
  | claimBond
  | closeMarket
  | attestVerification
  | revokeSessionKey
deriving DecidableEq

inductive ProgramError
  | anchor (e : AnchorError)
  | market (e : MarketError)
  | settlement (e : SettlementError)
  | pyth (e : PythError)
  | attestation (e : AttestationError)
  | overflow (site : Site)
  | insufficientFunds
  | lamportOverflow
  | notAWallet
  | accountInUse
  | notAProgram
  | callFailed
  | precompileFailed
  | clockBackwards
deriving DecidableEq

/-! ## Events -/

inductive Event
  | protocolInitialized (authority : Pubkey) (feeBps : UInt16) (treasuryKey : Address)
      (agent : Pubkey)
  | agentAuthoritySet (authority agentAuthority : Pubkey)
  | sessionKeyDelegated (owner sessionPubkey : Pubkey) (expiresAt : Int64) (maxTotalStake : UInt64)
  | sessionKeyRevoked (owner sessionPubkey : Pubkey)
  | sessionPing (owner sessionPubkey : Pubkey) (timestamp : Int64)
  | marketCreated (market creator oracle : Pubkey) (kind : UInt8) (closesAt : Int64)
  | positionOpened (market owner : Pubkey) (side : UInt8) (amount : UInt64) (viaSessionKey : Bool)
  | marketSettled (market : Pubkey) (outcome : UInt8) (settlesAt : Int64) (mock : Bool)
  | marketVoided (market : Pubkey) (voidedAt : Int64)
  | positionClaimed (market owner : Pubkey) (payout fee : UInt64)
  | bondClaimed (market creator : Pubkey) (bond : UInt64)
  | marketClosed (market creator : Pubkey) (refunded : UInt64)
  | verificationAttested (market verifier : Pubkey) (count : UInt32)
  | marketPriced (market : Pubkey) (snapshotHash : List.Vector UInt8 32) (modelVersion : String)
      (fairValue bid ask : UInt64) (ts : Int64)
  | pricingVerified (market : Pubkey) (snapshotHash : List.Vector UInt8 32) (modelVersion : String)
      (fairValue bid ask : UInt64)
  | marketResolved (market : Pubkey) (resolution : Address) (statement : String)
      (validatorProgram : Pubkey) (merkleRoot : List.Vector UInt8 32) (outcome : UInt8)
      (proofHash : List.Vector UInt8 32) (resolver : Pubkey) (timestamp : Int64)
      (validatedOnChain : Bool)

/-! ## State -/

/-- `position` and `sessionGrant` are keyed by their two seeds: market and owner, owner and
session key. -/
structure Chain where
  now : Int64
  lamports : Address → UInt64
  protocolConfig : Option ProtocolConfig
  agentAuthority : Option AgentAuthority
  sessionGrant : Pubkey × Pubkey → Option SessionGrant
  market : Pubkey → Option Market
  position : Pubkey × Pubkey → Option Position
  pricingReceipt : Pubkey → Option PricingReceipt
  resolution : Pubkey → Option Resolution
  strayResolution : Pubkey → Option Resolution
  config : Pubkey → Option Config
  external : Pubkey → ExternalAccount
  events : List Event

/-! ## Instructions -/

/-- The top-level instructions of a transaction, with the accounts and arguments each one reads.
Accounts fixed by their seeds are not listed. An account that is not checked stands with its
address, of whatever program. -/
inductive Instruction
  | initializeProtocol (authority : Pubkey) (feeBps : UInt16)
  | setAgentAuthority (authority agentAuthority : Pubkey)
  | delegateSessionKey (owner : Pubkey) (session : Address) (allowedPrograms : List Pubkey)
      (maxStakePerMarket maxTotalStake : UInt64) (expiresAt : Int64) (fundLamports : UInt64)
  | revokeSessionKey (owner : Pubkey) (session : Address)
  | sessionPing (sessionKey : Pubkey) (owner : Address)
  | createMarket (creator : Pubkey) (seeds : MarketSeeds) (closesAt : Int64) (oracle : Pubkey)
  | joinViaWallet (signer market : Pubkey) (side : UInt8) (amount : UInt64)
  | joinViaSessionKey (sessionKey : Pubkey) (owner : Address) (market : Pubkey) (side : UInt8)
      (amount : UInt64)
  | forceSettle (authority market : Pubkey) (outcome : UInt8)
  | settleFromProof (resolver market : Pubkey) (resolution : Address) (outcome : UInt8)
  | voidMarket (caller market : Pubkey)
  | claim (claimant market : Pubkey)
  | claimBond (creator market : Pubkey)
  | closeMarket (creator market : Pubkey)
  | attestVerification (verifier market : Pubkey)
  | attestPricing (signer market : Pubkey) (snapshotHash : List.Vector UInt8 32)
      (modelVersion : String) (fairValue bid ask : UInt64)
      (agentSignature : List.Vector UInt8 64) (ts : Int64)
  | verifyPricing (market : Pubkey) (snapshotBytes : Bytes)
  | resolveMarket (resolver : Pubkey) (market : Address) (statement : String)
      (merkleRoot : List.Vector UInt8 32) (outcome : UInt8) (validatorIxData : Bytes)
      (remaining : List Address)
  | initializeConfig (payer authority : Pubkey)
  | systemTransfer (source : Pubkey) (target : Address) (lamports : UInt64)
  | ed25519 (data : Bytes)
  | setComputeUnitLimit (units : UInt32)

/-- What an executing instruction sees of its transaction: the sysvar `instructions`. -/
structure TxContext where
  instructions : List Instruction
  index : ℕ

/-- Return data: the program that set it, and its bytes. -/
abbrev ReturnData := Pubkey × Bytes

/-! ## Runtime -/

/-- `program` is any program outside the repository, called with read-only accounts: it may read
the whole chain and its clock, and changes nothing. `pda` is the key of a derived account. -/
structure Runtime where
  marketAddress : MarketSeeds → Pubkey
  pda : Address → Pubkey
  bump : Address → UInt8
  minimumBalance : ℕ → UInt64
  sha256 : Bytes → Bytes
  ed25519Verify : Bytes → Bytes → Bytes → Bool
  instructionData : Instruction → Bytes
  program : Pubkey → Bytes → List Address → TxContext → Chain →
    Except ProgramError (Option ReturnData)

/-- The key under which an account is passed, which a handler may store or derive from. -/
def Runtime.key (rt : Runtime) : Address → Pubkey
  | .external k => k
  | .market m => m
  | a => rt.pda a

/-- The receipt of an account: `[b"resolution", key]`. -/
def Runtime.receipt (rt : Runtime) : Address → Address
  | .market m => .resolution m
  | a => .strayResolution (rt.key a)

namespace Chain

/-- The program that owns an account; a closed or missing one belongs to the system program. -/
def owner (s : Chain) : Address → Pubkey
  | .external k => (s.external k).owner
  | .market m => if (s.market m).isSome then marketProgramId else systemProgramId
  | .position m o => if (s.position (m, o)).isSome then marketProgramId else systemProgramId
  | .sessionGrant o k => if (s.sessionGrant (o, k)).isSome then marketProgramId else systemProgramId
  | .pricingReceipt m => if (s.pricingReceipt m).isSome then marketProgramId else systemProgramId
  | .resolution m => if (s.resolution m).isSome then settlementProgramId else systemProgramId
  | .strayResolution k =>
    if (s.strayResolution k).isSome then settlementProgramId else systemProgramId
  | .config a => if (s.config a).isSome then attestationValidatorId else systemProgramId
  | .protocolConfig => if s.protocolConfig.isSome then marketProgramId else systemProgramId
  | .agentAuthority => if s.agentAuthority.isSome then marketProgramId else systemProgramId
  | .treasury => if s.protocolConfig.isSome then marketProgramId else systemProgramId

/-- The bytes of the accounts that some handler reads raw, receipts and accounts of other
programs. Each raw read follows an owner check that the remaining accounts fail. -/
def data (s : Chain) : Address → Bytes
  | .external k => (s.external k).data
  | .resolution m => ((s.resolution m).map Resolution.data).getD []
  | .strayResolution k => ((s.strayResolution k).map Resolution.data).getD []
  | _ => []

def emit (s : Chain) (e : Event) : Chain := { s with events := s.events ++ [e] }

def setMarket (s : Chain) (m : Pubkey) (mk : Market) : Chain :=
  { s with market := Function.update s.market m (some mk) }

def setPosition (s : Chain) (m o : Pubkey) (p : Position) : Chain :=
  { s with position := Function.update s.position (m, o) (some p) }

def setGrant (s : Chain) (o k : Pubkey) (g : SessionGrant) : Chain :=
  { s with sessionGrant := Function.update s.sessionGrant (o, k) (some g) }

/-- Writing the receipt of an account. -/
def setReceipt (s : Chain) (rt : Runtime) (a : Address) (r : Resolution) : Chain :=
  match a with
  | .market m => { s with resolution := Function.update s.resolution m (some r) }
  | a => { s with strayResolution := Function.update s.strayResolution (rt.key a) (some r) }

def loadMarket (s : Chain) (m : Pubkey) : Except ProgramError Market :=
  getOr (.anchor .accountNotInitialized) (s.market m)

def loadPosition (s : Chain) (m o : Pubkey) : Except ProgramError Position :=
  getOr (.anchor .accountNotInitialized) (s.position (m, o))

def loadGrant (s : Chain) (o k : Pubkey) : Except ProgramError SessionGrant :=
  getOr (.anchor .accountNotInitialized) (s.sessionGrant (o, k))

/-- `protocol_config` with the constraint `bump = protocol_config.bump`. -/
def loadProtocolConfig (s : Chain) (rt : Runtime) : Except ProgramError ProtocolConfig := do
  let c ← getOr (.anchor .accountNotInitialized) s.protocolConfig
  require (c.bump = rt.bump .protocolConfig) (.anchor .constraintSeeds)
  pure c

/-! ## Lamports -/

/-- `system_program::transfer`: only a plain wallet can be debited. -/
def systemTransfer (s : Chain) (source : Pubkey) (target : Address) (x : UInt64) :
    Except ProgramError Chain := do
  require (s.external source).IsWallet .notAWallet
  let l ← BalanceSheet.transfer .insufficientFunds .lamportOverflow s.lamports
    (.external source) target x
  pure { s with lamports := l }

/-- `**lamports -= x`. -/
def subLamports (s : Chain) (site : Site) (a : Address) (x : UInt64) : Except ProgramError Chain := do
  let l ← BalanceSheet.debit (.overflow site) s.lamports a x
  pure { s with lamports := l }

/-- `**lamports += x`. -/
def addLamports (s : Chain) (site : Site) (a : Address) (x : UInt64) : Except ProgramError Chain := do
  let l ← BalanceSheet.credit (.overflow site) s.lamports a x
  pure { s with lamports := l }

/-- The lamports `init` still has to pay into an account of the given size. -/
def rentDue (s : Chain) (rt : Runtime) (a : Address) (space : ℕ) : UInt64 :=
  if s.lamports a = 0 then rt.minimumBalance space
  else
    let required := max (rt.minimumBalance space) 1
    if s.lamports a ≤ required then required - s.lamports a else 0

/-- The constraint `init`: the account must be unused, and the payer tops it up to the rent. -/
def initAccount (s : Chain) (rt : Runtime) (payer : Pubkey) (a : Address) (space : ℕ) :
    Except ProgramError Chain := do
  require (s.owner a = systemProgramId) .accountInUse
  s.systemTransfer payer a (s.rentDue rt a space)

/-- `close`: the lamports go to `target`, and the account is left with none. -/
def sweep (s : Chain) (site : Site) (a : Address) (target : Pubkey) : Except ProgramError Chain := do
  let s' ← s.addLamports site (.external target) (s.lamports a)
  pure { s' with lamports := Function.update s'.lamports a 0 }

/-- The constraint `init_if_needed` on a position. -/
def initPosition (s : Chain) (rt : Runtime) (payer m o : Pubkey) :
    Except ProgramError (Position × Chain) :=
  match s.position (m, o) with
  | some p => pure (p, s)
  | none => do
    let s ← s.initAccount rt payer (.position m o) Position.space
    pure (Position.empty, s)

end Chain

end Stoppage
