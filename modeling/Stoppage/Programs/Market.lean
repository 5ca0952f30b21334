import Stoppage.Chain.State
import Stoppage.Chain.Layout

/-! # `programs/market`

The instructions of the market program, each in the order of the source: first the constraints of
its account context, then its handler. An instruction that returns an error leaves no trace, so a
handler is a function from the chain before to the chain after, or an error. Writing the accounts
back at the end fails when one has outgrown its space, which only a pricing receipt can.
-/

namespace Stoppage.MarketProgram
open Fallible LittleEndian
set_option autoImplicit false

/-! ## Protocol configuration -/

def initializeProtocol (rt : Runtime) (authority : Pubkey) (feeBps : UInt16) (s : Chain) :
    Except ProgramError Chain := do
  let s ← s.initAccount rt authority .protocolConfig ProtocolConfig.space
  let s ← s.initAccount rt authority .agentAuthority AgentAuthority.space
  let s ← s.initAccount rt authority .treasury 0
  require (feeBps ≤ 500) (.market .feeTooHigh)
  let s := { s with
    protocolConfig := some
      { authority, feeBps, treasury := .treasury, bump := rt.bump .protocolConfig }
    agentAuthority := some { authority, bump := rt.bump .agentAuthority } }
  pure (s.emit (.protocolInitialized authority feeBps .treasury authority))

def setAgentAuthority (rt : Runtime) (authority agentAuthority : Pubkey) (s : Chain) :
    Except ProgramError Chain := do
  let c ← s.loadProtocolConfig rt
  let s ← match s.agentAuthority with
    | some _ => pure s
    | none => s.initAccount rt authority .agentAuthority AgentAuthority.space
  require (c.authority = authority) (.market .notProtocolAuthority)
  let s := { s with agentAuthority := some { authority := agentAuthority,
                                             bump := rt.bump .agentAuthority } }
  pure (s.emit (.agentAuthoritySet authority agentAuthority))

/-! ## Session keys -/

def delegateSessionKey (rt : Runtime) (owner : Pubkey) (session : Address)
    (allowedPrograms : List Pubkey) (maxStakePerMarket maxTotalStake : UInt64) (expiresAt : Int64)
    (fundLamports : UInt64) (s : Chain) : Except ProgramError Chain := do
  let sessionPubkey := rt.key session
  let s ← s.initAccount rt owner (.sessionGrant owner sessionPubkey) SessionGrant.space
  require (allowedPrograms.length ≤ maxPrograms) (.market .tooManyPrograms)
  let s := s.setGrant owner sessionPubkey
    { owner, sessionPubkey, allowedPrograms, maxStakePerMarket, maxTotalStake, stakedSoFar := 0,
      expiresAt, revoked := false, bump := rt.bump (.sessionGrant owner sessionPubkey) }
  let s ← if 0 < fundLamports then s.systemTransfer owner session fundLamports
    else pure s
  pure (s.emit (.sessionKeyDelegated owner sessionPubkey expiresAt maxTotalStake))

def revokeSessionKey (owner sessionPubkey : Pubkey) (s : Chain) : Except ProgramError Chain := do
  let g ← s.loadGrant owner sessionPubkey
  let s ← s.sweep .revokeSessionKey (.sessionGrant owner sessionPubkey) owner
  let s := { s with sessionGrant := Function.update s.sessionGrant (owner, sessionPubkey) none }
  pure (s.emit (.sessionKeyRevoked g.owner g.sessionPubkey))

def sessionPing (sessionKey owner : Pubkey) (s : Chain) : Except ProgramError Chain := do
  let g ← s.loadGrant owner sessionKey
  require (g.revoked = false) (.market .grantRevoked)
  require (s.now < g.expiresAt) (.market .grantExpired)
  pure (s.emit (.sessionPing g.owner g.sessionPubkey s.now))

/-! ## Creating and joining a market -/

/-- The market account as `create_market` writes it. -/
def newMarket (rt : Runtime) (creator : Pubkey) (seeds : MarketSeeds) (closesAt : Int64)
    (oracle : Pubkey) (feeBps : UInt16) : Market where
  kind := seeds.kind
  matchId := seeds.matchId
  team := seeds.team
  paramU64 := seeds.paramU64
  creator := creator
  oracle := oracle
  bondLamports := minBondLamports
  bondClaimed := false
  yesPool := 0
  noPool := 0
  closesAt := closesAt
  settlesAt := 0
  status := statusOpen
  outcome := outcomeVoid
  feeBps := feeBps
  verifications := 0
  bump := rt.bump (.market (rt.marketAddress seeds))

def createMarket (rt : Runtime) (creator : Pubkey) (seeds : MarketSeeds) (closesAt : Int64)
    (oracle : Pubkey) (s : Chain) : Except ProgramError Chain := do
  let m := rt.marketAddress seeds
  let s ← s.initAccount rt creator (.market m) Market.space
  let config ← getOr (.anchor .accountNotInitialized) s.protocolConfig
  require (s.now < closesAt) (.market .closesInPast)
  require (seeds.kind ≤ 4) (.market .invalidPredicateKind)
  let s := s.setMarket m (newMarket rt creator seeds closesAt oracle config.feeBps)
  let s ← s.systemTransfer creator (.market m) minBondLamports
  pure (s.emit (.marketCreated m creator oracle seeds.kind closesAt))

/-- The `match side` of `apply_join`. -/
def joinPool (mk : Market) (side : UInt8) (amount : UInt64) : Except ProgramError Market :=
  if side = sideYes then do
    let pool ← checkedAdd (.overflow .applyJoin) mk.yesPool amount
    pure { mk with yesPool := pool }
  else do
    let pool ← checkedAdd (.overflow .applyJoin) mk.noPool amount
    pure { mk with noPool := pool }

/-- A position without a stake is opened on the given side; joining the other side of an existing
one is refused, topping it up is not. -/
def joinPosition (m : Pubkey) (p : Position) (owner : Pubkey) (side : UInt8)
    (viaSessionKey : Bool) (bump : UInt8) : Except ProgramError Position :=
  if p.amountLamports = 0 then
    pure { p with market := m, owner, side, openedViaSessionKey := viaSessionKey, bump }
  else do
    require (p.side = side) (.market .alreadyJoinedOtherSide)
    pure p

/-- `apply_join` on the market account at `m` and the owner's position. -/
def applyJoin (m : Pubkey) (mk : Market) (p : Position) (owner : Pubkey) (side : UInt8)
    (amount : UInt64) (viaSessionKey : Bool) (bump : UInt8) :
    Except ProgramError (Market × Position) := do
  require (side = sideYes ∨ side = sideNo) (.market .invalidSide)
  let mk ← joinPool mk side amount
  let p ← joinPosition m p owner side viaSessionKey bump
  let stake ← checkedAdd (.overflow .applyJoin) p.amountLamports amount
  pure (mk, { p with amountLamports := stake })

def joinViaWallet (rt : Runtime) (signer m : Pubkey) (side : UInt8) (amount : UInt64) (s : Chain) :
    Except ProgramError Chain := do
  let mk ← s.loadMarket m
  let (p, s) ← s.initPosition rt signer m signer
  require (0 < amount) (.market .zeroAmount)
  require (mk.status = statusOpen) (.market .marketNotOpen)
  require (s.now < mk.closesAt) (.market .marketClosed)
  let s ← s.systemTransfer signer (.market m) amount
  let (mk, p) ← applyJoin m mk p signer side amount false (rt.bump (.position m signer))
  pure (((s.setMarket m mk).setPosition m signer p).emit
    (.positionOpened m signer side amount false))

/-- The cap on a grant's total stake; zero means no cap. -/
def checkTotalStake (g : SessionGrant) (amount : UInt64) : Except ProgramError Unit :=
  if 0 < g.maxTotalStake then do
    let spent ← checkedAdd (.overflow .joinViaSessionKey) g.stakedSoFar amount
    require (spent ≤ g.maxTotalStake) (.market .spendCapExceeded)
  else pure ()

def joinViaSessionKey (rt : Runtime) (sessionKey owner m : Pubkey) (side : UInt8)
    (amount : UInt64) (s : Chain) : Except ProgramError Chain := do
  let g ← s.loadGrant owner sessionKey
  let mk ← s.loadMarket m
  let (p, s) ← s.initPosition rt sessionKey m owner
  require (0 < amount) (.market .zeroAmount)
  require (g.revoked = false) (.market .grantRevoked)
  require (s.now < g.expiresAt) (.market .grantExpired)
  require (g.owner = owner) (.market .ownerMismatch)
  checkTotalStake g amount
  require (amount ≤ g.maxStakePerMarket) (.market .stakeCapExceeded)
  require (marketProgramId ∈ g.allowedPrograms) (.market .programNotAllowed)
  require (mk.status = statusOpen) (.market .marketNotOpen)
  require (s.now < mk.closesAt) (.market .marketClosed)
  let s ← s.systemTransfer sessionKey (.market m) amount
  let staked ← checkedAdd (.overflow .joinViaSessionKey) g.stakedSoFar amount
  let (mk, p) ← applyJoin m mk p owner side amount true (rt.bump (.position m owner))
  pure ((((s.setGrant owner sessionKey { g with stakedSoFar := staked }).setMarket m mk).setPosition
    m owner p).emit (.positionOpened m owner side amount true))

/-! ## Settling and voiding -/

/-- A market settled at time `now` with the given outcome. -/
def settled (mk : Market) (outcome : UInt8) (now : Int64) : Market :=
  { mk with status := statusSettled, outcome := outcome, settlesAt := now }

def forceSettle (rt : Runtime) (authority m : Pubkey) (outcome : UInt8) (s : Chain) :
    Except ProgramError Chain := do
  let c ← s.loadProtocolConfig rt
  let mk ← s.loadMarket m
  require (c.authority = authority) (.market .notProtocolAuthority)
  require (outcome = sideYes ∨ outcome = sideNo) (.market .invalidOutcome)
  require (mk.status = statusOpen ∨ mk.status = statusAwaiting) (.market .alreadySettled)
  pure ((s.setMarket m (settled mk outcome s.now)).emit (.marketSettled m outcome s.now true))

/-- `verify_resolution_receipt` on the raw bytes of the receipt account: discriminator, market at
`[8..40)`, outcome at `[40]`, validator at `[41..73)`. -/
def verifyResolutionReceipt (data : Bytes) (market : Pubkey) (outcome : UInt8)
    (expectedOracle : Pubkey) : Except ProgramError Unit := do
  require (8 + 32 + 1 + 32 ≤ data.length) (.market .malformedResolution)
  require (data.take 8 = [31, 13, 235, 201, 17, 66, 5, 138]) (.market .malformedResolution)
  let receiptMarket ← getOr (.market .malformedResolution) (Pubkey.tryFrom (slice data 8 32))
  require (receiptMarket = market) (.market .resolutionMarketMismatch)
  require (data.getD 40 0 = outcome) (.market .resolutionOutcomeMismatch)
  let receiptValidator ← getOr (.market .malformedResolution) (Pubkey.tryFrom (slice data 41 32))
  require (receiptValidator = expectedOracle) (.market .resolutionOracleMismatch)

def settleFromProof (m : Pubkey) (resolution : Address) (outcome : UInt8) (s : Chain) :
    Except ProgramError Chain := do
  let mk ← s.loadMarket m
  require (outcome = sideYes ∨ outcome = sideNo) (.market .invalidOutcome)
  require (s.owner resolution = settlementProgramId) (.market .invalidResolutionOwner)
  require (resolution = .resolution m) (.market .invalidResolutionPda)
  verifyResolutionReceipt (s.data resolution) m outcome mk.oracle
  require (mk.status = statusOpen ∨ mk.status = statusAwaiting) (.market .alreadySettled)
  pure ((s.setMarket m (settled mk outcome s.now)).emit (.marketSettled m outcome s.now false))

def voidMarket (m : Pubkey) (s : Chain) : Except ProgramError Chain := do
  let mk ← s.loadMarket m
  require (mk.status ≠ statusSettled ∧ mk.status ≠ statusVoid) (.market .alreadySettled)
  let deadline ← checkedAddInt (.overflow .voidMarket) mk.closesAt gracePeriodSeconds
  require (deadline < s.now) (.market .gracePeriodNotElapsed)
  let mk := { mk with status := statusVoid, outcome := outcomeVoid, settlesAt := s.now }
  pure ((s.setMarket m mk).emit (.marketVoided m s.now))

/-! ## Claims -/

/-- A stake's share of the losing pool: the product is taken in 128 bits and the quotient is cast
back to 64. -/
def losingShare (stake winningPool losingPool : UInt64) : Except ProgramError UInt64 :=
  if 0 < winningPool then do
    let product ← checkedMul128 (.overflow .claim) stake.toNat losingPool.toNat
    pure (UInt64.ofNat (product / winningPool.toNat))
  else pure 0

def winnerSplit (mk : Market) (p : Position) : Except ProgramError (UInt64 × UInt64) := do
  let stake := p.amountLamports
  let winningPool := if p.side = sideYes then mk.yesPool else mk.noPool
  let losingPool := if p.side = sideYes then mk.noPool else mk.yesPool
  let share ← losingShare stake winningPool losingPool
  let gross ← checkedAdd (.overflow .claim) stake share
  let product ← checkedMul128 (.overflow .claim) gross.toNat mk.feeBps.toNat
  let fee := UInt64.ofNat (product / 10000)
  let payout ← checkedSub (.overflow .claim) gross fee
  pure (payout, fee)

/-- What `claim` pays a position of the market: nothing to a loser. -/
def claimSplit (mk : Market) (p : Position) : Except ProgramError (UInt64 × UInt64) :=
  if mk.status = statusVoid then pure (p.amountLamports, 0)
  else if p.side ≠ mk.outcome then pure (0, 0)
  else winnerSplit mk p

def claim (claimant m : Pubkey) (s : Chain) : Except ProgramError Chain := do
  let mk ← s.loadMarket m
  let p ← s.loadPosition m claimant
  require (mk.status = statusSettled ∨ mk.status = statusVoid) (.market .notSettled)
  require (p.owner = claimant) (.market .notPositionOwner)
  require (0 < p.amountLamports) (.market .nothingToClaim)
  let (payout, fee) ← claimSplit mk p
  let emptied := { p with amountLamports := 0 }
  if mk.status ≠ statusVoid ∧ p.side ≠ mk.outcome then
    -- A loser's position is emptied and no lamports move.
    pure ((s.setPosition m claimant emptied).emit (.positionClaimed m claimant 0 0))
  else do
    let charge ← checkedAdd (.overflow .claim) payout fee
    let s ← s.subLamports .claim (.market m) charge
    let s ← s.addLamports .claim (.external claimant) payout
    let s ← if 0 < fee then s.addLamports .claim .treasury fee else pure s
    pure ((s.setPosition m claimant emptied).emit (.positionClaimed m claimant payout fee))

def claimBond (creator m : Pubkey) (s : Chain) : Except ProgramError Chain := do
  let mk ← s.loadMarket m
  require (mk.creator = creator) (.market .notCreator)
  require (mk.status = statusSettled ∨ mk.status = statusVoid) (.market .notSettled)
  require (mk.bondClaimed = false) (.market .bondAlreadyClaimed)
  let s ← s.subLamports .claimBond (.market m) mk.bondLamports
  let s ← s.addLamports .claimBond (.external creator) mk.bondLamports
  pure ((s.setMarket m { mk with bondClaimed := true }).emit (.bondClaimed m creator mk.bondLamports))

def closeMarket (creator m : Pubkey) (s : Chain) : Except ProgramError Chain := do
  let mk ← s.loadMarket m
  require (mk.status = statusSettled ∨ mk.status = statusVoid) (.market .notSettled)
  require (mk.creator = creator) (.market .notCreator)
  let deadline ← checkedAddInt (.overflow .closeMarket) mk.settlesAt marketCloseGraceSeconds
  require (deadline < s.now) (.market .claimWindowOpen)
  let s := s.emit (.marketClosed m creator (s.lamports (.market m)))
  let s ← s.sweep .closeMarket (.market m) creator
  pure { s with market := Function.update s.market m none }

def attestVerification (verifier m : Pubkey) (s : Chain) : Except ProgramError Chain := do
  let mk ← s.loadMarket m
  require (mk.status = statusSettled) (.market .notSettled)
  let count ← checkedAdd32 (.overflow .attestVerification) mk.verifications 1
  pure ((s.setMarket m { mk with verifications := count }).emit
    (.verificationAttested m verifier count))

/-! ## Pricing receipts -/

/-- `attest_pricing` up to the end of its handler: the receipt it has filled in, still to be written
to its account. -/
def attestPricingHandler (rt : Runtime) (signer m : Pubkey) (snapshotHash : List.Vector UInt8 32)
    (modelVersion : String) (fairValue bid ask : UInt64) (agentSignature : List.Vector UInt8 64)
    (ts : Int64) (s : Chain) : Except ProgramError (PricingReceipt × Chain) := do
  let agent ← getOr (.anchor .accountNotInitialized) s.agentAuthority
  require (agent.bump = rt.bump .agentAuthority) (.anchor .constraintSeeds)
  let _ ← s.loadMarket m
  let s ← match s.pricingReceipt m with
    | some _ => pure s
    | none => s.initAccount rt signer (.pricingReceipt m) PricingReceipt.space
  require (modelVersion.utf8ByteSize ≤ maxModelVersionLen) (.market .modelVersionTooLong)
  require (agentSignature ≠ List.Vector.replicate 64 0) (.market .emptyAgentSignature)
  require (agent.authority = signer) (.market .notAgentAuthority)
  pure ({ market := m, snapshotHash, modelVersion, fairValue, bid, ask, agentSignature, ts,
          bump := rt.bump (.pricingReceipt m) },
    s.emit (.marketPriced m snapshotHash modelVersion fairValue bid ask ts))

/-- The receipt is written into its account when the handler has returned. -/
def exitPricing (m : Pubkey) (r : PricingReceipt) (s : Chain) : Except ProgramError Chain := do
  require (r.data.length ≤ PricingReceipt.space) (.anchor .accountDidNotSerialize)
  pure { s with pricingReceipt := Function.update s.pricingReceipt m (some r) }

def attestPricing (rt : Runtime) (signer m : Pubkey) (snapshotHash : List.Vector UInt8 32)
    (modelVersion : String) (fairValue bid ask : UInt64) (agentSignature : List.Vector UInt8 64)
    (ts : Int64) (s : Chain) : Except ProgramError Chain := do
  let (r, s) ← attestPricingHandler rt signer m snapshotHash modelVersion fairValue bid ask
    agentSignature ts s
  exitPricing m r s

def verifyPricing (rt : Runtime) (m : Pubkey) (snapshotBytes : Bytes) (s : Chain) :
    Except ProgramError Chain := do
  let r ← getOr (.anchor .accountNotInitialized) (s.pricingReceipt m)
  require (rt.sha256 snapshotBytes = r.snapshotHash.1) (.market .snapshotHashMismatch)
  pure (s.emit (.pricingVerified r.market r.snapshotHash r.modelVersion r.fairValue r.bid r.ask))

end Stoppage.MarketProgram
