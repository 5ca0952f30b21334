import Stoppage.Chain.Execution
import Stoppage.Lib.EventSourcing

/-! # What the event log says

The ledger of an observer who reads the emitted events and nothing else: every account of the
market program but for its seeds, its bumps and the fields that no event carries, and the receipts
of the settlement program, those of accounts that are no markets as well. `Observer.see` books one
event, `Observer.Admits` is the audit of an event against the ledger of the events before it, down
to the lamports of a payout.
-/

namespace Stoppage
open EventSourcing
set_option autoImplicit false

/-! ## The ledger -/

structure SeenProtocol where
  authority : Pubkey
  feeBps : UInt16
deriving DecidableEq

structure SeenGrant where
  expiresAt : Int64
  maxTotalStake : UInt64
deriving DecidableEq

structure SeenMarket where
  creator : Pubkey
  oracle : Pubkey
  kind : UInt8
  closesAt : Int64
  settlesAt : Int64
  yesPool : UInt64
  noPool : UInt64
  status : UInt8
  outcome : UInt8
  feeBps : UInt16
  bondClaimed : Bool
  verifications : UInt32
deriving DecidableEq

structure SeenPosition where
  side : UInt8
  amount : UInt64
  viaSessionKey : Bool
deriving DecidableEq

structure SeenPrice where
  snapshotHash : List.Vector UInt8 32
  modelVersion : String
  fairValue : UInt64
  bid : UInt64
  ask : UInt64
  ts : Int64
deriving DecidableEq

structure SeenResolution where
  outcome : UInt8
  validatorProgram : Pubkey
  merkleRoot : List.Vector UInt8 32
  resolver : Pubkey
  resolvedAt : Int64
deriving DecidableEq

/-- A position is booked from its first stake to its claim. -/
structure Observer where
  protocol : Option SeenProtocol
  agent : Option Pubkey
  grant : Pubkey × Pubkey → Option SeenGrant
  market : Pubkey → Option SeenMarket
  position : Pubkey × Pubkey → Option SeenPosition
  price : Pubkey → Option SeenPrice
  resolution : Pubkey → Option SeenResolution
  strayResolution : Pubkey → Option SeenResolution

namespace Observer

def empty : Observer :=
  ⟨none, none, fun _ => none, fun _ => none, fun _ => none, fun _ => none, fun _ => none,
    fun _ => none⟩

/-! ## Booking an event -/

def onMarket (o : Observer) (m : Pubkey) (f : SeenMarket → SeenMarket) : Observer :=
  { o with market := Function.update o.market m ((o.market m).map f) }

/-- A receipt is booked under its address. -/
def file (o : Observer) (r : SeenResolution) : Address → Observer
  | .resolution m => { o with resolution := Function.update o.resolution m (some r) }
  | .strayResolution k =>
    { o with strayResolution := Function.update o.strayResolution k (some r) }
  | _ => o

end Observer

def SeenMarket.created (creator oracle : Pubkey) (kind : UInt8) (closesAt : Int64)
    (feeBps : UInt16) : SeenMarket where
  creator := creator
  oracle := oracle
  kind := kind
  closesAt := closesAt
  settlesAt := 0
  yesPool := 0
  noPool := 0
  status := statusOpen
  outcome := outcomeVoid
  feeBps := feeBps
  bondClaimed := false
  verifications := 0

def SeenMarket.join (v : SeenMarket) (side : UInt8) (amount : UInt64) : SeenMarket :=
  if side = sideYes then { v with yesPool := v.yesPool + amount }
  else { v with noPool := v.noPool + amount }

/-- A later stake adds to the position as it was opened. -/
def SeenPosition.join (p : Option SeenPosition) (side : UInt8) (amount : UInt64)
    (viaSessionKey : Bool) : SeenPosition :=
  match p with
  | none => { side, amount, viaSessionKey }
  | some p => { p with amount := p.amount + amount }

namespace Observer

def see (o : Observer) : Event → Observer
  | .protocolInitialized authority feeBps _ agent =>
    { o with protocol := some { authority, feeBps }, agent := some agent }
  | .agentAuthoritySet _ agent => { o with agent := some agent }
  | .sessionKeyDelegated owner k expiresAt maxTotalStake =>
    { o with grant := Function.update o.grant (owner, k) (some { expiresAt, maxTotalStake }) }
  | .sessionKeyRevoked owner k => { o with grant := Function.update o.grant (owner, k) none }
  | .sessionPing .. => o
  | .marketCreated m creator oracle kind closesAt =>
    let feeBps := (o.protocol.map SeenProtocol.feeBps).getD 0
    { o with
      market := Function.update o.market m (some (.created creator oracle kind closesAt feeBps)) }
  | .positionOpened m owner side amount viaSessionKey =>
    let joined := o.onMarket m fun v => v.join side amount
    { joined with
      position := Function.update o.position (m, owner) (some
        (.join (o.position (m, owner)) side amount viaSessionKey)) }
  | .marketSettled m outcome settlesAt _ =>
    o.onMarket m fun v => { v with status := statusSettled, outcome, settlesAt }
  | .marketVoided m voidedAt =>
    o.onMarket m fun v =>
      { v with status := statusVoid, outcome := outcomeVoid, settlesAt := voidedAt }
  | .positionClaimed m owner _ _ =>
    { o with position := Function.update o.position (m, owner) none }
  | .bondClaimed m _ _ => o.onMarket m fun v => { v with bondClaimed := true }
  | .marketClosed m _ _ => { o with market := Function.update o.market m none }
  | .verificationAttested m _ count => o.onMarket m fun v => { v with verifications := count }
  | .marketPriced m snapshotHash modelVersion fairValue bid ask ts =>
    { o with
      price := Function.update o.price m
        (some { snapshotHash, modelVersion, fairValue, bid, ask, ts }) }
  | .pricingVerified .. => o
  | .marketResolved _ resolution _ validatorProgram merkleRoot outcome _ resolver timestamp _ =>
    o.file { outcome, validatorProgram, merkleRoot, resolver, resolvedAt := timestamp } resolution

end Observer

/-! ## Auditing an event -/

namespace SeenMarket

def Ended (v : SeenMarket) : Prop := v.status = statusSettled ∨ v.status = statusVoid

def Live (v : SeenMarket) : Prop := v.status = statusOpen ∨ v.status = statusAwaiting

/-- Payout and fee of a position: a void market refunds it, a settled one pays the winners their
stake and their part of the losing pool, less the fee. -/
def payout (v : SeenMarket) (p : SeenPosition) : UInt64 × UInt64 :=
  if v.status = statusVoid then (p.amount, 0)
  else if p.side ≠ v.outcome then (0, 0)
  else
    let winning := if p.side = sideYes then v.yesPool else v.noPool
    let losing := if p.side = sideYes then v.noPool else v.yesPool
    let gross := p.amount + UInt64.ofNat (p.amount.toNat * losing.toNat / winning.toNat)
    let fee := UInt64.ofNat (gross.toNat * v.feeBps.toNat / 10000)
    (gross - fee, fee)

end SeenMarket

namespace Observer

/-- The market is on the books and has the property. -/
def HasMarket (o : Observer) (m : Pubkey) (P : SeenMarket → Prop) : Prop :=
  ∃ v, o.market m = some v ∧ P v

/-- The address is that of the receipt of the account with the given key, and still free. A market
has to be on the books; of any other account no event tells whose it is. -/
def Unresolved (o : Observer) (key : Pubkey) : Address → Prop
  | .resolution m => m = key ∧ o.resolution m = none ∧ o.market m ≠ none
  | .strayResolution k => k = key ∧ o.strayResolution k = none
  | _ => False

/-- What must stand in the books for the event to be genuine. -/
def Admits (o : Observer) : Event → Prop
  | .protocolInitialized authority feeBps treasuryKey agent =>
    o.protocol = none ∧ o.agent = none ∧ feeBps ≤ 500 ∧ treasuryKey = .treasury ∧
      agent = authority
  | .agentAuthoritySet authority _ => ∃ p, o.protocol = some p ∧ p.authority = authority
  | .sessionKeyDelegated owner k _ _ => o.grant (owner, k) = none
  | .sessionKeyRevoked owner k => ∃ g, o.grant (owner, k) = some g
  | .sessionPing owner k timestamp => ∃ g, o.grant (owner, k) = some g ∧ timestamp < g.expiresAt
  | .marketCreated m _ _ kind _ => o.market m = none ∧ o.protocol ≠ none ∧ kind ≤ 4
  | .positionOpened m owner side amount _ =>
    (side = sideYes ∨ side = sideNo) ∧ 0 < amount ∧
      (∀ p, o.position (m, owner) = some p →
        p.side = side ∧ p.amount.toNat + amount.toNat < 2 ^ 64) ∧
      o.HasMarket m fun v => v.status = statusOpen ∧
        (if side = sideYes then v.yesPool else v.noPool).toNat + amount.toNat < 2 ^ 64
  | .marketSettled m outcome _ mock =>
    (outcome = sideYes ∨ outcome = sideNo) ∧ o.HasMarket m fun v => v.Live ∧
      if mock then o.protocol ≠ none
      else ∃ r, o.resolution m = some r ∧ r.outcome = outcome ∧ r.validatorProgram = v.oracle
  | .marketVoided m voidedAt => o.HasMarket m fun v => ¬ v.Ended ∧
      v.closesAt.toInt + 3600 < voidedAt.toInt
  | .positionClaimed m owner payout fee => o.HasMarket m fun v => v.Ended ∧
      ∃ p, o.position (m, owner) = some p ∧ v.payout p = (payout, fee)
  | .bondClaimed m creator bond => bond = minBondLamports ∧
      o.HasMarket m fun v => v.Ended ∧ v.creator = creator ∧ v.bondClaimed = false
  | .marketClosed m creator _ => o.HasMarket m fun v => v.Ended ∧ v.creator = creator
  | .verificationAttested m _ count => o.HasMarket m fun v =>
      v.status = statusSettled ∧ count.toNat = v.verifications.toNat + 1
  | .marketPriced m _ modelVersion _ _ _ _ => o.agent ≠ none ∧ o.market m ≠ none ∧
      modelVersion.utf8ByteSize ≤ maxModelVersionLen
  | .pricingVerified m snapshotHash modelVersion fairValue bid ask => ∃ r, o.price m = some r ∧
      r.snapshotHash = snapshotHash ∧ r.modelVersion = modelVersion ∧ r.fairValue = fairValue ∧
      r.bid = bid ∧ r.ask = ask
  | .marketResolved key resolution _ _ merkleRoot outcome proofHash _ _ validatedOnChain =>
    o.Unresolved key resolution ∧ outcome ≤ 1 ∧ proofHash = merkleRoot ∧ validatedOnChain = true

end Observer

/-! ## The ledger of a chain -/

def Market.seen (mk : Market) : SeenMarket where
  creator := mk.creator
  oracle := mk.oracle
  kind := mk.kind
  closesAt := mk.closesAt
  settlesAt := mk.settlesAt
  yesPool := mk.yesPool
  noPool := mk.noPool
  status := mk.status
  outcome := mk.outcome
  feeBps := mk.feeBps
  bondClaimed := mk.bondClaimed
  verifications := mk.verifications

def Position.stake (p : Position) : SeenPosition where
  side := p.side
  amount := p.amountLamports
  viaSessionKey := p.openedViaSessionKey

/-- A claimed position keeps its account, with nothing in it. -/
def Position.seen (p : Position) : Option SeenPosition :=
  if p.amountLamports = 0 then none else some p.stake

def PricingReceipt.seen (r : PricingReceipt) : SeenPrice where
  snapshotHash := r.snapshotHash
  modelVersion := r.modelVersion
  fairValue := r.fairValue
  bid := r.bid
  ask := r.ask
  ts := r.ts

def Resolution.seen (r : Resolution) : SeenResolution where
  outcome := r.outcome
  validatorProgram := r.validatorProgram
  merkleRoot := r.merkleRoot
  resolver := r.resolver
  resolvedAt := r.resolvedAt

def SessionGrant.seen (g : SessionGrant) : SeenGrant := ⟨g.expiresAt, g.maxTotalStake⟩

def ProtocolConfig.seen (c : ProtocolConfig) : SeenProtocol := ⟨c.authority, c.feeBps⟩

/-- What the accounts of the chain say of what an observer can know. -/
def Chain.observed (s : Chain) : Observer where
  protocol := s.protocolConfig.map ProtocolConfig.seen
  agent := s.agentAuthority.map AgentAuthority.authority
  grant k := (s.sessionGrant k).map SessionGrant.seen
  market m := (s.market m).map Market.seen
  position k := (s.position k).bind Position.seen
  price m := (s.pricingReceipt m).map PricingReceipt.seen
  resolution m := (s.resolution m).map Resolution.seen
  strayResolution k := (s.strayResolution k).map Resolution.seen

def eventLog : Reading Chain Event Observer where
  log := Chain.events
  view := Chain.observed
  see := Observer.see
  Admits := Observer.Admits

theorem Genesis.observed {s : Chain} (h : Genesis s) : s.observed = .empty := by
  simp only [Chain.observed, h.protocolConfig, h.agentAuthority, h.sessionGrant, h.market,
    h.position, h.pricingReceipt, h.resolution, h.strayResolution, Option.map_none,
    Option.bind_none, Observer.empty]

end Stoppage
