import Stoppage.Agent.Strategy
import Stoppage.Lib.OrderedMap

/-! # `apps/agent/src/loop.ts`: what the agent keeps

The fields of `Agent` in memory, the file of pending settlements on disk, the clock, and the
transactions the agent has sent.
-/

namespace Stoppage.Agent
set_option autoImplicit false

/-! ## Configuration -/

/-- What does not change while the agent runs: the configuration, the addresses of markets, and
`Number(s)` for strings that read as a positive integer. -/
structure AgentConfig where
  runtime : Runtime
  dryRun : Bool
  /-- `txlineNetwork && txlineCreds` -/
  txlineCreds : Bool
  quoteTracker : Bool
  usepodAdvisoryEnabled : Bool
  positiveNumber : String → Option ℕ

def AgentConfig.marketPda (cfg : AgentConfig) (p : MarketPredicate) : Pubkey :=
  findMarketPdaFromPredicate cfg.runtime p

def settleRetryInitialMs : ℕ := 5 * 60 * 1000
def settleRetryMaxMs : ℕ := 30 * 60 * 1000
def settleRetryGiveUpMs : ℕ := 8 * 60 * 60 * 1000

/-! ## Transactions -/

/-- What `buildSettleFromProofIxs` is called with. -/
structure SettleProofArgs where
  fixtureId : ℕ
  seq : ℤ
  statKey : ℕ
  statKey2 : Option ℕ
  threshold : ℤ
  outcome : Side
  statement : String
  marketPda : Pubkey
deriving DecidableEq

/-- The transactions the agent sends. A settlement goes out as one transaction, or split into
`resolve_market` and `settle_from_proof`. -/
inductive Tx where
  | createMarket (marketPda : Pubkey) (predicate : MarketPredicate) (closesAt : ℕ)
  | resolveAndSettle (args : SettleProofArgs)
  | resolveMarket (args : SettleProofArgs)
  | settleFromProof (args : SettleProofArgs)
  | voidMarket (marketPda : Pubkey)
  | attestPricing (marketPda : Pubkey) (snapshot : PricingSnapshot)
deriving DecidableEq

def Tx.settlement : Tx → Option SettleProofArgs
  | .resolveAndSettle args | .resolveMarket args | .settleFromProof args => some args
  | _ => none

/-! ## Results and retries -/

structure ActionResult where
  success : Bool
  signature : Option String
  marketPda : Option Pubkey
  skipped : Bool
  error : Option String
deriving DecidableEq

/-- `{ success: true, marketPda }` -/
def succeeded (marketPda : Pubkey) : ActionResult := ⟨true, none, some marketPda, false, none⟩

/-- `{ success: true, signature, marketPda }` -/
def confirmedAs (signature : String) (marketPda : Pubkey) : ActionResult :=
  ⟨true, some signature, some marketPda, false, none⟩

/-- `{ success: false, error }`, with the market where it is known. -/
def failed (marketPda : Option Pubkey) (error : String) : ActionResult :=
  ⟨false, none, marketPda, false, some error⟩

structure PendingSettlement where
  action : SettleAction
  attempts : ℕ
  nextAttemptAt : ℕ
  enqueuedAt : ℕ
deriving DecidableEq

structure MatchState where
  fixtureId : ℕ
  minute : ℤ
  score : Score
  corners : Corners
  cards : Cards
  seq : ℤ

/-! ## The world of the agent -/

structure World where
  now : ℕ
  running : Bool
  openMarkets : List OpenMarket
  matchToFixture : String → Option ℕ
  matchState : String → Option MatchState
  teamNames : String → Option (String × String)
  pendingSettlements : OrderedMap Pubkey PendingSettlement
  /-- The rows of the pending file, if it is there. -/
  file : Option (List (Pubkey × PendingSettlement))
  /-- Whether writing the file works. -/
  writable : Bool
  /-- The transactions sent, each with its time. -/
  submitted : List (ℕ × Tx)
  /-- The transactions that the agent has heard to be confirmed. Those it has not heard of may have
  landed too. -/
  confirmed : List Tx

namespace World

def homeTeamFor (w : World) (matchId : String) : String := ((w.teamNames matchId).map Prod.fst).getD ""

def awayTeamFor (w : World) (matchId : String) : String := ((w.teamNames matchId).map Prod.snd).getD ""

def push (w : World) (m : OpenMarket) : World := { w with openMarkets := w.openMarkets ++ [m] }

def splice (w : World) (idx : ℕ) : World := { w with openMarkets := w.openMarkets.eraseIdx idx }

def tracked (w : World) : List Pubkey := w.openMarkets.map OpenMarket.marketPda

def submit (w : World) (tx : Tx) : World := { w with submitted := w.submitted ++ [(w.now, tx)] }

def confirm (w : World) (tx : Tx) : World := { w with confirmed := w.confirmed ++ [tx] }

def persistPendingSettlements (w : World) : World :=
  if w.writable then { w with file := some w.pendingSettlements.entries } else w

def setPending (w : World) (key : Pubkey) (p : PendingSettlement) : World :=
  { w with pendingSettlements := w.pendingSettlements.set key p }.persistPendingSettlements

def deletePending (w : World) (key : Pubkey) : World :=
  { w with pendingSettlements := w.pendingSettlements.delete key }.persistPendingSettlements

/-! ### Match state -/

def freshMatchState (fixtureId : ℕ) : MatchState where
  fixtureId := fixtureId
  minute := 0
  score := ⟨0, 0⟩
  corners := ⟨0, 0⟩
  cards := ⟨0, 0, 0, 0⟩
  seq := 0

/-- What an event changes in the state of its match, before its own minute is taken over. -/
def advance (w : World) (matchId : String) (s : MatchState) : NormalizedEvent → MatchState
  | .matchStarted .. => { s with minute := 0 }
  | .goalScored _ _ team _ _ _ score =>
    match score with
    | some score => { s with score }
    | none =>
      if team = w.homeTeamFor matchId then { s with score := { s.score with home := s.score.home + 1 } }
      else if team = w.awayTeamFor matchId then
        { s with score := { s.score with away := s.score.away + 1 } }
      else s
  | .cornerAwarded _ _ team _ _ =>
    if team = w.homeTeamFor matchId then
      { s with corners := { s.corners with home := s.corners.home + 1 } }
    else if team = w.awayTeamFor matchId then
      { s with corners := { s.corners with away := s.corners.away + 1 } }
    else s
  | .cardShown _ _ team .red _ _ =>
    if team = w.homeTeamFor matchId then
      { s with cards := { s.cards with homeRed := s.cards.homeRed + 1 } }
    else if team = w.awayTeamFor matchId then
      { s with cards := { s.cards with awayRed := s.cards.awayRed + 1 } }
    else s
  | .cardShown _ _ team .yellow _ _ =>
    if team = w.homeTeamFor matchId then
      { s with cards := { s.cards with homeYellow := s.cards.homeYellow + 1 } }
    else if team = w.awayTeamFor matchId then
      { s with cards := { s.cards with awayYellow := s.cards.awayYellow + 1 } }
    else s
  | .halftime .. => { s with minute := 45 }
  | .secondHalfStarted .. => { s with minute := 45 }
  | .matchEnded _ _ finalScore _ _ _ _ => { s with minute := 90, score := finalScore }
  | .unmapped .. | .heartbeat _ => s

def updateMatchState (w : World) (event : NormalizedEvent) : World :=
  match event.matchId? with
  | none => w
  | some matchId =>
    if matchId = "" then w
    else match w.matchToFixture matchId with
      | none => w
      | some fixtureId =>
        let prev := (w.matchState matchId).getD (freshMatchState fixtureId)
        let next := w.advance matchId { prev with seq := event.seq?.getD prev.seq } event
        let next := { next with minute := event.minute?.getD next.minute }
        { w with matchState := Function.update w.matchState matchId (some next) }

/-! ### Retries -/

/-- `enqueueSettlementRetry`, for a failed attempt at the market `key`. -/
def enqueueSettlementRetry (w : World) (action : SettleAction) (key : Pubkey) : World :=
  let existing := w.pendingSettlements.get key
  let attempts := (existing.map PendingSettlement.attempts).getD 0 + 1
  let delay := min (settleRetryInitialMs * 2 ^ (attempts - 1)) settleRetryMaxMs
  let nextAttemptAt := w.now + delay
  let enqueuedAt := (existing.map PendingSettlement.enqueuedAt).getD w.now
  if enqueuedAt + settleRetryGiveUpMs < w.now then w.deletePending key
  else w.setPending key { action, attempts, nextAttemptAt, enqueuedAt }

/-- What the loaded row of the file is tracked as. -/
def rehydrated (key : Pubkey) (p : PendingSettlement) : OpenMarket where
  predicate := p.action.predicate
  label := p.action.label
  createdAt := p.enqueuedAt
  ttlSeconds := 7200
  marketPda := key

def track (w : World) (key : Pubkey) (p : PendingSettlement) : World :=
  if key ∈ w.tracked then w else w.push (rehydrated key p)

def loadRow (w : World) (row : Pubkey × PendingSettlement) : World :=
  if row.2.action.predicate.matchId = "" then w
  else { w with pendingSettlements := w.pendingSettlements.set row.1 row.2 }.track row.1 row.2

def loadPendingSettlements (w : World) : World :=
  match w.file with
  | none => w
  | some rows => rows.foldl loadRow { w with pendingSettlements := .empty }

/-- A new process: the memory is as the constructor leaves it. -/
def reset (w : World) : World :=
  { w with
    running := false
    openMarkets := []
    matchToFixture := fun _ => none
    matchState := fun _ => none
    teamNames := fun _ => none
    pendingSettlements := .empty }

/-- `start`, up to the timers and the event source. -/
def start (w : World) : World := { w with running := true }.loadPendingSettlements

def stop (w : World) : World := { w with running := false }.persistPendingSettlements

end World

end Stoppage.Agent
