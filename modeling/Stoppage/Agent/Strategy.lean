import Stoppage.Sdk.Predicate

/-! # `apps/agent/src/strategy.ts`

The feed's events, the agent's actions, and the pure functions that turn the one into the other.
-/

namespace Stoppage.Agent
set_option autoImplicit false

/-! ## Events -/

structure Score where
  home : ℤ
  away : ℤ
deriving DecidableEq

inductive CardType where
  | yellow
  | red
deriving DecidableEq

/-- A normalized TxLINE event. `unmapped` stands for the types that neither the strategy nor the
match state looks at. -/
inductive NormalizedEvent where
  | matchStarted (fixtureId : ℕ) (matchId homeTeam awayTeam : String) (competitionId : Option ℕ)
      (ts : ℕ)
  | goalScored (fixtureId : ℕ) (matchId team : String) (ts : ℕ) (seq : ℤ) (minute : Option ℤ)
      (score : Option Score)
  | cornerAwarded (fixtureId : ℕ) (matchId team : String) (ts : ℕ) (seq : ℤ)
  | cardShown (fixtureId : ℕ) (matchId team : String) (cardType : CardType) (ts : ℕ) (seq : ℤ)
  | matchEnded (fixtureId : ℕ) (matchId : String) (finalScore : Score)
      (finalStats : ℕ → Option ℤ) (ts : ℕ) (seq : ℤ) (minute : Option ℤ)
  | halftime (fixtureId : ℕ) (matchId : String) (ts : ℕ) (seq : ℤ)
  | secondHalfStarted (fixtureId : ℕ) (matchId : String) (ts : ℕ) (seq : ℤ)
  | unmapped (fixtureId : ℕ) (matchId : String) (ts : ℕ) (seq : ℤ)
  | heartbeat (ts : ℕ)

namespace NormalizedEvent

def matchId? : NormalizedEvent → Option String
  | .matchStarted _ m _ _ _ _ | .goalScored _ m _ _ _ _ _ | .cornerAwarded _ m _ _ _
  | .cardShown _ m _ _ _ _ | .matchEnded _ m _ _ _ _ _ | .halftime _ m _ _
  | .secondHalfStarted _ m _ _ | .unmapped _ m _ _ => some m
  | .heartbeat _ => none

def seq? : NormalizedEvent → Option ℤ
  | .goalScored _ _ _ _ seq _ _ | .cornerAwarded _ _ _ _ seq | .cardShown _ _ _ _ _ seq
  | .matchEnded _ _ _ _ _ seq _ | .halftime _ _ _ seq | .secondHalfStarted _ _ _ seq
  | .unmapped _ _ _ seq => some seq
  | .matchStarted .. | .heartbeat _ => none

def minute? : NormalizedEvent → Option ℤ
  | .goalScored _ _ _ _ _ minute _ | .matchEnded _ _ _ _ _ _ minute => minute
  | _ => none

def ts : NormalizedEvent → ℕ
  | .matchStarted _ _ _ _ _ ts | .goalScored _ _ _ ts _ _ _ | .cornerAwarded _ _ _ ts _
  | .cardShown _ _ _ _ ts _ | .matchEnded _ _ _ _ ts _ _ | .halftime _ _ ts _
  | .secondHalfStarted _ _ ts _ | .unmapped _ _ ts _ | .heartbeat ts => ts

end NormalizedEvent

/-! ## Actions -/

structure Corners where
  home : ℤ
  away : ℤ
deriving DecidableEq

structure Cards where
  homeYellow : ℤ
  homeRed : ℤ
  awayYellow : ℤ
  awayRed : ℤ
deriving DecidableEq

structure PricingSnapshot where
  matchId : String
  fixtureId : ℕ
  minute : ℤ
  score : Score
  corners : Corners
  cards : Cards
  seq : ℤ
  ts : ℕ
deriving DecidableEq

/-- `"yes"` or `"no"`. -/
inductive Side where
  | yes
  | no
deriving DecidableEq

structure CreateAction where
  predicate : MarketPredicate
  closesInSeconds : ℕ
  label : String
deriving DecidableEq

structure SettleAction where
  predicate : MarketPredicate
  outcome : Side
  seq : ℤ
  statKey : ℕ
  statKey2 : Option ℕ
  label : String
deriving DecidableEq

structure VoidAction where
  predicate : MarketPredicate
  label : String
deriving DecidableEq

structure QuoteAction where
  predicate : MarketPredicate
  label : String
  snapshot : PricingSnapshot
deriving DecidableEq

inductive AgentAction where
  | createMarket (a : CreateAction)
  | settleMarket (a : SettleAction)
  | voidMarket (a : VoidAction)
  | quoteMarket (a : QuoteAction)
deriving DecidableEq

structure DecisionNote where
  label : String
  matchId : String
  fixtureId : ℕ
deriving DecidableEq

structure StrategyResult where
  actions : List AgentAction
  notes : List DecisionNote

/-! ## Templates -/

inductive ScoreUnit where
  | goals
  | points
deriving DecidableEq

def ScoreUnit.name : ScoreUnit → String
  | .goals => "goals"
  | .points => "points"

/-- `none` skips the market. -/
structure MatchTemplates where
  totalGoalsOver : Option ℤ
  cornersOver : Option ℤ
  scoreUnit : Option ScoreUnit

def defaultTemplates : MatchTemplates := ⟨some 3, some 9, none⟩

def nflTemplates : MatchTemplates := ⟨some 44, none, some .points⟩

/-- `Competition.NFL` -/
def competitionNfl : ℕ := 500001

def templatesForCompetition (competitionId : Option ℕ) : MatchTemplates :=
  if competitionId = some competitionNfl then nflTemplates else defaultTemplates

/-! ## Decisions -/

/-- A market the agent tracks. Every entry is pushed with its address. -/
structure OpenMarket where
  predicate : MarketPredicate
  label : String
  createdAt : ℕ
  ttlSeconds : ℕ
  marketPda : Pubkey
deriving DecidableEq

def createTotalGoalsMarket (matchId : String) (threshold : ℤ) (scoreUnit : ScoreUnit) :
    CreateAction where
  predicate :=
    { kind := .totalGoalsOver
      matchId
      params :=
        { team := some ""
          threshold := some threshold
          windowSeconds := none
          unit := if scoreUnit = .goals then none else some scoreUnit.name } }
  closesInSeconds := 7200
  label := s!"Total {scoreUnit.name} over {threshold} — {matchId}"

def createCornersMarket (matchId : String) (threshold : ℤ) : CreateAction where
  predicate :=
    { kind := .cornersOver
      matchId
      params := { team := some "", threshold := some threshold, windowSeconds := none, unit := none } }
  closesInSeconds := 7200
  label := s!"Total corners over {threshold} — {matchId}"

/-- How a finished match settles a market: the side its own threshold gives, and the two stats that
prove it. -/
def settleAction (finalScore : Score) (finalStats : ℕ → Option ℤ) (seq : ℤ) (m : OpenMarket) :
    Option SettleAction :=
  match m.predicate.kind with
  | .totalGoalsOver =>
    let totalGoals := finalScore.home + finalScore.away
    some
      { predicate := m.predicate
        outcome := if m.predicate.threshold < totalGoals then .yes else .no
        seq
        statKey := 1
        statKey2 := some 2
        label := m.label }
  | .cornersOver =>
    let totalCorners := (finalStats 7).getD 0 + (finalStats 8).getD 0
    some
      { predicate := m.predicate
        outcome := if m.predicate.threshold < totalCorners then .yes else .no
        seq
        statKey := 7
        statKey2 := some 8
        label := m.label }
  | _ => none

def decideActions (event : NormalizedEvent) (openMarkets : List OpenMarket)
    (templates : MatchTemplates) : StrategyResult :=
  match event with
  | .matchStarted fixtureId matchId _ _ _ _ =>
    let goals := templates.totalGoalsOver.map fun threshold =>
      createTotalGoalsMarket matchId threshold (templates.scoreUnit.getD .goals)
    let corners := templates.cornersOver.map (createCornersMarket matchId)
    { actions := (goals.toList ++ corners.toList).map .createMarket
      notes :=
        (if goals.isSome then [] else
          [⟨"Goals template disabled for this competition", matchId, fixtureId⟩]) ++
        if corners.isSome then [] else
          [⟨"Corners template disabled for this competition — stat coverage unproven", matchId,
            fixtureId⟩] }
  | .goalScored fixtureId matchId _ _ _ _ _ =>
    ⟨[], [⟨"Goal scored; over/under goals settles at match end", matchId, fixtureId⟩]⟩
  | .halftime fixtureId matchId _ _ =>
    ⟨[], [⟨"Halftime; no active template maps to this event", matchId, fixtureId⟩]⟩
  | .secondHalfStarted fixtureId matchId _ _ =>
    ⟨[], [⟨"Second half started; no active template maps to this event", matchId, fixtureId⟩]⟩
  | .matchEnded _ matchId finalScore finalStats _ seq _ =>
    let markets := openMarkets.filter fun m => m.predicate.matchId = matchId
    ⟨(markets.filterMap (settleAction finalScore finalStats seq)).map .settleMarket, []⟩
  | .cornerAwarded fixtureId matchId _ _ _ =>
    ⟨[], [⟨"Corner awarded; over/under corners settles at match end", matchId, fixtureId⟩]⟩
  | .cardShown fixtureId matchId _ _ _ _ =>
    ⟨[], [⟨"Card shown; no active template maps to this event", matchId, fixtureId⟩]⟩
  | .unmapped .. | .heartbeat _ => ⟨[], []⟩

def quoteOpenMarkets (matchId : String) (fixtureId : ℕ) (minute : ℤ) (score : Score)
    (corners : Corners) (cards : Cards) (seq : ℤ) (ts : ℕ) (openMarkets : List OpenMarket) :
    List QuoteAction :=
  (openMarkets.filter fun m => m.predicate.matchId = matchId).map fun m =>
    { predicate := m.predicate
      label := m.label
      snapshot := { matchId, fixtureId, minute, score, corners, cards, seq, ts } }

end Stoppage.Agent
