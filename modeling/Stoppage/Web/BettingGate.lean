import Stoppage.Lib.Decimal
import Stoppage.Lib.Lookup
import Stoppage.Sdk.ParseMarket

/-! # `apps/web`: when a market takes bets

The hooks of `lib/match/useBettingGate.ts`, which decide what the page offers, and the validators of
`lib/markets/fixtureValidator.ts`, which decide what is sent. Both look the fixture of a market up
in the same list. The gate of a page is kept by `useMemo` from one rendering to the next, while the
clock goes on. What `toLowerCase` makes of a string is left open.
-/

namespace Stoppage.Web
open Escrow Lookup
set_option autoImplicit false

/-! ## Fixtures -/

/-- What `StartTime` holds at run time; a text as the time that `new Date` reads in it, if any. -/
inductive StartTime where
  | number (n : ℤ)
  | text (time : Option ℤ)
  | other
deriving DecidableEq

/-- `FixtureWithMatchId`, by the fields that are read. -/
structure Fixture where
  matchId : JsString
  FixtureId : ℤ
  GameState : ℤ
  StartTime : StartTime
deriving DecidableEq

def notStarted : ℤ := 1

def firstHalf : ℤ := 2

def secondHalf : ℤ := 4

def isFixtureLive (fixture : Fixture) : Bool :=
  fixture.GameState = firstHalf || fixture.GameState = secondHalf

def isFixtureScheduled (fixture : Fixture) : Bool := fixture.GameState = notStarted

theorem not_scheduled_of_live {fixture : Fixture} (h : isFixtureLive fixture = true) :
    isFixtureScheduled fixture = false := by
  simp only [isFixtureLive, Bool.or_eq_true, decide_eq_true_eq] at h
  simp only [isFixtureScheduled, decide_eq_false_iff_not]
  simp only [firstHalf, secondHalf, notStarted] at h ⊢
  omega

/-- In milliseconds; `none` is not a number. -/
def fixtureStartTimeMs (fixture : Fixture) : Option ℤ :=
  match fixture.StartTime with
  | .number n => some (if n < 1000000000000 then n * 1000 else n)
  | .text time => time
  | .other => some 0

/-- `hoursUntilKickoff > 2`, which no comparison with a time that is not a number makes true. -/
def tooEarly (now : ℤ) (fixture : Fixture) : Bool :=
  match fixtureStartTimeMs fixture with
  | some startTime => 2 * (1000 * 60 * 60) < startTime - now
  | none => false

structure LiveMatchSnapshot where
  updatedAt : Option ℤ

def snapshotIsFresh (now : ℤ) (snapshot : Option LiveMatchSnapshot) : Bool :=
  match snapshot.bind LiveMatchSnapshot.updatedAt with
  | none => false
  | some updatedAt =>
    let timestamp := if updatedAt < 1000000000000 then updatedAt * 1000 else updatedAt
    updatedAt ≠ 0 && now - timestamp ≤ 45000

/-- The store of the page. Each call of `setFixtures` puts a new list of new objects, and `fetched`
counts them. -/
structure Store where
  markets : Pubkey → Option Escrow.Market
  fetched : ℕ
  fixtures : List Fixture
  fixturesLoading : Bool
  fixtureScores : ℤ → Option LiveMatchSnapshot

/-! ## Which fixture a market is bound to -/

def startsWith (text : String) (s : JsString) : Bool := Utf16.ofString text <+: s

/-- `s.includes(part)` -/
def includes (s part : JsString) : Bool := part <:+: s

def idText (fixture : Fixture) : JsString := Utf16.ofChars (Decimal.ofInt fixture.FixtureId)

section Rules
variable (toLowerCase : JsString → JsString) (id : JsString)

def exactId (f : Fixture) : Bool := f.matchId = id

def byFixtureId (f : Fixture) : Bool := idText f = id

def bySuffix (f : Fixture) : Bool :=
  Utf16.ofString "-" ++ id <:+ f.matchId || Utf16.ofString "-" ++ idText f <:+ id

def foldedId (f : Fixture) : Bool := toLowerCase f.matchId = toLowerCase id

def byPart (f : Fixture) : Bool :=
  foldedId toLowerCase id f || includes (toLowerCase f.matchId) (toLowerCase id) ||
    includes (toLowerCase id) (toLowerCase f.matchId)

/-- The lookups of `useBettingGate`, in their order. -/
def gateRules : List (Fixture → Bool) :=
  [exactId id, byFixtureId id, bySuffix id, byPart toLowerCase id]

/-- The lookups of the validators. -/
def validatorRules : List (Fixture → Bool) := [exactId id, foldedId toLowerCase id]

/-- `fixtureForMatchId` of `fixtures.ts` -/
def fixtureForMatchId (fixtures : List Fixture) : Option Fixture :=
  firstBy [exactId id, byFixtureId id, byPart toLowerCase id] fixtures

end Rules

def isPropMatchId (matchId : JsString) : Bool := matchId ≠ [] && startsWith "PROP:" matchId

def isFixtureGatedMarket (market : Escrow.Market) : Bool :=
  market.predicate.kind ≠ .priceAbove && !startsWith "tsdb:" market.predicate.matchId &&
    !isPropMatchId market.predicate.matchId

/-! ## The hooks -/

inductive BettingGate where
  | awaitingFixture
  | matchEnded
  | preMatchTooEarly
  | preMatchReady
  | liveFeedCurrent
  | liveFeedDelayed
deriving DecidableEq

structure BettingGateState where
  gate : BettingGate
  canBet : Bool
  reason : Option String

structure MarketBettingState extends BettingGateState where
  marketStatus : MarketStatus

def BettingGate.canBet (gate : BettingGate) : Bool :=
  gate = .preMatchReady || gate = .liveFeedCurrent || gate = .liveFeedDelayed

def BettingGate.reason : BettingGate → Option String
  | .awaitingFixture => some "Awaiting match data"
  | .matchEnded => some "Match ended"
  | .preMatchTooEarly => some "Betting opens 2h before kickoff"
  | _ => none

/-- Why a market that is not open takes no bets. -/
def statusReason : MarketStatus → String
  | .awaitingSettlement => "Market settling"
  | .settled => "Market resolved"
  | .void => "Market voided"
  | .open => "Market closed"

/-- What `useMemo` compares to the last rendering. Objects are compared as such: a fixture goes with
the list in which it was found. -/
structure GateDeps where
  fixture : Option (ℕ × Fixture)
  fixturesLoading : Bool
  live : Bool
  fresh : Bool
deriving DecidableEq

/-- What `useMemo` keeps of a gate: what it was computed from, and when. -/
structure GateMemo where
  deps : GateDeps
  computedAt : ℤ

/-- The gate that was computed then. -/
def GateMemo.gate (memo : GateMemo) : BettingGate :=
  if memo.deps.fixturesLoading then .awaitingFixture
  else match memo.deps.fixture with
    | none => .awaitingFixture
    | some (_, fixture) =>
      if fixture.GameState > 4 then .matchEnded
      else if memo.deps.live then
        if memo.deps.fresh then .liveFeedCurrent else .liveFeedDelayed
      else if isFixtureScheduled fixture then
        if tooEarly memo.computedAt fixture then .preMatchTooEarly else .preMatchReady
      else .awaitingFixture

/-- `useMemo`, from the last rendering to this one. -/
def useMemo (now : ℤ) (memo : Option GateMemo) (deps : GateDeps) : GateMemo :=
  match memo.filter fun memo => memo.deps = deps with
  | some memo => memo
  | none => ⟨deps, now⟩

section Hooks
variable (toLowerCase : JsString → JsString) (store : Store) (now : ℤ) (memo : Option GateMemo)

/-- The fixture that `useBettingGate` finds. -/
def gateFixture (matchId : JsString) : Option Fixture :=
  firstBy (gateRules toLowerCase matchId) store.fixtures

def gateDeps (fixture : Option Fixture) : GateDeps :=
  let live := fixture.any isFixtureLive
  let snapshot := if live then fixture.bind fun f => store.fixtureScores f.FixtureId else none
  { fixture := fixture.map (store.fetched, ·)
    fixturesLoading := store.fixturesLoading
    live
    fresh := snapshotIsFresh now snapshot }

def useBettingGate (matchId : JsString) : GateMemo × BettingGateState :=
  let memo := useMemo now memo (gateDeps store now (gateFixture toLowerCase store matchId))
  (memo, { gate := memo.gate, canBet := memo.gate.canBet, reason := memo.gate.reason })

def useMarketBettingState (market : Option Escrow.Market) : GateMemo × MarketBettingState :=
  match market with
  | none =>
    let (memo, fixtureGate) := useBettingGate toLowerCase store now memo []
    (memo,
      { gate := fixtureGate.gate
        canBet := false
        reason := some "Market not found"
        marketStatus := .open })
  | some market =>
    let (memo, fixtureGate) := useBettingGate toLowerCase store now memo market.predicate.matchId
    let canBet := market.status = .open && (!isFixtureGatedMarket market || fixtureGate.canBet)
    (memo,
      { gate := fixtureGate.gate
        canBet
        reason :=
          if canBet then none
          else if market.status ≠ .open then some (statusReason market.status)
          else fixtureGate.reason
        marketStatus := market.status })

/-- A rendering of the component that uses the hook. -/
structure Rendering where
  store : Store
  now : ℤ
  market : Option Escrow.Market

/-- What the hook compares in a rendering. -/
def Rendering.deps (r : Rendering) : GateDeps :=
  let matchId := match r.market with
    | none => []
    | some market => market.predicate.matchId
  gateDeps r.store r.now (gateFixture toLowerCase r.store matchId)

/-- Since when, the latest rendering coming first, the renderings have all been of these deps. -/
def sameSince (deps : GateDeps) (now : ℤ) : List Rendering → ℤ
  | [] => now
  | r :: earlier => if r.deps toLowerCase = deps then sameSince deps r.now earlier else now

/-- What the hook keeps after a sequence of renderings. -/
def memoAfter (renderings : List Rendering) : Option GateMemo :=
  renderings.foldl (fun memo r =>
    some (useMarketBettingState toLowerCase r.store r.now memo r.market).1) none

/-! ## The validators -/

structure FixtureValidationResult where
  canBet : Bool
  reason : Option String
deriving DecidableEq

def blocked (reason : String) : FixtureValidationResult := ⟨false, some reason⟩

def allowed : FixtureValidationResult := ⟨true, none⟩

def validatorFixture (fixtures : List Fixture) (matchId : JsString) : Option Fixture :=
  firstBy (validatorRules toLowerCase matchId) fixtures

def findFixtureForMarket (marketAddr : Pubkey) : Option Fixture × Option JsString :=
  match store.markets marketAddr with
  | none => (none, none)
  | some market =>
    (validatorFixture toLowerCase store.fixtures market.predicate.matchId,
      some market.predicate.matchId)

/-- The checks that both validators make of the fixture they found. -/
def checkFixture : Option Fixture → FixtureValidationResult
  | none => blocked "Awaiting match data"
  | some fixture =>
    if fixture.GameState > 4 then blocked "Match ended"
    else if isFixtureScheduled fixture && tooEarly now fixture then
      blocked "Betting opens 2h before kickoff"
    else allowed

def validateFixtureForBetting (marketAddr : Pubkey) : FixtureValidationResult :=
  let found := findFixtureForMarket toLowerCase store marketAddr
  if found.2.getD [] = [] then blocked "Market data still loading"
  else if (store.markets marketAddr).any fun market => !isFixtureGatedMarket market then allowed
  else checkFixture now found.1

/-- `fetchMarket` gives a market or none, or it throws. -/
def validateFixtureForBettingAsync (fixtures : List Fixture)
    (fetchMarket : Except Unit (Option Escrow.Market)) : FixtureValidationResult :=
  match fetchMarket with
  | .error () => blocked "Failed to validate fixture"
  | .ok none => blocked "Market not found"
  | .ok (some market) =>
    if !isFixtureGatedMarket market then allowed
    else checkFixture now (validatorFixture toLowerCase fixtures market.predicate.matchId)

/-! ## What each lets through -/

variable {toLowerCase store now memo} {matchId : JsString} {market : Escrow.Market} {addr : Pubkey}

/-- A gate that blocks says why, and one that does not has nothing to say. -/
theorem BettingGate.reason_isSome (gate : BettingGate) : gate.reason.isSome = !gate.canBet := by
  cases gate <;> rfl

/-- The fixture is not over and, before its kick-off, not more than two hours away. -/
def Passes (now : ℤ) (f : Fixture) : Prop :=
  f.GameState ≤ 4 ∧ (isFixtureScheduled f = true → tooEarly now f = false)

theorem useMemo_deps (deps : GateDeps) : (useMemo now memo deps).deps = deps := by
  rw [useMemo]
  split
  · rename_i kept hkept
    exact of_decide_eq_true (Option.filter_eq_some_iff.mp hkept).2
  · rfl

/-- What a memo of the fixture offers, whenever it was computed. -/
theorem gate_canBet {fixture : Option Fixture} {memo : GateMemo}
    (h : memo.deps = gateDeps store now fixture) : memo.gate.canBet = true ↔
      store.fixturesLoading = false ∧ ∃ f, fixture = some f ∧ Passes memo.computedAt f ∧
        (isFixtureLive f = true ∨ isFixtureScheduled f = true) := by
  rw [GateMemo.gate, h]
  cases hloading : store.fixturesLoading with
  | true => simp [gateDeps, hloading, BettingGate.canBet]
  | false =>
    cases fixture with
    | none => simp [gateDeps, hloading, BettingGate.canBet]
    | some f =>
      simp only [gateDeps, hloading, Passes, Option.some.injEq, exists_eq_left', true_and,
        Bool.false_eq_true, if_false, Option.map_some, Option.any_some]
      split
      · rename_i hover
        simp only [BettingGate.canBet]
        simp
        omega
      · rename_i hover
        have hstate : f.GameState ≤ 4 := by omega
        by_cases hlive : isFixtureLive f = true
        · have hnot := not_scheduled_of_live hlive
          simp only [hlive, if_true, Option.bind_some]
          cases snapshotIsFresh now (store.fixtureScores f.FixtureId) <;>
            simp [hnot, hstate, BettingGate.canBet]
        · simp only [hlive]
          cases isFixtureScheduled f with
          | true => cases tooEarly memo.computedAt f <;> simp [hstate, BettingGate.canBet]
          | false => simp [BettingGate.canBet]

theorem checkFixture_canBet {fixture : Option Fixture} :
    (checkFixture now fixture).canBet = true ↔ ∃ f, fixture = some f ∧ Passes now f := by
  cases fixture with
  | none => simp [checkFixture, blocked]
  | some f =>
    simp only [checkFixture, Passes, Option.some.injEq, exists_eq_left']
    split
    · rename_i hover
      simp only [blocked, Bool.false_eq_true, false_iff]
      omega
    · rename_i hover
      have hstate : f.GameState ≤ 4 := by omega
      cases isFixtureScheduled f <;> cases tooEarly now f <;> simp [hstate, blocked, allowed]

theorem checkFixture_reason (fixture : Option Fixture) :
    (checkFixture now fixture).reason.isSome = !(checkFixture now fixture).canBet := by
  cases fixture with
  | none => rfl
  | some f =>
    simp only [checkFixture]
    split
    · rfl
    · split <;> rfl

/-! ## An open market -/

/-- The memo that this rendering leaves. -/
def gateMemo (toLowerCase : JsString → JsString) (store : Store) (now : ℤ) (memo : Option GateMemo)
    (matchId : JsString) : GateMemo :=
  useMemo now memo (gateDeps store now (gateFixture toLowerCase store matchId))

theorem gateMemo_canBet : (gateMemo toLowerCase store now memo matchId).gate.canBet = true ↔
    store.fixturesLoading = false ∧ ∃ f, gateFixture toLowerCase store matchId = some f ∧
      Passes (gateMemo toLowerCase store now memo matchId).computedAt f ∧
        (isFixtureLive f = true ∨ isFixtureScheduled f = true) :=
  gate_canBet (useMemo_deps _)

theorem useMarketBettingState_memo (r : Rendering) :
    (useMarketBettingState toLowerCase r.store r.now memo r.market).1 =
      useMemo r.now memo (r.deps toLowerCase) := by
  cases hmarket : r.market <;> simp [useMarketBettingState, useBettingGate, Rendering.deps, hmarket]

/-- A gate is as old as the renderings that had its deps. -/
theorem computedAt_memoAfter (deps : GateDeps) (earlier : List Rendering) (now : ℤ) :
    (useMemo now (memoAfter toLowerCase earlier) deps).computedAt =
      sameSince toLowerCase deps now earlier.reverse := by
  induction earlier using List.reverseRecOn generalizing now with
  | nil => rfl
  | append_singleton earlier r ih =>
    have hmemo : memoAfter toLowerCase (earlier ++ [r]) =
        some (useMemo r.now (memoAfter toLowerCase earlier) (r.deps toLowerCase)) := by
      simp only [memoAfter, List.foldl_append, List.foldl_cons, List.foldl_nil,
        useMarketBettingState_memo]
    rw [hmemo, List.reverse_append, List.reverse_singleton, List.singleton_append, sameSince]
    by_cases hsame : r.deps toLowerCase = deps
    · rw [if_pos hsame, ← ih r.now, ← hsame]
      simp only [useMemo.eq_def now, Option.filter_some, useMemo_deps, decide_true, if_true]
    · rw [if_neg hsame]
      simp only [useMemo.eq_def now, Option.filter_some, useMemo_deps, decide_eq_true_eq, hsame,
        if_false]

section Open
variable (hopen : market.status = .open)
include hopen

theorem hook_canBet : (useMarketBettingState toLowerCase store now memo (some market)).2.canBet =
    (!isFixtureGatedMarket market ||
      (gateMemo toLowerCase store now memo market.predicate.matchId).gate.canBet) := by
  simp [useMarketBettingState, useBettingGate, gateMemo, hopen]

/-- The page tells a reader of an open market why it takes no bets. -/
theorem hook_reason_isSome :
    (useMarketBettingState toLowerCase store now memo (some market)).2.reason.isSome =
      !(useMarketBettingState toLowerCase store now memo (some market)).2.canBet := by
  rw [hook_canBet hopen]
  cases hgated : isFixtureGatedMarket market with
  | false => simp [useMarketBettingState, useBettingGate, hopen, hgated]
  | true =>
    simp only [useMarketBettingState, useBettingGate, hopen, hgated, gateMemo]
    have hreason := BettingGate.reason_isSome
      (useMemo now memo (gateDeps store now
        (gateFixture toLowerCase store market.predicate.matchId))).gate
    cases hcan : (useMemo now memo (gateDeps store now
        (gateFixture toLowerCase store market.predicate.matchId))).gate.canBet with
    | true => simp
    | false => simpa [hcan] using hreason

end Open

theorem async_canBet : (validateFixtureForBettingAsync toLowerCase now store.fixtures
      (.ok (some market))).canBet =
    (!isFixtureGatedMarket market || (checkFixture now
      (validatorFixture toLowerCase store.fixtures market.predicate.matchId)).canBet) := by
  cases hgated : isFixtureGatedMarket market <;>
    simp [validateFixtureForBettingAsync, hgated, allowed]

theorem sync_canBet (hmarket : store.markets addr = some market) :
    (validateFixtureForBetting toLowerCase store now addr).canBet =
      (decide (market.predicate.matchId ≠ []) &&
        (validateFixtureForBettingAsync toLowerCase now store.fixtures
          (.ok (some market))).canBet) := by
  rw [async_canBet]
  cases hgated : isFixtureGatedMarket market <;> by_cases hid : market.predicate.matchId = [] <;>
    simp [validateFixtureForBetting, findFixtureForMarket, hmarket, hgated, hid, blocked, allowed]

/-! ## Where the three agree -/

/-- Rendered after the earlier renderings, the page and both validators give the same answer, and for
a market of a match they give it of the same fixture. -/
def GatesAgree (toLowerCase : JsString → JsString) (earlier : List Rendering) (store : Store)
    (now : ℤ) (addr : Pubkey) (market : Escrow.Market) : Prop :=
  let hook := (useMarketBettingState toLowerCase store now (memoAfter toLowerCase earlier)
    (some market)).2
  let matchId := market.predicate.matchId
  hook.canBet = (validateFixtureForBetting toLowerCase store now addr).canBet ∧
    hook.canBet = (validateFixtureForBettingAsync toLowerCase now store.fixtures
      (.ok (some market))).canBet ∧
    (isFixtureGatedMarket market = true →
      gateFixture toLowerCase store matchId =
          (findFixtureForMarket toLowerCase store addr).1 ∧
        gateFixture toLowerCase store matchId =
          validatorFixture toLowerCase store.fixtures matchId)

/-- The fixture has the id itself, or no fixture does and it is the first with the id up to case
and the first under the first other rule of the gate that any fixture matches. -/
def FoundAlike (toLowerCase : JsString → JsString) (id : JsString) (fixtures : List Fixture)
    (f : Fixture) : Prop :=
  First (exactId id) fixtures f ∨
    Misses (exactId id) fixtures ∧
      Picks fixtures f [byFixtureId id, bySuffix id, byPart toLowerCase id] ∧
      First (foldedId toLowerCase id) fixtures f

/-- A fixture that the validators pass is one that the page knows to be in play or ahead, the
fixtures are not being loaded, and the hour at which the gate opens does not lie between now and the
time since which the renderings have had the same deps. -/
structure Settled (store : Store) (now computedAt : ℤ) (id : JsString) (f : Fixture) : Prop where
  passed : Passes now f → store.fixturesLoading = false ∧ id ≠ [] ∧
    (isFixtureLive f = true ∨ isFixtureScheduled f = true)
  current : store.fixturesLoading = false → (Passes computedAt f ↔ Passes now f)

theorem gateRules_of_validatorRules {id : JsString} :
    ∀ q ∈ validatorRules toLowerCase id, ∀ f, q f = true →
      ∃ p ∈ gateRules toLowerCase id, p f = true := by
  intro q hq f hf
  simp only [validatorRules, List.mem_cons, List.not_mem_nil, or_false] at hq
  rcases hq with rfl | rfl
  · exact ⟨exactId id, by simp [gateRules], hf⟩
  · exact ⟨byPart toLowerCase id, by simp [gateRules], by simp [byPart, hf]⟩

/-- The gate's lookup goes by suffixes before it goes by parts, and is else the one of the page. -/
theorem gateFixture_eq_fixtureForMatchId {id : JsString}
    (h : Misses (bySuffix id) store.fixtures) :
    gateFixture toLowerCase store id = fixtureForMatchId toLowerCase id store.fixtures := by
  simp only [gateFixture, fixtureForMatchId, gateRules, firstBy_cons, find?_eq_none.mpr h,
    Option.none_or]

/-- When the page and the validators bind a market to the same fixture, or to none. -/
theorem gateFixture_eq_iff {id : JsString} :
    gateFixture toLowerCase store id = validatorFixture toLowerCase store.fixtures id ↔
      (∀ p ∈ gateRules toLowerCase id, Misses p store.fixtures) ∨
        ∃ f, FoundAlike toLowerCase id store.fixtures f := by
  rw [gateFixture, validatorFixture, firstBy_eq_iff gateRules_of_validatorRules]
  simp only [gateRules, validatorRules, FoundAlike, Picks.both_cons, Picks.singleton]

theorem FoundAlike.found {id : JsString} {f : Fixture}
    (h : FoundAlike toLowerCase id store.fixtures f) :
    gateFixture toLowerCase store id = some f ∧
      validatorFixture toLowerCase store.fixtures id = some f := by
  have hpicks : Picks store.fixtures f (gateRules toLowerCase id) ∧
      Picks store.fixtures f (validatorRules toLowerCase id) := by
    simp only [gateRules, validatorRules, Picks.both_cons, Picks.singleton]
    exact h
  exact ⟨firstBy_eq_some.mpr hpicks.1, firstBy_eq_some.mpr hpicks.2⟩

theorem passes_of_not_scheduled {f : Fixture} {time time' : ℤ}
    (h : isFixtureScheduled f = false) : Passes time f ↔ Passes time' f := by
  simp only [Passes, h, Bool.false_eq_true, false_imp_iff]

/-- The page agrees with a validator about a fixture that both found. -/
theorem found_agree_iff {id : JsString} {f : Fixture} {gate : Bool} {computedAt : ℤ}
    (hgate : gate = true ↔ store.fixturesLoading = false ∧ Passes computedAt f ∧
      (isFixtureLive f = true ∨ isFixtureScheduled f = true)) :
    (gate = (decide (id ≠ []) && (checkFixture now (some f)).canBet) ∧
      gate = (checkFixture now (some f)).canBet) ↔ Settled store now computedAt id f := by
  have hcheck : (checkFixture now (some f)).canBet = true ↔ Passes now f := by
    rw [checkFixture_canBet]
    simp only [Option.some.injEq, exists_eq_left']
  have hsync : gate = (decide (id ≠ []) && (checkFixture now (some f)).canBet) ↔
      (store.fixturesLoading = false ∧ Passes computedAt f ∧
        (isFixtureLive f = true ∨ isFixtureScheduled f = true) ↔ id ≠ [] ∧ Passes now f) := by
    rw [Bool.eq_iff_iff, Bool.and_eq_true, decide_eq_true_iff, hgate, hcheck]
  have hasync : gate = (checkFixture now (some f)).canBet ↔
      (store.fixturesLoading = false ∧ Passes computedAt f ∧
        (isFixtureLive f = true ∨ isFixtureScheduled f = true) ↔ Passes now f) := by
    rw [Bool.eq_iff_iff, hgate, hcheck]
  rw [hsync, hasync]
  constructor
  · rintro ⟨hnamed, hsame⟩
    refine ⟨fun hpasses => ?_, fun hloaded => ⟨fun hthen => ?_, fun hpasses => ?_⟩⟩
    · obtain ⟨hloaded, -, hknown⟩ := hsame.mpr hpasses
      exact ⟨hloaded, (hnamed.mp (hsame.mpr hpasses)).1, hknown⟩
    · cases hscheduled : isFixtureScheduled f with
      | true => exact hsame.mp ⟨hloaded, hthen, .inr hscheduled⟩
      | false => exact (passes_of_not_scheduled hscheduled).mp hthen
    · exact (hsame.mpr hpasses).2.1
  · intro h
    have hsame : (store.fixturesLoading = false ∧ Passes computedAt f ∧
        (isFixtureLive f = true ∨ isFixtureScheduled f = true)) ↔ Passes now f := by
      refine ⟨fun hoffered => (h.current hoffered.1).mp hoffered.2.1, fun hpasses => ?_⟩
      obtain ⟨hloaded, -, hknown⟩ := h.passed hpasses
      exact ⟨hloaded, (h.current hloaded).mpr hpasses, hknown⟩
    exact ⟨hsame.trans ⟨fun hpasses => ⟨(h.passed hpasses).2.1, hpasses⟩, And.right⟩, hsame⟩

/-- The gates of an open market agree in these cases: a market of no match has a match id; for a
market of a match, either no rule of the gate finds a fixture, or one fixture is found alike, the
validators pass it only where the page offers it too, and the renderings have not had the same deps
since a time when the fixture was more than two hours away. -/
theorem gates_agree_iff (toLowerCase : JsString → JsString) (earlier : List Rendering)
    (store : Store) (now : ℤ) (addr : Pubkey) (market : Escrow.Market)
    (hopen : market.status = .open) (hmarket : store.markets addr = some market) :
    GatesAgree toLowerCase earlier store now addr market ↔
      if isFixtureGatedMarket market then
        (∀ p ∈ gateRules toLowerCase market.predicate.matchId, Misses p store.fixtures) ∨
          ∃ f, FoundAlike toLowerCase market.predicate.matchId store.fixtures f ∧
            Settled store now (sameSince toLowerCase
              (gateDeps store now (gateFixture toLowerCase store market.predicate.matchId)) now
              earlier.reverse) market.predicate.matchId f
      else market.predicate.matchId ≠ [] := by
  simp only [GatesAgree, sync_canBet hmarket, async_canBet, hook_canBet hopen]
  have hfound : (findFixtureForMarket toLowerCase store addr).1 =
      validatorFixture toLowerCase store.fixtures market.predicate.matchId := by
    rw [findFixtureForMarket, hmarket]
  rw [hfound, and_self]
  cases hgated : isFixtureGatedMarket market with
  | false => simp
  | true =>
    simp only [Bool.not_true, Bool.false_or, true_imp_iff, if_true]
    rw [← and_assoc]
    have hgate := @gateMemo_canBet toLowerCase store now (memoAfter toLowerCase earlier)
      market.predicate.matchId
    have hage := @computedAt_memoAfter toLowerCase
      (gateDeps store now (gateFixture toLowerCase store market.predicate.matchId)) earlier now
    rw [← gateMemo] at hage
    rw [hage] at hgate
    generalize sameSince toLowerCase _ now earlier.reverse = since at hgate ⊢
    constructor
    · rintro ⟨hanswers, hsame⟩
      rcases gateFixture_eq_iff.mp hsame with hnone | ⟨f, halike⟩
      · exact .inl hnone
      · rw [halike.found.1] at hgate
        rw [halike.found.2] at hanswers
        simp only [Option.some.injEq, exists_eq_left'] at hgate
        exact .inr ⟨f, halike, (found_agree_iff hgate).mp hanswers⟩
    · rintro (hnone | ⟨f, halike, hsettled⟩)
      · have hmisses : gateFixture toLowerCase store market.predicate.matchId = none :=
          firstBy_eq_none.mpr hnone
        have hsame := gateFixture_eq_iff.mpr (.inl hnone)
        have hcannot : (gateMemo toLowerCase store now (memoAfter toLowerCase earlier)
            market.predicate.matchId).gate.canBet = false := by
          refine Bool.eq_false_iff.mpr fun hcan => ?_
          obtain ⟨-, f, hf, -⟩ := hgate.mp hcan
          rw [hmisses] at hf
          cases hf
        rw [← hsame, hmisses, hcannot]
        exact ⟨by simp [checkFixture, blocked], rfl⟩
      · rw [halike.found.1] at hgate
        rw [halike.found.1, halike.found.2]
        simp only [Option.some.injEq, exists_eq_left'] at hgate
        exact ⟨(found_agree_iff hgate).mpr hsettled, rfl⟩

end Hooks

/-! ## Half-time -/

namespace HalfTime

/-- `toLowerCase` on ASCII. -/
def asciiLower (s : JsString) : JsString := s.map fun u => if 65 ≤ u ∧ u ≤ 90 then u + 32 else u

def matchId : JsString := Utf16.ofString "ARG-BRA-17588245"

def key : Pubkey := ⟨List.replicate 32 1, rfl⟩

def market : Escrow.Market where
  id := key
  predicate := ⟨.totalGoalsOver, matchId, ⟨none, some 2, none⟩⟩
  creator := key
  oracle := key
  bondLamports := 0
  bondClaimed := false
  yesPool := 0
  noPool := 0
  closesAt := 1780000000
  settlesAt := none
  status := .open
  outcome := .void
  feeBps := 200
  verifications := 0

/-- The match of the market, in a phase of `GamePhase`. -/
def store (phase : ℤ) : Store where
  markets _ := some market
  fetched := 1
  fixtures := [⟨matchId, 17588245, phase, .number 1779990000000⟩]
  fixturesLoading := false
  fixtureScores _ := none

/-- The page was rendered before the kick-off. -/
def earlier : List Rendering := [⟨{ store 1 with fetched := 0 }, 1779989000000, some market⟩]

theorem gates_agree_iff_sample :
    market.status = .open ∧
      (GatesAgree asciiLower earlier (store 2) 1779993000000 key market ↔
        if isFixtureGatedMarket market then
          (∀ p ∈ gateRules asciiLower matchId, Misses p (store 2).fixtures) ∨
            ∃ f, FoundAlike asciiLower matchId (store 2).fixtures f ∧
              Settled (store 2) 1779993000000 (sameSince asciiLower
                (gateDeps (store 2) 1779993000000 (gateFixture asciiLower (store 2) matchId))
                1779993000000 earlier.reverse) matchId f
        else matchId ≠ []) ∧
      GatesAgree asciiLower earlier (store 2) 1779993000000 key market := by
  refine ⟨rfl, gates_agree_iff asciiLower earlier (store 2) 1779993000000 key
    market rfl rfl, ?_⟩
  exact ⟨by decide +kernel, by decide +kernel, fun _ => ⟨by decide +kernel, by decide +kernel⟩⟩

/-- At half-time the page offers no bet, and both validators take one. -/
theorem gates_disagree_at_half_time :
    ¬ ∀ (toLowerCase : JsString → JsString) (earlier : List Rendering) (store : Store) (now : ℤ)
        (addr : Pubkey) (market : Escrow.Market), market.status = .open →
      store.markets addr = some market → GatesAgree toLowerCase earlier store now addr market := by
  intro h
  have hagree := (h asciiLower [] (store 3) 1779993000000 key market rfl rfl).1
  have hoffered : (useMarketBettingState asciiLower (store 3) 1779993000000
      (memoAfter asciiLower []) (some market)).2.canBet = false := by decide +kernel
  have htaken : (validateFixtureForBetting asciiLower (store 3) 1779993000000
      key).canBet = true := by decide +kernel
  rw [hoffered, htaken] at hagree
  exact Bool.false_ne_true hagree

/-- A second before the gate opens the page is rendered, and again a second after: it still offers
no bet. -/
example : (useMarketBettingState asciiLower (store 1) 1779982801000
    (memoAfter asciiLower [⟨store 1, 1779982799000, some market⟩]) (some market)).2.gate =
      .preMatchTooEarly := by decide +kernel

end HalfTime

end Stoppage.Web
