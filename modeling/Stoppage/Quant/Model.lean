import Stoppage.Quant.Snapshot

/-! # `packages/quant`: the model

Numbers are rationals; what the arithmetic of the machine makes of them is a parameter, the same for
everyone who runs the model. The generator of random numbers and the hash of its seed are on 32-bit
words as in `rng.ts`. A loop that draws until a bound is passed runs on fuel.
-/

namespace Stoppage.Quant
open Fallible Escrow
set_option autoImplicit false

/-- The arithmetic of a machine: how results are rounded, the functions of `Math`, the text of a
number and SHA-256. -/
structure Machine where
  round : ℚ → ℚ
  sqrt : ℚ → ℚ
  exp : ℚ → ℚ
  numberText : ℚ → JsString
  sha256 : Bytes → Bytes

namespace Machine

def add (m : Machine) (x y : ℚ) : ℚ := m.round (x + y)

def sub (m : Machine) (x y : ℚ) : ℚ := m.round (x - y)

def mul (m : Machine) (x y : ℚ) : ℚ := m.round (x * y)

def div (m : Machine) (x y : ℚ) : ℚ := m.round (x / y)

end Machine

inductive QuantError
  | unsupportedKind (kind : PredicateKind)
  | outOfFuel
deriving DecidableEq

/-! ## `rng.ts` -/

/-- `Math.imul(h ^ ch, multiplier)` over the units of a string. -/
def mix (multiplier : UInt32) (h : UInt32) (str : JsString) : UInt32 :=
  str.foldl (fun h ch => (h ^^^ UInt32.ofNat ch.toNat) * multiplier) h

def cyrb53 (str : JsString) : ℕ :=
  let h1 := mix 2654435761 0xdeadbeef str
  let h2 := mix 1597334677 0x41c6ce57 str
  let h1 := (h1 ^^^ (h1 >>> 16)) * 2246822507
  let h1 := h1 ^^^ ((h2 ^^^ (h2 >>> 13)) * 3266489909)
  let h2 := (h2 ^^^ (h2 >>> 16)) * 2246822507
  let h2 := h2 ^^^ ((h1 ^^^ (h1 >>> 13)) * 3266489909)
  4294967296 * (2097151 &&& h2).toNat + h1.toNat

/-- `parts.join("|")` -/
def join : List JsString → JsString
  | [] => []
  | [part] => part
  | part :: parts => part ++ (Utf16.ofString "|" ++ join parts)

def hashSeed (parts : List JsString) : ℕ := cyrb53 (join parts)

abbrev Rng := UInt32

def mulberry32 (seed : ℕ) : Rng := UInt32.ofNat seed

/-- One number in `[0, 1)`, and the next state. -/
def Rng.next (a : Rng) : ℚ × Rng :=
  let a := a + 0x6d2b79f5
  let t := (a ^^^ (a >>> 15)) * (1 ||| a)
  let t := (t + (t ^^^ (t >>> 7)) * (61 ||| t)) ^^^ t
  (((t ^^^ (t >>> 14)).toNat : ℚ) / 4294967296, a)

/-- The `do … while (p > L)` of `poisson`. -/
def draw (m : Machine) (bound : ℚ) : ℕ → ℕ → ℚ → Rng → Except QuantError (ℕ × Rng)
  | 0, _, _, _ => .error .outOfFuel
  | fuel + 1, k, p, rng =>
    let (x, rng) := rng.next
    let p := m.mul p x
    if bound < p then draw m bound fuel (k + 1) p rng else .ok (k, rng)

def poisson (m : Machine) (fuel : ℕ) (lambda : ℚ) (rng : Rng) : Except QuantError (ℕ × Rng) :=
  if lambda ≤ 0 then .ok (0, rng) else draw m (m.exp (-lambda)) fuel 0 1 rng

/-! ## `modelParams.ts` -/

structure ModelParams where
  version : JsString
  goalRatePrior : ℚ
  cornerRatePrior : ℚ
  blendMin : ℚ
  blendMax : ℚ
  stoppageMinutes : ℚ
  spreadBaseBps : ℚ
  spreadPerCiBps : ℚ
  inventorySkew : ℚ
  simulations : ℕ

def defaultModelParams : ModelParams where
  version := Utf16.ofString "stoppage-quant-v1"
  goalRatePrior := 265 / 100
  cornerRatePrior := 105 / 10
  blendMin := 0
  blendMax := 6 / 10
  stoppageMinutes := 5
  spreadBaseBps := 200
  spreadPerCiBps := 150
  inventorySkew := 15 / 100
  simulations := 10000

/-! ## `monteCarlo.ts` -/

structure SimulationResult where
  probability : ℚ
  ci : ℚ × ℚ
  sims : ℕ
deriving DecidableEq

def thresholdFor (predicate : Escrow.MarketPredicate) : ℚ := predicate.params.threshold.getD 0

def minutesRemaining (m : Machine) (snapshot : PricingSnapshot ℚ) (params : ModelParams) : ℚ :=
  max (m.sub (m.add 90 params.stoppageMinutes) snapshot.minute) params.stoppageMinutes

def blendedRatePerMinute (m : Machine) (observedSoFar priorPerMatch : ℚ)
    (snapshot : PricingSnapshot ℚ) (params : ModelParams) : ℚ :=
  let observedPerMinute := if 0 < snapshot.minute then m.div observedSoFar snapshot.minute else 0
  let frac := min (max (m.div snapshot.minute 90) 0) 1
  let w := m.add params.blendMin (m.mul (m.sub params.blendMax params.blendMin) frac)
  m.add (m.mul w observedPerMinute) (m.mul (m.sub 1 w) (m.div priorPerMatch 90))

def kindText : PredicateKind → JsString
  | .nextGoalWithin => Utf16.ofString "next_goal_within"
  | .cornersOver => Utf16.ofString "corners_over"
  | .cardShown => Utf16.ofString "card_shown"
  | .totalGoalsOver => Utf16.ofString "total_goals_over"
  | .priceAbove => Utf16.ofString "price_above"

/-- `hashSnapshot` of a snapshot that has its type. -/
def snapshotHash (m : Machine) (snapshot : PricingSnapshot ℚ) : JsString :=
  hexText (m.sha256 (Utf16.encode (Json.stringify m.numberText (literal snapshot))))

/-- What a kind counts, and its prior. -/
def observed (m : Machine) (kind : PredicateKind) (snapshot : PricingSnapshot ℚ)
    (params : ModelParams) : Except QuantError (ℚ × ℚ) :=
  match kind with
  | .totalGoalsOver => .ok (m.add snapshot.score.home snapshot.score.away, params.goalRatePrior)
  | .cornersOver => .ok (m.add snapshot.corners.home snapshot.corners.away, params.cornerRatePrior)
  | kind => .error (.unsupportedKind kind)

/-- The loop over the simulations, which counts those that end above the threshold. -/
def exceedances (m : Machine) (fuel : ℕ) (observedSoFar lambdaRemaining threshold : ℚ) :
    ℕ → ℕ → Rng → Except QuantError ℕ
  | 0, count, _ => .ok count
  | n + 1, count, rng => do
    let (future, rng) ← poisson m fuel lambdaRemaining rng
    exceedances m fuel observedSoFar lambdaRemaining threshold n
      (if threshold < m.add observedSoFar future then count + 1 else count) rng

def simulate (m : Machine) (fuel : ℕ) (predicate : Escrow.MarketPredicate)
    (snapshot : PricingSnapshot ℚ) (params : ModelParams) (seed : JsString) :
    Except QuantError SimulationResult := do
  let threshold := thresholdFor predicate
  let remaining := minutesRemaining m snapshot params
  let rng := mulberry32 (hashSeed [seed, kindText predicate.kind, m.numberText threshold,
    snapshotHash m snapshot])
  let (observedSoFar, priorPerMatch) ← observed m predicate.kind snapshot params
  let lambdaPerMinute := blendedRatePerMinute m observedSoFar priorPerMatch snapshot params
  let lambdaRemaining := m.mul lambdaPerMinute remaining
  let n := max 1 params.simulations
  let count ← exceedances m fuel observedSoFar lambdaRemaining threshold n 0 rng
  let p := m.div count n
  let sd := m.sqrt (m.div (m.mul p (m.sub 1 p)) n)
  let margin := m.mul (196 / 100) sd
  pure { probability := p, ci := (max 0 (m.sub p margin), min 1 (m.add p margin)), sims := n }

/-! ## `marketMaker.ts` -/

/-- The type `Quote` of the market maker. -/
structure MakerQuote where
  fairValue : ℚ
  bid : ℚ
  ask : ℚ
deriving DecidableEq

structure Inventory where
  netYes : ℚ
  notional : ℚ

def makeQuote (m : Machine) (fairValue : ℚ) (ci : ℚ × ℚ) (params : ModelParams)
    (inventory : Inventory) : MakerQuote :=
  let ciWidth := max 0 (m.sub ci.2 ci.1)
  let halfSpreadBps := m.add params.spreadBaseBps (m.mul params.spreadPerCiBps ciWidth)
  let halfSpread := m.div halfSpreadBps 10000
  let inv := if 0 < inventory.notional then m.div inventory.netYes inventory.notional else 0
  let skew := m.mul (-params.inventorySkew) (max (-1) (min 1 inv))
  let mid := m.add fairValue skew
  let first := (max 0 (min 1 (m.sub mid halfSpread)), max 0 (min 1 (m.add mid halfSpread)))
  let second := if first.2 ≤ first.1 then
    (max 0 (m.sub fairValue halfSpread), min 1 (m.add fairValue halfSpread)) else first
  let third := if second.2 ≤ second.1 then
    (max 0 (m.sub fairValue (1 / 1000)), min 1 (m.add fairValue (1 / 1000))) else second
  let last := if third.2 ≤ third.1 then (fairValue, min 1 (m.add fairValue (1 / 10000))) else third
  { fairValue, bid := last.1, ask := last.2 }

/-! ## `pricing.ts` -/

structure PricingResult where
  fairValue : ℚ
  bid : ℚ
  ask : ℚ
  ci : ℚ × ℚ
  sims : ℕ
  modelVersion : JsString
  seed : JsString
deriving DecidableEq

def priceMarket (m : Machine) (fuel : ℕ) (predicate : Escrow.MarketPredicate)
    (snapshot : PricingSnapshot ℚ) (params : ModelParams) (seed : JsString)
    (inventory : Inventory) : Except QuantError PricingResult := do
  let sim ← simulate m fuel predicate snapshot params seed
  let quote := makeQuote m sim.probability sim.ci params inventory
  pure
    { fairValue := quote.fairValue
      bid := quote.bid
      ask := quote.ask
      ci := sim.ci
      sims := sim.sims
      modelVersion := params.version
      seed }

/-- `deriveSeed` of `seed.ts`. -/
def deriveSeed (m : Machine) (predicateKind : JsString) (snapshot : PricingSnapshot ℚ) : JsString :=
  predicateKind ++ (Utf16.ofString ":" ++ (snapshot.matchId ++ (Utf16.ofString ":" ++
    m.numberText snapshot.seq)))

/-- The model looks at a predicate's kind and threshold. -/
theorem priceMarket_congr (m : Machine) (fuel : ℕ) {p q : Escrow.MarketPredicate}
    (hkind : p.kind = q.kind) (hthreshold : thresholdFor p = thresholdFor q) (snapshot : PricingSnapshot ℚ)
    (params : ModelParams) (seed : JsString) (inventory : Inventory) :
    priceMarket m fuel p snapshot params seed inventory =
      priceMarket m fuel q snapshot params seed inventory := by
  simp only [priceMarket, simulate, hkind, hthreshold]

end Stoppage.Quant
