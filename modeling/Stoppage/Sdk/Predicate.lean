import Stoppage.Sdk.Escrow

/-! # The predicates that the agent builds

The agent fills the record of the SDK with text and with integers, so `BigInt` does not throw on
what it has built and the address of its market is a value.
-/

namespace Stoppage
open Fallible
set_option autoImplicit false

/-- The parameters by name; the numeric ones are integers. -/
structure PredicateParams where
  team : Option String
  threshold : Option ℤ
  windowSeconds : Option ℤ
  unit : Option String
deriving DecidableEq

structure MarketPredicate where
  kind : PredicateKind
  matchId : String
  params : PredicateParams
deriving DecidableEq

/-- `Number(params.threshold ?? 0)` -/
def MarketPredicate.threshold (p : MarketPredicate) : ℤ := p.params.threshold.getD 0

/-- The same predicate on the strings and numbers of the SDK, which does not read the unit. -/
def MarketPredicate.toSdk (p : MarketPredicate) : Escrow.MarketPredicate where
  kind := p.kind
  matchId := Utf16.ofString p.matchId
  params :=
    { team := p.params.team.map Utf16.ofString
      threshold := p.params.threshold.map fun n => (n : ℚ)
      windowSeconds := p.params.windowSeconds.map fun n => (n : ℚ) }

def MarketPredicate.number (p : MarketPredicate) : ℤ :=
  (p.params.windowSeconds <|> p.params.threshold).getD 0

theorem MarketPredicate.number_toSdk (p : MarketPredicate) : p.toSdk.number = p.number := by
  obtain ⟨_, _, _, threshold, windowSeconds, _⟩ := p
  cases windowSeconds with
  | some _ => rfl
  | none =>
    cases threshold with
    | some _ => rfl
    | none => exact Int.cast_zero.symm

def MarketPredicate.seeds (p : MarketPredicate) : MarketSeeds :=
  Escrow.marketSeeds p.kind.code (Escrow.matchIdToBuffer p.toSdk.matchId)
    (Escrow.teamToBuffer p.toSdk.team) p.number

def findMarketPdaFromPredicate (rt : Runtime) (p : MarketPredicate) : Pubkey :=
  rt.marketAddress p.seeds

theorem MarketPredicate.seeds_toSdk (p : MarketPredicate) : p.toSdk.seeds = .ok p.seeds := by
  rw [Escrow.MarketPredicate.seeds, number_toSdk, Escrow.toBigInt_eq_ok.mpr rfl]
  rfl

theorem findMarketPda_toSdk (rt : Runtime) (p : MarketPredicate) :
    Escrow.findMarketPdaFromPredicate rt p.toSdk = .ok (findMarketPdaFromPredicate rt p) :=
  Escrow.findMarketPdaFromPredicate_eq_ok.mpr ⟨_, p.seeds_toSdk, rfl⟩

end Stoppage
