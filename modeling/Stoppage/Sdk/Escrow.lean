import Stoppage.Lib.Utf16
import Stoppage.Lib.Padding
import Stoppage.Programs.MarketEntry
import Stoppage.Sdk.Buffers

/-! # `packages/sdk`: creating a market

`escrow.ts` on the strings and numbers of the language: a string is a list of UTF-16 code units, a
number is a rational. The numbers that are not finite are left out; `BigInt` refuses them as it
refuses every number that is no integer.
-/

namespace Stoppage
set_option autoImplicit false

inductive PredicateKind where
  | nextGoalWithin
  | cornersOver
  | cardShown
  | totalGoalsOver
  | priceAbove
deriving DecidableEq

/-- `PREDICATE_KIND` -/
def PredicateKind.code : PredicateKind → UInt8
  | .nextGoalWithin => 0
  | .cornersOver => 1
  | .cardShown => 2
  | .totalGoalsOver => 3
  | .priceAbove => 4

namespace Escrow
open LittleEndian Fallible Padding Sdk

abbrev JsString := List UInt16

/-- `BigInt(value)` -/
def toBigInt (value : ℚ) : Except SdkError ℤ :=
  if value.den = 1 then .ok value.num else .error .rangeError

theorem toBigInt_eq_ok {value : ℚ} {n : ℤ} : toBigInt value = .ok n ↔ value = n := by
  unfold toBigInt
  constructor
  · intro h
    split at h
    · rename_i hden
      cases h
      exact (Rat.coe_int_num_of_den_eq_one hden).symm
    · cases h
  · rintro rfl
    exact if_pos (Rat.den_intCast n)

/-! ## Predicates -/

/-- `Record<string, string | number>`, by the keys that are read. -/
structure PredicateParams where
  team : Option JsString
  threshold : Option ℚ
  windowSeconds : Option ℚ
deriving DecidableEq

structure MarketPredicate where
  kind : PredicateKind
  matchId : JsString
  params : PredicateParams
deriving DecidableEq

/-- `String(predicate.params.team ?? "")` -/
def MarketPredicate.team (p : MarketPredicate) : JsString := p.params.team.getD []

/-- `Number(predicate.params.windowSeconds ?? predicate.params.threshold ?? 0)` -/
def MarketPredicate.number (p : MarketPredicate) : ℚ :=
  (p.params.windowSeconds <|> p.params.threshold).getD 0

/-! ## Addresses -/

/-- The bytes that `copy` takes over: at most `s.length` of them. -/
def kept (s : JsString) (len : ℕ) : Bytes := (Utf16.encode s).take (min s.length len)

theorem length_kept_le (s : JsString) (len : ℕ) : (kept s len).length ≤ len := by
  rw [kept, List.length_take]
  omega

def padString (s : JsString) (len : ℕ) : List.Vector UInt8 len :=
  ⟨pad 0 len (kept s len), length_pad (length_kept_le s len)⟩

def matchIdToBuffer (matchId : JsString) : List.Vector UInt8 32 := padString matchId 32

def teamToBuffer (team : JsString) : List.Vector UInt8 8 := padString team 8

/-- The seeds behind the constant prefix. -/
def marketSeeds (kind : UInt8) (matchId : List.Vector UInt8 32) (team : List.Vector UInt8 8)
    (paramU64 : ℤ) : MarketSeeds where
  matchId := matchId
  kind := kind
  team := team
  paramU64 := UInt64.ofInt paramU64

def findMarketPda (rt : Runtime) (kind : UInt8) (matchId : List.Vector UInt8 32)
    (team : List.Vector UInt8 8) (paramU64 : ℤ) : Pubkey :=
  rt.marketAddress (marketSeeds kind matchId team paramU64)

def findMarketPdaFromPredicate (rt : Runtime) (p : MarketPredicate) : Except SdkError Pubkey := do
  let paramU64 ← toBigInt p.number
  pure (findMarketPda rt p.kind.code (matchIdToBuffer p.matchId) (teamToBuffer p.team) paramU64)

def MarketPredicate.seeds (p : MarketPredicate) : Except SdkError MarketSeeds := do
  let paramU64 ← toBigInt p.number
  pure (marketSeeds p.kind.code (matchIdToBuffer p.matchId) (teamToBuffer p.team) paramU64)

theorem findMarketPdaFromPredicate_eq_ok {rt : Runtime} {p : MarketPredicate} {m : Pubkey} :
    findMarketPdaFromPredicate rt p = .ok m ↔
      ∃ seeds, p.seeds = .ok seeds ∧ rt.marketAddress seeds = m := by
  simp only [findMarketPdaFromPredicate, MarketPredicate.seeds, bind_eq_ok, pure_eq_ok]
  constructor
  · rintro ⟨n, hn, rfl⟩
    exact ⟨_, ⟨n, hn, rfl⟩, rfl⟩
  · rintro ⟨_, ⟨n, hn, rfl⟩, rfl⟩
    exact ⟨n, hn, rfl⟩

/-! ## `create_market` -/

def buildCreateMarketIx (rt : Runtime) (creator : Pubkey) (predicate : MarketPredicate)
    (closesAt : ℚ) (oracle : Pubkey) : Except SdkError TransactionInstruction := do
  let kind := predicate.kind.code
  let matchId := matchIdToBuffer predicate.matchId
  let team := teamToBuffer predicate.team
  let paramU64 ← toBigInt predicate.number
  let market := findMarketPda rt kind matchId team paramU64
  let closes ← toBigInt closesAt
  pure
    { programId := marketProgramId
      keys :=
        [⟨.external creator, true, true⟩, ⟨.market market, false, true⟩,
          ⟨.protocolConfig, false, false⟩, ⟨.external systemProgramId, false, false⟩]
      data := [103, 226, 97, 235, 200, 188, 251, 254] ++ ([kind] ++ (matchId.1 ++ (team.1 ++
        (writeU64LE paramU64 ++ (writeI64LE closes ++ oracle.bytes))))) }

theorem buildCreateMarketIx_ok {rt : Runtime} {creator oracle : Pubkey} {p : MarketPredicate}
    {closesAt : ℚ} {ix : TransactionInstruction}
    (h : buildCreateMarketIx rt creator p closesAt oracle = .ok ix) :
    ∃ seeds closes, p.seeds = .ok seeds ∧ closesAt = (closes : ℤ) ∧
      MarketProgram.createMarketEntry rt ix =
        some (.createMarket creator seeds (Int64.ofInt closes) oracle) := by
  simp only [buildCreateMarketIx, bind_eq_ok, pure_eq_ok] at h
  obtain ⟨paramU64, hparam, closes, hcloses, rfl⟩ := h
  have hseeds : p.seeds = .ok (marketSeeds p.kind.code (matchIdToBuffer p.matchId)
      (teamToBuffer p.team) paramU64) := by
    rw [MarketPredicate.seeds, hparam]
    rfl
  refine ⟨_, closes, hseeds, toBigInt_eq_ok.mp hcloses, ?_⟩
  rw [writeU64LE_eq, writeI64LE_eq]
  exact MarketProgram.createMarketEntry_data rt marketProgramId creator
    ⟨marketSeeds p.kind.code (matchIdToBuffer p.matchId) (teamToBuffer p.team) paramU64,
      Int64.ofInt closes, oracle⟩

end Escrow

end Stoppage
