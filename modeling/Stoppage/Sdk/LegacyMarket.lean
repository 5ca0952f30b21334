import Stoppage.Sdk.Codecs
import Stoppage.Sdk.ParseMarket

/-! # `packages/sdk`: markets from before the oracle

An account that was created before a market named its oracle keeps its size and its layout, which is
the current one without the 32 bytes of the key. `upgradeLegacyMarketData` of `escrow.ts` puts zeros
there, so that `parseMarket` reads both.
-/

namespace Stoppage.Escrow
open LittleEndian Fallible Sdk
set_option autoImplicit false

/-! ## The account -/

/-- The fields of a market, but for the oracle. -/
structure LegacyMarket where
  kind : UInt8
  matchId : List.Vector UInt8 32
  team : List.Vector UInt8 8
  paramU64 : UInt64
  creator : Pubkey
  bondLamports : UInt64
  bondClaimed : Bool
  yesPool : UInt64
  noPool : UInt64
  closesAt : Int64
  settlesAt : Int64
  status : UInt8
  outcome : UInt8
  feeBps : UInt16
  verifications : UInt32
  bump : UInt8
deriving DecidableEq

def LegacyMarket.withOracle (mk : LegacyMarket) (oracle : Pubkey) : Stoppage.Market where
  kind := mk.kind
  matchId := mk.matchId
  team := mk.team
  paramU64 := mk.paramU64
  creator := mk.creator
  oracle := oracle
  bondLamports := mk.bondLamports
  bondClaimed := mk.bondClaimed
  yesPool := mk.yesPool
  noPool := mk.noPool
  closesAt := mk.closesAt
  settlesAt := mk.settlesAt
  status := mk.status
  outcome := mk.outcome
  feeBps := mk.feeBps
  verifications := mk.verifications
  bump := mk.bump

/-- The fields up to the creator. -/
def LegacyMarket.head (mk : LegacyMarket) : Bytes :=
  Market.discriminator ++ ([mk.kind] ++ (mk.matchId.1 ++ (mk.team.1 ++
    (encodeU64 mk.paramU64 ++ mk.creator.bytes))))

/-- The fields behind the place of the oracle. -/
def LegacyMarket.tail (mk : LegacyMarket) : Bytes :=
  encodeU64 mk.bondLamports ++ (encodeBool mk.bondClaimed ++ (encodeU64 mk.yesPool ++
    (encodeU64 mk.noPool ++ (encodeI64 mk.closesAt ++ (encodeI64 mk.settlesAt ++ ([mk.status] ++
      ([mk.outcome] ++ (encodeU16 mk.feeBps ++ (encodeU32 mk.verifications ++ [mk.bump])))))))))

def LegacyMarket.data (mk : LegacyMarket) : Bytes := mk.head ++ mk.tail

/-! ## The upgrade -/

def marketAccountSize : ℕ :=
  8 + 1 + 32 + 8 + 8 + 32 + 32 + 8 + 1 + 8 + 8 + 8 + 8 + 1 + 1 + 2 + 4 + 1

def legacyMarketAccountSize : ℕ := marketAccountSize - 32

/-- `creatorEnd` -/
def creatorEnd : ℕ := 8 + 1 + 32 + 8 + 8 + 32

def legacySizeError (length : ℕ) : SdkError :=
  .error ("Expected legacy Market account of " ++ toString legacyMarketAccountSize ++
    " bytes, got " ++ toString length)

def upgradeLegacyMarketData (accountData : Bytes) : Except SdkError Bytes := do
  require (accountData.length = legacyMarketAccountSize) (legacySizeError accountData.length)
  pure (accountData.take creatorEnd ++ (alloc 32 ++ accountData.drop creatorEnd))

theorem marketAccountSize_eq : marketAccountSize = Market.space := rfl

theorem LegacyMarket.length_head (mk : LegacyMarket) : mk.head.length = creatorEnd := by
  simp only [LegacyMarket.head, List.length_append, length_encodeU64, Pubkey.size, mk.matchId.2,
    mk.team.2, Market.discriminator, List.length_cons, List.length_nil, creatorEnd]

theorem LegacyMarket.data_withOracle (mk : LegacyMarket) (oracle : Pubkey) :
    (mk.withOracle oracle).data = mk.head ++ (oracle.bytes ++ mk.tail) := by
  simp only [Market.data, Market.terms, LegacyMarket.withOracle, LegacyMarket.head,
    LegacyMarket.tail, List.append_assoc]

/-- The sizes differ by the key that is missing. -/
theorem LegacyMarket.length_data (mk : LegacyMarket) :
    mk.data.length = legacyMarketAccountSize := by
  have hcurrent := (mk.withOracle systemProgramId).length_data
  rw [mk.data_withOracle, List.length_append, List.length_append, Pubkey.size] at hcurrent
  rw [LegacyMarket.data, List.length_append, legacyMarketAccountSize, marketAccountSize_eq]
  omega

/-- The zeros stand where the current layout has the oracle. -/
theorem upgradeLegacyMarketData_data (mk : LegacyMarket) :
    upgradeLegacyMarketData mk.data = .ok (mk.withOracle systemProgramId).data := by
  have htake : mk.data.take creatorEnd = mk.head := List.take_left' mk.length_head
  have hdrop : mk.data.drop creatorEnd = mk.tail := List.drop_left' mk.length_head
  rw [upgradeLegacyMarketData, require_of mk.length_data, ok_bind, htake, hdrop, mk.data_withOracle]
  rfl

theorem upgradeLegacyMarketData_error {accountData : Bytes}
    (h : accountData.length ≠ legacyMarketAccountSize) :
    upgradeLegacyMarketData accountData = .error (legacySizeError accountData.length) := by
  rw [upgradeLegacyMarketData, require_eq_error.mpr ⟨h, rfl⟩]
  rfl

/-! ## What is parsed -/

/-- **An account from before the oracle is read as the market that it holds**, with the zero key for
the oracle, and nothing of another size is taken for one. -/
theorem legacyMarket_parsed :
    (∀ (mk : LegacyMarket) (marketAddress : Pubkey),
      (do
        let accountData ← upgradeLegacyMarketData mk.data
        parseMarket accountData marketAddress) =
      parseMarket (mk.withOracle systemProgramId).data marketAddress) ∧
    ∀ accountData : Bytes, accountData.length ≠ legacyMarketAccountSize →
      upgradeLegacyMarketData accountData = .error (legacySizeError accountData.length) := by
  constructor
  · intro mk marketAddress
    rw [upgradeLegacyMarketData_data, ok_bind]
  · intro accountData hsize
    exact upgradeLegacyMarketData_error hsize

/-- An account of the current size is refused. -/
theorem legacyMarket_parsed_at_current_size : upgradeLegacyMarketData (alloc marketAccountSize) =
    .error (legacySizeError (alloc marketAccountSize).length) := by
  refine legacyMarket_parsed.2 (alloc marketAccountSize) ?_
  rw [alloc, List.length_replicate]
  decide

end Stoppage.Escrow
