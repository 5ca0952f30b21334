import Stoppage.Chain.State

/-! # `programs/pyth_validator`

`validate_price` on the owner and bytes of the price account a caller passes, and the entry point
through which another program reaches it.
-/

namespace Stoppage.PythValidator
open Fallible LittleEndian
set_option autoImplicit false

/-- The first eight bytes of `sha256("account:PriceUpdateV2")`. -/
def priceUpdateV2Discriminator : Bytes := [34, 241, 35, 99, 157, 126, 244, 205]

def priceUpdateV2MinLen : ℕ := 8 + 32 + 1 + 76 + 8

structure Args where
  feedId : List.Vector UInt8 32
  threshold : Int64
  referenceTs : Int64
  maxStalenessSeconds : UInt32

/-- Where the price message starts: a partial verification level carries one more byte. -/
def messageOffset (data : Bytes) : ℕ := 8 + 32 + if data.getD (8 + 32) 0 = 0 then 2 else 1

def messageFeed (data : Bytes) : Bytes := slice data (messageOffset data) 32

def messagePrice (data : Bytes) : Int64 := decodeI64 (slice data (messageOffset data + 32) 8)

def messagePublishTime (data : Bytes) : Int64 := decodeI64 (slice data (messageOffset data + 52) 8)

def validatePrice (owner : Pubkey) (data : Bytes) (a : Args) : Except ProgramError Bool := do
  require (owner = pythReceiverProgramId) (.pyth .notPythReceiverAccount)
  require (priceUpdateV2MinLen ≤ data.length) (.pyth .malformedUpdate)
  require (data.take 8 = priceUpdateV2Discriminator) (.pyth .malformedUpdate)
  require (data.getD (8 + 32) 0 ≤ 1) (.pyth .malformedUpdate)
  require (messageFeed data = a.feedId.1) (.pyth .feedMismatch)
  let upper ← checkedAddInt (.pyth .overflow) a.referenceTs
    (Int64.ofNat a.maxStalenessSeconds.toNat)
  require (a.referenceTs ≤ messagePublishTime data) (.pyth .beforeReference)
  require (messagePublishTime data ≤ upper) (.pyth .outsideWindow)
  pure (decide (a.threshold ≤ messagePrice data))

/-- The first eight bytes of `sha256("global:validate_price")`. -/
def validatePriceDiscriminator : Bytes := [179, 145, 207, 177, 245, 253, 59, 19]

def Args.encode (a : Args) : Bytes :=
  a.feedId.1 ++ (encodeI64 a.threshold ++ (encodeI64 a.referenceTs ++
    encodeU32 a.maxStalenessSeconds))

/-- Borsh decoding of the arguments; trailing bytes are ignored. -/
def Args.decode (bs : Bytes) : Option Args :=
  if h : 32 + 8 + 8 + 4 ≤ bs.length then
    some
      { feedId := ⟨bs.take 32, by rw [List.length_take]; omega⟩
        threshold := decodeI64 (slice bs 32 8)
        referenceTs := decodeI64 (slice bs 40 8)
        maxStalenessSeconds := decodeU32 (slice bs 48 4) }
  else none

def entry (s : Chain) (data : Bytes) (accounts : List Address) :
    Except ProgramError (Option ReturnData) := do
  require (data.take 8 = validatePriceDiscriminator) (.anchor .instructionFallbackNotFound)
  let a ← getOr (.anchor .instructionDidNotDeserialize) (Args.decode (data.drop 8))
  let priceUpdate ← getOr (.anchor .accountNotEnoughKeys) accounts.head?
  let holds ← validatePrice (s.owner priceUpdate) (s.data priceUpdate) a
  pure (some (pythValidatorId, [if holds then 1 else 0]))

end Stoppage.PythValidator
