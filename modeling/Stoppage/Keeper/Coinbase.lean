import Stoppage.Sdk.Buffers

/-! # `apps/agent/src/attest/coinbase.ts`

The minute candles and the ticker of an exchange. The answers of the exchange are arguments,
`.error` where the request fails or the answer is not of the kind that is expected.
-/

namespace Stoppage.Keeper
open Fallible Sdk
set_option autoImplicit false

/-- The fields of a candle that are read: the second in which its minute starts, and the close. -/
structure Candle where
  time : ℤ
  close : ℚ
deriving DecidableEq

structure SpotAt where
  usd : ℚ
  bucketTs : ℤ
deriving DecidableEq

/-- `Math.floor(referenceTs / 60) * 60` -/
def bucketOf (referenceTs : ℤ) : ℤ := referenceTs / 60 * 60

/-- `fetchCandles` is asked for a start and an end. -/
def fetchSpotUsdAt (fetchCandles : ℤ → ℤ → Except SdkError (List Candle)) (referenceTs : ℤ) :
    Except SdkError (Option SpotAt) := do
  let bucketTs := bucketOf referenceTs
  let candles ← fetchCandles (bucketTs - 120) (bucketTs + 300)
  let candle := candles.find? fun c => decide (c.time = bucketTs)
  pure (candle.map fun c => ⟨c.close, bucketTs⟩)

/-- `usd` is the price of the ticker as a number, if it is a finite one. -/
def fetchSpotUsdNow (ticker : Except SdkError (Option ℚ)) : Except SdkError ℚ := do
  let usd ← ticker
  let usd ← getOr (.error "Coinbase ticker returned no price") usd
  require (0 < usd) (.error "Coinbase ticker returned no price")
  pure usd

end Stoppage.Keeper
