import Stoppage.Keeper.Price

/-! # `apps/agent/src/weekKeeper.ts`

The keeper of one market a week. Its match ids have a shape of their own, by which its markets are
told apart from the rounds of the interval keeper.
-/

namespace Stoppage.Keeper
open Fallible Sdk Escrow
set_option autoImplicit false

/-! ## Match ids -/

def colon : UInt16 := 58

/-- `\d` -/
def isDigit (u : UInt16) : Bool := decide (48 ≤ u.toNat ∧ u.toNat ≤ 57)

/-- The pattern `^W\d{4}-\d{2}$` -/
def isWeekLabel : JsString → Bool
  | [w, y₁, y₂, y₃, y₄, dash, w₁, w₂] =>
    decide (w = 87 ∧ dash = 45) && [y₁, y₂, y₃, y₄, w₁, w₂].all isDigit
  | _ => false

def isWeekMatchId (matchId : JsString) : Bool := isWeekLabel ((matchId.splitOn colon)[1]?.getD [])

/-- `${PRICE_SYMBOL}:W${year}-${String(week).padStart(2, "0")}` -/
def weekMatchId (symbol : JsString) (year : ℤ) (week : ℕ) : JsString :=
  symbol ++ Utf16.ofChars (':' :: 'W' :: (Decimal.ofInt year ++
    '-' :: (List.replicate (2 - (Decimal.ofNat week).length) '0' ++ Decimal.ofNat week)))

/-! ## Voiding -/

structure WeekState where
  /-- The window that is not created again. -/
  settledWindow : Option JsString
  tracked : OrderedMap Pubkey TrackedPriceMarket

/-- `claimReceipts`, up to the claims of the bond and of the position, which change nothing here;
`onChain` is the answer of `getMarket`. -/
def claimReceipts (onChain : Except SdkError Escrow.Market) (m : TrackedPriceMarket)
    (w : WeekState) : WeekState :=
  match onChain with
  | .error _ => w
  | .ok mk =>
    if mk.status = .settled ∨ mk.status = .void then
      { w with tracked := w.tracked.delete m.marketPda }
    else w

/-- An error of the transaction is written to the log. -/
def voidStale (dryRun : Bool) (calls : Calls) (onChain : Except SdkError Escrow.Market)
    (m : TrackedPriceMarket) (w : WeekState) : WeekState :=
  let w : WeekState :=
    { settledWindow := some m.predicate.matchId
      tracked := w.tracked.delete m.marketPda }
  if dryRun then claimReceipts onChain m w
  else match calls.send "tx failed on-chain" with
    | .error _ => w
    | .ok _ => claimReceipts onChain m w

end Stoppage.Keeper
