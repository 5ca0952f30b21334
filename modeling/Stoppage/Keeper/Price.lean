import Stoppage.Keeper.Coinbase
import Stoppage.Lib.Decimal
import Stoppage.Lib.OrderedMap
import Stoppage.Oracle.PriceHistory
import Stoppage.Sdk.ParseMarket
import Stoppage.Sdk.Pyth
import Stoppage.Sdk.Quote

/-! # `apps/agent/src/priceKeeper.ts`

The markets on a price that a keeper holds, and how it settles one: through the oracle the market is
bound to, on an observation that it looks for at the timestamped endpoint. What a call outside
answers is an argument, `.error` where it throws. A key stands for its base58 text.
-/

namespace Stoppage.Keeper
open Fallible Sdk Escrow PythValidator
set_option autoImplicit false

/-! ## Configuration -/

structure PriceConfig where
  runtime : Runtime
  wallet : Pubkey
  dryRun : Bool
  /-- `PRICE_ORACLE === "attestation"` -/
  attestation : Bool
  feedId : String

def maxStalenessSeconds : ℤ := 120

/-- The oracle that new markets are bound to. -/
def PriceConfig.boundOracle (cfg : PriceConfig) : Pubkey :=
  if cfg.attestation then attestationValidatorId else pythValidatorId

structure TrackedPriceMarket where
  predicate : Escrow.MarketPredicate
  marketPda : Pubkey
  referenceTs : ℤ
  thresholdRaw : ℤ
  /-- Absent for a market of the time when there was one oracle. -/
  oracle : Option Pubkey
deriving DecidableEq

/-- The data that `getAccountInfo` finds at the address of a market: an account that only holds
lamports has none. -/
def accountInfo (s : Chain) (m : Pubkey) : Option Bytes :=
  match s.market m with
  | some mk => some mk.data
  | none => if s.lamports (.market m) = 0 then none else some []

/-! ## Creating -/

/-- `Math.round(usd * 10 ** 8)` -/
def nativeOfUsd (usd : ℚ) : ℤ := mathRound (Double.ofRat (usd * 100000000))

def spotNative (cfg : PriceConfig) (ticker : Except SdkError (Option ℚ))
    (fetchLatestUpdate : Except SdkError Update) : Except SdkError ℤ :=
  if cfg.attestation then nativeOfUsd <$> fetchSpotUsdNow ticker
  else (fun j => j.price.toInt) <$> fetchLatestUpdate

/-- The `thresholdRaw` for a spot and an offset. -/
def roundThresholdUsd (spot : ℤ) (deltaUsd : ℚ) : ℤ :=
  let thresholdUsd := Double.ofRat
    (Double.ofRat (Double.ofInt spot * Double.ofRat (1 / 100000000)) + deltaUsd)
  mathRound thresholdUsd * 100000000

def pricePredicate (matchId : JsString) (thresholdRaw : ℤ) : Escrow.MarketPredicate where
  kind := .priceAbove
  matchId
  params := ⟨some [], some (Double.ofInt thresholdRaw), none⟩

/-- `${PRICE_SYMBOL}:${nextBoundary}` -/
def intervalMatchId (symbol : JsString) (referenceTs : ℤ) : JsString :=
  symbol ++ Utf16.ofChars (':' :: Decimal.ofInt referenceTs)

structure EnsureOpts where
  matchId : JsString
  referenceTs : ℤ
  deltaUsd : ℚ

def EnsureOpts.market (opts : EnsureOpts) (thresholdRaw : ℤ) (marketPda : Pubkey)
    (oracle : Option Pubkey) : TrackedPriceMarket where
  predicate := pricePredicate opts.matchId thresholdRaw
  marketPda
  referenceTs := opts.referenceTs
  thresholdRaw
  oracle

/-- How far `ensurePriceMarket` comes before it sends anything. -/
inductive Ensure
  | known (m : TrackedPriceMarket)
  | adopted (m : TrackedPriceMarket)
  | dryRun (m : TrackedPriceMarket)
  /-- The market is tracked once the instruction is confirmed. -/
  | creates (m : TrackedPriceMarket) (ix : TransactionInstruction)

/-- An account that is there is adopted, whoever has created it. -/
def ensurePriceMarket (cfg : PriceConfig) (spot : Except SdkError ℤ)
    (getAccountInfo : Pubkey → Except SdkError (Option Bytes))
    (tracked : OrderedMap Pubkey TrackedPriceMarket) (opts : EnsureOpts) :
    Except SdkError Ensure := do
  let spot ← spot
  let thresholdRaw := roundThresholdUsd spot opts.deltaUsd
  let predicate := pricePredicate opts.matchId thresholdRaw
  let marketPda ← Escrow.findMarketPdaFromPredicate cfg.runtime predicate
  match tracked.get marketPda with
  | some m => pure (.known m)
  | none => do
    let existing ← getAccountInfo marketPda
    match existing with
    | some data => do
      let parsed ← parseMarket data marketPda
      pure (.adopted (opts.market thresholdRaw marketPda (some parsed.oracle)))
    | none => do
      -- The date is written to the log.
      let _ ← isoOfSeconds opts.referenceTs
      if cfg.dryRun then
        pure (.dryRun (opts.market thresholdRaw marketPda none))
      else do
        let ix ← buildCreateMarketIx cfg.runtime cfg.wallet predicate opts.referenceTs
          cfg.boundOracle
        pure (.creates (opts.market thresholdRaw marketPda (some cfg.boundOracle)) ix)

section Ensured
variable {cfg : PriceConfig} {spot : Except SdkError ℤ}
  {getAccountInfo : Pubkey → Except SdkError (Option Bytes)}
  {tracked : OrderedMap Pubkey TrackedPriceMarket} {opts : EnsureOpts}

/-- The ways through `ensurePriceMarket`, with the threshold and the address of the call. -/
inductive Ensured (cfg : PriceConfig) (getAccountInfo : Pubkey → Except SdkError (Option Bytes))
    (tracked : OrderedMap Pubkey TrackedPriceMarket) (opts : EnsureOpts) (thresholdRaw : ℤ)
    (marketPda : Pubkey) : Ensure → Prop
  | known (m : TrackedPriceMarket) (hget : tracked.get marketPda = some m) :
      Ensured cfg getAccountInfo tracked opts thresholdRaw marketPda (.known m)
  | adopted (data : Bytes) (parsed : Escrow.Market) (hget : tracked.get marketPda = none)
      (hinfo : getAccountInfo marketPda = .ok (some data))
      (hparse : parseMarket data marketPda = .ok parsed) :
      Ensured cfg getAccountInfo tracked opts thresholdRaw marketPda
        (.adopted (opts.market thresholdRaw marketPda (some parsed.oracle)))
  | dryRun (time : ℤ) (hget : tracked.get marketPda = none)
      (hinfo : getAccountInfo marketPda = .ok none) (hdate : isoOfSeconds opts.referenceTs = .ok time)
      (hdry : cfg.dryRun = true) : Ensured cfg getAccountInfo tracked opts thresholdRaw marketPda
        (.dryRun (opts.market thresholdRaw marketPda none))
  | creates (time : ℤ) (ix : TransactionInstruction) (hget : tracked.get marketPda = none)
      (hinfo : getAccountInfo marketPda = .ok none) (hdate : isoOfSeconds opts.referenceTs = .ok time)
      (hlive : cfg.dryRun = false)
      (hix : buildCreateMarketIx cfg.runtime cfg.wallet (pricePredicate opts.matchId thresholdRaw)
        opts.referenceTs cfg.boundOracle = .ok ix) :
      Ensured cfg getAccountInfo tracked opts thresholdRaw marketPda
        (.creates (opts.market thresholdRaw marketPda (some cfg.boundOracle)) ix)

/-- A date that can be written is a number of milliseconds below `2 ^ 53`. -/
theorem natAbs_of_isoOfSeconds {seconds time : ℤ} (h : isoOfSeconds seconds = .ok time) :
    seconds.natAbs < 2 ^ 53 := by
  obtain ⟨u, hrange, -⟩ := bind_eq_ok.mp h
  obtain ⟨hlow, hhigh⟩ := require_eq_ok.mp hrange
  by_contra hlarge
  have hmillis : 2 ^ 53 ≤ (seconds * 1000).natAbs := by omega
  have hdouble := Double.pow_le_ofNat le_rfl hmillis
  rw [maxTime] at hlow hhigh
  rw [Double.ofInt] at hlow hhigh
  split at hlow
  · omega
  · omega

theorem ensurePriceMarket_ok {e : Ensure}
    (h : ensurePriceMarket cfg spot getAccountInfo tracked opts = .ok e) :
    ∃ s marketPda, spot = .ok s ∧
      Escrow.findMarketPdaFromPredicate cfg.runtime
        (pricePredicate opts.matchId (roundThresholdUsd s opts.deltaUsd)) = .ok marketPda ∧
      Ensured cfg getAccountInfo tracked opts (roundThresholdUsd s opts.deltaUsd) marketPda e := by
  obtain ⟨s, hspot, h⟩ := bind_eq_ok.mp h
  obtain ⟨marketPda, haddress, h⟩ := bind_eq_ok.mp h
  refine ⟨s, marketPda, hspot, haddress, ?_⟩
  split at h
  · rename_i m hget
    cases h
    exact .known m hget
  · rename_i hget
    obtain ⟨existing, hinfo, h⟩ := bind_eq_ok.mp h
    cases existing with
    | some data =>
      obtain ⟨parsed, hparse, h⟩ := bind_eq_ok.mp h
      cases h
      exact .adopted data parsed hget hinfo hparse
    | none =>
      obtain ⟨time, hdate, h⟩ := bind_eq_ok.mp h
      split at h
      · rename_i hdry
        cases h
        exact .dryRun time hget hinfo hdate hdry
      · rename_i hlive
        obtain ⟨ix, hix, h⟩ := bind_eq_ok.mp h
        cases h
        exact .creates time ix hget hinfo hdate (Bool.not_eq_true _ ▸ hlive) hix

end Ensured

/-- What is tracked afterwards; `sent` is what the calls for the transaction come to. -/
def Ensure.track (sent : Except SdkError Unit) (tracked : OrderedMap Pubkey TrackedPriceMarket) :
    Ensure → OrderedMap Pubkey TrackedPriceMarket
  | .known _ => tracked
  | .adopted m => tracked.set m.marketPda m
  | .dryRun m => tracked.set m.marketPda m
  | .creates m _ =>
    match sent with
    | .ok _ => tracked.set m.marketPda m
    | .error _ => tracked

/-! ## Settling -/

inductive PriceSettleResult
  | settled
  | pending
  | unresolvable
  | unsupported
deriving DecidableEq

def probeOffsetsSeconds : List ℤ := [2, 5, 15, 30, 60, 90, maxStalenessSeconds]

/-- The loop over the offsets: the first response with a publish time in the window wins. -/
def probe (fetchUpdateAt : ℤ → Except SdkError Update) (referenceTs nowSec : ℤ) :
    List ℤ → Except SdkError (Option Update)
  | [] => pure none
  | off :: offs => do
    let probeTs := min (referenceTs + off) nowSec
    let j ← fetchUpdateAt probeTs
    if referenceTs ≤ j.time ∧ j.time ≤ referenceTs + maxStalenessSeconds then
      pure (some j)
    else if referenceTs + maxStalenessSeconds ≤ probeTs then
      pure none
    else probe fetchUpdateAt referenceTs nowSec offs

/-- How far `settlePriceMarket` comes before it sends anything. -/
inductive Attempt
  | result (r : PriceSettleResult)
  /-- `settlePriceMarketAttested` goes on. -/
  | attested
  | observed (update : Update) (outcome : ℤ)
deriving DecidableEq

/-- The oracle is the one the market was bound to at its creation. -/
def settlePriceMarket (cfg : PriceConfig) (fetchUpdateAt : ℤ → Except SdkError Update)
    (m : TrackedPriceMarket) (nowSec : ℤ) : Except SdkError Attempt := do
  let boundOracle := m.oracle.getD pythValidatorId
  if boundOracle = attestationValidatorId then
    pure .attested
  else if boundOracle ≠ pythValidatorId then
    pure (.result .unsupported)
  else if cfg.attestation then
    pure (.result .unsupported)
  else
    let update ← probe fetchUpdateAt m.referenceTs nowSec probeOffsetsSeconds
    match update with
    | none =>
      let windowExpired := m.referenceTs + maxStalenessSeconds < nowSec
      pure (.result (if windowExpired then .unresolvable else .pending))
    | some update =>
      let price := update.price.toInt
      pure (.observed update (if m.thresholdRaw ≤ price then 0 else 1))

/-- What the settle transaction for an observation is built from. -/
def pythProof (cfg : PriceConfig) (m : TrackedPriceMarket) (priceUpdateAccount : Pubkey)
    (update : Update) : PythProof where
  priceUpdateAccount := priceUpdateAccount
  feedId := cfg.feedId
  threshold := m.thresholdRaw
  referenceTs := m.referenceTs
  maxStalenessSeconds := maxStalenessSeconds
  observedPrice := update.price.toInt
  observedConf := update.conf.toNat
  observedPublishTime := update.time

/-! ## Settling on an attested price -/

/-- `void_market` can be called one hour after the close; a quarter more is waited for. -/
def priceVoidGraceSeconds : ℤ := 3600 + 900

/-- `sha256("price:" + matchId)[..16]` -/
def fixtureRefForPriceMarket (sha256 : Sha256) (matchId : JsString) : Bytes :=
  (sha256 (Utf16.encode (Utf16.ofString "price:" ++ matchId))).1.take 16

/-- `ATTEST_STAT_KEYS.price_usd_e8` -/
def priceUsdE8 : ℤ := 2

/-- How far `settlePriceMarketAttested` comes before it sends anything. -/
inductive AttestedAttempt
  | result (r : PriceSettleResult)
  | signed (outcome : ℤ) (observation : AttestationObservation) (claim : AttestationClaim)
      (message : Bytes)

/-- `config` is what `loadAttestor` and `ensureAttestationConfig` come to, `obsTs` the clock after
them. -/
def settlePriceMarketAttested (sha256 : Sha256) (cfg : PriceConfig)
    (fetchCandles : ℤ → ℤ → Except SdkError (List Candle)) (config : Except SdkError Unit)
    (m : TrackedPriceMarket) (nowSec obsTs : ℤ) : Except SdkError AttestedAttempt :=
  -- A request that fails is caught, as one that finds nothing.
  let obs := (fetchSpotUsdAt fetchCandles m.referenceTs).toOption.join
  match obs with
  | none => .ok (.result (if m.referenceTs + priceVoidGraceSeconds - 300 < nowSec then .unresolvable
      else .pending))
  | some obs =>
    let price := nativeOfUsd obs.usd
    let outcome := if m.thresholdRaw ≤ price then 0 else 1
    if cfg.dryRun then .ok (.result .settled)
    else do
      config
      let observation : AttestationObservation :=
        { fixtureRef := fixtureRefForPriceMarket sha256 m.predicate.matchId
          statKey := priceUsdE8
          value := price
          obsTs }
      let message ← buildAttestationMessage observation
      let claim : AttestationClaim :=
        { op := .gte
          threshold := m.thresholdRaw
          referenceTs := m.referenceTs
          windowSeconds := max 600 (obsTs - m.referenceTs + 300) }
      pure (.signed outcome observation claim message)

/-! ## Voiding -/

/-- What the calls for one transaction come to, each `.error` where it throws. -/
structure Calls where
  getLatestBlockhash : Except SdkError Unit
  sendRawTransaction : Except SdkError String
  confirmTransaction : Except SdkError Unit
  /-- The error of the transaction on the chain, if it has one. -/
  getSignatureStatuses : Except SdkError (Option String)

/-- Sending a transaction, and waiting until it is confirmed without an error. -/
def Calls.send (calls : Calls) (message : String) : Except SdkError String := do
  calls.getLatestBlockhash
  let sig ← calls.sendRawTransaction
  calls.confirmTransaction
  let err ← calls.getSignatureStatuses
  match err with
  | some err => .error (.error (message ++ ": " ++ err ++ " (" ++ sig ++ ")"))
  | none => .ok sig

/-- The tracked markets after `voidPriceMarket`, and how it ends. -/
def voidPriceMarket (cfg : PriceConfig) (calls : Calls) (m : TrackedPriceMarket)
    (tracked : OrderedMap Pubkey TrackedPriceMarket) :
    OrderedMap Pubkey TrackedPriceMarket × Except SdkError Unit :=
  let tracked := tracked.delete m.marketPda
  if cfg.dryRun then (tracked, .ok ())
  else (tracked, (fun _ => ()) <$> calls.send "void tx failed on-chain")

namespace Sample

/-- The addresses of the markets on SOL over 66 and over 67 dollars at the time 1700001000. -/
def above66 : Pubkey :=
  ⟨[158, 84, 247, 175, 248, 67, 57, 17, 59, 218, 7, 77, 118, 157, 173, 62,
    181, 9, 40, 162, 103, 134, 224, 233, 248, 137, 85, 54, 111, 18, 62, 252], rfl⟩

def above67 : Pubkey :=
  ⟨[87, 224, 55, 5, 109, 134, 130, 173, 207, 136, 143, 200, 17, 47, 205, 133,
    201, 109, 212, 214, 88, 49, 89, 71, 47, 167, 101, 199, 44, 94, 46, 188], rfl⟩

def runtime : Runtime :=
  { Stoppage.Sample.runtime with
    marketAddress := fun seeds => if seeds.paramU64 = 6600000000 then above66
      else if seeds.paramU64 = 6700000000 then above67 else Stoppage.Sample.market
    bump := fun a => if a = .market above66 then 253 else Stoppage.Sample.runtime.bump a }

def symbol : JsString := Utf16.ofString "SOL/USD:1700001000"

/-- SOL over 66 dollars at the time 1700001000. -/
def market : TrackedPriceMarket where
  predicate := ⟨.priceAbove, symbol, ⟨some [], some 6600000000, none⟩⟩
  marketPda := above66
  referenceTs := 1700001000
  thresholdRaw := 6600000000
  oracle := some pythValidatorId

def config : PriceConfig where
  runtime := runtime
  wallet := Stoppage.Sample.alice
  dryRun := false
  attestation := false
  feedId := ""

end Sample

end Stoppage.Keeper
