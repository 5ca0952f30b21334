import Stoppage.Keeper.Price
import Stoppage.Lib.Sampling

/-! # Which price an attested market is settled on

The keeper signs the close of the minute in which the market closes. While the minute goes on, the
exchange shows a candle whose close is the last trade so far, and nothing tells it from a candle
that is final. `attested_final_iff`: the price is the final one exactly when no candle is shown or
the minute goes on to no other price.
-/

namespace Stoppage.Keeper
open Fallible Sdk Escrow Sampling
set_option autoImplicit false

/-! ## The exchange -/

/-- A trade; times are in milliseconds. -/
structure Trade where
  time : ℤ
  usd : ℚ
deriving DecidableEq

/-- The trades of the minute that starts at `bucketTs`. -/
def inBucket (trades : List Trade) (bucketTs : ℤ) : List Trade :=
  trades.filter fun t => decide (bucketTs * 1000 ≤ t.time ∧ t.time < (bucketTs + 60) * 1000)

/-- The close of a minute as it is by a time. -/
def closeBy (trades : List Trade) (bucketTs nowMs : ℤ) : Option ℚ :=
  (latest Trade.time (inBucket trades bucketTs) nowMs).map Trade.usd

def finalClose (trades : List Trade) (bucketTs : ℤ) : Option ℚ :=
  (inBucket trades bucketTs).getLast?.map Trade.usd

/-- For a minute the exchange answers with no candle, or one that closes with the last trade so
far. -/
def ServesCandles (trades : List Trade) (nowMs : ℤ)
    (fetchCandles : ℤ → ℤ → Except SdkError (List Candle)) : Prop :=
  ∀ startTs endTs cs, fetchCandles startTs endTs = .ok cs →
    ∀ c ∈ cs, closeBy trades c.time nowMs = some c.close

/-- The candle of the minute is in the answer. -/
def Shown (fetchCandles : ℤ → ℤ → Except SdkError (List Candle)) (bucketTs : ℤ) : Prop :=
  ∃ cs, fetchCandles (bucketTs - 120) (bucketTs + 300) = .ok cs ∧ ∃ c ∈ cs, c.time = bucketTs

/-- The minute ends with a trade that is still to come, at another price. -/
def Moves (trades : List Trade) (bucketTs nowMs : ℤ) : Prop :=
  ∃ t, (inBucket trades bucketTs).getLast? = some t ∧ nowMs < t.time ∧
    closeBy trades bucketTs nowMs ≠ some t.usd

section Minute
variable {trades : List Trade} {bucketTs nowMs : ℤ}

/-- What has been the last by a time in which the last of all had come. -/
theorem latest_of_getLast {us : List Trade} {t : Trade} (hlast : us.getLast? = some t)
    (hle : t.time ≤ nowMs) : latest Trade.time us nowMs = some t := by
  obtain ⟨pre, rfl⟩ := List.getLast?_eq_some_iff.mp hlast
  exact latest_of_split hle fun w hw => absurd hw List.not_mem_nil

/-- A close that has been shown is final exactly when the minute does not move on. -/
theorem final_iff_not_moves {usd : ℚ} (hclose : closeBy trades bucketTs nowMs = some usd) :
    finalClose trades bucketTs = some usd ↔ ¬ Moves trades bucketTs nowMs := by
  obtain ⟨x, hx, rfl⟩ := Option.map_eq_some_iff.mp hclose
  obtain ⟨t, ht⟩ : ∃ t, (inBucket trades bucketTs).getLast? = some t := by
    have hne := List.ne_nil_of_mem (mem_of_latest hx).1
    exact ⟨_, List.getLast?_eq_some_getLast hne⟩
  rw [finalClose, ht, Option.map_some, Option.some_inj]
  constructor
  · rintro hsame ⟨t', ht', -, hother⟩
    cases ht.symm.trans ht'
    exact hother (hclose.trans (congrArg some hsame.symm))
  · intro hstays
    by_cases hle : t.time ≤ nowMs
    · cases hx.symm.trans (latest_of_getLast ht hle)
      rfl
    · by_contra hne
      refine hstays ⟨t, ht, not_le.mp hle, fun hsame => hne ?_⟩
      exact (Option.some.inj (hclose.symm.trans hsame)).symm

theorem not_moves_of_over (hover : (bucketTs + 60) * 1000 ≤ nowMs + 1) :
    ¬ Moves trades bucketTs nowMs := by
  rintro ⟨t, ht, hlater, -⟩
  have hmem := List.mem_of_mem_getLast? ht
  have hin := of_decide_eq_true (List.mem_filter.mp hmem).2
  omega

end Minute

/-! ## The price that is signed -/

/-- What is fetched is nothing, or the close that the minute has in the end. -/
def FetchesFinal (trades : List Trade)
    (fetchCandles : ℤ → ℤ → Except SdkError (List Candle)) (referenceTs : ℤ) : Prop :=
  ∀ r, fetchSpotUsdAt fetchCandles referenceTs = .ok r → r = none ∨
    ∃ usd, finalClose trades (bucketOf referenceTs) = some usd ∧ r = some ⟨usd, bucketOf referenceTs⟩

section Signed
variable {sha256 : Sha256} {cfg : PriceConfig} {trades : List Trade} {m : TrackedPriceMarket}
  {fetchCandles fetchCandles' : ℤ → ℤ → Except SdkError (List Candle)}
  {referenceTs nowMs nowMs' : ℤ}

theorem fetchSpotUsdAt_eq_some {spot : SpotAt}
    (h : fetchSpotUsdAt fetchCandles referenceTs = .ok (some spot)) :
    ∃ cs, fetchCandles (bucketOf referenceTs - 120) (bucketOf referenceTs + 300) = .ok cs ∧
      ⟨bucketOf referenceTs, spot.usd⟩ ∈ cs ∧ spot.bucketTs = bucketOf referenceTs := by
  obtain ⟨cs, hcs, hrest⟩ := bind_eq_ok.mp h
  obtain ⟨⟨time, close⟩, hfound, rfl⟩ := Option.map_eq_some_iff.mp (pure_eq_ok.mp hrest)
  have htime := List.find?_some hfound
  obtain rfl : time = bucketOf referenceTs := of_decide_eq_true htime
  exact ⟨cs, hcs, List.mem_of_find?_eq_some hfound, rfl⟩

theorem exists_fetched (h : Shown fetchCandles (bucketOf referenceTs)) :
    ∃ spot, fetchSpotUsdAt fetchCandles referenceTs = .ok (some spot) := by
  obtain ⟨cs, hcs, c, hc, htime⟩ := h
  have hsome : (cs.find? fun c => decide (c.time = bucketOf referenceTs)).isSome :=
    List.find?_isSome.mpr ⟨c, hc, decide_eq_true htime⟩
  obtain ⟨x, hx⟩ := Option.isSome_iff_exists.mp hsome
  exact ⟨⟨x.close, bucketOf referenceTs⟩, by rw [fetchSpotUsdAt, hcs, ok_bind, hx]; rfl⟩

theorem fetchesFinal_iff (h : ServesCandles trades nowMs fetchCandles) :
    FetchesFinal trades fetchCandles referenceTs ↔
      (Shown fetchCandles (bucketOf referenceTs) → ¬ Moves trades (bucketOf referenceTs) nowMs) := by
  constructor
  · intro hfinal hshown
    obtain ⟨spot, hspot⟩ := exists_fetched hshown
    obtain ⟨cs, hcs, hmem, -⟩ := fetchSpotUsdAt_eq_some hspot
    rcases hfinal _ hspot with hnone | ⟨usd, hclose, hsame⟩
    · cases hnone
    · cases hsame
      exact (final_iff_not_moves (h _ _ _ hcs _ hmem)).mp hclose
  · intro hstays r hr
    cases r with
    | none => exact .inl rfl
    | some spot =>
      obtain ⟨cs, hcs, hmem, hbucket⟩ := fetchSpotUsdAt_eq_some hr
      refine .inr ⟨spot.usd, ?_, congrArg some (by rw [← hbucket])⟩
      exact (final_iff_not_moves (h _ _ _ hcs _ hmem)).mpr (hstays ⟨cs, hcs, _, hmem, rfl⟩)

/-- What is signed is the price that was fetched, with the outcome on the threshold. -/
theorem settlePriceMarketAttested_signed {config : Except SdkError Unit} {nowSec obsTs o : ℤ}
    {ob : AttestationObservation} {c : AttestationClaim} {message : Bytes}
    (h : settlePriceMarketAttested sha256 cfg fetchCandles config m nowSec obsTs =
      .ok (.signed o ob c message)) :
    ∃ spot, fetchSpotUsdAt fetchCandles m.referenceTs = .ok (some spot) ∧
      ob.value = nativeOfUsd spot.usd ∧ o = if m.thresholdRaw ≤ nativeOfUsd spot.usd then 0 else 1 := by
  rw [settlePriceMarketAttested] at h
  dsimp only at h
  split at h
  · cases h
  · rename_i spot hspot
    have hfetched : fetchSpotUsdAt fetchCandles m.referenceTs = .ok (some spot) := by
      cases hfetch : fetchSpotUsdAt fetchCandles m.referenceTs with
      | error e =>
        rw [hfetch] at hspot
        cases hspot
      | ok r =>
        rw [hfetch] at hspot
        exact congrArg Except.ok hspot
    split at h
    · cases h
    · obtain ⟨-, -, h⟩ := bind_eq_ok.mp h
      obtain ⟨message, -, h⟩ := bind_eq_ok.mp h
      cases h
      exact ⟨spot, hfetched, rfl, rfl⟩

/-- The two runs sign one value and settle one outcome. -/
def SignsAlike (sha256 : Sha256) (cfg : PriceConfig) (m : TrackedPriceMarket)
    (fetchCandles fetchCandles' : ℤ → ℤ → Except SdkError (List Candle)) : Prop :=
  ∀ config config' nowSec nowSec' obsTs obsTs' o o' ob ob' c c' message message',
    settlePriceMarketAttested sha256 cfg fetchCandles config m nowSec obsTs =
      .ok (.signed o ob c message) →
    settlePriceMarketAttested sha256 cfg fetchCandles' config' m nowSec' obsTs' =
      .ok (.signed o' ob' c' message') →
    ob.value = ob'.value ∧ o = o'

theorem signsAlike_of_final (h : FetchesFinal trades fetchCandles m.referenceTs)
    (h' : FetchesFinal trades fetchCandles' m.referenceTs) :
    SignsAlike sha256 cfg m fetchCandles fetchCandles' := by
  intro config config' nowSec nowSec' obsTs obsTs' o o' ob ob' c c' message message' hrun hrun'
  obtain ⟨spot, hspot, hvalue, ho⟩ := settlePriceMarketAttested_signed hrun
  obtain ⟨spot', hspot', hvalue', ho'⟩ := settlePriceMarketAttested_signed hrun'
  have hsame : spot.usd = spot'.usd := by
    rcases h _ hspot with hnone | ⟨usd, hclose, hfetched⟩
    · cases hnone
    rcases h' _ hspot' with hnone | ⟨usd', hclose', hfetched'⟩
    · cases hnone
    cases hfetched
    cases hfetched'
    exact Option.some.inj (hclose.symm.trans hclose')
  exact ⟨by rw [hvalue, hvalue', hsame], by rw [ho, ho', hsame]⟩

/-- **Attested prices are final** in two runs, and so signed alike, exactly when at each of them no
candle is shown for the minute of the close or the minute does not move on from there. -/
theorem attested_final_iff (h : ServesCandles trades nowMs fetchCandles)
    (h' : ServesCandles trades nowMs' fetchCandles') :
    (FetchesFinal trades fetchCandles m.referenceTs ∧
      FetchesFinal trades fetchCandles' m.referenceTs ∧
      SignsAlike sha256 cfg m fetchCandles fetchCandles') ↔
    (Shown fetchCandles (bucketOf m.referenceTs) →
        ¬ Moves trades (bucketOf m.referenceTs) nowMs) ∧
      (Shown fetchCandles' (bucketOf m.referenceTs) →
        ¬ Moves trades (bucketOf m.referenceTs) nowMs') := by
  rw [← fetchesFinal_iff h, ← fetchesFinal_iff h']
  constructor
  · rintro ⟨hfinal, hfinal', -⟩
    exact ⟨hfinal, hfinal'⟩
  · rintro ⟨hfinal, hfinal'⟩
    exact ⟨hfinal, hfinal', signsAlike_of_final hfinal hfinal'⟩

end Signed

namespace Sample

/-- The price of SOL ten and fifty seconds after 1700001000, which starts a minute. -/
def trades : List Trade := [⟨1700001010000, 133 / 2⟩, ⟨1700001050000, 131 / 2⟩]

/-- The answer of the exchange at a time, with the one candle of the minute. -/
def candles (nowMs _startTs _endTs : ℤ) : Except SdkError (List Candle) :=
  .ok ((closeBy trades 1700001000 nowMs).toList.map fun usd => ⟨1700001000, usd⟩)

theorem candles_answers (nowMs : ℤ) : ServesCandles trades nowMs (candles nowMs) := by
  rintro startTs endTs cs hcs c hc
  cases hcs
  obtain ⟨usd, husd, rfl⟩ := List.mem_map.mp hc
  exact Option.mem_toList.mp husd

/-- The hash on the one text that is hashed for the market. -/
def sha256 : Sha256 := fun _ =>
  ⟨[83, 180, 26, 233, 127, 145, 155, 182, 231, 52, 196, 223, 33, 115, 133, 227,
    57, 168, 218, 122, 109, 150, 146, 64, 27, 132, 82, 43, 193, 107, 225, 22], rfl⟩

def attested : TrackedPriceMarket := { market with oracle := some attestationValidatorId }

/-- A run that fetches at a time, in milliseconds, and signs four seconds later. -/
def runAt (nowMs : ℤ) : Except SdkError AttestedAttempt :=
  settlePriceMarketAttested sha256 config (candles nowMs) (.ok ()) attested (nowMs / 1000)
    (nowMs / 1000 + 4)

def signedAt (nowMs : ℤ) : Option (ℤ × ℤ) :=
  match runAt nowMs with
  | .ok (.signed o ob _ _) => some (o, ob.value)
  | _ => none

theorem exists_signed {nowMs o value : ℤ} (h : signedAt nowMs = some (o, value)) :
    ∃ ob c message, runAt nowMs = .ok (.signed o ob c message) ∧ ob.value = value := by
  rw [signedAt] at h
  split at h
  · rename_i hrun
    cases h
    exact ⟨_, _, _, hrun, rfl⟩
  · cases h

end Sample

theorem attested_final_iff_sample :
    FetchesFinal Sample.trades (Sample.candles 1700001090000) 1700001000 ∧
    FetchesFinal Sample.trades (Sample.candles 1700001200000) 1700001000 ∧
    SignsAlike Sample.sha256 Sample.config Sample.attested (Sample.candles 1700001090000)
      (Sample.candles 1700001200000) :=
  (attested_final_iff (m := Sample.attested) (Sample.candles_answers 1700001090000)
    (Sample.candles_answers 1700001200000)).mpr
    ⟨fun _ => not_moves_of_over (by decide), fun _ => not_moves_of_over (by decide)⟩

/-- A keeper that polls in the twentieth second signs YES, one that polls after the minute NO. -/
theorem attested_price_moves : ¬ ∀ (sha256 : Sha256) (cfg : PriceConfig) (m : TrackedPriceMarket)
    (trades : List Trade) (fetchCandles fetchCandles' : ℤ → ℤ → Except SdkError (List Candle))
    (t t' : ℤ), Ordered Trade.time trades →
    ServesCandles trades t fetchCandles → ServesCandles trades t' fetchCandles' →
    m.referenceTs * 1000 ≤ t → m.referenceTs * 1000 ≤ t' →
    FetchesFinal trades fetchCandles m.referenceTs ∧
      FetchesFinal trades fetchCandles' m.referenceTs ∧
      SignsAlike sha256 cfg m fetchCandles fetchCandles' := by
  intro hall
  obtain ⟨-, -, halike⟩ := hall Sample.sha256 Sample.config Sample.attested Sample.trades _ _
    1700001020000 1700001200000 (by decide) (Sample.candles_answers _) (Sample.candles_answers _)
    (by decide) (by decide)
  have hyes : Sample.signedAt 1700001020000 = some (0, 6650000000) := by decide +kernel
  have hno : Sample.signedAt 1700001200000 = some (1, 6550000000) := by decide +kernel
  obtain ⟨ob, c, message, hrun, -⟩ := Sample.exists_signed hyes
  obtain ⟨ob', c', message', hrun', -⟩ := Sample.exists_signed hno
  obtain ⟨-, ho⟩ := halike _ _ _ _ _ _ _ _ _ _ _ _ _ _ hrun hrun'
  cases ho

end Stoppage.Keeper
