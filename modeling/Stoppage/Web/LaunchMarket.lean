import Stoppage.Lib.NumberText
import Stoppage.Quant.Snapshot
import Stoppage.Receipt.Bundle
import Stoppage.Sdk.Oracle
import Stoppage.Sdk.RoundTrip

/-! # `apps/web/lib/markets/useLaunchMarket.ts`

Anybody may launch a market on an input that is valid. A feed id has twice the width of its field, a
claim for attestation may have any length, the number may be any number, and so what is stored need
not be the input.
-/

namespace Stoppage.LaunchMarket
open Fallible Sdk Escrow Quant
open NumberText (JsNumber)
set_option autoImplicit false

structure LaunchInput where
  kind : PredicateKind
  matchId : JsString
  team : JsString
  value : JsNumber
  closesAt : JsNumber
  oracle : Pubkey

/-! ## Validation -/

/-- `/^[0-9a-f]{64}$/i` -/
def isFeedId (matchId : JsString) : Bool :=
  decide (matchId.length = 64) && matchId.all (NumberText.isDigitOf 16)

/-- `x <= y`, which is false of what is not a number. -/
def atMost (x : JsNumber) (y : ℤ) : Bool :=
  match x with
  | .finite x => decide (x ≤ y)
  | .infinite negative => negative
  | .nan => false

/-- The message of what is wrong; `nowSec` is `Math.floor(Date.now() / 1000)`. -/
def validate (nowSec : ℤ) (input : LaunchInput) : Option String :=
  let attestationBound := input.oracle = attestationValidatorId
  if NumberText.trim input.matchId = [] then some "Match / feed id is required"
  else if ¬ attestationBound ∧ input.kind = .priceAbove ∧ isFeedId input.matchId = false then
    some "price_above needs the 64-char hex price feed id"
  else if ¬ attestationBound ∧ input.kind ≠ .priceAbove ∧ 32 < (Utf16.encode input.matchId).length
  then some "Match / feed id exceeds 32 bytes"
  else if 8 < (Utf16.encode input.team).length then some "Team id exceeds 8 bytes"
  else if atMost input.closesAt (nowSec + 60) then
    some "Close time must be more than a minute in the future"
  else none

/-! ## Launching -/

/-- `BigInt` refuses what is not finite. -/
def finite : JsNumber → Except SdkError ℚ
  | .finite x => .ok x
  | _ => .error .rangeError

def LaunchInput.predicate (input : LaunchInput) (value : ℚ) : Escrow.MarketPredicate where
  kind := input.kind
  matchId := input.matchId
  params :=
    let team := if input.team = [] then none else some input.team
    if input.kind = .nextGoalWithin then ⟨team, none, some value⟩ else ⟨team, some value, none⟩

def launch (rt : Runtime) (publicKey : Pubkey) (input : LaunchInput) :
    Except SdkError (Pubkey × TransactionInstruction) := do
  let value ← finite input.value
  let marketPda ← Escrow.findMarketPdaFromPredicate rt (input.predicate value)
  let closesAt ← finite input.closesAt
  let ix ← buildCreateMarketIx rt publicKey (input.predicate value) closesAt input.oracle
  pure (marketPda, ix)

/-! ## What is stored -/

/-- The account has what was put in, the texts as they are read of their fields. -/
structure Holds (input : LaunchInput) (mk : Stoppage.Market) : Prop where
  matchId : textOf mk.matchId.1 = input.matchId
  team : textOf mk.team.1 = input.team
  value : input.value = .finite mk.paramU64.toNat
  closesAt : input.closesAt = .finite mk.closesAt.toInt

/-- The id fits its field: it is a match id, or a claim for attestation that is short enough. -/
def Fits (input : LaunchInput) : Prop :=
  if input.oracle = attestationValidatorId then input.matchId.length ≤ 32
  else input.kind ≠ .priceAbove

/-- The inputs that are stored as they are. -/
structure Storable (input : LaunchInput) : Prop where
  fits : Fits input
  matchId : Survives input.matchId
  team : Survives input.team
  value : ∃ n : ℕ, input.value = .finite n ∧ n < 2 ^ 64
  closesAt : ∃ n : ℤ, input.closesAt = .finite n ∧ -2 ^ 63 ≤ n ∧ n < 2 ^ 63

section Launches
variable {nowSec : ℤ} {input : LaunchInput} {rt : Runtime} {creator : Pubkey}

theorem validate_eq_none (h : validate nowSec input = none) :
    (input.oracle ≠ attestationValidatorId → input.kind = .priceAbove →
      input.matchId.length = 64) ∧
    (input.oracle ≠ attestationValidatorId → input.kind ≠ .priceAbove →
      (Utf16.encode input.matchId).length ≤ 32) ∧
    (Utf16.encode input.team).length ≤ 8 := by
  rw [validate] at h
  split_ifs at h with hblank hfeed hlong hteam hsoon
  refine ⟨fun horacle hkind => ?_, fun horacle hkind => ?_, not_lt.mp hteam⟩
  · have hid : isFeedId input.matchId = true := by
      by_contra hnot
      exact hfeed ⟨horacle, hkind, Bool.eq_false_of_not_eq_true hnot⟩
    rw [isFeedId, Bool.and_eq_true, decide_eq_true_iff] at hid
    exact hid.1
  · exact not_lt.mp fun hmore => hlong ⟨horacle, hkind, hmore⟩

theorem length_matchId_le_iff (h : validate nowSec input = none) :
    input.matchId.length ≤ 32 ↔ Fits input := by
  obtain ⟨hfeed, hmatch, -⟩ := validate_eq_none h
  rw [Fits]
  split_ifs with horacle
  · exact Iff.rfl
  · constructor
    · intro hlength hkind
      have := hfeed horacle hkind
      omega
    · exact fun hkind => (Utf16.length_encode _).1.trans (hmatch horacle hkind)

theorem team_predicate (input : LaunchInput) (value : ℚ) :
    (input.predicate value).team = input.team := by
  rw [Escrow.MarketPredicate.team, LaunchInput.predicate]
  by_cases hteam : input.team = []
  · rw [if_pos hteam, hteam]
    split_ifs <;> rfl
  · rw [if_neg hteam]
    split_ifs <;> rfl

theorem number_predicate (input : LaunchInput) (value : ℚ) :
    (input.predicate value).number = value := by
  rw [Escrow.MarketPredicate.number, LaunchInput.predicate]
  split_ifs <;> rfl

theorem finite_eq_ok {x : JsNumber} {q : ℚ} : finite x = .ok q ↔ x = .finite q := by
  cases x with
  | finite x =>
    exact ⟨fun h => congrArg JsNumber.finite (Except.ok.inj h),
      fun h => congrArg Except.ok (JsNumber.finite.inj h)⟩
  | infinite negative => exact iff_of_false (fun h => by cases h) (fun h => by cases h)
  | nan => exact iff_of_false (fun h => by cases h) (fun h => by cases h)

def LaunchInput.seeds (input : LaunchInput) (n : ℤ) : MarketSeeds :=
  marketSeeds input.kind.code (matchIdToBuffer input.matchId) (teamToBuffer input.team) n

theorem seeds_predicate (input : LaunchInput) (n : ℤ) :
    (input.predicate n).seeds = .ok (input.seeds n) := by
  rw [Escrow.MarketPredicate.seeds, number_predicate, toBigInt_eq_ok.mpr rfl, team_predicate]
  rfl

/-- An instruction is made of whole numbers. -/
theorem launch_ok {r : Pubkey × TransactionInstruction} (h : launch rt creator input = .ok r) :
    ∃ n closes : ℤ, input.value = .finite n ∧ input.closesAt = .finite closes ∧
      r.1 = rt.marketAddress (input.seeds n) ∧
      buildCreateMarketIx rt creator (input.predicate n) closes input.oracle = .ok r.2 := by
  simp only [launch, bind_eq_ok, pure_eq_ok] at h
  obtain ⟨value, hvalue, m, hm, closesAt, hcloses, ix, hix, rfl⟩ := h
  obtain ⟨seeds, closes, hseeds, rfl, -⟩ := buildCreateMarketIx_ok hix
  obtain ⟨seeds', hseeds', rfl⟩ := Escrow.findMarketPdaFromPredicate_eq_ok.mp hm
  simp only [Escrow.MarketPredicate.seeds, bind_eq_ok, toBigInt_eq_ok, number_predicate] at hseeds
  obtain ⟨n, rfl, -⟩ := hseeds
  rw [seeds_predicate] at hseeds'
  obtain rfl := Except.ok.inj hseeds'
  exact ⟨n, closes, finite_eq_ok.mp hvalue, finite_eq_ok.mp hcloses, rfl, hix⟩

theorem exists_launch_iff : (∃ r, launch rt creator input = .ok r) ↔
    (∃ n : ℤ, input.value = .finite n) ∧ ∃ n : ℤ, input.closesAt = .finite n := by
  constructor
  · rintro ⟨r, hr⟩
    obtain ⟨n, closes, hvalue, hcloses, -⟩ := launch_ok hr
    exact ⟨⟨n, hvalue⟩, ⟨closes, hcloses⟩⟩
  · rintro ⟨⟨n, hvalue⟩, ⟨closes, hcloses⟩⟩
    rw [launch, hvalue, hcloses]
    simp only [finite, ok_bind, Escrow.findMarketPdaFromPredicate, buildCreateMarketIx, number_predicate,
      toBigInt_eq_ok.mpr (rfl : (n : ℚ) = n), toBigInt_eq_ok.mpr (rfl : (closes : ℚ) = closes)]
    exact ⟨_, rfl⟩

theorem word_eq_iff (n : ℤ) : JsNumber.finite (n : ℚ) = .finite ((UInt64.ofInt n).toNat : ℚ) ↔
    ∃ k : ℕ, JsNumber.finite (n : ℚ) = .finite (k : ℚ) ∧ k < 2 ^ 64 := by
  have hmod := toNat_ofInt n
  constructor
  · exact fun h => ⟨_, h, (UInt64.ofInt n).toNat_lt⟩
  · rintro ⟨k, hk, hlt⟩
    have hn : n = (k : ℤ) := by exact_mod_cast JsNumber.finite.inj hk
    have hword : ((UInt64.ofInt n).toNat : ℤ) = n := by omega
    rw [← Int.cast_natCast, hword]

theorem signedWord_eq_iff (n : ℤ) :
    JsNumber.finite (n : ℚ) = .finite ((Int64.ofInt n).toInt : ℚ) ↔
      ∃ k : ℤ, JsNumber.finite (n : ℚ) = .finite (k : ℚ) ∧ -2 ^ 63 ≤ k ∧ k < 2 ^ 63 := by
  constructor
  · exact fun h => ⟨_, h, (Int64.ofInt n).le_toInt, (Int64.ofInt n).toInt_lt⟩
  · rintro ⟨k, hk, hlow, hhigh⟩
    obtain rfl : n = k := by exact_mod_cast JsNumber.finite.inj hk
    rw [Int64.toInt_ofInt_of_le hlow hhigh]

/-- **What is stored of a valid input.** -/
theorem launch_iff (hvalid : validate nowSec input = none) (rt : Runtime) (creator : Pubkey) :
    ((∃ r, launch rt creator input = .ok r) ↔
      (∃ n : ℤ, input.value = .finite n) ∧ ∃ n : ℤ, input.closesAt = .finite n) ∧
    ∀ (m : Pubkey) (ix : TransactionInstruction) (instruction : Instruction) (ctx : TxContext)
      (s t : Chain), launch rt creator input = .ok (m, ix) →
      MarketProgram.createMarketEntry rt ix = some instruction → exec rt ctx instruction s = .ok t →
      ∃ mk, t.market m = some mk ∧ (Holds input mk ↔ Storable input) := by
  refine ⟨exists_launch_iff, fun m ix instruction ctx s t hlaunch hentry hexec => ?_⟩
  obtain ⟨n, closes, hvalue, hcloses, rfl, hix⟩ := launch_ok hlaunch
  obtain ⟨seeds, closes', feeBps, hseeds, hsame, hmk⟩ := exists_created hix hentry hexec
  rw [seeds_predicate] at hseeds
  obtain rfl := Except.ok.inj hseeds
  obtain rfl : closes = closes' := by exact_mod_cast hsame
  refine ⟨_, hmk, ?_⟩
  have hteam : input.team.length ≤ 8 :=
    (Utf16.length_encode _).1.trans (validate_eq_none hvalid).2.2
  have hmatchText : textOf (matchIdToBuffer input.matchId).1 = input.matchId ↔
      Fits input ∧ Survives input.matchId := by
    rw [← length_matchId_le_iff hvalid]
    exact textOf_padString_eq_iff
  have hteamText : textOf (teamToBuffer input.team).1 = input.team ↔ Survives input.team :=
    textOf_padString_iff hteam
  have hnumber := word_eq_iff n
  have hcloses' := signedWord_eq_iff closes
  rw [← hvalue] at hnumber
  rw [← hcloses] at hcloses'
  constructor
  · intro h
    obtain ⟨hfits, hsurvives⟩ := hmatchText.mp h.matchId
    exact ⟨hfits, hsurvives, hteamText.mp h.team, hnumber.mp h.value, hcloses'.mp h.closesAt⟩
  · intro h
    exact ⟨hmatchText.mpr ⟨h.fits, h.matchId⟩, hteamText.mpr h.team, hnumber.mpr h.value,
      hcloses'.mpr h.closesAt⟩

end Launches

namespace Sample
open Stoppage.Sample

def goals : LaunchInput :=
  ⟨.totalGoalsOver, key "ARG-FRA-18041422", [], .finite 3, .finite 1700001000, judge⟩

def bitcoin : LaunchInput :=
  ⟨.priceAbove, key "e62df6c8b4a85fe1a67db44dc12de5db330f7ac66b72dc658afedf0f4a415b43", [],
    .finite 6500000000000, .finite 1700001000, echo⟩

def launches (input : LaunchInput) : Bool :=
  match launch runtime alice input with
  | .error _ => false
  | .ok (_, ix) =>
    match MarketProgram.createMarketEntry runtime ix with
    | none => false
    | some instruction => Action.runsTo runtime [setUp, call instruction] genesis fun _ => True

theorem exists_of_launches {input : LaunchInput} (h : launches input = true) :
    ∃ m ix instruction ctx s t, launch runtime alice input = .ok (m, ix) ∧
      MarketProgram.createMarketEntry runtime ix = some instruction ∧ Reachable runtime s ∧
      exec runtime ctx instruction s = .ok t := by
  rw [launches] at h
  split at h
  · cases h
  · rename_i m ix hlaunch
    split at h
    · cases h
    · rename_i instruction hentry
      obtain ⟨ctx, s, t, hreach, hcreate⟩ := Escrow.Sample.exists_of_call h
      exact ⟨m, ix, instruction, ctx, s, t, hlaunch, hentry, hreach, hcreate⟩

end Sample

theorem launch_iff_goals : ∃ m ix instruction ctx s t mk,
    launch Stoppage.Sample.runtime Stoppage.Sample.alice Sample.goals = .ok (m, ix) ∧
    MarketProgram.createMarketEntry Stoppage.Sample.runtime ix = some instruction ∧
    exec Stoppage.Sample.runtime ctx instruction s = .ok t ∧ t.market m = some mk ∧
    Holds Sample.goals mk := by
  obtain ⟨m, ix, instruction, ctx, s, t, hlaunch, hentry, -, hexec⟩ :=
    @Sample.exists_of_launches Sample.goals (by decide +kernel)
  have hvalid : validate 1700000000 Sample.goals = none := by decide +kernel
  obtain ⟨mk, hmk, hiff⟩ := (launch_iff hvalid _ _).2 m ix instruction ctx s t hlaunch hentry hexec
  have hother : Sample.goals.oracle ≠ attestationValidatorId := by decide +kernel
  have hfits : Fits Sample.goals := by
    rw [Fits, if_neg hother]
    decide
  refine ⟨m, ix, instruction, ctx, s, t, mk, hlaunch, hentry, hexec, hmk, hiff.mpr
    ⟨hfits, .inl ⟨by decide +kernel, by decide +kernel⟩, .inl ⟨by decide +kernel, by decide⟩,
      ⟨3, rfl, by decide⟩, ⟨1700001000, rfl, by decide, by decide⟩⟩⟩

/-- Half of the feed id is stored. -/
theorem feed_id_cut : ∃ input m ix instruction ctx s t mk,
    validate 1700000000 input = none ∧
    launch Stoppage.Sample.runtime Stoppage.Sample.alice input = .ok (m, ix) ∧
    MarketProgram.createMarketEntry Stoppage.Sample.runtime ix = some instruction ∧
    Reachable Stoppage.Sample.runtime s ∧ exec Stoppage.Sample.runtime ctx instruction s = .ok t ∧
    t.market m = some mk ∧ ¬ Holds input mk := by
  obtain ⟨m, ix, instruction, ctx, s, t, hlaunch, hentry, hreach, hexec⟩ :=
    @Sample.exists_of_launches Sample.bitcoin (by decide +kernel)
  obtain ⟨n, closes, -, -, hm, hix⟩ := launch_ok hlaunch
  obtain ⟨seeds, closes', feeBps, hseeds, -, hmk⟩ := exists_created hix hentry hexec
  rw [seeds_predicate] at hseeds
  obtain rfl := Except.ok.inj hseeds
  refine ⟨Sample.bitcoin, m, ix, instruction, ctx, s, t, _, by decide +kernel, hlaunch, hentry,
    hreach, hexec, hm ▸ hmk, fun h => ?_⟩
  have hsame : textOf (matchIdToBuffer Sample.bitcoin.matchId).1 = Sample.bitcoin.matchId :=
    h.matchId
  exact absurd hsame (by decide +kernel)

end Stoppage.LaunchMarket
