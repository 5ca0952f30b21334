import Stoppage.Sdk.Escrow
import Stoppage.Lib.Double

/-! # `packages/sdk`: reading a market

`parseMarket` of `escrow.ts`. Its reads go through the account in order; one that leaves the buffer
throws. A date in the result stands for its ISO string, as its time value in milliseconds.
-/

namespace Stoppage.Escrow
open LittleEndian Fallible Padding Sdk
set_option autoImplicit false

/-! ## Numbers and dates -/

/-- `Number(readU64LE(accountData, offset))` -/
def numberOfU64 (x : UInt64) : ℚ := Double.ofNat x.toNat

/-- `Number(readI64LE(accountData, offset))` -/
def numberOfI64 (x : Int64) : ℤ := Double.ofInt x.toInt

/-- The largest time value of a date, in milliseconds. -/
def maxTime : ℤ := 8640000000000000

/-- `new Date(seconds * 1000).toISOString()` -/
def isoOfSeconds (seconds : ℤ) : Except SdkError ℤ := do
  let time := Double.ofInt (seconds * 1000)
  require (-maxTime ≤ time ∧ time ≤ maxTime) .rangeError
  pure time

/-- `seconds > 0 ? new Date(seconds * 1000).toISOString() : null` -/
def isoIfPositive (seconds : ℤ) : Except SdkError (Option ℤ) :=
  if 0 < seconds then some <$> isoOfSeconds seconds else .ok none

/-! ## The account -/

inductive MarketStatus
  | open
  | awaitingSettlement
  | settled
  | void
deriving DecidableEq

inductive Outcome
  | yes
  | no
  | void
deriving DecidableEq

/-- `STATUS_FROM_NUM[status] ?? "open"` -/
def statusFromNum (status : UInt8) : MarketStatus :=
  if status = 1 then .awaitingSettlement else if status = 2 then .settled
  else if status = 3 then .void else .open

/-- `OUTCOME_FROM_NUM[outcome] ?? "void"` -/
def outcomeFromNum (outcome : UInt8) : Outcome :=
  if outcome = 0 then .yes else if outcome = 1 then .no else .void

/-- `kindNames[kind] ?? "next_goal_within"` -/
def kindName (kind : UInt8) : PredicateKind :=
  if kind = 1 then .cornersOver else if kind = 2 then .cardShown
  else if kind = 3 then .totalGoalsOver else if kind = 4 then .priceAbove else .nextGoalWithin

/-- The type `Market` of the SDK. -/
structure Market where
  id : Pubkey
  predicate : MarketPredicate
  creator : Pubkey
  oracle : Pubkey
  bondLamports : ℚ
  bondClaimed : Bool
  yesPool : ℚ
  noPool : ℚ
  closesAt : ℤ
  settlesAt : Option ℤ
  status : MarketStatus
  outcome : Outcome
  feeBps : ℚ
  verifications : ℚ
deriving DecidableEq

/-- The fields that are read behind the discriminator. -/
structure RawMarket where
  kind : UInt8
  matchId : List.Vector UInt8 32
  team : List.Vector UInt8 8
  paramU64 : UInt64
  creator : Pubkey
  oracle : Pubkey
  bondLamports : UInt64
  bondClaimed : UInt8
  yesPool : UInt64
  noPool : UInt64
  closesAt : Int64
  settlesAt : Int64
  status : UInt8
  outcome : UInt8
  feeBps : UInt16
  verifications : UInt32

def RawMarket.read : Borsh.Reader RawMarket := do
  let kind ← Borsh.byte
  let matchId ← Borsh.array 32
  let team ← Borsh.array 8
  let paramU64 ← Borsh.u64
  let creator ← Pubkey.read
  let oracle ← Pubkey.read
  let bondLamports ← Borsh.u64
  let bondClaimed ← Borsh.byte
  let yesPool ← Borsh.u64
  let noPool ← Borsh.u64
  let closesAt ← Borsh.i64
  let settlesAt ← Borsh.i64
  let status ← Borsh.byte
  let outcome ← Borsh.byte
  let feeBps ← Borsh.u16
  let verifications ← Borsh.u32
  pure { kind, matchId, team, paramU64, creator, oracle, bondLamports, bondClaimed, yesPool, noPool,
         closesAt, settlesAt, status, outcome, feeBps, verifications }

/-- `buf.toString("utf8").replace(/\0+$/, "")` -/
def textOf (buf : Bytes) : JsString := trim 0 (Utf16.decode buf)

def predicateOf (kind : UInt8) (matchId : Bytes) (team : Bytes) (paramU64 : ℚ) :
    MarketPredicate where
  kind := kindName kind
  matchId := textOf matchId
  params :=
    if kind = 4 then { team := some (textOf team), threshold := some paramU64, windowSeconds := none }
    else { team := some (textOf team), threshold := none, windowSeconds := some paramU64 }

theorem number_predicateOf (kind : UInt8) (matchId team : Bytes) (n : ℚ) :
    (predicateOf kind matchId team n).number = n := by
  rw [predicateOf, MarketPredicate.number]
  split <;> rfl

theorem team_predicateOf (kind : UInt8) (matchId team : Bytes) (n : ℚ) :
    (predicateOf kind matchId team n).team = textOf team := by
  rw [predicateOf, MarketPredicate.team]
  split <;> rfl

theorem kindName_code (kind : PredicateKind) : kindName kind.code = kind := by
  cases kind <;> rfl

def parseMarket (accountData : Bytes) (marketAddress : Pubkey) : Except SdkError Market := do
  let raw ← getOr .rangeError (Borsh.run RawMarket.read (accountData.drop 8))
  let closesAt ← isoOfSeconds (numberOfI64 raw.closesAt)
  let settlesAt ← isoIfPositive (numberOfI64 raw.settlesAt)
  pure
    { id := marketAddress
      predicate := predicateOf raw.kind raw.matchId.1 raw.team.1 (numberOfU64 raw.paramU64)
      creator := raw.creator
      oracle := raw.oracle
      bondLamports := numberOfU64 raw.bondLamports
      bondClaimed := raw.bondClaimed != 0
      yesPool := numberOfU64 raw.yesPool
      noPool := numberOfU64 raw.noPool
      closesAt
      settlesAt
      status := statusFromNum raw.status
      outcome := outcomeFromNum raw.outcome
      feeBps := raw.feeBps.toNat
      verifications := raw.verifications.toNat }

/-! ## What is read of a program's account -/

/-- The fields as the market program writes them. -/
def rawOf (mk : Stoppage.Market) : RawMarket where
  kind := mk.kind
  matchId := mk.matchId
  team := mk.team
  paramU64 := mk.paramU64
  creator := mk.creator
  oracle := mk.oracle
  bondLamports := mk.bondLamports
  bondClaimed := if mk.bondClaimed then 1 else 0
  yesPool := mk.yesPool
  noPool := mk.noPool
  closesAt := mk.closesAt
  settlesAt := mk.settlesAt
  status := mk.status
  outcome := mk.outcome
  feeBps := mk.feeBps
  verifications := mk.verifications

theorem reads_rawOf (mk : Stoppage.Market) : Borsh.Reads RawMarket.read
    ([mk.kind] ++ (mk.matchId.1 ++ (mk.team.1 ++ (encodeU64 mk.paramU64 ++ (mk.creator.bytes ++
      (mk.oracle.bytes ++ (encodeU64 mk.bondLamports ++ (encodeBool mk.bondClaimed ++
        (encodeU64 mk.yesPool ++ (encodeU64 mk.noPool ++ (encodeI64 mk.closesAt ++
          (encodeI64 mk.settlesAt ++ ([mk.status] ++ ([mk.outcome] ++
            (encodeU16 mk.feeBps ++ encodeU32 mk.verifications))))))))))))))) (rawOf mk) := by
  refine (Borsh.reads_byte mk.kind).bind ?_
  refine (Borsh.reads_array mk.matchId).bind ?_
  refine (Borsh.reads_array mk.team).bind ?_
  refine (Borsh.reads_u64 mk.paramU64).bind ?_
  refine (Pubkey.reads mk.creator).bind ?_
  refine (Pubkey.reads mk.oracle).bind ?_
  refine (Borsh.reads_u64 mk.bondLamports).bind ?_
  refine (Borsh.reads_byte _).bind ?_
  refine (Borsh.reads_u64 mk.yesPool).bind ?_
  refine (Borsh.reads_u64 mk.noPool).bind ?_
  refine (Borsh.reads_i64 mk.closesAt).bind ?_
  refine (Borsh.reads_i64 mk.settlesAt).bind ?_
  refine (Borsh.reads_byte mk.status).bind ?_
  refine (Borsh.reads_byte mk.outcome).bind ?_
  refine (Borsh.reads_u16 mk.feeBps).bind ?_
  exact (Borsh.reads_u32 mk.verifications).map fun n => { rawOf mk with verifications := n }

theorem run_read_data (mk : Stoppage.Market) :
    Borsh.run RawMarket.read (mk.data.drop 8) = some (rawOf mk) := by
  have hrun := (reads_rawOf mk).run_append [mk.bump]
  have hdrop : mk.data.drop 8 = ([mk.kind] ++ (mk.matchId.1 ++ (mk.team.1 ++
      (encodeU64 mk.paramU64 ++ mk.terms)))) := List.drop_left' rfl
  rw [hdrop, Market.terms]
  simp only [List.append_assoc] at hrun ⊢
  exact hrun

/-- The dates of a market, when both can be written. -/
def datesOf (mk : Stoppage.Market) : Except SdkError (ℤ × Option ℤ) := do
  let closesAt ← isoOfSeconds (numberOfI64 mk.closesAt)
  let settlesAt ← isoIfPositive (numberOfI64 mk.settlesAt)
  pure (closesAt, settlesAt)

/-- The result of parsing a market with these dates. -/
def viewOf (mk : Stoppage.Market) (marketAddress : Pubkey) (closesAt : ℤ) (settlesAt : Option ℤ) :
    Market where
  id := marketAddress
  predicate := predicateOf mk.kind mk.matchId.1 mk.team.1 (numberOfU64 mk.paramU64)
  creator := mk.creator
  oracle := mk.oracle
  bondLamports := numberOfU64 mk.bondLamports
  bondClaimed := mk.bondClaimed
  yesPool := numberOfU64 mk.yesPool
  noPool := numberOfU64 mk.noPool
  closesAt := closesAt
  settlesAt := settlesAt
  status := statusFromNum mk.status
  outcome := outcomeFromNum mk.outcome
  feeBps := mk.feeBps.toNat
  verifications := mk.verifications.toNat

theorem parseMarket_data {mk : Stoppage.Market} {marketAddress : Pubkey} {view : Market} :
    parseMarket mk.data marketAddress = .ok view ↔
      ∃ closesAt settlesAt, datesOf mk = .ok (closesAt, settlesAt) ∧
        view = viewOf mk marketAddress closesAt settlesAt := by
  have hclaimed : ((rawOf mk).bondClaimed != 0) = mk.bondClaimed := by
    rw [rawOf]
    cases mk.bondClaimed <;> rfl
  rw [parseMarket, run_read_data, getOr_some, ok_bind]
  simp only [datesOf, bind_eq_ok, pure_eq_ok, Prod.mk.injEq, hclaimed]
  constructor
  · rintro ⟨closesAt, hcloses, settlesAt, hsettles, rfl⟩
    exact ⟨closesAt, settlesAt, ⟨closesAt, hcloses, settlesAt, hsettles, rfl, rfl⟩, rfl⟩
  · rintro ⟨_, _, ⟨closesAt, hcloses, settlesAt, hsettles, rfl, rfl⟩, rfl⟩
    exact ⟨closesAt, hcloses, settlesAt, hsettles, rfl⟩

/-! ## When the dates can be written -/

def maxSeconds : ℤ := 8640000000000

theorem numberOfI64_pos {x : Int64} : 0 < numberOfI64 x ↔ 0 < x.toInt := by
  constructor
  · intro h
    by_contra hneg
    rcases lt_or_eq_of_le (not_lt.mp hneg) with hlt | hzero
    · rw [numberOfI64, Double.ofInt, if_pos hlt] at h
      omega
    · rw [numberOfI64, hzero] at h
      exact absurd h (by decide)
  · exact Double.lt_ofInt le_rfl (by norm_num)

theorem isoOfSeconds_eq_ok {x : Int64} {time : ℤ} : isoOfSeconds (numberOfI64 x) = .ok time ↔
    -maxSeconds ≤ x.toInt ∧ x.toInt ≤ maxSeconds ∧ time = x.toInt * 1000 := by
  have hmax : maxSeconds = 8640000000000 := rfl
  have htime : maxTime = 8640000000000000 := rfl
  simp only [isoOfSeconds, bind_eq_ok, require_eq_ok, pure_eq_ok]
  by_cases hin : -maxSeconds ≤ x.toInt ∧ x.toInt ≤ maxSeconds
  · have hnumber : numberOfI64 x = x.toInt := Double.ofInt_of_natAbs_lt (by omega)
    have hproduct : Double.ofInt (numberOfI64 x * 1000) = x.toInt * 1000 := by
      rw [hnumber]
      exact Double.ofInt_of_natAbs_lt (by omega)
    rw [hproduct]
    constructor
    · rintro ⟨-, -, rfl⟩
      exact ⟨hin.1, hin.2, rfl⟩
    · rintro ⟨-, -, rfl⟩
      exact ⟨(), by omega, rfl⟩
  · -- Outside, neither rounding brings the product back.
    refine iff_of_false (fun ⟨_, hrange, _⟩ => ?_) (fun ⟨hlow, hhigh, _⟩ => hin ⟨hlow, hhigh⟩)
    rcases lt_or_ge maxSeconds x.toInt with hlate | hle
    · have hnumber := Double.lt_ofInt (k := maxSeconds) (by omega) (by omega) hlate
      have hproduct := Double.lt_ofInt (k := maxTime) (z := numberOfI64 x * 1000) (by omega)
        (by omega) (by rw [numberOfI64]; omega)
      omega
    · have hearly : x.toInt < -maxSeconds := by omega
      have hnumber := Double.ofInt_lt (k := maxSeconds) (by omega) (by omega) hearly
      have hproduct := Double.ofInt_lt (k := maxTime) (z := numberOfI64 x * 1000) (by omega)
        (by omega) (by rw [numberOfI64]; omega)
      omega

theorem isoIfPositive_eq_ok {x : Int64} {time : Option ℤ} :
    isoIfPositive (numberOfI64 x) = .ok time ↔
      x.toInt ≤ maxSeconds ∧ time = if 0 < x.toInt then some (x.toInt * 1000) else none := by
  have hmax : maxSeconds = 8640000000000 := rfl
  have hsign := numberOfI64_pos (x := x)
  rw [isoIfPositive]
  by_cases hpos : 0 < x.toInt
  · rw [if_pos (hsign.mpr hpos), if_pos hpos]
    rw [map_eq_ok]
    constructor
    · rintro ⟨t, ht, rfl⟩
      obtain ⟨-, hle, rfl⟩ := isoOfSeconds_eq_ok.mp ht
      exact ⟨hle, rfl⟩
    · rintro ⟨hle, rfl⟩
      exact ⟨_, isoOfSeconds_eq_ok.mpr ⟨by omega, hle, rfl⟩, rfl⟩
  · rw [if_neg (mt hsign.mp hpos), if_neg hpos]
    constructor
    · intro h
      cases h
      exact ⟨by omega, rfl⟩
    · rintro ⟨-, rfl⟩
      rfl

/-- **When an account can be parsed**, and what is read then. -/
theorem parseMarket_ok_iff {mk : Stoppage.Market} {marketAddress : Pubkey} {view : Market} :
    parseMarket mk.data marketAddress = .ok view ↔
      (-maxSeconds ≤ mk.closesAt.toInt ∧ mk.closesAt.toInt ≤ maxSeconds ∧
        mk.settlesAt.toInt ≤ maxSeconds) ∧
      view = viewOf mk marketAddress (mk.closesAt.toInt * 1000)
        (if 0 < mk.settlesAt.toInt then some (mk.settlesAt.toInt * 1000) else none) := by
  rw [parseMarket_data]
  simp only [datesOf, bind_eq_ok, pure_eq_ok, Prod.mk.injEq, isoOfSeconds_eq_ok,
    isoIfPositive_eq_ok]
  constructor
  · rintro ⟨_, _, ⟨_, ⟨hlow, hhigh, rfl⟩, _, ⟨hsettles, rfl⟩, rfl, rfl⟩, rfl⟩
    exact ⟨⟨hlow, hhigh, hsettles⟩, rfl⟩
  · rintro ⟨⟨hlow, hhigh, hsettles⟩, rfl⟩
    exact ⟨_, _, ⟨_, ⟨hlow, hhigh, rfl⟩, _, ⟨hsettles, rfl⟩, rfl, rfl⟩, rfl⟩

end Stoppage.Escrow
