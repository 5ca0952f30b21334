import Stoppage.Instance.Conservation
import Stoppage.Lib.NumberText
import Stoppage.Sdk.Instructions
import Stoppage.Sdk.ParseMarket

/-! # `apps/web`: the payout that a claim leaves in the history

`claim` of `useMarketActions.ts` reads the market back after the program has paid, and computes the
share of the position that the store of the page holds out of the pools: before the fee of the
protocol, which the program keeps from a winner. Only `useMyPositions` puts positions into the
store, when a wallet connects. Sums, products and quotients of lamports are exact here.
-/

namespace Stoppage.Web
open Escrow Fallible LittleEndian MarketProgram NumberText TransitionSystem
set_option autoImplicit false

/-! ## Positions -/

/-- `Position` of the SDK. -/
structure WebPosition where
  marketId : Pubkey
  owner : Pubkey
  side : Sdk.Side
  amountLamports : ℚ
  openedViaSessionKey : Bool
deriving DecidableEq

/-- The fields behind the discriminator, as `useMyPositions` reads them. -/
def WebPosition.read (owner : Pubkey) : Borsh.Reader WebPosition := do
  let marketId ← Pubkey.read
  let _ ← Pubkey.read
  let side ← Borsh.byte
  let amountLamports ← Borsh.u64
  let openedViaSessionKey ← Borsh.byte
  pure
    { marketId
      owner
      side := if side = 0 then .yes else .no
      amountLamports := numberOfU64 amountLamports
      openedViaSessionKey := openedViaSessionKey != 0 }

/-- The position that `refresh` reads in an account of the wallet. -/
def storedPosition (owner : Pubkey) (data : Bytes) : Option WebPosition :=
  Borsh.run (WebPosition.read owner) (data.drop 8)

def positionOf (owner : Pubkey) (p : Stoppage.Position) : WebPosition where
  marketId := p.market
  owner := owner
  side := if p.side = sideYes then .yes else .no
  amountLamports := numberOfU64 p.amountLamports
  openedViaSessionKey := p.openedViaSessionKey

theorem storedPosition_data (owner : Pubkey) (p : Stoppage.Position) :
    storedPosition owner p.data = some (positionOf owner p) := by
  have hread : Borsh.Reads (WebPosition.read owner) (p.market.bytes ++ (p.owner.bytes ++ ([p.side] ++
      (encodeU64 p.amountLamports ++ encodeBool p.openedViaSessionKey)))) (positionOf owner p) := by
    refine (Pubkey.reads p.market).bind ?_
    refine (Pubkey.reads p.owner).bind ?_
    refine (Borsh.reads_byte p.side).bind ?_
    refine (Borsh.reads_u64 p.amountLamports).bind ?_
    have hlast := (Borsh.reads_byte (if p.openedViaSessionKey then 1 else 0)).map fun b =>
      { positionOf owner p with openedViaSessionKey := b != 0 }
    have hflag : ((if p.openedViaSessionKey then 1 else 0 : UInt8) != 0) =
        p.openedViaSessionKey := by cases p.openedViaSessionKey <;> rfl
    rw [hflag] at hlast
    exact hlast
  have hrun := hread.run_append [p.bump]
  rw [storedPosition, Position.data, List.drop_left' (by rfl)]
  simp only [List.append_assoc] at hrun
  exact hrun

/-! ### The store -/

/-- `positions` of the store, by market and owner. -/
abbrev Positions := Pubkey × Pubkey → Option WebPosition

def addPosition (positions : Positions) (p : WebPosition) : Positions :=
  Function.update positions (p.marketId, p.owner) (some p)

/-- `refresh` of `useMyPositions`, with the accounts that the request found. -/
def refresh (owner : Pubkey) (found : List Bytes) (positions : Positions) : Positions :=
  (found.filterMap (storedPosition owner)).foldl addPosition positions

theorem foldl_addPosition {k : Pubkey × Pubkey} {p : WebPosition} {ps : List WebPosition}
    {positions : Positions} (hp : p ∈ ps ∨ positions k = some p) (hk : k = (p.marketId, p.owner))
    (hsame : ∀ q ∈ ps, k = (q.marketId, q.owner) → q = p) :
    ps.foldl addPosition positions k = some p := by
  induction ps generalizing positions with
  | nil => exact hp.resolve_left List.not_mem_nil
  | cons q ps ih =>
    refine ih ?_ fun r hr => hsame r (.tail _ hr)
    by_cases hq : k = (q.marketId, q.owner)
    · rw [addPosition, hq, Function.update_self, hsame q (.head _) hq]
      exact .inr rfl
    · rw [addPosition, Function.update_of_ne hq]
      refine hp.imp_left fun hmem => ?_
      rcases List.mem_cons.mp hmem with rfl | hmem
      · exact absurd hk hq
      · exact hmem

/-- A refresh brings the entry of each market that it finds one account of up to date. -/
theorem refresh_current {m o : Pubkey} {p : Stoppage.Position} {found : List Bytes}
    (positions : Positions) (hmarket : p.market = m) (hp : p.data ∈ found)
    (hone : ∀ data ∈ found, ∀ q, storedPosition o data = some q → q.marketId = m → data = p.data) :
    refresh o found positions (m, o) = storedPosition o p.data := by
  rw [refresh, storedPosition_data]
  refine foldl_addPosition (.inl ?_) ?_ ?_
  · exact List.mem_filterMap.mpr ⟨_, hp, storedPosition_data o p⟩
  · rw [positionOf, hmarket]
  · intro q hq hkey
    obtain ⟨data, hdata, hread⟩ := List.mem_filterMap.mp hq
    have hsame := hone data hdata q hread (Prod.mk.inj hkey).1.symm
    rw [hsame, storedPosition_data] at hread
    exact (Option.some.inj hread).symm

/-! ## The record -/

/-- `SettledPosition`, without the label. -/
structure SettledPosition where
  marketId : Pubkey
  owner : Pubkey
  side : Sdk.Side
  amountLamports : ℚ
  outcome : Outcome
  payoutLamports : JsNumber
  settledAt : ℤ
deriving DecidableEq

/-- `Math.floor(x / y)` -/
def floorQuotient (x y : ℚ) : JsNumber :=
  if y = 0 then if x = 0 then .nan else .infinite (decide (x < 0)) else .finite ⌊x / y⌋

/-- `pos.side === m.outcome` -/
def sideWon : Sdk.Side → Outcome → Bool
  | .yes, .yes => true
  | .no, .no => true
  | _, _ => false

def payoutLamports (m : Escrow.Market) (pos : WebPosition) : JsNumber :=
  if m.status = .void then .finite pos.amountLamports
  else if sideWon pos.side m.outcome then
    floorQuotient (pos.amountLamports * (m.yesPool + m.noPool))
      (if pos.side = .yes then m.yesPool else m.noPool)
  else .finite 0

/-- `await getMarket(connection, market)`; what it throws is caught. -/
def fetchMarket (t : Chain) (market : Pubkey) : Option Escrow.Market :=
  (t.market market).bind fun mk => (parseMarket mk.data market).toOption

/-- What `claim` hands to `addSettledPosition` after the transaction, if anything. -/
def recordClaim (market publicKey : Pubkey) (fetched : Option Escrow.Market)
    (positions : Positions) (now : ℤ) : Option SettledPosition := do
  let m ← fetched
  let pos ← positions (market, publicKey)
  if m.status = .settled ∨ m.status = .void then
    some
      { marketId := market
        owner := publicKey
        side := pos.side
        amountLamports := pos.amountLamports
        outcome := m.outcome
        payoutLamports := payoutLamports m pos
        settledAt := now }
  else none

/-! ## The pools of the page are those of the program -/

/-- The share as the page computes it is the stake and the share of the losing pool. -/
theorem floorQuotient_gross {stake winning losing : ℕ} (h : 0 < winning) :
    floorQuotient (stake * (winning + losing)) winning =
      .finite (PariMutuel.gross stake losing winning) := by
  have hne : (winning : ℚ) ≠ 0 := by exact_mod_cast h.ne'
  have hfloor : ⌊((stake : ℚ) * (winning + losing)) / winning⌋ =
      (stake * (winning + losing) / winning : ℕ) := by
    have hdiv := Rat.floor_natCast_div_natCast (stake * (winning + losing)) winning
    push_cast at hdiv ⊢
    exact hdiv
  have hsplit : stake * (winning + losing) / winning = PariMutuel.gross stake losing winning := by
    rw [Nat.mul_add, Nat.mul_comm stake winning, Nat.mul_add_div h, PariMutuel.gross]
  rw [floorQuotient, if_neg hne, hfloor, hsplit]
  norm_cast

theorem fetchMarket_eq_some {t : Chain} {m : Pubkey} {view : Escrow.Market}
    (h : fetchMarket t m = some view) : ∃ mk closesAt settlesAt, t.market m = some mk ∧
      view = viewOf mk m closesAt settlesAt := by
  obtain ⟨mk, hmk, hview⟩ := Option.bind_eq_some_iff.mp h
  cases hparse : parseMarket mk.data m with
  | error e =>
    rw [hparse] at hview
    cases hview
  | ok v =>
    rw [hparse] at hview
    cases hview
    obtain ⟨closesAt, settlesAt, -, hv⟩ := parseMarket_data.mp hparse
    exact ⟨mk, closesAt, settlesAt, hmk, hv⟩

/-- The record shows the share that is computed from the market and the position of the chain. -/
theorem recordClaim_eq_some {t : Chain} {m o : Pubkey} {p : Stoppage.Position}
    {positions : Positions} {now : ℤ} {r : SettledPosition}
    (hstored : positions (m, o) = storedPosition o p.data)
    (h : recordClaim m o (fetchMarket t m) positions now = some r) :
    ∃ mk closesAt settlesAt, t.market m = some mk ∧
      r.payoutLamports = payoutLamports (viewOf mk m closesAt settlesAt) (positionOf o p) := by
  obtain ⟨view, hview, hrecord⟩ := Option.bind_eq_some_iff.mp h
  rw [hstored, storedPosition_data] at hrecord
  obtain ⟨mk, closesAt, settlesAt, hmk, rfl⟩ := fetchMarket_eq_some hview
  refine ⟨mk, closesAt, settlesAt, hmk, ?_⟩
  change (if _ then some _ else none) = some r at hrecord
  split at hrecord
  · cases hrecord
    rfl
  · cases hrecord

theorem sideWon_iff {side outcome : UInt8} (hside : side = sideYes ∨ side = sideNo)
    (hout : outcome = sideYes ∨ outcome = sideNo) :
    sideWon (if side = sideYes then .yes else .no) (outcomeFromNum outcome) = true ↔
      side = outcome := by
  rcases hside with rfl | rfl <;> rcases hout with rfl | rfl <;> decide

theorem numberOfU64_of_lt {x : UInt64} (h : x.toNat < 2 ^ 53) : numberOfU64 x = x.toNat := by
  rw [numberOfU64, Double.ofNat_of_lt h]

def ownPool (mk : Stoppage.Market) (p : Stoppage.Position) : UInt64 :=
  if p.side = sideYes then mk.yesPool else mk.noPool

/-- Pools that a `number` holds exactly. -/
def ExactPools (mk : Stoppage.Market) : Prop :=
  mk.yesPool.toNat < 2 ^ 53 ∧ mk.noPool.toNat < 2 ^ 53

section Payout
variable {mk : Stoppage.Market} {p : Stoppage.Position} {m o : Pubkey} {closesAt : ℤ}
  {settlesAt : Option ℤ}

theorem ownPool_lt (hpools : ExactPools mk) : (ownPool mk p).toNat < 2 ^ 53 := by
  rw [ownPool]
  split
  · exact hpools.1
  · exact hpools.2

theorem payout_void (hvoid : mk.status = statusVoid)
    (hexact : numberOfU64 p.amountLamports = p.amountLamports.toNat) :
    payoutLamports (viewOf mk m closesAt settlesAt) (positionOf o p) =
      .finite p.amountLamports.toNat := by
  have hstatus : (viewOf mk m closesAt settlesAt).status = .void := by
    show statusFromNum mk.status = _
    rw [hvoid]
    rfl
  rw [payoutLamports, if_pos hstatus, positionOf, hexact]

theorem payout_settled (hset : mk.status = statusSettled) (hside : p.side = sideYes ∨ p.side = sideNo)
    (hout : mk.outcome = sideYes ∨ mk.outcome = sideNo) :
    payoutLamports (viewOf mk m closesAt settlesAt) (positionOf o p) =
      if p.side = mk.outcome then
        floorQuotient (numberOfU64 p.amountLamports * (numberOfU64 mk.yesPool + numberOfU64 mk.noPool))
          (numberOfU64 (ownPool mk p))
      else .finite 0 := by
  have hstatus : (viewOf mk m closesAt settlesAt).status ≠ .void := by
    show statusFromNum mk.status ≠ _
    rw [hset]
    decide
  have hpool : (if (positionOf o p).side = .yes then numberOfU64 mk.yesPool
      else numberOfU64 mk.noPool) = numberOfU64 (ownPool mk p) := by
    rw [positionOf, ownPool]
    by_cases hyes : p.side = sideYes <;> simp [hyes]
  rw [payoutLamports, if_neg hstatus]
  exact if_congr (sideWon_iff hside hout) (congrArg _ hpool) rfl

theorem payout_winner (hset : mk.status = statusSettled) (hside : p.side = sideYes ∨ p.side = sideNo)
    (hwon : p.side = mk.outcome) (hpools : ExactPools mk) (hpos : 0 < p.amountLamports.toNat)
    (hstake : p.amountLamports.toNat ≤ (ownPool mk p).toNat) :
    payoutLamports (viewOf mk m closesAt settlesAt) (positionOf o p) =
      .finite (winnerCharge mk p.amountLamports) := by
  have hown := ownPool_lt (p := p) hpools
  have hpair : (numberOfU64 mk.yesPool + numberOfU64 mk.noPool : ℚ) =
      ((winningPool mk).toNat + (losingPool mk).toNat : ℚ) := by
    rw [numberOfU64_of_lt hpools.1, numberOfU64_of_lt hpools.2, winningPool, losingPool]
    split
    · rfl
    · exact add_comm _ _
  have hwinning : ownPool mk p = winningPool mk := by rw [ownPool, winningPool, hwon]
  rw [payout_settled hset hside (hwon ▸ hside), if_pos hwon, hpair, numberOfU64_of_lt hown,
    numberOfU64_of_lt (by omega), hwinning, winnerCharge]
  exact floorQuotient_gross (by rw [← hwinning]; omega)

end Payout

/-! ## The claim -/

/-- With a stake that is part of its pool, no step of the program's computation truncates. -/
theorem split_of_claimSplit {mk : Stoppage.Market} {p : Stoppage.Position} {payout fee : UInt64}
    (hfee : mk.feeBps ≤ 500) (hpools : ExactPools mk)
    (hstake : p.amountLamports.toNat ≤ (ownPool mk p).toNat)
    (hsplit : claimSplit mk p = .ok (payout, fee)) : Split mk p payout fee := by
  rw [claimSplit] at hsplit
  split at hsplit
  case isTrue hvoid =>
    cases hsplit
    have hset : mk.status ≠ statusSettled := by
      rw [hvoid]
      decide
    exact ⟨fun _ => ⟨rfl, rfl⟩, fun h => absurd h hset, fun h => absurd h hset⟩
  case isFalse hvoid =>
    split at hsplit
    case isTrue hlost =>
      cases hsplit
      exact ⟨fun h => absurd h hvoid, fun _ _ => ⟨rfl, rfl⟩, fun _ h => absurd h hlost⟩
    case isFalse hwon =>
      have hside : p.side = mk.outcome := not_not.mp hwon
      have hlosing : (losingPool mk).toNat < 2 ^ 53 := by
        rw [losingPool]
        split
        · exact hpools.2
        · exact hpools.1
      have hown := ownPool_lt (p := p) hpools
      have hshare := PariMutuel.share_le (L := (losingPool mk).toNat) hstake
      have hfit : PariMutuel.gross p.amountLamports.toNat (losingPool mk).toNat
          (ownPool mk p).toNat < 2 ^ 64 := by
        rw [PariMutuel.gross]
        omega
      have hlose : (if p.side = sideYes then mk.noPool else mk.yesPool) = losingPool mk := by
        rw [hside, losingPool]
      have hwinning : ownPool mk p = winningPool mk := by rw [ownPool, winningPool, hside]
      rw [hwinning] at hstake hfit
      obtain ⟨payout', fee', hsplit', hsum, hskim⟩ := winnerSplit_eq hwinning hlose hstake hfit hfee
      rw [hsplit'] at hsplit
      cases hsplit
      exact ⟨fun h => absurd h hvoid, fun _ h => absurd hside h, fun _ _ => ⟨hsum, hskim⟩⟩

/-- In a market that was created where no position was left over, a stake is part of its pool. -/
theorem stake_le_ownPool {rt : Runtime} {s₀ s₁ s : Chain} {as : List Action} {m o : Pubkey}
    {mk : Stoppage.Market} {p : Stoppage.Position} (hlife : Lifetime rt m s₀ s₁ as s)
    (hclean : Clean m s₀) (hmk : s.market m = some mk) (hp : s.position (m, o) = some p) :
    p.amountLamports ≤ ownPool mk p := by
  have hat : s.positionAt m o = p := by rw [Chain.positionAt, hp, Option.getD_some]
  have hsound := hlife.poolSound hclean |>.1 mk hmk
  have hle := PariMutuel.Pool.stakeOn_le hsound (sideOf p.side) o
  have hstake : (s.pool rt m mk).stakeOn (sideOf p.side) o = p.amountLamports.toNat := by
    show (if sideOf (s.positionAt m o).side = _ then (s.positionAt m o).amountLamports.toNat
      else 0) = _
    rw [hat, if_pos rfl]
  rw [hstake] at hle
  rw [UInt64.le_iff_toNat_le, ownPool]
  by_cases hyes : p.side = sideYes
  · rw [if_pos hyes]
    rwa [sideOf, if_pos hyes] at hle
  · rw [if_neg hyes]
    rwa [sideOf, if_neg hyes] at hle

/-- **The history shows a claim before the fee**, when the store holds the position as it is on
chain: the stake of a voided market, nothing for a loser, and for a winner what is paid out together
with the fee that the treasury keeps. -/
theorem recorded_before_fee {s t : Chain} {m o : Pubkey} {mk : Stoppage.Market}
    {p : Stoppage.Position} {positions : Positions} {now : ℤ} {r : SettledPosition}
    (hwf : WellFormed m s) (hmk : s.market m = some mk) (hp : s.position (m, o) = some p)
    (hpools : ExactPools mk) (hstake : p.amountLamports ≤ ownPool mk p)
    (hstored : positions (m, o) = storedPosition o p.data)
    (hclaim : MarketProgram.claim o m s = .ok t)
    (hrecord : recordClaim m o (fetchMarket t m) positions now = some r) :
    ∃ payout fee : UInt64, Charged m o payout fee s.lamports t.lamports ∧ Split mk p payout fee ∧
      r.payoutLamports = .finite (payout.toNat + fee.toNat) := by
  obtain ⟨mk₁, p₁, payout, fee, l, e, hc, hsplit, hl, rfl⟩ := claim_ok hclaim
  cases market_inj hmk hc.market
  cases Option.some.inj (hp.symm.trans hc.position)
  have hle := UInt64.le_iff_toNat_le.mp hstake
  have hown := ownPool_lt (p := p) hpools
  have hpos : 0 < p.amountLamports.toNat := by
    have hpositive := hc.positive
    rwa [UInt64.lt_iff_toNat_lt] at hpositive
  have hvalid := hwf.market mk hmk
  have hside := hc.side hwf
  have hspec := split_of_claimSplit hvalid.fee hpools hle hsplit
  obtain ⟨mk₂, closesAt, settlesAt, hmk₂, hpayout⟩ := recordClaim_eq_some hstored hrecord
  cases market_inj hmk hmk₂
  refine ⟨payout, fee, hl, hspec, ?_⟩
  rw [hpayout]
  rcases hc.ended with hset | hvoid
  · by_cases hwon : p.side = mk.outcome
    · have hsum := (hspec.winner hset hwon).1
      rw [payout_winner hset hside hwon hpools hpos hle, ← hsum]
      push_cast
      rfl
    · obtain ⟨rfl, rfl⟩ := hspec.loser hset hwon
      rw [payout_settled hset hside (hvalid.outcome hset), if_neg hwon]
      simp
  · obtain ⟨rfl, rfl⟩ := hspec.void hvoid
    rw [payout_void hvoid (numberOfU64_of_lt (by omega))]
    simp

namespace BobWins

open Stoppage.Sample

/-- Bob and carol stake a million lamports each, and bob wins. -/
def actions : List Action :=
  [setUp, create 1700001000 echo, join sideYes 1000000,
    call (.joinViaWallet carol market sideNo 1000000), call (.forceSettle alice market sideYes)]

/-- The store after bob has connected his wallet. -/
def loaded (p : Stoppage.Position) : Positions := refresh bob [p.data] fun _ => none

/-- Bob's claim comes next, and it is recorded. -/
structure BobClaims (s t : Chain) (mk : Stoppage.Market) (p : Stoppage.Position)
    (r : SettledPosition) : Prop where
  reachable : Reachable runtime s
  hasMarket : s.market market = some mk
  hasPosition : s.position (market, bob) = some p
  terms : (mk.status, mk.outcome, mk.yesPool, mk.noPool, mk.feeBps) =
    (statusSettled, sideYes, 1000000, 1000000, 200)
  stake : (p.market, p.side, p.amountLamports) = (market, sideYes, 1000000)
  claims : MarketProgram.claim bob market s = .ok t
  records : recordClaim market bob (fetchMarket t market) (loaded p) 0 = some r
  shown : r.payoutLamports = .finite 2000000
  paid : (t.lamports (.external bob)).toNat = (s.lamports (.external bob)).toNat + 1960000

def bobsRecord (s t : Chain) : Option SettledPosition :=
  (s.position (market, bob)).bind fun p =>
    recordClaim market bob (fetchMarket t market) (loaded p) 0

def Paid (s t : Chain) : Prop :=
  (bobsRecord s t).map SettledPosition.payoutLamports = some (.finite 2000000) ∧
    (t.lamports (.external bob)).toNat = (s.lamports (.external bob)).toNat + 1960000

instance (s : Chain) : DecidablePred (Paid s) := fun _ => inferInstanceAs (Decidable (_ ∧ _))

def Ready (s : Chain) : Prop :=
  (s.market market).map (fun mk => (mk.status, mk.outcome, mk.yesPool, mk.noPool, mk.feeBps)) =
    some (statusSettled, sideYes, 1000000, 1000000, 200) ∧
  (s.position (market, bob)).map (fun p => (p.market, p.side, p.amountLamports)) =
    some (market, sideYes, 1000000) ∧
  Action.runsTo runtime [Stoppage.Sample.claim] s (Paid s) = true

instance : DecidablePred Ready := fun _ => inferInstanceAs (Decidable (_ ∧ _))

theorem exists_bobClaims : ∃ s t mk p r, BobClaims s t mk p r := by
  have hrun : Action.runsTo runtime actions genesis Ready = true := by decide +kernel
  obtain ⟨s, hsteps, hmarket, hposition, hclaim⟩ := steps_of_runsTo hrun
  obtain ⟨t, hclaims, hrecord, hpaid⟩ := steps_of_runsTo hclaim
  obtain ⟨mk, hmk, hterms⟩ := Option.map_eq_some_iff.mp hmarket
  obtain ⟨p, hp, hstake⟩ := Option.map_eq_some_iff.mp hposition
  obtain ⟨r, hr, hshown⟩ := Option.map_eq_some_iff.mp hrecord
  rw [bobsRecord, hp, Option.bind_some] at hr
  exact ⟨s, t, mk, p, r,
    { reachable := ⟨_, _, genesis_ok, hsteps⟩
      hasMarket := hmk
      hasPosition := hp
      terms := hterms
      stake := hstake
      claims := Steps.single_iff.mp hclaims
      records := hr
      shown := hshown
      paid := hpaid }⟩

theorem BobClaims.exactPools {s t : Chain} {mk : Stoppage.Market} {p : Stoppage.Position}
    {r : SettledPosition} (h : BobClaims s t mk p r) : ExactPools mk := by
  have hterms := h.terms
  simp only [Prod.mk.injEq] at hterms
  rw [ExactPools, hterms.2.2.1, hterms.2.2.2.1]
  decide

end BobWins

theorem recorded_before_fee_of_bob : ∃ s t mk p r, BobWins.BobClaims s t mk p r ∧
    ∃ payout fee : UInt64, Charged Stoppage.Sample.market Stoppage.Sample.bob payout fee s.lamports
      t.lamports ∧ Split mk p payout fee ∧
        r.payoutLamports = .finite (payout.toNat + fee.toNat) := by
  obtain ⟨s, t, mk, p, r, h⟩ := BobWins.exists_bobClaims
  have hstake : p.amountLamports ≤ ownPool mk p := by
    have hterms := h.terms
    have hp := h.stake
    simp only [Prod.mk.injEq] at hterms hp
    rw [ownPool, hp.2.1, hp.2.2, if_pos rfl, hterms.2.2.1]
    exact UInt64.le_refl _
  have hstored : BobWins.loaded p (Stoppage.Sample.market, Stoppage.Sample.bob) =
      storedPosition Stoppage.Sample.bob p.data := by
    refine refresh_current _ (Prod.mk.inj h.stake).1 (.head _) fun data hdata _ _ _ => ?_
    exact List.mem_singleton.mp hdata
  exact ⟨s, t, mk, p, r, h, recorded_before_fee (h.reachable.wellFormed _) h.hasMarket h.hasPosition
    h.exactPools hstake hstored h.claims h.records⟩

/-- At a fee of two percent bob is paid 1960000 lamports, and the history shows 2000000. -/
theorem fee_not_recorded : ∃ s t mk p r, BobWins.BobClaims s t mk p r ∧
    ∀ payout : ℕ, r.payoutLamports = .finite payout →
      (t.lamports (.external Stoppage.Sample.bob)).toNat ≠
        (s.lamports (.external Stoppage.Sample.bob)).toNat + payout := by
  obtain ⟨s, t, mk, p, r, h⟩ := BobWins.exists_bobClaims
  refine ⟨s, t, mk, p, r, h, ?_⟩
  intro payout hpayout hpaid
  have hshown := h.shown
  rw [hpayout, JsNumber.finite.injEq] at hshown
  have hvalue : payout = 2000000 := by exact_mod_cast hshown
  have hbob := h.paid
  omega

end Stoppage.Web
