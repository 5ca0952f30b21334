import Stoppage.Agent.Tracking
import Stoppage.Keeper.Price
import Stoppage.Sdk.RoundTrip

/-! # The terms of markets that are found

The address of a market has no closing time and no oracle in it, and anybody can create one. The
price keeper adopts the account that it finds at the address, and the agent reports it as created;
neither looks at its terms. `adopted_terms_iff`: they are the terms assumed exactly when whoever has
created the account gave it these terms.
-/

namespace Stoppage

/-- `DEFAULT_ORACLE`, the TxLINE program `6pW64gN1s2uqjHkn1unFeEjAwJkPGHoppGvS715wyP2J`. -/
def Sdk.defaultOracle : Pubkey :=
  ⟨[86, 117, 159, 44, 144, 95, 120, 96, 200, 99, 119, 20, 191, 36, 145, 48,
    157, 192, 113, 129, 81, 63, 122, 36, 191, 62, 218, 248, 127, 119, 80, 3], rfl⟩

namespace Keeper
open Fallible Sdk Escrow PythValidator TransitionSystem
set_option autoImplicit false

/-! ## The price keeper -/

/-- The oracles that `settlePriceMarket` can settle with. -/
def Drivable (cfg : PriceConfig) (oracle : Pubkey) : Prop :=
  oracle = attestationValidatorId ∨ oracle = pythValidatorId ∧ cfg.attestation = false

theorem drivable_boundOracle (cfg : PriceConfig) : Drivable cfg cfg.boundOracle := by
  rw [PriceConfig.boundOracle]
  cases hmode : cfg.attestation with
  | true => exact .inl rfl
  | false => exact .inr ⟨rfl, hmode⟩

/-- A market is given up as unsupported exactly when its oracle cannot be driven. -/
theorem unsupported_iff {cfg : PriceConfig} {fetchUpdateAt : ℤ → Except SdkError Update}
    {m : TrackedPriceMarket} {nowSec : ℤ} :
    settlePriceMarket cfg fetchUpdateAt m nowSec = .ok (.result .unsupported) ↔
      ¬ Drivable cfg (m.oracle.getD pythValidatorId) := by
  rw [settlePriceMarket, Drivable]
  dsimp only
  by_cases hattested : m.oracle.getD pythValidatorId = attestationValidatorId
  · rw [if_pos hattested]
    exact iff_of_false (fun h => by cases h) (fun hnot => hnot (.inl hattested))
  · rw [if_neg hattested]
    by_cases hpyth : m.oracle.getD pythValidatorId = pythValidatorId
    · rw [if_neg (not_not.mpr hpyth)]
      cases hmode : cfg.attestation with
      | true =>
        rw [if_pos rfl]
        exact iff_of_true rfl (by simp [hattested])
      | false =>
        rw [if_neg (by simp)]
        refine iff_of_false (fun h => ?_) (fun hnot => hnot (.inr ⟨hpyth, rfl⟩))
        obtain ⟨update, -, h⟩ := bind_eq_ok.mp h
        split at h
        · split at h
          · cases h
          · cases h
        · cases h
    · rw [if_pos hpyth]
      exact iff_of_true rfl (by simp [hattested, hpyth])

/-- What the keeper assumes of a market on the chain that it tracks with a reference time. -/
structure KeeperTerms (cfg : PriceConfig) (referenceTs : ℤ) (mk : Stoppage.Market) : Prop where
  closesAt : mk.closesAt.toInt = referenceTs
  oracle : Drivable cfg mk.oracle
  isOpen : mk.status = statusOpen

/-- A call that has found a chain adds a market to the tracked set; the chain is then the one found,
or the one that the transaction of the call has led to. -/
inductive Adds (cfg : PriceConfig) (s : Chain) : Ensure → TrackedPriceMarket → Chain → Prop
  | adopted (m : TrackedPriceMarket) : Adds cfg s (.adopted m) m s
  | dryRun (m : TrackedPriceMarket) : Adds cfg s (.dryRun m) m s
  | creates (m : TrackedPriceMarket) (ix : TransactionInstruction) (instruction : Instruction)
      (ctx : TxContext) (u t : Chain)
      (hentry : MarketProgram.createMarketEntry cfg.runtime ix = some instruction)
      (hexec : exec cfg.runtime ctx instruction u = .ok t) : Adds cfg s (.creates m ix) m t

/-- Every market that the call adds has the terms, where it is on the chain. -/
def EnsuresTerms (cfg : PriceConfig) (spot : Except SdkError ℤ) (s : Chain)
    (tracked : OrderedMap Pubkey TrackedPriceMarket) (opts : EnsureOpts) : Prop :=
  ∀ e m t, ensurePriceMarket cfg spot (fun pda => .ok (accountInfo s pda)) tracked opts = .ok e →
    Adds cfg s e m t → ∀ mk, t.market m.marketPda = some mk → KeeperTerms cfg m.referenceTs mk

/-- An account at the address for the spot, if the keeper does not track it yet and can read it,
has the terms. -/
def FoundWithTerms (cfg : PriceConfig) (spot : Except SdkError ℤ) (s : Chain)
    (tracked : OrderedMap Pubkey TrackedPriceMarket) (opts : EnsureOpts) : Prop :=
  ∀ sp pda mk view, spot = .ok sp →
    Escrow.findMarketPdaFromPredicate cfg.runtime
      (pricePredicate opts.matchId (roundThresholdUsd sp opts.deltaUsd)) = .ok pda →
    tracked.get pda = none → s.market pda = some mk → parseMarket mk.data pda = .ok view →
    KeeperTerms cfg opts.referenceTs mk

section Ensure
variable {cfg : PriceConfig} {spot : Except SdkError ℤ} {s : Chain}
  {tracked : OrderedMap Pubkey TrackedPriceMarket} {opts : EnsureOpts}

theorem accountInfo_of_some {pda : Pubkey} {mk : Stoppage.Market} (h : s.market pda = some mk) :
    accountInfo s pda = some mk.data := by
  rw [accountInfo, h]

theorem market_none_of_accountInfo {pda : Pubkey} (h : accountInfo s pda = none) :
    s.market pda = none := by
  cases hmk : s.market pda with
  | none => rfl
  | some mk =>
    rw [accountInfo_of_some hmk] at h
    cases h

/-- An account that is found and can be read is adopted. -/
theorem ensurePriceMarket_adopts {sp : ℤ} {pda : Pubkey} {mk : Stoppage.Market}
    {view : Escrow.Market}
    (haddress : Escrow.findMarketPdaFromPredicate cfg.runtime
      (pricePredicate opts.matchId (roundThresholdUsd sp opts.deltaUsd)) = .ok pda)
    (hget : tracked.get pda = none) (hmk : s.market pda = some mk)
    (hparse : parseMarket mk.data pda = .ok view) :
    ensurePriceMarket cfg (.ok sp) (fun pda => .ok (accountInfo s pda)) tracked opts =
      .ok (.adopted (opts.market (roundThresholdUsd sp opts.deltaUsd) pda (some view.oracle))) := by
  rw [ensurePriceMarket]
  simp only [ok_bind, haddress, hget, accountInfo_of_some hmk, hparse]
  rfl

/-- The market that a transaction of the keeper has created has the terms. -/
theorem created_terms {thresholdRaw time : ℤ} {pda : Pubkey} {ix : TransactionInstruction}
    {instruction : Instruction} {ctx : TxContext} {u t : Chain} {mk : Stoppage.Market}
    (haddress : Escrow.findMarketPdaFromPredicate cfg.runtime
      (pricePredicate opts.matchId thresholdRaw) = .ok pda)
    (hdate : isoOfSeconds opts.referenceTs = .ok time)
    (hix : buildCreateMarketIx cfg.runtime cfg.wallet (pricePredicate opts.matchId thresholdRaw)
      opts.referenceTs cfg.boundOracle = .ok ix)
    (hentry : MarketProgram.createMarketEntry cfg.runtime ix = some instruction)
    (hexec : exec cfg.runtime ctx instruction u = .ok t) (hmk : t.market pda = some mk) :
    KeeperTerms cfg opts.referenceTs mk := by
  obtain ⟨seeds, closes, feeBps, hseeds, hcloses, hcreated⟩ := exists_created hix hentry hexec
  obtain ⟨seeds', hseeds', rfl⟩ := findMarketPdaFromPredicate_eq_ok.mp haddress
  cases hseeds.symm.trans hseeds'
  obtain rfl := Option.some.inj (hcreated.symm.trans hmk)
  have hsmall := natAbs_of_isoOfSeconds hdate
  have hsame : closes = opts.referenceTs := (Int.cast_inj.mp hcloses).symm
  refine ⟨?_, drivable_boundOracle cfg, rfl⟩
  show (Int64.ofInt closes).toInt = opts.referenceTs
  rw [hsame]
  exact Int64.toInt_ofInt_of_le (by omega) (by omega)

theorem ensuresTerms_iff :
    EnsuresTerms cfg spot s tracked opts ↔ FoundWithTerms cfg spot s tracked opts := by
  constructor
  · rintro h sp pda mk view rfl haddress hget hmk hparse
    exact h _ _ _ (ensurePriceMarket_adopts haddress hget hmk hparse) (.adopted _) mk hmk
  · intro h e m t hensure hadds mk hmk
    obtain ⟨sp, pda, hspot, haddress, hensured⟩ := ensurePriceMarket_ok hensure
    cases hensured with
    | known m' => cases hadds
    | adopted data parsed hget hinfo hparse =>
      cases hadds
      have hfound : s.market pda = some mk := hmk
      have hdata : accountInfo s pda = some data := Except.ok.inj hinfo
      rw [accountInfo_of_some hfound] at hdata
      cases hdata
      exact h sp pda mk parsed hspot haddress hget hfound hparse
    | dryRun time _ hinfo =>
      cases hadds
      have hnone := market_none_of_accountInfo (Except.ok.inj hinfo)
      cases hnone.symm.trans hmk
    | creates time ix _ _ hdate _ hix =>
      cases hadds with
      | creates _ _ instruction ctx u t hentry hexec =>
        exact created_terms haddress hdate hix hentry hexec hmk

end Ensure

/-! ## The agent -/

/-- What the agent settles: an open market on the oracle that it proves against. -/
structure AgentTerms (mk : Stoppage.Market) : Prop where
  oracle : mk.oracle = defaultOracle
  isOpen : mk.status = statusOpen

/-- A call of `createMarket` returns without a transaction of its own: in a dry run, on an account
that it finds, or on an error that it takes for one. -/
inductive Returns (cfg : Agent.AgentConfig) (a : Agent.CreateAction) (s : Chain) (v : Agent.World)
    (r : Agent.ActionResult) : Prop
  | dryRun (w : Agent.World) (hdry : cfg.dryRun = true)
      (h : Agent.createMarket cfg a w = (v, .returned r))
  | lookup (w : Agent.World) (closesAt : ℕ) (hlive : cfg.dryRun = false)
      (h : Agent.resumeCreate cfg a closesAt .accountInfo
        (.account (.ok (accountInfo s (cfg.marketPda a.predicate)).isSome)) w =
          some (v, .returned r))
  | noBlockhash (w : Agent.World) (closesAt : ℕ) (error : String)
      (h : Agent.resumeCreate cfg a closesAt .blockhash (.blockhash (.error error)) w =
        some (v, .returned r))
  | notSent (w : Agent.World) (closesAt : ℕ) (error : String)
      (h : Agent.resumeCreate cfg a closesAt .submit (.sent (.error error)) w =
        some (v, .returned r))

/-- Every market on the chain that a call reports as a success, and tracks, has the terms. -/
def ReportsTerms (cfg : Agent.AgentConfig) (a : Agent.CreateAction) (s : Chain) : Prop :=
  ∀ v r mk, Returns cfg a s v r → r.success = true → cfg.marketPda a.predicate ∈ v.tracked →
    s.market (cfg.marketPda a.predicate) = some mk → AgentTerms mk

section Reports
variable {cfg : Agent.AgentConfig} {a : Agent.CreateAction} {s : Chain}

theorem mem_tracked_opened (w : Agent.World) :
    cfg.marketPda a.predicate ∈ (w.push (Agent.opened cfg w a)).tracked := by
  rw [Agent.World.tracked, Agent.World.push, List.map_append]
  exact List.mem_append_right _ List.mem_cons_self

theorem exists_returns (w : Agent.World) {mk : Stoppage.Market}
    (hmk : s.market (cfg.marketPda a.predicate) = some mk) :
    ∃ v r, Returns cfg a s v r ∧ r.success = true ∧ cfg.marketPda a.predicate ∈ v.tracked := by
  cases hmode : cfg.dryRun with
  | true =>
    refine ⟨_, Agent.succeeded (cfg.marketPda a.predicate), .dryRun w hmode ?_, rfl,
      mem_tracked_opened w⟩
    rw [Agent.createMarket, if_pos hmode]
  | false =>
    refine ⟨_, { Agent.succeeded (cfg.marketPda a.predicate) with skipped := true },
      .lookup w 0 hmode ?_, rfl, mem_tracked_opened w⟩
    rw [accountInfo_of_some hmk]
    rfl

theorem reportsTerms_iff (w : Agent.World) : ReportsTerms cfg a s ↔
    ∀ mk, s.market (cfg.marketPda a.predicate) = some mk → AgentTerms mk := by
  constructor
  · intro h mk hmk
    obtain ⟨v, r, hreturns, hsuccess, htracked⟩ := exists_returns w hmk
    exact h v r mk hreturns hsuccess htracked hmk
  · intro h v r mk _ _ _ hmk
    exact h mk hmk

end Reports

/-- **The terms of adopted markets**: both keepers hold markets on the terms that they assume exactly
when the accounts that they find have these terms. -/
theorem adopted_terms_iff {cfg : PriceConfig} {spot : Except SdkError ℤ} {s : Chain}
    {tracked : OrderedMap Pubkey TrackedPriceMarket} {opts : EnsureOpts} {acfg : Agent.AgentConfig}
    {a : Agent.CreateAction} {u : Chain} (w : Agent.World) :
    (EnsuresTerms cfg spot s tracked opts ∧ ReportsTerms acfg a u) ↔
      FoundWithTerms cfg spot s tracked opts ∧
        ∀ mk, u.market (acfg.marketPda a.predicate) = some mk → AgentTerms mk :=
  and_congr ensuresTerms_iff (reportsTerms_iff w)

namespace Sample

/-- An outsider creates the market of the round on another oracle, and with a later close. -/
def outsider : List Action :=
  [Stoppage.Sample.setUp,
    Stoppage.Sample.call (.createMarket Stoppage.Sample.bob
      ⟨matchIdToBuffer symbol, 4, teamToBuffer [], 6600000000⟩ 1700005000 Stoppage.Sample.echo)]

/-- An outsider creates a market on the goals of a match on another oracle. -/
def foreign : List Action :=
  [Stoppage.Sample.setUp,
    Stoppage.Sample.call (.createMarket Stoppage.Sample.bob
      (Agent.createTotalGoalsMarket Agent.Sample.pac 3 .goals).predicate.seeds 1700007200
      Stoppage.Sample.echo)]

def roundOpts : EnsureOpts := ⟨symbol, 1700001000, 0⟩

end Sample

/-- Both keepers take up what an outsider has created. -/
theorem adopted_on_other_terms :
    (¬ ∀ (cfg : PriceConfig) (spot : Except SdkError ℤ) (s : Chain)
      (tracked : OrderedMap Pubkey TrackedPriceMarket) (opts : EnsureOpts),
      Reachable cfg.runtime s → EnsuresTerms cfg spot s tracked opts) ∧
    ¬ ∀ (cfg : Agent.AgentConfig) (a : Agent.CreateAction) (s : Chain), Reachable cfg.runtime s →
      ReportsTerms cfg a s := by
  constructor
  · intro hall
    have hrun : Action.runsTo Sample.runtime Sample.outsider Stoppage.Sample.genesis
        (fun s => ∃ mk ∈ s.market Sample.above66, mk.closesAt = 1700005000 ∧ mk.settlesAt = 0) =
          true := by decide +kernel
    obtain ⟨s, hsteps, mk, hmk, hcloses, hsettles⟩ := steps_of_runsTo hrun
    have hfound := ensuresTerms_iff.mp (hall Sample.config (.ok 6640000000) s .empty
      Sample.roundOpts ⟨_, _, Stoppage.Sample.genesis_ok, hsteps⟩)
    have hparse := (@parseMarket_ok_iff mk Sample.above66 _).mpr
      ⟨⟨by rw [hcloses]; decide, by rw [hcloses]; decide, by rw [hsettles]; decide⟩, rfl⟩
    have hterms := hfound 6640000000 Sample.above66 mk _ rfl (by decide +kernel) rfl hmk hparse
    have hclose := hterms.closesAt
    rw [hcloses] at hclose
    exact absurd hclose (by decide)
  · intro hall
    have hrun : Action.runsTo Agent.Sample.runtime Sample.foreign Stoppage.Sample.genesis
        (fun s => ∃ mk ∈ s.market Agent.Sample.pacGoals, mk.oracle = Stoppage.Sample.echo) =
          true := by decide +kernel
    obtain ⟨s, hsteps, mk, hmk, horacle⟩ := steps_of_runsTo hrun
    have hterms := (reportsTerms_iff (Agent.boot 0).shared).mp (hall Agent.Sample.config
      (Agent.createTotalGoalsMarket Agent.Sample.pac 3 .goals) s
      ⟨_, _, Stoppage.Sample.genesis_ok, hsteps⟩) mk hmk
    have hother := hterms.oracle
    rw [horacle] at hother
    exact absurd hother (by decide)

end Keeper
end Stoppage
