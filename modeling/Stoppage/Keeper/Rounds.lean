import Stoppage.Instance.Lifecycle
import Stoppage.Keeper.Price

/-! # The rounds of the interval keeper

The loop of `runPriceKeeper` beside the chain. Each tick creates the market of the current round
unless one is there at the address that the spot of the tick leads to: the threshold is part of the
address. `one_market_per_round`: a round has at most one market in every run whose ticks see a spot
that rounds to the threshold of the market that the round has.
-/

namespace Stoppage.Keeper
open Fallible Sdk Escrow TransitionSystem
set_option autoImplicit false

/-! ## The keeper and the chain -/

structure PriceKeeperConfig extends PriceConfig where
  /-- `PRICE_SYMBOL` -/
  symbol : JsString
  intervalSeconds : ℤ
  /-- `index.ts` takes the larger of 300 and its argument. -/
  long : 300 ≤ intervalSeconds

def nextBoundary (cfg : PriceKeeperConfig) (now : ℤ) : ℤ :=
  now - now.tmod cfg.intervalSeconds + cfg.intervalSeconds

structure Sent where
  market : TrackedPriceMarket
  ix : TransactionInstruction

/-- The keeper, the chain, and between them the transactions that no block holds yet. `created` are
the markets that the keeper has created since its start. -/
structure World where
  chain : Chain
  now : ℤ
  tracked : OrderedMap Pubkey TrackedPriceMarket
  inFlight : List Sent
  created : List TrackedPriceMarket

/-- What a tick meets with. -/
structure Answers where
  spot : Except SdkError ℤ
  /-- `.error` where `getAccountInfo` throws. -/
  rpc : Except SdkError Unit
  /-- The network takes the transaction, whatever the keeper hears of it. -/
  accepted : Bool
  sent : Except SdkError Unit
  /-- The markets whose settlement or voiding comes to `tracked.delete`. -/
  dropped : Pubkey → Bool

/-- The settle pass leaves out the markets that are not closed. -/
def settlePass (now : ℤ) (dropped : Pubkey → Bool) (tracked : OrderedMap Pubkey TrackedPriceMarket) :
    OrderedMap Pubkey TrackedPriceMarket :=
  tracked.filter fun pda m => decide (now < m.referenceTs) || !dropped pda

/-- The call of `ensurePriceMarket` in a tick. -/
def ensureTick (cfg : PriceKeeperConfig) (now : ℤ) (a : Answers) (w : World) :
    Except SdkError Ensure :=
  ensurePriceMarket cfg.toPriceConfig a.spot (fun m => (fun _ => accountInfo w.chain m) <$> a.rpc)
    w.tracked ⟨intervalMatchId cfg.symbol (nextBoundary cfg now), nextBoundary cfg now, 0⟩

/-- The transaction that a call of `ensurePriceMarket` leaves to the network. -/
def Ensure.leaves (accepted : Bool) : Ensure → List Sent
  | .creates m ix => if accepted then [⟨m, ix⟩] else []
  | _ => []

/-- An error in `ensurePriceMarket` is caught, and the settle pass goes on. -/
def tick (cfg : PriceKeeperConfig) (now : ℤ) (a : Answers) (w : World) : World :=
  match ensureTick cfg now a w with
  | .error _ => { w with now, tracked := settlePass now a.dropped w.tracked }
  | .ok e =>
    { w with
      now
      tracked := settlePass now a.dropped (e.track a.sent w.tracked)
      inFlight := w.inFlight ++ e.leaves a.accepted }

inductive Event
  | tick (now : ℤ) (answers : Answers)
  /-- A transaction of the keeper gets into a block. -/
  | land (i : ℕ) (ctx : TxContext)
  /-- Anything that happens on the chain, by anybody. -/
  | chain (a : Action)

def World.next (cfg : PriceKeeperConfig) (w : World) : Event → Option World
  | .tick now a => if w.now ≤ now then some (Keeper.tick cfg now a w) else none
  | .land i ctx => do
    let sent ← w.inFlight[i]?
    let ix ← MarketProgram.createMarketEntry cfg.runtime sent.ix
    let chain ← (exec cfg.runtime ctx ix w.chain).toOption
    some { w with
      chain
      inFlight := w.inFlight.eraseIdx i
      created := w.created ++ [sent.market] }
  | .chain a => do
    let chain ← (a.apply cfg.runtime w.chain).toOption
    some { w with chain }

def World.Step (cfg : PriceKeeperConfig) (w : World) (e : Event) (w' : World) : Prop :=
  w.next cfg e = some w'

/-! ## Markets of rounds -/

/-- A market as the keeper creates it for a round. -/
structure IsRound (cfg : PriceKeeperConfig) (m : TrackedPriceMarket) : Prop where
  predicate : m.predicate = pricePredicate (intervalMatchId cfg.symbol m.referenceTs) m.thresholdRaw
  address : Escrow.findMarketPdaFromPredicate cfg.runtime m.predicate = .ok m.marketPda
  dated : m.referenceTs.natAbs < 2 ^ 53

/-- Round and threshold make the address. -/
theorem IsRound.same_address {cfg : PriceKeeperConfig} {m m' : TrackedPriceMarket}
    (h : IsRound cfg m) (h' : IsRound cfg m') (hround : m.referenceTs = m'.referenceTs)
    (hthreshold : m.thresholdRaw = m'.thresholdRaw) : m.marketPda = m'.marketPda := by
  have haddress := h.address
  rw [h.predicate, hround, hthreshold, ← h'.predicate, h'.address] at haddress
  exact (Except.ok.inj haddress).symm

theorem IsRound.matchId_eq_iff {cfg : PriceKeeperConfig} {m m' : TrackedPriceMarket}
    (h : IsRound cfg m) (h' : IsRound cfg m') :
    m.predicate.matchId = m'.predicate.matchId ↔ m.referenceTs = m'.referenceTs := by
  rw [h.predicate, h'.predicate]
  constructor
  · intro hsame
    have htext := List.append_cancel_left (show cfg.symbol ++ _ = cfg.symbol ++ _ from hsame)
    have hchars := congrArg Utf16.toChars htext
    rw [Utf16.toChars_ofChars, Utf16.toChars_ofChars] at hchars
    exact Decimal.ofInt_injOn h.dated h'.dated (List.cons.inj hchars).2
  · intro hsame
    rw [hsame]
    rfl

/-! ## The invariant -/

/-- The markets for which the keeper has sent a transaction that was taken. -/
def World.ordered (w : World) : List TrackedPriceMarket := w.created ++ w.inFlight.map Sent.market

/-- The spot, where there is one, rounds to a threshold. -/
def RoundsTo (spot : Except SdkError ℤ) (thresholdRaw : ℤ) : Prop :=
  ∀ s ∈ spot.toOption, roundThresholdUsd s 0 = thresholdRaw

instance (spot : Except SdkError ℤ) (thresholdRaw : ℤ) : Decidable (RoundsTo spot thresholdRaw) :=
  Option.decidableForallMem _

/-- The spot of a tick rounds to the threshold of the market that the round has from the keeper, and
no market that the keeper has created is closed on the chain before its reference time. -/
def Steady (cfg : PriceKeeperConfig) (recovered : List TrackedPriceMarket) (w : World) :
    Event → Prop
  | .tick now a => ∀ m ∈ recovered ++ w.ordered, m.referenceTs = nextBoundary cfg now →
      RoundsTo a.spot m.thresholdRaw
  | .land _ _ => True
  | .chain a => ∀ m ∈ w.created, w.chain.now < Int64.ofInt m.referenceTs →
      a.opOn cfg.runtime m.marketPda ≠ .close

instance (cfg : PriceKeeperConfig) (recovered : List TrackedPriceMarket) (w : World) (e : Event) :
    Decidable (Steady cfg recovered w e) :=
  match e with
  | .tick _ _ => List.decidableBAll _ _
  | .land _ _ => isTrue trivial
  | .chain _ => List.decidableBAll _ _

structure Invariant (cfg : PriceKeeperConfig) (recovered : List TrackedPriceMarket) (w : World) :
    Prop where
  round : ∀ m ∈ w.ordered, IsRound cfg m
  built : ∀ sent ∈ w.inFlight, buildCreateMarketIx cfg.runtime cfg.wallet sent.market.predicate
    sent.market.referenceTs cfg.boundOracle = .ok sent.ix
  agree : ∀ m ∈ w.ordered, ∀ m' ∈ w.ordered, m.referenceTs = m'.referenceTs →
    m.thresholdRaw = m'.thresholdRaw
  apart : ∀ m ∈ w.ordered, ∀ r ∈ recovered, m.referenceTs ≠ r.referenceTs
  /-- A market stands on the chain until it may be closed. -/
  stands : ∀ m ∈ w.created, w.chain.now < Int64.ofInt m.referenceTs →
    ∃ mk, w.chain.market m.marketPda = some mk
  /-- A recovered market is tracked until it is settled. -/
  kept : ∀ r ∈ recovered, w.now < r.referenceTs → w.tracked.get r.marketPda = some r
  distinct : (w.created.map TrackedPriceMarket.referenceTs).Nodup

section Ticks
variable {cfg : PriceKeeperConfig} {recovered : List TrackedPriceMarket} {w : World} {now : ℤ}
  {a : Answers}

theorem lt_nextBoundary (cfg : PriceKeeperConfig) (now : ℤ) : now < nextBoundary cfg now := by
  have hlong := cfg.long
  have hlt := Int.tmod_lt_of_pos now (b := cfg.intervalSeconds) (by omega)
  rw [nextBoundary]
  omega

/-- What is tracked stays tracked while its market is not closed. -/
theorem get_settlePass {dropped : Pubkey → Bool} {tracked : OrderedMap Pubkey TrackedPriceMarket}
    {pda : Pubkey} {m : TrackedPriceMarket} (h : tracked.get pda = some m)
    (hopen : now < m.referenceTs) : (settlePass now dropped tracked).get pda = some m :=
  OrderedMap.get_filter_eq_some_iff.mpr ⟨h, by rw [decide_eq_true hopen, Bool.true_or]⟩

theorem Ensured.get_track {pcfg : PriceConfig}
    {getAccountInfo : Pubkey → Except SdkError (Option Bytes)}
    {tracked : OrderedMap Pubkey TrackedPriceMarket} {opts : EnsureOpts} {thresholdRaw : ℤ}
    {marketPda pda : Pubkey} {m : TrackedPriceMarket} {e : Ensure}
    (he : Ensured pcfg getAccountInfo tracked opts thresholdRaw marketPda e)
    (sent : Except SdkError Unit) (h : tracked.get pda = some m) :
    (e.track sent tracked).get pda = some m := by
  have hset : ∀ x, tracked.get marketPda = none → (tracked.set marketPda x).get pda = some m := by
    intro x hnone
    have hne : pda ≠ marketPda := by
      rintro rfl
      cases hnone.symm.trans h
    rw [OrderedMap.get_set_of_ne hne, h]
  cases he with
  | known => exact h
  | adopted _ _ hget => exact hset _ hget
  | dryRun _ hget => exact hset _ hget
  | creates _ _ hget =>
    cases sent with
    | ok => exact hset _ hget
    | error => exact h

theorem tick_chain : (tick cfg now a w).chain = w.chain ∧ (tick cfg now a w).created = w.created ∧
    (tick cfg now a w).now = now := by
  rw [tick]
  split
  · exact ⟨rfl, rfl, rfl⟩
  · exact ⟨rfl, rfl, rfl⟩

theorem tick_kept {pda : Pubkey} {m : TrackedPriceMarket} (h : w.tracked.get pda = some m)
    (hopen : now < m.referenceTs) : (tick cfg now a w).tracked.get pda = some m := by
  rw [tick]
  split
  · exact get_settlePass h hopen
  · rename_i e he
    obtain ⟨s, marketPda, -, -, hensured⟩ := ensurePriceMarket_ok he
    exact get_settlePass (hensured.get_track a.sent h) hopen

/-- What a tick leaves to the network is a market of its round at the threshold of its spot, at an
address that is not tracked. -/
theorem tick_leaves : (tick cfg now a w).inFlight = w.inFlight ∨
    ∃ s sent, a.spot = .ok s ∧ sent.market.thresholdRaw = roundThresholdUsd s 0 ∧
      sent.market.referenceTs = nextBoundary cfg now ∧ IsRound cfg sent.market ∧
      buildCreateMarketIx cfg.runtime cfg.wallet sent.market.predicate sent.market.referenceTs
        cfg.boundOracle = .ok sent.ix ∧
      w.tracked.get sent.market.marketPda = none ∧
      (tick cfg now a w).inFlight = w.inFlight ++ [sent] := by
  rw [tick]
  split
  · exact .inl rfl
  · rename_i e he
    obtain ⟨s, marketPda, hspot, haddress, hensured⟩ := ensurePriceMarket_ok he
    cases hensured with
    | known => exact .inl (List.append_nil _)
    | adopted => exact .inl (List.append_nil _)
    | dryRun => exact .inl (List.append_nil _)
    | creates time ix hget _ hdate _ hix =>
      cases haccepted : a.accepted with
      | false => exact .inl (List.append_nil _)
      | true =>
        have hdated : (nextBoundary cfg now).natAbs < 2 ^ 53 := natAbs_of_isoOfSeconds hdate
        refine .inr ⟨s, ⟨_, ix⟩, hspot, rfl, rfl, ?_, hix, hget, rfl⟩
        exact { predicate := rfl, address := haddress, dated := hdated }

end Ticks

section Kept
variable {cfg : PriceKeeperConfig} {recovered : List TrackedPriceMarket} {w w' : World}

theorem mem_ordered {m : TrackedPriceMarket} :
    m ∈ w.ordered ↔ m ∈ w.created ∨ ∃ sent ∈ w.inFlight, sent.market = m := by
  rw [World.ordered, List.mem_append, List.mem_map]

theorem Invariant.tick {now : ℤ} {a : Answers} (h : Invariant cfg recovered w)
    (hrecovered : ∀ r ∈ recovered, IsRound cfg r) (hle : w.now ≤ now)
    (hsteady : Steady cfg recovered w (.tick now a)) :
    Invariant cfg recovered (Keeper.tick cfg now a w) := by
  obtain ⟨hchain, hcreated, hnow⟩ := @tick_chain cfg w now a
  have hkept : ∀ r ∈ recovered, (Keeper.tick cfg now a w).now < r.referenceTs →
      (Keeper.tick cfg now a w).tracked.get r.marketPda = some r := by
    intro r hr hlt
    rw [hnow] at hlt
    exact tick_kept (h.kept r hr (hle.trans_lt hlt)) hlt
  have hstands : ∀ m ∈ (Keeper.tick cfg now a w).created,
      (Keeper.tick cfg now a w).chain.now < Int64.ofInt m.referenceTs →
        ∃ mk, (Keeper.tick cfg now a w).chain.market m.marketPda = some mk := by
    rw [hchain, hcreated]
    exact h.stands
  have hdistinct : ((Keeper.tick cfg now a w).created.map TrackedPriceMarket.referenceTs).Nodup :=
    hcreated ▸ h.distinct
  rcases @tick_leaves cfg w now a with
    hsame | ⟨s, sent, hspot, hthreshold, hround, hisRound, hbuilt, hget, hleaves⟩
  · have hordered : (Keeper.tick cfg now a w).ordered = w.ordered := by
      rw [World.ordered, World.ordered, hsame, hcreated]
    constructor
    · rw [hordered]
      exact h.round
    · rw [hsame]
      exact h.built
    · rw [hordered]
      exact h.agree
    · rw [hordered]
      exact h.apart
    · exact hstands
    · exact hkept
    · exact hdistinct
  · have hordered : (Keeper.tick cfg now a w).ordered = w.ordered ++ [sent.market] := by
      rw [World.ordered, World.ordered, hleaves, hcreated, List.map_append, ← List.append_assoc]
      rfl
    have hsee : s ∈ a.spot.toOption := by
      rw [hspot]
      rfl
    have hknown : ∀ m ∈ recovered ++ w.ordered, m.referenceTs = sent.market.referenceTs →
        m.thresholdRaw = sent.market.thresholdRaw := by
      intro m hm hsame
      rw [hthreshold, hsteady m hm (hsame.trans hround) s hsee]
    constructor
    · rw [hordered, List.forall_mem_append, List.forall_mem_singleton]
      exact ⟨h.round, hisRound⟩
    · rw [hleaves, List.forall_mem_append, List.forall_mem_singleton]
      exact ⟨h.built, hbuilt⟩
    · have hold : ∀ m ∈ w.ordered, m.referenceTs = sent.market.referenceTs →
          m.thresholdRaw = sent.market.thresholdRaw :=
        fun m hm => hknown m (List.mem_append_right _ hm)
      rw [hordered]
      simp only [List.forall_mem_append, List.forall_mem_singleton]
      refine ⟨fun m hm => ⟨h.agree m hm, hold m hm⟩, fun m hm hsame => ?_, fun _ => trivial⟩
      exact (hold m hm hsame.symm).symm
    · rw [hordered, List.forall_mem_append, List.forall_mem_singleton]
      refine ⟨h.apart, ?_⟩
      · intro r hr hsame
        -- A recovered market of the round is tracked at the very address.
        have haddress := (hrecovered r hr).same_address hisRound hsame.symm
          (hknown r (List.mem_append_left _ hr) hsame.symm)
        have hopen : w.now < r.referenceTs := by
          rw [← hsame, hround]
          exact hle.trans_lt (lt_nextBoundary cfg now)
        have htracked := h.kept r hr hopen
        rw [haddress, hget] at htracked
        cases htracked
    · exact hstands
    · exact hkept
    · exact hdistinct

theorem land_ok {i : ℕ} {ctx : TxContext} (h : w.next cfg (.land i ctx) = some w') :
    ∃ sent ix chain, w.inFlight[i]? = some sent ∧
      MarketProgram.createMarketEntry cfg.runtime sent.ix = some ix ∧
      exec cfg.runtime ctx ix w.chain = .ok chain ∧
      w' = { w with
        chain
        inFlight := w.inFlight.eraseIdx i
        created := w.created ++ [sent.market] } := by
  simp only [World.next, Option.bind_eq_bind, Option.bind_eq_some_iff, Option.some.injEq] at h
  obtain ⟨sent, hsent, ix, hix, chain, hchain, rfl⟩ := h
  cases hexec : exec cfg.runtime ctx ix w.chain with
  | error e =>
    rw [hexec] at hchain
    cases hchain
  | ok t =>
    rw [hexec] at hchain
    cases hchain
    exact ⟨sent, ix, chain, hsent, hix, hexec, rfl⟩

theorem opOn_create (rt : Runtime) (ctx : TxContext) (creator : Pubkey) (seeds : MarketSeeds)
    (closesAt : Int64) (oracle m : Pubkey) :
    (Action.call ctx (.createMarket creator seeds closesAt oracle)).opOn rt m ≠ .close := by
  rw [Action.opOn]
  split
  · simp [Instruction.op]
  · simp

/-- A step of the chain that closes nothing of the keeper leaves its markets standing. -/
theorem Invariant.still (h : Invariant cfg recovered w) {a : Action} {t : Chain}
    (hstep : Stoppage.Step cfg.runtime w.chain a t)
    (hopen : ∀ m ∈ w.created, w.chain.now < Int64.ofInt m.referenceTs →
      a.opOn cfg.runtime m.marketPda ≠ .close) :
    ∀ m ∈ w.created, t.now < Int64.ofInt m.referenceTs → ∃ mk, t.market m.marketPda = some mk := by
  intro m hm hlt
  have hbefore := Int64.lt_of_le_of_lt hstep.now_le hlt
  obtain ⟨mk, hmk⟩ := h.stands m hm hbefore
  obtain ⟨mk', hmk', -⟩ := (hstep.change m.marketPda).next hmk (hopen m hm hbefore)
  exact ⟨mk', hmk'⟩

/-- The instruction of a transaction in flight creates the account of its market. -/
theorem Invariant.entry (h : Invariant cfg recovered w) {sent : Sent} (hsent : sent ∈ w.inFlight)
    {ix : Instruction} (hix : MarketProgram.createMarketEntry cfg.runtime sent.ix = some ix) :
    ∃ seeds, cfg.runtime.marketAddress seeds = sent.market.marketPda ∧
      ix = .createMarket cfg.wallet seeds (Int64.ofInt sent.market.referenceTs) cfg.boundOracle := by
  obtain ⟨seeds, closes, hseeds, hcloses, hread⟩ := buildCreateMarketIx_ok (h.built sent hsent)
  obtain ⟨seeds', hseeds', haddress⟩ := findMarketPdaFromPredicate_eq_ok.mp
    (h.round _ (mem_ordered.mpr (.inr ⟨sent, hsent, rfl⟩))).address
  cases hseeds.symm.trans hseeds'
  refine ⟨seeds, haddress, ?_⟩
  rw [Option.some.inj (hix.symm.trans hread), Int.cast_inj.mp hcloses]

theorem Invariant.land {i : ℕ} {ctx : TxContext} (h : Invariant cfg recovered w)
    (hnext : w.next cfg (.land i ctx) = some w') : Invariant cfg recovered w' := by
  obtain ⟨sent, ix, chain, hget, hix, hexec, rfl⟩ := land_ok hnext
  have hsent : sent ∈ w.inFlight := List.mem_of_getElem? hget
  obtain ⟨seeds, haddress, rfl⟩ := h.entry hsent hix
  have hstep : Stoppage.Step cfg.runtime w.chain (.call ctx (.createMarket cfg.wallet seeds
      (Int64.ofInt sent.market.referenceTs) cfg.boundOracle)) chain := hexec
  have hmarket : sent.market ∈ w.ordered := mem_ordered.mpr (.inr ⟨sent, hsent, rfl⟩)
  obtain ⟨c, l₁, l, e, howner, -, hopen, -, -, hchain⟩ := MarketProgram.createMarket_ok hexec
  rw [haddress] at howner hchain
  have hnone := owner_market_eq_system.mp howner
  have hsub : ∀ m, m ∈ ({ w with
      chain
      inFlight := w.inFlight.eraseIdx i
      created := w.created ++ [sent.market] } : World).ordered → m ∈ w.ordered := by
    intro m hm
    rcases mem_ordered.mp hm with hm | ⟨x, hx, rfl⟩
    · rcases List.mem_append.mp hm with hm | hm
      · exact mem_ordered.mpr (.inl hm)
      · rw [List.mem_singleton.mp hm]
        exact hmarket
    · exact mem_ordered.mpr (.inr ⟨x, List.mem_of_mem_eraseIdx hx, rfl⟩)
  constructor
  · exact fun m hm => h.round m (hsub m hm)
  · exact fun x hx => h.built x (List.mem_of_mem_eraseIdx hx)
  · exact fun m hm m' hm' => h.agree m (hsub m hm) m' (hsub m' hm')
  · exact fun m hm => h.apart m (hsub m hm)
  · intro m hm hlt
    rcases List.mem_append.mp hm with hm | hm
    · exact h.still hstep (fun _ _ _ => opOn_create _ _ _ _ _ _ _) m hm hlt
    · rw [List.mem_singleton.mp hm, hchain]
      exact ⟨_, Function.update_self _ _ _⟩
  · exact h.kept
  · -- Where the round had a market already, it stands at the address, which is taken then.
    show ((w.created ++ [sent.market]).map TrackedPriceMarket.referenceTs).Nodup
    rw [List.map_append, List.map_singleton, List.nodup_append]
    refine ⟨h.distinct, List.nodup_singleton _, ?_⟩
    intro x hx y hy
    obtain ⟨m, hm, rfl⟩ := List.mem_map.mp hx
    rw [List.mem_singleton.mp hy]
    intro hsame
    have hm' : m ∈ w.ordered := mem_ordered.mpr (.inl hm)
    have hpda := (h.round m hm').same_address (h.round _ hmarket) hsame
      (h.agree m hm' _ hmarket hsame)
    obtain ⟨mk, hmk⟩ := h.stands m hm (hsame ▸ hopen)
    rw [hpda, hnone] at hmk
    cases hmk

theorem Invariant.chain {a : Action} (h : Invariant cfg recovered w)
    (hsteady : Steady cfg recovered w (.chain a)) (hnext : w.next cfg (.chain a) = some w') :
    Invariant cfg recovered w' := by
  simp only [World.next, Option.bind_eq_bind, Option.bind_eq_some_iff, Option.some.injEq] at hnext
  obtain ⟨t, ht, rfl⟩ := hnext
  cases happly : a.apply cfg.runtime w.chain with
  | error e =>
    rw [happly] at ht
    cases ht
  | ok u =>
    rw [happly] at ht
    cases ht
    exact ⟨h.round, h.built, h.agree, h.apart, h.still happly hsteady, h.kept, h.distinct⟩

theorem Invariant.step {e : Event} (h : Invariant cfg recovered w)
    (hrecovered : ∀ r ∈ recovered, IsRound cfg r)
    (hstep : guarded (World.Step cfg) (Steady cfg recovered) w e w') :
    Invariant cfg recovered w' := by
  obtain ⟨hnext, hsteady⟩ := hstep
  cases e with
  | tick now a =>
    rw [World.Step, World.next] at hnext
    split at hnext
    · rename_i hle
      cases hnext
      exact h.tick hrecovered hle hsteady
    · cases hnext
  | land i ctx => exact h.land hnext
  | chain a => exact h.chain hsteady hnext

end Kept

/-! ## Runs -/

/-- A keeper that has recovered markets of rounds, each under its address, and done nothing yet. -/
structure Recovered (cfg : PriceKeeperConfig) (recovered : OrderedMap Pubkey TrackedPriceMarket)
    (w : World) : Prop where
  tracked : w.tracked = recovered
  inFlight : w.inFlight = []
  created : w.created = []
  round : ∀ e ∈ recovered.entries, IsRound cfg e.2
  address : ∀ e ∈ recovered.entries, e.1 = e.2.marketPda

/-- The keeper has created no two markets for a round, and none for a round of which it has
recovered a market. -/
structure OnePerRound (recovered created : List TrackedPriceMarket) : Prop where
  matchIds : (created.map fun m => m.predicate.matchId).Nodup
  rounds : (created.map TrackedPriceMarket.referenceTs).Nodup
  recoveredIds : ∀ m ∈ created, ∀ r ∈ recovered, m.predicate.matchId ≠ r.predicate.matchId
  recoveredRounds : ∀ m ∈ created, ∀ r ∈ recovered, m.referenceTs ≠ r.referenceTs

section Runs
variable {cfg : PriceKeeperConfig} {recovered : OrderedMap Pubkey TrackedPriceMarket} {w w' : World}
  {events : List Event}

theorem Recovered.isRound (h : Recovered cfg recovered w) :
    ∀ r ∈ recovered.entries.map Prod.snd, IsRound cfg r := by
  intro r hr
  obtain ⟨e, he, rfl⟩ := List.mem_map.mp hr
  exact h.round e he

theorem Recovered.invariant (h : Recovered cfg recovered w) :
    Invariant cfg (recovered.entries.map Prod.snd) w := by
  have hnone : w.ordered = [] := by
    rw [World.ordered, h.created, h.inFlight]
    rfl
  constructor
  · simp [hnone]
  · simp [h.inFlight]
  · simp [hnone]
  · simp [hnone]
  · simp [h.created]
  · intro r hr _
    obtain ⟨e, he, rfl⟩ := List.mem_map.mp hr
    rw [h.tracked, ← h.address e he]
    exact OrderedMap.get_eq_some_iff.mpr he
  · simp [h.created]

theorem Invariant.onePerRound {markets : List TrackedPriceMarket} (h : Invariant cfg markets w)
    (hrecovered : ∀ r ∈ markets, IsRound cfg r) : OnePerRound markets w.created := by
  have hround : ∀ m ∈ w.created, IsRound cfg m := fun m hm => h.round m (mem_ordered.mpr (.inl hm))
  have hapart : ∀ m ∈ w.created, ∀ r ∈ markets, m.referenceTs ≠ r.referenceTs :=
    fun m hm => h.apart m (mem_ordered.mpr (.inl hm))
  refine ⟨?_, h.distinct, ?_, hapart⟩
  · refine List.Nodup.map_on ?_ h.distinct.of_map
    intro m hm m' hm' hsame
    have hrounds := ((hround m hm).matchId_eq_iff (hround m' hm')).mp hsame
    exact List.inj_on_of_nodup_map h.distinct hm hm' hrounds
  · intro m hm r hr hsame
    exact hapart m hm r hr (((hround m hm).matchId_eq_iff (hrecovered r hr)).mp hsame)

/-- **One market per round**, in every run whose ticks see a spot that rounds to the threshold of
the market that their round has. -/
theorem one_market_per_round (hstart : Recovered cfg recovered w)
    (h : Steps (guarded (World.Step cfg) (Steady cfg (recovered.entries.map Prod.snd))) w events w') :
    OnePerRound (recovered.entries.map Prod.snd) w'.created := by
  have hinv := h.invariant (I := Invariant cfg (recovered.entries.map Prod.snd))
    (fun _ _ _ _ hstep hi => hi.step hstart.isRound hstep) hstart.invariant
  exact hinv.onePerRound hstart.isRound

end Runs

namespace Sample

def keeper : PriceKeeperConfig :=
  { config with
    symbol := Utf16.ofString "SOL/USD"
    intervalSeconds := 1800
    long := by decide }

def start : World where
  chain := Stoppage.Sample.genesis
  now := 1700000000
  tracked := .empty
  inFlight := []
  created := []

theorem start_recovered : Recovered keeper .empty start :=
  ⟨rfl, rfl, rfl, fun _ he => absurd he List.not_mem_nil, fun _ he => absurd he List.not_mem_nil⟩

/-- A tick in which every call comes through. -/
def tickAt (now spot : ℤ) : Event := .tick now ⟨.ok spot, .ok (), true, .ok (), fun _ => false⟩

/-- A tick at 66.40 dollars, and its market in a block. -/
def opening : List Event :=
  [.chain Stoppage.Sample.setUp, tickAt 1700000000 6640000000, .land 0 ⟨[], 0⟩]

end Sample

theorem one_market_per_round_sample : ∃ w,
    Steps (World.Step Sample.keeper) Sample.start
      (Sample.opening ++ [Sample.tickAt 1700000030 6610000000]) w ∧
    w.created.length = 1 ∧ OnePerRound [] w.created := by
  have hrun : reaches (World.next Sample.keeper) (Steady Sample.keeper [])
      (fun w => w.created.length = 1) (Sample.opening ++ [Sample.tickAt 1700000030 6610000000])
      Sample.start = true := by decide +kernel
  obtain ⟨w, hsteps, hone⟩ := steps_of_reaches hrun
  exact ⟨w, hsteps.of_guarded, hone, one_market_per_round Sample.start_recovered hsteps⟩

/-- Half a minute later the spot rounds to the next dollar. -/
theorem second_market_in_round : ¬ ∀ (cfg : PriceKeeperConfig)
    (recovered : OrderedMap Pubkey TrackedPriceMarket) (w w' : World) (events : List Event),
    Recovered cfg recovered w → Steps (World.Step cfg) w events w' →
      OnePerRound (recovered.entries.map Prod.snd) w'.created := by
  intro hall
  have hrun : reaches (World.next Sample.keeper) (fun _ _ => True)
      (fun w => ¬ (w.created.map TrackedPriceMarket.referenceTs).Nodup)
      (Sample.opening ++ [Sample.tickAt 1700000030 6660000000, .land 0 ⟨[], 0⟩]) Sample.start =
        true := by decide +kernel
  obtain ⟨w, hsteps, htwice⟩ := steps_of_reaches hrun
  exact htwice (hall _ _ _ _ _ Sample.start_recovered hsteps.of_guarded).rounds

end Stoppage.Keeper
