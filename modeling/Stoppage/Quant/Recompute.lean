import Stoppage.Quant.Model
import Stoppage.Sdk.RoundTrip
import Stoppage.Agent.Strategy

/-! # A price computed again from the chain

The agent prices its own predicate, whose number is the threshold; everyone else prices the
predicate that is parsed from the account, whose number is a window unless the kind is `price_above`.
-/

namespace Stoppage.Quant
open Fallible Escrow
set_option autoImplicit false

theorem created_predicate {event : Agent.NormalizedEvent} {openMarkets : List Agent.OpenMarket}
    {templates : Agent.MatchTemplates} {c : Agent.CreateAction}
    (h : .createMarket c ∈ (Agent.decideActions event openMarkets templates).actions) :
    (c.predicate.kind = .totalGoalsOver ∨ c.predicate.kind = .cornersOver) ∧
      ∃ n, c.predicate.params.threshold = some n := by
  cases event with
  | matchStarted fixtureId matchId _ _ _ _ =>
    simp only [Agent.decideActions, List.mem_map, List.mem_append, Option.mem_toList,
      Option.map_eq_some_iff] at h
    obtain ⟨c', ⟨n, -, rfl⟩ | ⟨n, -, rfl⟩, hc⟩ := h
    · cases hc
      exact ⟨.inl rfl, n, rfl⟩
    · cases hc
      exact ⟨.inr rfl, n, rfl⟩
  | matchEnded =>
    simp only [Agent.decideActions, List.mem_map] at h
    obtain ⟨_, -, hc⟩ := h
    cases hc
  | _ => exact absurd h List.not_mem_nil

/-- The number of a parsed sports market is no threshold. -/
theorem thresholdFor_parsed {kind : UInt8} (hkind : kind ≠ 4) (matchId team : Bytes) (n : ℚ) :
    thresholdFor (predicateOf kind matchId team n) = 0 := by
  rw [thresholdFor, predicateOf]
  simp only [if_neg hkind, Option.getD_none]

/-- Everyone who runs the model on the two predicates uses the same threshold and gets the same
price, from the seed that the quote is published with. -/
def SamePrice (p q : Escrow.MarketPredicate) : Prop :=
  thresholdFor q = thresholdFor p ∧ ∀ m fuel snapshot params inventory,
    priceMarket m fuel q snapshot params (deriveSeed m (kindText p.kind) snapshot) inventory =
      priceMarket m fuel p snapshot params (deriveSeed m (kindText p.kind) snapshot) inventory

theorem samePrice_iff {p q : Escrow.MarketPredicate} (hkind : q.kind = p.kind)
    (hzero : thresholdFor q = 0) : SamePrice p q ↔ thresholdFor p = 0 := by
  constructor
  · rintro ⟨hsame, -⟩
    exact hsame.symm.trans hzero
  · intro hp
    have hsame : thresholdFor q = thresholdFor p := hzero.trans hp.symm
    exact ⟨hsame, fun m fuel snapshot params inventory =>
      priceMarket_congr m fuel hkind hsame snapshot params _ inventory⟩

/-- A predicate with a threshold on a sports market, and what is parsed of its account. -/
theorem samePrice_parsed_iff {p : Stoppage.MarketPredicate} {n : ℤ} {seeds : MarketSeeds}
    (hkinds : p.kind = .totalGoalsOver ∨ p.kind = .cornersOver) (hn : p.params.threshold = some n)
    (hseeds : p.toSdk.seeds = .ok seeds) (x : ℚ) :
    SamePrice p.toSdk (predicateOf seeds.kind seeds.matchId.1 seeds.team.1 x) ↔ n = 0 := by
  have hkind : seeds.kind = p.kind.code := by
    simp only [Escrow.MarketPredicate.seeds, bind_eq_ok, pure_eq_ok] at hseeds
    obtain ⟨_, -, rfl⟩ := hseeds
    rfl
  have hsports : seeds.kind ≠ 4 := by
    rw [hkind]
    rcases hkinds with h | h
    · rw [h]
      decide
    · rw [h]
      decide
  have hname : kindName seeds.kind = p.kind := by
    rw [hkind, kindName_code]
  refine (samePrice_iff hname (thresholdFor_parsed hsports _ _ _)).trans ?_
  rw [thresholdFor, MarketPredicate.toSdk, hn]
  show (n : ℚ) = 0 ↔ n = 0
  exact Int.cast_eq_zero

/-- **The price from the chain.** A predicate that the agent creates is priced alike by the agent
and from its parsed account exactly when its threshold is nought. -/
theorem recompute_iff {rt : Runtime} {ctx : TxContext} {s t : Chain} {creator oracle : Pubkey}
    {event : Agent.NormalizedEvent} {openMarkets : List Agent.OpenMarket}
    {templates : Agent.MatchTemplates} {c : Agent.CreateAction} {closesAt : ℚ}
    {ix : TransactionInstruction} {instruction : Instruction}
    (hcreate : .createMarket c ∈ (Agent.decideActions event openMarkets templates).actions)
    (hix : buildCreateMarketIx rt creator c.predicate.toSdk closesAt oracle = .ok ix)
    (hentry : MarketProgram.createMarketEntry rt ix = some instruction)
    (hexec : exec rt ctx instruction s = .ok t) :
    ∃ seeds mk, c.predicate.toSdk.seeds = .ok seeds ∧
      t.market (rt.marketAddress seeds) = some mk ∧
      ∀ view, parseMarket mk.data (rt.marketAddress seeds) = .ok view →
        (SamePrice c.predicate.toSdk view.predicate ↔
          c.predicate.params.threshold = some 0) := by
  obtain ⟨seeds, closes, feeBps, hseeds, -, hmk⟩ := exists_created hix hentry hexec
  obtain ⟨hkinds, n, hn⟩ := created_predicate hcreate
  refine ⟨seeds, _, hseeds, hmk, fun view hview => ?_⟩
  obtain ⟨-, rfl⟩ := parseMarket_ok_iff.mp hview
  rw [hn, Option.some_inj]
  exact samePrice_parsed_iff hkinds hn hseeds _

namespace Sample

def kickoff : Agent.NormalizedEvent := .matchStarted 18257865 "BRO-AIK-18257865" "Bromma" "AIK" none 0

/-- What the agent creates at kickoff with the given line for the goals. -/
def goalsOver (threshold : ℤ) : Agent.CreateAction :=
  Agent.createTotalGoalsMarket "BRO-AIK-18257865" threshold .goals

theorem goalsOver_created (threshold : ℤ) : .createMarket (goalsOver threshold) ∈
    (Agent.decideActions kickoff [] ⟨some threshold, none, none⟩).actions := by
  simp only [Agent.decideActions, kickoff]
  exact List.mem_cons_self

end Sample

/-- The one line whose price can be computed again. -/
theorem recompute_iff_sample : ∃ seeds mk,
    (Sample.goalsOver 0).predicate.toSdk.seeds = .ok seeds ∧
    ∀ view, parseMarket mk (Stoppage.Sample.runtime.marketAddress seeds) = .ok view →
      SamePrice (Sample.goalsOver 0).predicate.toSdk view.predicate := by
  obtain ⟨ix, instruction, ctx, s, t, hix, hentry, hexec⟩ :=
    Escrow.Sample.exists_of_launches (p := (Sample.goalsOver 0).predicate.toSdk)
      (by decide +kernel)
  obtain ⟨seeds, mk, hseeds, -, hview⟩ :=
    recompute_iff (Sample.goalsOver_created 0) hix hentry hexec
  exact ⟨seeds, mk.data, hseeds, fun view h => (hview view h).mpr rfl⟩

/-- The agent's own line of three goals is read as a line of none. -/
theorem line_of_three_lost : ¬ ∀ (rt : Runtime) (ctx : TxContext) (s t : Chain)
    (creator oracle : Pubkey) (event : Agent.NormalizedEvent) (openMarkets : List Agent.OpenMarket)
    (templates : Agent.MatchTemplates) (c : Agent.CreateAction) (closesAt : ℚ)
    (ix : TransactionInstruction) (instruction : Instruction) (seeds : MarketSeeds)
    (mk : Stoppage.Market) (view : Escrow.Market),
    .createMarket c ∈ (Agent.decideActions event openMarkets templates).actions →
    buildCreateMarketIx rt creator c.predicate.toSdk closesAt oracle = .ok ix →
    MarketProgram.createMarketEntry rt ix = some instruction → exec rt ctx instruction s = .ok t →
    c.predicate.toSdk.seeds = .ok seeds → t.market (rt.marketAddress seeds) = some mk →
    parseMarket mk.data (rt.marketAddress seeds) = .ok view →
    SamePrice c.predicate.toSdk view.predicate := by
  intro hall
  obtain ⟨ix, instruction, ctx, s, t, hix, hentry, hexec⟩ :=
    Escrow.Sample.exists_of_launches (p := (Sample.goalsOver 3).predicate.toSdk)
      (by decide +kernel)
  obtain ⟨seeds, closes, feeBps, hseeds, hcloses, hmk⟩ := exists_created hix hentry hexec
  have hdate : closes = 1700001000 := by exact_mod_cast hcloses.symm
  have hdates : -maxSeconds ≤ (Int64.ofInt closes).toInt ∧
      (Int64.ofInt closes).toInt ≤ maxSeconds := by
    rw [hdate]
    decide
  have hsettles : (0 : Int64).toInt ≤ maxSeconds := by decide
  obtain ⟨view, hview⟩ : ∃ view, parseMarket (MarketProgram.newMarket Stoppage.Sample.runtime
      Stoppage.Sample.alice seeds (Int64.ofInt closes) Stoppage.Sample.echo feeBps).data
        (Stoppage.Sample.runtime.marketAddress seeds) = .ok view :=
    ⟨_, parseMarket_ok_iff.mpr ⟨⟨hdates.1, hdates.2, hsettles⟩, rfl⟩⟩
  have hsame := hall _ _ _ _ _ _ _ _ _ _ _ _ _ _ _ _ (Sample.goalsOver_created 3) hix hentry hexec
    hseeds hmk hview
  obtain ⟨-, rfl⟩ := parseMarket_ok_iff.mp hview
  have hzero := (samePrice_parsed_iff (n := 3) (.inl rfl) rfl hseeds _).mp hsame
  exact absurd hzero (by decide)

end Stoppage.Quant
