import Stoppage.Agent.Actions
import Stoppage.Agent.Feed
import Stoppage.Agent.Settle
import Stoppage.Programs.SettlementSpec

/-! # The outcome of a finished match, off-chain and on-chain

The strategy compares the sum of two final statistics with the threshold, and the TxLINE program
evaluates a predicate over the statistics that the proof carries. `final_outcome_agrees` compares
the two, also for the keeper's own instruction over a proof that lacks the second statistic;
`one_stat_answers_no` is what somebody else can do with such a proof.
-/

namespace Stoppage
open Fallible Sdk
set_option autoImplicit false

/-! ## What the predicate says -/

namespace Txline

def BinaryExpression.eval : BinaryExpression → ℤ → ℤ → ℤ
  | .add, a, b => a + b
  | .subtract, a, b => a - b

def Comparison.holds : Comparison → ℤ → ℤ → Bool
  | .greaterThan, value, threshold => threshold < value
  | .lessThan, value, threshold => value < threshold
  | .equalTo, value, threshold => value = threshold

/-- The first statistic, with the second one when both it and the operation are there. -/
def ValidateStatArgs.value (a : ValidateStatArgs) : ℤ :=
  match a.statB, a.op with
  | some b, some op => op.eval a.statA.statToProve.value.toInt b.statToProve.value.toInt
  | _, _ => a.statA.statToProve.value.toInt

def ValidateStatArgs.holds (a : ValidateStatArgs) : Bool :=
  a.predicate.comparison.holds a.value a.predicate.threshold.toInt

end Txline

/-- The TxLINE program as documented: where it answers data that it can read, it answers with the
value of the predicate. -/
structure TxlineEvaluates (rt : Runtime) (txline : Pubkey) : Prop where
  notPyth : txline ≠ pythValidatorId
  notAttestation : txline ≠ attestationValidatorId
  answers : ∀ (data : Bytes) (accounts : List Address) (ctx : TxContext) (s : Chain)
    (ret : ReturnData) (args : Txline.ValidateStatArgs),
    rt.program txline data accounts ctx s = .ok (some ret) →
    Txline.decodeValidateStat data = some args → ret = (txline, [if args.holds then 1 else 0])

/-! ## What the built data says -/

namespace Sdk

theorem encodeI64_asIntN (val : ℤ) : encodeI64 (asIntN 64 val) = encodeI64 val := by
  have hidem : asIntN 64 (asIntN 64 val) = asIntN 64 val := by
    simp only [asIntN]
    exact Int.bmod_bmod
  rw [encodeI64, encodeI64, hidem]

theorem fits_asIntN (val : ℤ) : FitsI64 (asIntN 64 val) := by
  constructor
  · have := Int.le_bmod (x := val) (m := 2 ^ 64) (by decide)
    exact this
  · exact Int.bmod_lt (x := val) (m := 2 ^ 64) (by decide)

theorem fits_of_encodeI32 {val : ℤ} {bs : Bytes} (h : encodeI32 val = .ok bs) : FitsI32 val := by
  rw [encodeI32, writeInt32LE] at h
  split at h
  · assumption
  · cases h

theorem fits_of_encodeU32 {val : ℤ} {bs : Bytes} (h : encodeU32 val = .ok bs) : FitsU32 val := by
  rw [encodeU32, writeUInt32LE] at h
  split at h
  · assumption
  · cases h

theorem fits_of_encodeScoreStat {stat : ScoreStat} {bs : Bytes}
    (h : encodeScoreStat stat = .ok bs) : stat.Fits := by
  simp only [encodeScoreStat, bind_eq_ok] at h
  obtain ⟨_, hkey, _, hvalue, _, hperiod, -⟩ := h
  exact ⟨fits_of_encodeU32 hkey, fits_of_encodeI32 hvalue, fits_of_encodeI32 hperiod⟩

/-- Hashes of 32 bytes throughout. -/
structure StatTerm.Hashes (s : StatTerm) : Prop where
  eventStatRoot : s.eventStatRoot.length = 32
  statProof : ∀ n ∈ s.statProof.1, n.hash.length = 32

structure ValidateStatParams.Hashes (p : ValidateStatParams) : Prop where
  eventsSubTreeRoot : p.fixtureSummary.eventsSubTreeRoot.length = 32
  fixtureProof : ∀ n ∈ p.fixtureProof.1, n.hash.length = 32
  mainTreeProof : ∀ n ∈ p.mainTreeProof.1, n.hash.length = 32
  statA : p.statA.Hashes
  statB : ∀ s ∈ p.statB, s.Hashes

theorem fits_of_encodeStatTerm {s : StatTerm} {bs : Bytes} (h : encodeStatTerm s = .ok bs)
    (hashes : s.Hashes) : s.Fits := by
  simp only [encodeStatTerm, bind_eq_ok] at h
  obtain ⟨_, hstat, -⟩ := h
  exact ⟨fits_of_encodeScoreStat hstat, hashes.eventStatRoot, hashes.statProof⟩

/-- The record with its 64-bit integers wrapped, as they are written. -/
def ValidateStatParams.wrap (p : ValidateStatParams) : ValidateStatParams :=
  { p with
    ts := asIntN 64 p.ts
    fixtureSummary :=
      { p.fixtureSummary with
        fixtureId := asIntN 64 p.fixtureSummary.fixtureId
        updateStats :=
          { p.fixtureSummary.updateStats with
            minTimestamp := asIntN 64 p.fixtureSummary.updateStats.minTimestamp
            maxTimestamp := asIntN 64 p.fixtureSummary.updateStats.maxTimestamp } } }

theorem buildValidateStatData_wrap (p : ValidateStatParams) :
    buildValidateStatData p.wrap = buildValidateStatData p := by
  simp only [buildValidateStatData, ValidateStatParams.wrap, encodeScoresBatchSummary,
    encodeScoresUpdateStats, encodeI64_asIntN]

theorem ValidateStatParams.wrap_fits {p : ValidateStatParams} {bs : Bytes}
    (h : buildValidateStatData p = .ok bs) (hashes : p.Hashes) : p.wrap.Fits := by
  simp only [buildValidateStatData, encodeScoresBatchSummary, encodeScoresUpdateStats,
    encodeTraderPredicate, bind_eq_ok] at h
  obtain ⟨_, ⟨_, ⟨_, hcount, -⟩, -⟩, _, -, _, -, _, ⟨_, hthreshold, -⟩, _, hstatA, _, hstatB, -⟩ := h
  refine ⟨fits_asIntN _, ⟨fits_asIntN _, ⟨fits_of_encodeI32 hcount, fits_asIntN _, fits_asIntN _⟩,
    hashes.eventsSubTreeRoot⟩, hashes.fixtureProof, hashes.mainTreeProof,
    fits_of_encodeI32 hthreshold, fits_of_encodeStatTerm hstatA hashes.statA, ?_⟩
  intro s hs
  have hsome : p.statB = some s := hs
  rw [hsome, encodeOption] at hstatB
  obtain ⟨_, hterm, -⟩ := bind_eq_ok.mp hstatB
  exact fits_of_encodeStatTerm hterm (hashes.statB s hs)

/-- The program reads the predicate and the statistics that the record has. -/
theorem buildTxlineValidateStatData_decode {p : ValidateStatParams} {data : Bytes}
    (h : buildTxlineValidateStatData p = .ok data) (hashes : p.Hashes) :
    ∃ a, Txline.decodeValidateStat data = some a ∧ a.Is p.wrap := by
  obtain ⟨bs, hbs, hdata⟩ := bind_eq_ok.mp h
  cases hdata
  obtain ⟨a, ha⟩ := Txline.exists_validateStatArgs (ValidateStatParams.wrap_fits hbs hashes)
  obtain ⟨written, hwritten, hread⟩ := ha.sends
  rw [buildValidateStatData_wrap, hbs] at hwritten
  cases hwritten
  refine ⟨a, ?_, ha⟩
  show (afterDiscriminator _ (Txline.validateStatDiscriminator ++ bs)).bind _ = _
  rw [afterDiscriminator_append rfl, Option.bind_some]
  exact hread.runAll

end Sdk

/-! ## The answer of the program -/

section Chain
variable {rt : Runtime} {ctx : TxContext} {txline : Pubkey} {data : Bytes}
  {accounts : List Address} {s : Chain} {outcome : UInt8} {args : Txline.ValidateStatArgs}

theorem TxlineEvaluates.invoke (h : TxlineEvaluates rt txline) :
    SettlementProgram.invoke rt ctx s txline data accounts =
      rt.program txline data accounts ctx s := by
  rw [SettlementProgram.invoke, if_neg h.notPyth, if_neg h.notAttestation]

theorem TxlineEvaluates.holds_of_verdict (h : TxlineEvaluates rt txline)
    (hargs : Txline.decodeValidateStat data = some args)
    (hverdict : SettlementProgram.Verdict rt ctx s txline data accounts outcome) :
    args.holds = true ↔ outcome = 0 := by
  obtain ⟨b, bs, hinvoke, -⟩ := hverdict.answered
  rw [h.invoke] at hinvoke
  have hret := h.answers data accounts ctx s _ args hinvoke hargs
  rw [hret] at hinvoke
  exact (SettlementProgram.verdict_iff (h.invoke.trans hinvoke)).mp hverdict

theorem TxlineEvaluates.verdict_iff (h : TxlineEvaluates rt txline)
    (hargs : Txline.decodeValidateStat data = some args) {ret : ReturnData}
    (hanswer : rt.program txline data accounts ctx s = .ok (some ret)) :
    SettlementProgram.Verdict rt ctx s txline data accounts outcome ↔
      (args.holds = true ↔ outcome = 0) := by
  rw [h.answers data accounts ctx s ret args hanswer hargs] at hanswer
  exact SettlementProgram.verdict_iff (h.invoke.trans hanswer)

end Chain

namespace Agent

/-! ## The settlement of a final record -/

/-- The two statistics a market is about. -/
def totalKeys (p : MarketPredicate) : ℕ × ℕ := if p.kind = .cornersOver then (7, 8) else (1, 2)

/-- Their sum at the end of the match. -/
def statTotal (stats : Stats) (p : MarketPredicate) : ℤ :=
  stats.value (totalKeys p).1 + stats.value (totalKeys p).2

section Decision
variable {stats : Stats} {m : OpenMarket} {seq : ℤ}

theorem settleAction_final (stats : Stats) (seq : ℤ)
    (hkind : m.predicate.kind = .totalGoalsOver ∨ m.predicate.kind = .cornersOver) :
    ∃ a, settleAction ⟨stats.value 1, stats.value 2⟩ stats seq m = some a ∧
      a.predicate = m.predicate ∧ a.label = m.label ∧ a.statKey = (totalKeys m.predicate).1 ∧
      a.statKey2 = some (totalKeys m.predicate).2 ∧
      (a.outcome = .yes ↔ m.predicate.threshold < statTotal stats m.predicate) := by
  have hside (p : Prop) [Decidable p] : (if p then Side.yes else Side.no) = .yes ↔ p := by
    split <;> simp_all
  rcases hkind with hkind | hkind
  · rw [settleAction, totalKeys, hkind]
    refine ⟨_, rfl, rfl, rfl, rfl, rfl, ?_⟩
    rw [hside, statTotal, totalKeys, hkind]
    exact Iff.rfl
  · rw [settleAction, totalKeys, hkind]
    refine ⟨_, rfl, rfl, rfl, rfl, rfl, ?_⟩
    rw [hside, statTotal, totalKeys, hkind]
    exact Iff.rfl

theorem settle_mem_decideActions {a : SettleAction} {openMarkets : List OpenMarket}
    (hm : m ∈ openMarkets) {finalScore : Score} (ha : settleAction finalScore stats seq m = some a)
    (fixtureId ts : ℕ) (minute : Option ℤ) (templates : MatchTemplates) :
    .settleMarket a ∈ (decideActions (.matchEnded fixtureId m.predicate.matchId finalScore stats ts
      seq minute) openMarkets templates).actions := by
  refine List.mem_map.mpr ⟨a, List.mem_filterMap.mpr ⟨m, ?_, ha⟩, rfl⟩
  exact List.mem_filter.mpr ⟨hm, decide_eq_true rfl⟩

end Decision

/-! ## The instruction -/

/-- The nodes of a proof as `normalizeProof` leaves them. -/
structure StatValidation.Normalized (proof : StatValidation) : Prop where
  subTreeProof : ∀ n ∈ proof.subTreeProof.1, n.hash.length = 32
  mainTreeProof : ∀ n ∈ proof.mainTreeProof.1, n.hash.length = 32
  statProof : ∀ n ∈ proof.statProof.1, n.hash.length = 32
  statProof2 : ∀ nodes ∈ proof.statProof2, ∀ n ∈ nodes.1, n.hash.length = 32

section Build
variable {proof : StatValidation} {args : SettleProofArgs}

theorem secondStat_hashes (h : proof.Normalized) : ∀ s ∈ secondStat proof args, s.Hashes := by
  intro s hs
  obtain ⟨_, -, hs⟩ := Option.bind_eq_some_iff.mp hs
  obtain ⟨stat, -, hs⟩ := Option.bind_eq_some_iff.mp hs
  obtain ⟨nodes, hnodes, hs⟩ := Option.bind_eq_some_iff.mp hs
  cases hs
  exact ⟨proof.eventStatRoot.2, h.statProof2 nodes hnodes⟩

theorem holds_iff {p : Sdk.ValidateStatParams} {a : Txline.ValidateStatArgs} (h : a.Is p)
    (hcomparison : p.predicate.comparison = .greaterThan)
    (hop : p.op = p.statB.map fun _ => .add) :
    a.holds = true ↔ p.predicate.threshold <
      p.statA.statToProve.value + (p.statB.map fun s => s.statToProve.value).getD 0 := by
  have hthreshold : a.predicate.threshold.toInt = p.predicate.threshold := by
    rw [← h.predicate]
    rfl
  have hgreater : a.predicate.comparison = .greaterThan := by
    rw [← h.predicate] at hcomparison
    cases hc : a.predicate.comparison <;> simp [Txline.TraderPredicate.toSdk, hc,
      Txline.Comparison.toSdk] at hcomparison ⊢
  have hstatA : a.statA.statToProve.value.toInt = p.statA.statToProve.value := by
    rw [← h.statA.statToProve]
    rfl
  have hvalue : a.value =
      p.statA.statToProve.value + (p.statB.map fun s => s.statToProve.value).getD 0 := by
    have hops := h.op
    rw [hop] at hops
    have hrel := h.statB
    cases hB : p.statB with
    | none =>
      rw [hB] at hrel
      have hnone : a.statB = none := by
        cases hA : a.statB with
        | none => rfl
        | some b => rw [hA] at hrel; cases hrel
      rw [Txline.ValidateStatArgs.value, hnone, hstatA, Option.map_none, Option.getD_none, add_zero]
    | some s =>
      rw [hB] at hrel hops
      obtain ⟨b, hb, hs⟩ : ∃ b, a.statB = some b ∧ b.Is s := by
        cases hA : a.statB with
        | none => rw [hA] at hrel; cases hrel
        | some b =>
          rw [hA] at hrel
          cases hrel with
          | some hs => exact ⟨b, rfl, hs⟩
      obtain ⟨op, hopA, hadd⟩ := Option.map_eq_some_iff.mp hops
      have hop' : op = .add := by
        cases op
        · rfl
        · cases hadd
      have hstatB : b.statToProve.value.toInt = s.statToProve.value := by
        rw [← hs.statToProve]
        rfl
      simp only [Txline.ValidateStatArgs.value, hb, hopA, hop', Txline.BinaryExpression.eval,
        hstatA, hstatB, Option.map_some, Option.getD_some]
  rw [Txline.ValidateStatArgs.holds, hgreater, hvalue, hthreshold]
  exact decide_eq_true_iff

/-- The instruction of a settlement, and what the program reads in it. -/
theorem buildSettleFromProofIxs_decode {txline : TxlineProgram} {wallet : Pubkey}
    {ixs : SettleIxs} (hproof : proof.Normalized)
    (h : buildSettleFromProofIxs txline proof args wallet = .ok ixs) :
    ∃ outcome data accounts a,
      (∀ rt, ixs.resolveIx.load rt = some (.resolveMarket wallet (.market args.marketPda)
        args.statement proof.eventStatRoot outcome data
        (.external txline.programId :: accounts))) ∧
      Txline.decodeValidateStat data = some a ∧ (outcome = 0 ↔ args.outcome = .yes) ∧
      (a.holds = true ↔ args.threshold < proof.statToProve.value +
        ((secondStat proof args).map fun s => s.statToProve.value).getD 0) := by
  simp only [buildSettleFromProofIxs, bind_eq_ok, pure_eq_ok] at h
  obtain ⟨day, -, data, hdata, resolveIx, hresolve, rfl⟩ := h
  obtain ⟨a, hdecode, ha⟩ := buildTxlineValidateStatData_decode hdata
    ⟨proof.eventStatsSubTreeRoot.2, hproof.subTreeProof, hproof.mainTreeProof,
      ⟨proof.eventStatRoot.2, hproof.statProof⟩, secondStat_hashes hproof⟩
  refine ⟨_, data, _, a, (buildResolveMarketIx_load hresolve).2, hdecode, ?_, holds_iff ha rfl rfl⟩
  cases args.outcome <;> decide

end Build

/-- **The outcome agrees with the predicate.** A finished match settles each of its tracked markets
for the side that the sum of its two final statistics gives. With both in the proof the predicate of
the built instruction says the same. With the second one missing, the built instruction records that
side or is rejected, the latter where the first statistic alone is not above the threshold and the
sum is. -/
theorem final_outcome_agrees {stats : Stats}
    (hnonneg : ∀ key ∈ [1, 2, 7, 8], 0 ≤ stats.value key) {m : OpenMarket}
    {openMarkets : List OpenMarket} (hm : m ∈ openMarkets)
    (hkind : m.predicate.kind = .totalGoalsOver ∨ m.predicate.kind = .cornersOver)
    (fixtureId ts : ℕ) (seq : ℤ) (minute : Option ℤ) (templates : MatchTemplates) :
    ∃ a, .settleMarket a ∈ (decideActions (.matchEnded fixtureId m.predicate.matchId
        ⟨stats.value 1, stats.value 2⟩ stats ts seq minute) openMarkets templates).actions ∧
      a.predicate = m.predicate ∧ a.label = m.label ∧
      a.statKey = (totalKeys m.predicate).1 ∧ a.statKey2 = some (totalKeys m.predicate).2 ∧
      (a.outcome = .yes ↔ m.predicate.threshold < statTotal stats m.predicate) ∧
      ∀ (txline : TxlineProgram) (proof : StatValidation) (fixture : ℕ) (market : OpenMarket)
        (wallet : Pubkey) (ixs : SettleIxs), proof.Normalized →
        proof.statToProve.value = stats.value a.statKey →
        buildSettleFromProofIxs txline proof (settleArgs fixture a market) wallet = .ok ixs →
        ∃ outcome data accounts args,
          (∀ rt, ixs.resolveIx.load rt = some (.resolveMarket wallet (.market market.marketPda)
            a.label proof.eventStatRoot outcome data
            (.external txline.programId :: accounts))) ∧
          Txline.decodeValidateStat data = some args ∧ (outcome = 0 ↔ a.outcome = .yes) ∧
          (∀ stat nodes, proof.statToProve2 = some stat → proof.statProof2 = some nodes →
            stat.value = stats.value (totalKeys m.predicate).2 →
            (args.holds = true ↔ a.outcome = .yes)) ∧
          (proof.statToProve2 = none ∨ proof.statProof2 = none →
            ∀ (rt : Runtime) (ctx : TxContext) (s : Chain), TxlineEvaluates rt txline.programId →
            (∀ t, exec rt ctx (.resolveMarket wallet (.market market.marketPda) a.label
                proof.eventStatRoot outcome data (.external txline.programId :: accounts)) s =
                  .ok t →
              ∃ r, t.resolution market.marketPda = some r ∧
                (r.outcome = 0 ↔ m.predicate.threshold < statTotal stats m.predicate) ∧
                (args.holds = true ↔ m.predicate.threshold < statTotal stats m.predicate)) ∧
            ∀ ret, rt.program txline.programId data accounts ctx s = .ok (some ret) →
              (SettlementProgram.Verdict rt ctx s txline.programId data accounts outcome ↔
                ¬ (stats.value a.statKey ≤ m.predicate.threshold ∧
                  m.predicate.threshold < statTotal stats m.predicate))) := by
  obtain ⟨a, ha, hpredicate, hlabel, hkey, hkey2, hyes⟩ :=
    settleAction_final stats seq hkind
  have hsecond : 0 ≤ stats.value (totalKeys m.predicate).2 := by
    refine hnonneg _ ?_
    rw [totalKeys]
    split <;> simp
  refine ⟨a, settle_mem_decideActions hm ha fixtureId ts minute templates, hpredicate, hlabel, hkey,
    hkey2, hyes, ?_⟩
  intro txline proof fixture market wallet ixs hproof hfirst hixs
  obtain ⟨outcome, data, accounts, args, hload, hdecode, houtcome, hholds⟩ :=
    buildSettleFromProofIxs_decode hproof hixs
  have hzero : outcome = 0 ↔ m.predicate.threshold < statTotal stats m.predicate :=
    houtcome.trans hyes
  have hthreshold : (settleArgs fixture a market).threshold = m.predicate.threshold :=
    congrArg MarketPredicate.threshold hpredicate
  rw [hthreshold, hfirst, hkey] at hholds
  refine ⟨outcome, data, accounts, args, hload, hdecode, houtcome, ?_, ?_⟩
  · intro stat nodes hstat hnodes hvalue
    have hboth : secondStat proof (settleArgs fixture a market) =
        some (statTerm proof.eventStatRoot stat nodes) := by
      rw [secondStat, hstat, hnodes, settleArgs, hkey2]
      rfl
    rw [hholds, hboth, hyes, statTotal, ← hvalue]
    exact Iff.rfl
  · intro hmissing rt ctx s htxline
    have hnone : secondStat proof (settleArgs fixture a market) = none := by
      rw [secondStat, settleArgs, hkey2]
      rcases hmissing with hmissing | hmissing
      · rw [hmissing]
        rfl
      · rw [hmissing]
        cases proof.statToProve2 <;> rfl
    rw [hnone, Option.map_none, Option.getD_none, add_zero] at hholds
    refine ⟨?_, ?_⟩
    · intro t ht
      obtain ⟨l, validator, rest, e, -, -, -, hremaining, -, hverdict, rfl⟩ :=
        SettlementProgram.resolveMarket_ok ht
      obtain ⟨rfl, rfl⟩ : txline.programId = validator ∧ accounts = rest := by
        simpa using hremaining
      refine ⟨_, Function.update_self .., hzero, ?_⟩
      rw [htxline.holds_of_verdict hdecode hverdict, hzero]
    · intro ret hanswer
      rw [htxline.verdict_iff hdecode hanswer, hholds, hzero, hkey, statTotal]
      omega

namespace Sample

def moreThanTwo : OpenMarket where
  predicate := (createTotalGoalsMarket "CIT-ROV" 2 .goals).predicate
  label := "over"
  createdAt := 0
  ttlSeconds := 7200
  marketPda := Stoppage.Sample.market

def finalStats (key : ℕ) : Option ℤ := [(1, 1), (2, 2), (7, 3), (8, 4)].lookup key

def ended : NormalizedEvent :=
  .matchEnded 17615188 moreThanTwo.predicate.matchId
    ⟨Stats.value finalStats 1, Stats.value finalStats 2⟩ finalStats 1700000000000 900 none

/-- A proof of both numbers of goals, with no nodes. -/
def bothStats : StatValidation where
  fixtureId := 17615188
  updateStats := ⟨900, 1700000000000, 1700000000000⟩
  eventStatsSubTreeRoot := List.Vector.replicate 32 0
  subTreeProof := .empty
  mainTreeProof := .empty
  eventStatRoot := List.Vector.replicate 32 0
  statToProve := ⟨1, 1, none⟩
  statToProve2 := some ⟨2, 2, none⟩
  statProof := .empty
  statProof2 := some .empty

def oneStat : StatValidation := { bothStats with statToProve2 := none, statProof2 := none }

theorem bothStats_normalized : bothStats.Normalized := by
  constructor <;> simp [bothStats, JsArray.empty]

theorem oneStat_normalized : oneStat.Normalized := by
  constructor <;> simp [oneStat, bothStats, JsArray.empty]

def oracle : TxlineProgram := ⟨Stoppage.Sample.echo, fun _ => Stoppage.Sample.judge⟩

/-- How the end of the match settles the market. -/
def settle : SettleAction where
  predicate := moreThanTwo.predicate
  outcome := .yes
  seq := 900
  statKey := 1
  statKey2 := some 2
  label := "over"

theorem decideActions_ended :
    (decideActions ended [moreThanTwo] defaultTemplates).actions = [.settleMarket settle] := by
  decide +kernel

def args : SettleProofArgs := settleArgs 17615188 settle moreThanTwo

theorem bothStats_builds :
    ∃ ixs, buildSettleFromProofIxs oracle bothStats args Stoppage.Sample.carol = .ok ixs :=
  exists_of_isOk (by decide +kernel)

theorem oneStat_builds :
    ∃ ixs, buildSettleFromProofIxs oracle oneStat args Stoppage.Sample.carol = .ok ixs :=
  exists_of_isOk (by decide +kernel)

/-- A runtime in which every program is the evaluator. -/
def evaluating : Runtime :=
  { Stoppage.Sample.runtime with
    program := fun program data _ _ _ => .ok ((Txline.decodeValidateStat data).map fun args =>
      (program, [if args.holds then 1 else 0])) }

theorem evaluating_evaluates : TxlineEvaluates evaluating oracle.programId where
  notPyth := by decide
  notAttestation := by decide
  answers := by
    intro data accounts ctx s ret args hanswer hargs
    simp only [evaluating, hargs, Option.map_some] at hanswer
    exact (Option.some.inj (Except.ok.inj hanswer)).symm

end Sample

/-- Both goals of the away side count with both proofs, and with one proof the instruction is
rejected. -/
theorem final_outcome_agrees_sample : ∃ both one : SettleIxs,
    buildSettleFromProofIxs Sample.oracle Sample.bothStats Sample.args Stoppage.Sample.carol =
      .ok both ∧
    (∃ outcome data accounts args, (∀ rt, both.resolveIx.load rt = some (.resolveMarket
        Stoppage.Sample.carol (.market Sample.moreThanTwo.marketPda) "over"
        Sample.bothStats.eventStatRoot outcome data
        (.external Sample.oracle.programId :: accounts))) ∧
      Txline.decodeValidateStat data = some args ∧ args.holds = true) ∧
    buildSettleFromProofIxs Sample.oracle Sample.oneStat Sample.args Stoppage.Sample.carol =
      .ok one ∧
    ∃ outcome data accounts, (∀ rt, one.resolveIx.load rt = some (.resolveMarket
        Stoppage.Sample.carol (.market Sample.moreThanTwo.marketPda) "over"
        Sample.oneStat.eventStatRoot outcome data
        (.external Sample.oracle.programId :: accounts))) ∧
      ∀ ctx s, ¬ SettlementProgram.Verdict Sample.evaluating ctx s Sample.oracle.programId data
        accounts outcome := by
  have hnonneg : ∀ key ∈ [1, 2, 7, 8], 0 ≤ Stats.value Sample.finalStats key := by decide
  have hm : Sample.moreThanTwo ∈ [Sample.moreThanTwo] := .head []
  obtain ⟨a, ha, -, -, -, -, -, hall⟩ := final_outcome_agrees hnonneg hm (.inl rfl) 17615188
    1700000000000 900 none defaultTemplates
  have hsettles : .settleMarket a ∈ (decideActions Sample.ended [Sample.moreThanTwo]
      defaultTemplates).actions := ha
  rw [Sample.decideActions_ended] at hsettles
  obtain rfl : a = Sample.settle := by simpa using hsettles
  obtain ⟨both, hboth⟩ := Sample.bothStats_builds
  obtain ⟨one, hone⟩ := Sample.oneStat_builds
  refine ⟨both, one, hboth, ?_, hone, ?_⟩
  · obtain ⟨outcome, data, accounts, args, hload, hdecode, -, hholds, -⟩ :=
      hall _ _ _ _ _ _ Sample.bothStats_normalized rfl hboth
    exact ⟨outcome, data, accounts, args, hload, hdecode, (hholds _ _ rfl rfl rfl).mpr rfl⟩
  · obtain ⟨outcome, data, accounts, args, hload, hdecode, -, -, hmissing⟩ :=
      hall _ _ _ _ _ _ Sample.oneStat_normalized rfl hone
    refine ⟨outcome, data, accounts, hload, fun ctx s hverdict => ?_⟩
    have hiff := (hmissing (.inl rfl) Sample.evaluating ctx s Sample.evaluating_evaluates).2
      (Sample.oracle.programId, [if args.holds then 1 else 0]) (by simp [Sample.evaluating, hdecode])
    exact hiff.mp hverdict (by decide)

namespace Sample

/-- The market is there without a receipt, and carol can pay for one. -/
def Unresolved (s : Chain) : Prop :=
  (s.market Stoppage.Sample.market).isSome ∧ s.resolution Stoppage.Sample.market = none ∧
    (s.systemTransfer Stoppage.Sample.carol (.resolution Stoppage.Sample.market)
      (s.rentDue evaluating (.resolution Stoppage.Sample.market) Resolution.space)).isOk = true

instance : DecidablePred Unresolved := fun _ => inferInstanceAs (Decidable (_ ∧ _ ∧ _))

def created : List Action :=
  [Stoppage.Sample.setUp,
    Stoppage.Sample.call (.createMarket Stoppage.Sample.alice moreThanTwo.predicate.seeds 1700001000
      oracle.programId)]

end Sample

/-- The outcome byte is the caller's: with it set to NO, the data of the keeper's own instruction
with one statistic passes for a sum above the threshold. -/
theorem one_stat_answers_no :
    ¬ ∀ (stats : Stats) (m : OpenMarket) (a : SettleAction) (txline : TxlineProgram)
      (proof : StatValidation) (fixture : ℕ) (wallet : Pubkey) (ixs : SettleIxs)
      (built claimed : UInt8) (data : Bytes) (accounts : List Address) (rt : Runtime)
      (ctx : TxContext) (s t : Chain) (r : Resolution),
      (∀ key ∈ [1, 2, 7, 8], 0 ≤ stats.value key) →
      (decideActions (.matchEnded fixture m.predicate.matchId ⟨stats.value 1, stats.value 2⟩ stats
        1700000000000 900 none) [m] defaultTemplates).actions = [.settleMarket a] →
      proof.Normalized → proof.statToProve.value = stats.value a.statKey →
      proof.statToProve2 = none →
      buildSettleFromProofIxs txline proof (settleArgs fixture a m) wallet = .ok ixs →
      ixs.resolveIx.load rt = some (.resolveMarket wallet (.market m.marketPda) a.label
        proof.eventStatRoot built data (.external txline.programId :: accounts)) →
      TxlineEvaluates rt txline.programId → Reachable rt s →
      exec rt ctx (.resolveMarket wallet (.market m.marketPda) a.label proof.eventStatRoot claimed
        data (.external txline.programId :: accounts)) s = .ok t →
      t.resolution m.marketPda = some r →
      (r.outcome = 0 ↔ m.predicate.threshold < statTotal stats m.predicate) := by
  intro hall
  obtain ⟨ixs, hixs⟩ := Sample.oneStat_builds
  obtain ⟨outcome, data, accounts, args, hload, hdecode, -, hholds⟩ :=
    buildSettleFromProofIxs_decode Sample.oneStat_normalized hixs
  have hrun : Action.runsTo Sample.evaluating Sample.created Stoppage.Sample.genesis
      Sample.Unresolved = true := by decide +kernel
  obtain ⟨s, hsteps, hmarket, hnone, hpays⟩ := steps_of_runsTo hrun
  obtain ⟨mk, hmk⟩ := Option.isSome_iff_exists.mp hmarket
  obtain ⟨u, hpaid⟩ := exists_of_isOk hpays
  -- One goal is not more than two, so the predicate over one statistic answers no.
  have hno : ¬ args.holds = true := fun h => absurd (hholds.mp h) (by decide)
  have hanswer : Sample.evaluating.program Sample.oracle.programId data accounts ⟨[], 0⟩ u =
      .ok (some (Sample.oracle.programId, [if args.holds then 1 else 0])) := by
    simp [Sample.evaluating, hdecode]
  have hone : ¬ (1 : UInt8) = 0 := by decide
  have hverdict : SettlementProgram.Verdict Sample.evaluating ⟨[], 0⟩ u Sample.oracle.programId
      data accounts 1 :=
    (Sample.evaluating_evaluates.verdict_iff hdecode hanswer).mpr (iff_of_false hno hone)
  obtain ⟨t, ht, -, hreceipt⟩ := SettlementProgram.resolveMarket_of Sample.settle.label
    Sample.oneStat.eventStatRoot hnone (by decide) hmk hpaid hverdict
  have hsum := hall Sample.finalStats Sample.moreThanTwo Sample.settle Sample.oracle Sample.oneStat
    17615188 Stoppage.Sample.carol ixs outcome 1 data accounts Sample.evaluating ⟨[], 0⟩ s t _
    (by decide) Sample.decideActions_ended Sample.oneStat_normalized rfl rfl hixs (hload _)
    Sample.evaluating_evaluates ⟨_, _, Stoppage.Sample.genesis_ok, hsteps⟩ ht hreceipt
  exact hone (hsum.mpr (by decide))

end Agent

end Stoppage
