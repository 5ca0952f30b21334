import Stoppage.Agent.Attestations
import Stoppage.Agent.Tracking
import Stoppage.Programs.MarketSpec

/-! # `apps/web/lib/calibration/buildCalibrationReport.ts`: what is scored as a prediction

The report scores the pricing receipt of each settled market. The agent quotes on every event, the
end of the match included, and each attestation that lands overwrites the receipt, whether or not
the agent hears of it. `scored_before_end` says when the receipts that are scored come from before
the end.
-/

namespace Stoppage.Agent
open TransitionSystem
set_option autoImplicit false

/-! ## Receipts -/

/-- The receipts on chain after these transactions, as the snapshots they attest. -/
def pricingReceipts (chain : List Tx) : Pubkey → Option PricingSnapshot :=
  chain.foldl (fun receipts tx =>
    match tx with
    | .attestPricing marketPda snapshot => Function.update receipts marketPda (some snapshot)
    | _ => receipts) fun _ => none

theorem mem_of_pricingReceipts {chain : List Tx} {k : Pubkey} {snap : PricingSnapshot}
    (h : pricingReceipts chain k = some snap) : .attestPricing k snap ∈ chain := by
  induction chain using List.reverseRecOn with
  | nil => cases h
  | append_singleton chain tx ih =>
    rw [pricingReceipts, List.foldl_append, ← pricingReceipts] at h
    have hold (h : pricingReceipts chain k = some snap) :
        .attestPricing k snap ∈ chain ++ [tx] := List.mem_append_left _ (ih h)
    cases tx with
    | attestPricing k' snap' =>
      by_cases hk : k = k'
      · subst hk
        simp only [List.foldl_cons, List.foldl_nil, Function.update_self, Option.some.injEq] at h
        subst h
        exact List.mem_append_right _ (.head _)
      · simp only [List.foldl_cons, List.foldl_nil, Function.update_of_ne hk] at h
        exact hold h
    | _ => exact hold h

/-- The receipts of the market program carry the hashes of the snapshots. -/
def Backed (hash : PricingSnapshot → List.Vector UInt8 32) (chain : List Tx) (s : Chain) : Prop :=
  ∀ k, (s.pricingReceipt k).map PricingReceipt.snapshotHash = (pricingReceipts chain k).map hash

/-- `attest_pricing` overwrites the receipt of its market. -/
theorem Backed.attest {hash : PricingSnapshot → List.Vector UInt8 32} {chain : List Tx}
    {s t : Chain} {rt : Runtime} {signer k : Pubkey} {snap : PricingSnapshot}
    {modelVersion : String} {fairValue bid ask : UInt64} {signature : List.Vector UInt8 64}
    {ts : Int64} (h : Backed hash chain s)
    (ht : MarketProgram.attestPricing rt signer k (hash snap) modelVersion fairValue bid ask
      signature ts s = .ok t) : Backed hash (chain ++ [.attestPricing k snap]) t := by
  obtain ⟨l, e, -, -, -, rfl⟩ := MarketProgram.attestPricing_ok ht
  intro k'
  rw [pricingReceipts, List.foldl_append, ← pricingReceipts]
  show (Function.update s.pricingReceipt k _ k').map _ =
    (Function.update (pricingReceipts chain) k (some snap) k').map hash
  by_cases hk : k' = k
  · subst hk
    rw [Function.update_self, Function.update_self]
    rfl
  · rw [Function.update_of_ne hk, Function.update_of_ne hk]
    exact h k'

/-! ## The report -/

inductive PredictionSource where
  | receipt
  | agentQuote
deriving DecidableEq

/-- The value that is scored, as the snapshot it was priced from, and its source. -/
structure Prediction where
  snapshot : PricingSnapshot
  source : PredictionSource

structure SettledRow where
  marketId : Pubkey
  prediction : Prediction

/-- The receipt first, the latest quote of the agent when there is none. -/
def resolvePrediction (receipt agent : Option PricingSnapshot) : Option Prediction :=
  match receipt, agent with
  | some snapshot, _ => some ⟨snapshot, .receipt⟩
  | none, some snapshot => some ⟨snapshot, .agentQuote⟩
  | none, none => none

/-- The rows of `buildUncapped` over the markets on chain: `getPricingReceipt` fails or times out
for some of them. -/
def calibrationRows (chain : List Tx) (markets : List Pubkey) (fetched : Pubkey → Bool)
    (agentQuote : Pubkey → Option PricingSnapshot) : List SettledRow :=
  (markets.filter fun k => chain.any fun tx => tx.settles = some k).filterMap fun k =>
    (resolvePrediction (if fetched k then pricingReceipts chain k else none) (agentQuote k)).map
      (⟨k, ·⟩)

theorem attested_of_row {chain : List Tx} {markets : List Pubkey} {fetched : Pubkey → Bool}
    {agentQuote : Pubkey → Option PricingSnapshot} {row : SettledRow}
    (hrow : row ∈ calibrationRows chain markets fetched agentQuote)
    (hsource : row.prediction.source = .receipt) :
    .attestPricing row.marketId row.prediction.snapshot ∈ chain := by
  obtain ⟨k, -, hk⟩ := List.mem_filterMap.mp hrow
  obtain ⟨prediction, hprediction, rfl⟩ := Option.map_eq_some_iff.mp hk
  refine mem_of_pricingReceipts ?_
  unfold resolvePrediction at hprediction
  split at hprediction
  · rename_i snapshot _ hreceipt
    cases hprediction
    split at hreceipt
    · exact hreceipt
    · cases hreceipt
  · cases hprediction
    cases hsource
  · cases hprediction

/-! ## The agent and the chain -/

/-- A move of the agent, or the landing of a transaction that it has sent. -/
inductive NetMove where
  | agent (mv : Move)
  | lands (tx : Tx)

/-- The agent, and the transactions on chain in their order there. -/
structure Net where
  system : System
  chain : List Tx

def World.sent (w : World) : List Tx := w.submitted.map Prod.snd

/-- A transaction can land once for each time that it was sent, at once or later, and the agent
hears of none to be confirmed that has not landed. -/
def NetMove.apply (cfg : AgentConfig) (n : Net) : NetMove → Option Net
  | .agent mv => (mv.apply cfg n.system).bind fun t =>
      if ∀ tx ∈ t.shared.confirmed, t.shared.confirmed.count tx ≤ n.chain.count tx then
        some ⟨t, n.chain⟩
      else none
  | .lands tx =>
    if n.chain.count tx < n.system.shared.sent.count tx then some ⟨n.system, n.chain ++ [tx]⟩
    else none

def NetStep (cfg : AgentConfig) (n : Net) (mv : NetMove) (n' : Net) : Prop :=
  mv.apply cfg n = some n'

def bootNet (now : ℕ) : Net := ⟨boot now, []⟩

/-- The moves of the agent. -/
def agentMoves (es : List NetMove) : List Move :=
  es.filterMap fun
    | .agent mv => some mv
    | .lands _ => none

section Net
variable {cfg : AgentConfig} {n n' : Net}

theorem NetStep.agent {mv : Move} (h : NetStep cfg n (.agent mv) n') :
    Step cfg n.system mv n'.system ∧ n'.chain = n.chain := by
  obtain ⟨t, ht, hn⟩ := Option.bind_eq_some_iff.mp h
  cases (Option.ite_none_right_eq_some.mp hn).2
  exact ⟨ht, rfl⟩

theorem NetStep.lands {tx : Tx} (h : NetStep cfg n (.lands tx) n') :
    tx ∈ n.system.shared.sent ∧ n' = ⟨n.system, n.chain ++ [tx]⟩ := by
  obtain ⟨hsent, hn⟩ := Option.ite_none_right_eq_some.mp h
  exact ⟨List.count_pos_iff.mp (Nat.zero_lt_of_lt hsent), (Option.some.inj hn).symm⟩

theorem agentMoves_concat (es : List NetMove) (mv : NetMove) :
    agentMoves (es ++ [mv]) = agentMoves es ++ agentMoves [mv] := List.filterMap_append

/-- The agent in a run is in a run of its own. -/
theorem Steps.agent {now : ℕ} {es : List NetMove} (h : Steps (NetStep cfg) (bootNet now) es n) :
    Steps (Step cfg) (boot now) (agentMoves es) n.system := by
  refine h.history (P := fun es n => Steps (Step cfg) (boot now) (agentMoves es) n.system)
    (.nil _) ?_
  intro pre mv u v _ _ hpre hstep
  rw [agentMoves_concat]
  cases mv with
  | agent mv => exact hpre.append (.single hstep.agent.1)
  | lands tx =>
    rw [hstep.lands.2]
    exact hpre.append (.nil _)

end Net

/-! ## Before and after the end -/

def Move.ends (matchId : String) : Move → Bool
  | .event (.matchEnded _ m _ _ _ _ _) => m = matchId
  | _ => false

/-- The agent quotes the match: quotes are on, the state of the match is known, and a market of it
is tracked. -/
structure Quotable (cfg : AgentConfig) (w : World) (matchId : String) : Prop where
  quotes : cfg.quoteTracker = true
  named : matchId ≠ ""
  known : ∃ state, w.matchState matchId = some state
  tracked : ∃ m ∈ w.openMarkets, m.predicate.matchId = matchId

section History
variable (cfg : AgentConfig) (now : ℕ)

/-- In the run a move has taken the snapshot. -/
def Taken (es : List Move) (snap : PricingSnapshot) : Prop :=
  ∃ pre mv post s, es = pre ++ mv :: post ∧ Steps (Step cfg) (boot now) pre s ∧
    snap ∈ mv.takes cfg s

/-- It did so strictly before the end of the match was announced. -/
def TakenBeforeEnd (es : List Move) (snap : PricingSnapshot) : Prop :=
  ∃ pre mv post s, es = pre ++ mv :: post ∧ Steps (Step cfg) (boot now) pre s ∧
    snap ∈ mv.takes cfg s ∧ ∀ mv' ∈ pre ++ [mv], mv'.ends snap.matchId = false

/-- In the run an event of the match, at its end or later, was decided on while the agent quotes the
match. -/
def QuotedLate (es : List Move) (matchId : String) : Prop :=
  ∃ pre mv post s e w, es = pre ++ mv :: post ∧ Steps (Step cfg) (boot now) pre s ∧
    (∃ mv' ∈ pre ++ [mv], mv'.ends matchId = true) ∧ mv.decides cfg s = some (e, w) ∧
    e.matchId? = some matchId ∧ Quotable cfg w matchId

/-- No attestation for a match lands once the match was quoted at its end or later. -/
def LandsInTime (es : List NetMove) : Prop :=
  ∀ pre post k snap, es = pre ++ .lands (.attestPricing k snap) :: post →
    ¬ QuotedLate cfg now (agentMoves pre) snap.matchId

end History

section Runs
variable {cfg : AgentConfig} {now : ℕ} {es : List Move} {s t : System} {mv : Move}
  {snap : PricingSnapshot}

theorem Taken.concat (h : Taken cfg now es snap) (mv : Move) : Taken cfg now (es ++ [mv]) snap := by
  obtain ⟨pre, mv', post, s, rfl, hs, htakes⟩ := h
  exact ⟨pre, mv', post ++ [mv], s, by rw [List.append_assoc, List.cons_append], hs, htakes⟩

theorem TakenBeforeEnd.concat (h : TakenBeforeEnd cfg now es snap) (mv : Move) :
    TakenBeforeEnd cfg now (es ++ [mv]) snap := by
  obtain ⟨pre, mv', post, s, rfl, hs, hrest⟩ := h
  exact ⟨pre, mv', post ++ [mv], s, by rw [List.append_assoc, List.cons_append], hs, hrest⟩

/-- A move that takes a snapshot decides on an event of its match, which the agent quotes. -/
theorem quotable_of_takes (h : snap ∈ mv.takes cfg s) :
    ∃ e w, mv.decides cfg s = some (e, w) ∧ e.matchId? = some snap.matchId ∧
      Quotable cfg w snap.matchId := by
  unfold Move.takes at h
  split at h
  · rename_i e w hdecides
    refine ⟨e, w, hdecides, ?_⟩
    obtain ⟨a, ha, hsnap⟩ := List.mem_filterMap.mp h
    unfold quotesFor at ha
    split at ha
    · cases ha
    · rename_i matchId hmatch
      split at ha
      · cases ha
      · rename_i state hstate
        split at ha
        · rename_i hquotes
          obtain ⟨q, hq, rfl⟩ := List.mem_map.mp ha
          obtain ⟨m, hm, rfl⟩ := List.mem_map.mp hq
          cases hsnap
          obtain ⟨htracked, hof⟩ := List.mem_filter.mp hm
          exact ⟨hmatch, hquotes.2, hquotes.1, ⟨state, hstate⟩, m, htracked, of_decide_eq_true hof⟩
        · cases ha
  · cases h

/-- A snapshot was taken before the end, unless its match was quoted at the end or later. -/
theorem Taken.before_end (h : Taken cfg now es snap) (hlate : ¬ QuotedLate cfg now es snap.matchId) :
    TakenBeforeEnd cfg now es snap := by
  obtain ⟨pre, mv, post, s, hes, hs, htakes⟩ := h
  refine ⟨pre, mv, post, s, hes, hs, htakes, fun mv' hmv' => ?_⟩
  by_contra hends
  obtain ⟨e, w, hdecides, hmatch, hquotable⟩ := quotable_of_takes htakes
  exact hlate ⟨pre, mv, post, s, e, w, hes, hs, ⟨mv', hmv', Bool.not_eq_false _ ▸ hends⟩, hdecides,
    hmatch, hquotable⟩

/-- What holds of the agent and the chain, and of their history. -/
structure Traced (cfg : AgentConfig) (now : ℕ) (es : List Move) (n : Net) : Prop where
  proper : ∀ u ∈ n.system.tasks, u.Proper
  taken : ∀ u ∈ n.system.tasks, ∀ snap ∈ u.snapshots, Taken cfg now es snap
  sent : ∀ time k snap, (time, .attestPricing k snap) ∈ n.system.shared.submitted →
    Taken cfg now es snap
  attested : ∀ k snap, .attestPricing k snap ∈ n.chain → TakenBeforeEnd cfg now es snap

theorem traced_bootNet : Traced cfg now [] (bootNet now) where
  proper _ hu := absurd hu List.not_mem_nil
  taken _ hu := absurd hu List.not_mem_nil
  sent _ _ _ hmem := absurd hmem List.not_mem_nil
  attested _ _ hmem := absurd hmem List.not_mem_nil

theorem Traced.agent {n : Net} (h : Traced cfg now es n)
    (hs : Steps (Step cfg) (boot now) es n.system) (hstep : Step cfg n.system mv t) :
    Traced cfg now (es ++ [mv]) ⟨t, n.chain⟩ where
  proper := hstep.proper h.proper
  taken := by
    intro u hu snap hsnap
    rcases hstep.snapshots u hu snap hsnap with ⟨v, hv, hold⟩ | htakes
    · exact (h.taken v hv snap hold).concat mv
    · exact ⟨es, mv, [], n.system, rfl, hs, htakes⟩
  sent := by
    intro time k snap hmem
    rcases hstep.sent h.proper hmem with hold | ⟨u, hu, hsnap⟩
    · exact (h.sent time k snap hold).concat mv
    · exact (h.taken u hu snap hsnap).concat mv
  attested k snap hmem := (h.attested k snap hmem).concat mv

theorem Traced.lands {n : Net} {tx : Tx} (h : Traced cfg now es n)
    (hsent : tx ∈ n.system.shared.sent)
    (htime : ∀ k snap, tx = .attestPricing k snap → ¬ QuotedLate cfg now es snap.matchId) :
    Traced cfg now es ⟨n.system, n.chain ++ [tx]⟩ where
  proper := h.proper
  taken := h.taken
  sent := h.sent
  attested := by
    intro k snap hmem
    rcases List.mem_append.mp hmem with hold | hnew
    · exact h.attested k snap hold
    · obtain ⟨⟨time, tx'⟩, hmem', rfl⟩ := List.mem_map.mp hsent
      have htx : tx' = .attestPricing k snap := (List.mem_singleton.mp hnew).symm
      exact (h.sent time k snap (htx ▸ hmem')).before_end (htime k snap htx)

theorem Traced.run {es : List NetMove} {n : Net} (h : Steps (NetStep cfg) (bootNet now) es n)
    (htime : LandsInTime cfg now es) : Traced cfg now (agentMoves es) n := by
  refine h.history (P := fun es n => Traced cfg now (agentMoves es) n) traced_bootNet ?_
  rintro pre mv u v ⟨post, rfl⟩ hpre htraced hstep
  rw [agentMoves_concat]
  cases mv with
  | agent mv =>
    obtain ⟨hagent, hchain⟩ := hstep.agent
    have hnext := htraced.agent (Steps.agent hpre) hagent
    rw [← hchain] at hnext
    exact hnext
  | lands tx =>
    obtain ⟨hsent, rfl⟩ := hstep.lands
    refine (List.append_nil (agentMoves pre)).symm ▸ htraced.lands hsent ?_
    rintro k snap rfl
    exact htime pre post k snap (by rw [List.append_assoc]; rfl)

end Runs

/-- **Predictions from before the end.** In every run of the agent and the chain in which no
attestation for a match lands once the match was quoted at its end or later, the receipts that the
report scores were attested from snapshots taken strictly before the end of their match. -/
theorem scored_before_end {cfg : AgentConfig} {now : ℕ} {es : List NetMove} {n : Net}
    (h : Steps (NetStep cfg) (bootNet now) es n) (htime : LandsInTime cfg now es)
    (markets : List Pubkey) (fetched : Pubkey → Bool)
    (agentQuote : Pubkey → Option PricingSnapshot) :
    ∀ row ∈ calibrationRows n.chain markets fetched agentQuote,
      row.prediction.source = .receipt →
        TakenBeforeEnd cfg now (agentMoves es) row.prediction.snapshot :=
  fun _ hrow hsource => (Traced.run h htime).attested _ _ (attested_of_row hrow hsource)

/-! ## Two matches that are quoted -/

section Computed
variable {cfg : AgentConfig} {es : List Move} {s s' : System}

/-- The snapshots that a run takes before the end of the match. -/
def takenEarly (cfg : AgentConfig) (matchId : String) : List Move → System → List PricingSnapshot
  | [], _ => []
  | mv :: rest, s =>
    if mv.ends matchId then []
    else mv.takes cfg s ++ ((mv.apply cfg s).map (takenEarly cfg matchId rest)).getD []

theorem mem_takenEarly {pre post : List Move} {mv : Move} {snap : PricingSnapshot}
    (h : Steps (Step cfg) s pre s') (htakes : snap ∈ mv.takes cfg s')
    (hends : ∀ mv' ∈ pre ++ [mv], mv'.ends snap.matchId = false) :
    snap ∈ takenEarly cfg snap.matchId (pre ++ mv :: post) s := by
  induction h with
  | nil s =>
    rw [List.nil_append, takenEarly, hends mv (.head _), if_neg Bool.false_ne_true]
    exact List.mem_append_left _ htakes
  | @cons s u t first pre hfirst _ ih =>
    have happly : first.apply cfg s = some u := hfirst
    rw [List.cons_append, takenEarly, hends first (.head _), if_neg Bool.false_ne_true, happly,
      Option.map_some, Option.getD_some]
    exact List.mem_append_right _ (ih htakes fun mv' hmv' => hends mv' (.tail _ hmv'))

/-- Whether every attestation lands before the end of its match. -/
def landsEarly : List Move → List NetMove → Bool
  | _, [] => true
  | before, .agent mv :: rest => landsEarly (before ++ [mv]) rest
  | before, .lands (.attestPricing _ snap) :: rest =>
    (before.all fun mv => !mv.ends snap.matchId) && landsEarly before rest
  | before, .lands _ :: rest => landsEarly before rest

theorem ends_of_landsEarly {before : List Move} {pre post : List NetMove} {k : Pubkey}
    {snap : PricingSnapshot}
    (h : landsEarly before (pre ++ .lands (.attestPricing k snap) :: post) = true) :
    ∀ mv ∈ before ++ agentMoves pre, mv.ends snap.matchId = false := by
  induction pre generalizing before with
  | nil =>
    rw [List.nil_append, landsEarly, Bool.and_eq_true] at h
    intro mv hmv
    rw [agentMoves, List.filterMap_nil, List.append_nil] at hmv
    simpa using List.all_eq_true.mp h.1 mv hmv
  | cons first pre ih =>
    cases first with
    | agent mv =>
      have hrest := @ih (before ++ [mv]) h
      rwa [List.append_assoc] at hrest
    | lands tx =>
      cases tx with
      | attestPricing k' snap' =>
        rw [List.cons_append, landsEarly, Bool.and_eq_true] at h
        exact ih h.2
      | _ => exact ih h

theorem landsInTime_of {now : ℕ} {es : List NetMove} (h : landsEarly [] es = true) :
    LandsInTime cfg now es := by
  rintro pre post k snap rfl ⟨pre', mv', post', s, e, w, heq, -, ⟨last, hlast, hends⟩, -⟩
  have hsooner : last ∈ [] ++ agentMoves pre := by
    rw [heq]
    simp only [List.nil_append, List.mem_append, List.mem_cons, List.not_mem_nil, or_false]
      at hlast ⊢
    exact hlast.imp_right .inl
  rw [ends_of_landsEarly h last hsooner] at hends
  cases hends

end Computed

namespace Sample

def quoting : AgentConfig := { config with quoteTracker := true }

/-- The run of these moves in which each transaction lands as it is sent. -/
def landing : List Move → System → List NetMove
  | [], _ => []
  | mv :: rest, s =>
    match mv.apply quoting s with
    | none => []
    | some t =>
      .agent mv :: ((t.shared.sent.drop s.shared.sent.length).map .lands ++ landing rest t)

/-- The only task attests its quote and goes on, with what it hears of the confirmation. -/
def attests (t : ℕ) (heard : Except String String) : List Move :=
  [.resume 0 (.blockhash (.ok ())), .resume 0 (.sent heard), .clock t, .resume 0 .awake]

/-- The only task finds no block for its attestation and goes on. -/
def failsToAttest (t : ℕ) : List Move :=
  [.resume 0 (.blockhash (.error "")), .clock t, .resume 0 .awake]

def settlesOnly : List Move :=
  [.resume 0 (.proof (.ok ())), .resume 0 (.built (.ok false)), .resume 0 (.sent (.ok ""))]

def opens : List Move :=
  [.registerFixture pac 18041422] ++ begins 18041422 pac ⟨some 3, none, none⟩ ++
    creates (start + 2000)

/-- The quote of the end is attested, and then the market is settled. -/
def attestedAtEnd (heard : Except String String) : List NetMove :=
  landing (opens ++ [ends 18041422 pac] ++ attests (start + 4000) heard ++ settlesOnly) (boot start)

/-- The quote of a goal is attested, and that of the end is not. -/
def attestedInPlay : List NetMove :=
  landing (opens ++ [.event (.goalScored 18041422 pac "home" start 500 none none)] ++
    attests (start + 4000) (.ok "") ++ [ends 18041422 pac] ++ failsToAttest (start + 6000) ++
      settlesOnly) (boot start)

theorem attestedInPlay_inTime : LandsInTime quoting start attestedInPlay :=
  landsInTime_of (by decide +kernel)

/-- The report scores the receipt of the market, and it is of the final score. -/
def ScoresFinal (es : List NetMove) (n : Net) : Prop :=
  ∃ row ∈ calibrationRows n.chain [pacGoals] (fun _ => true) (fun _ => none),
    row.prediction.source = .receipt ∧ row.prediction.snapshot ∉ takenEarly quoting
      row.prediction.snapshot.matchId (agentMoves es) (boot start)

instance (es : List NetMove) (n : Net) : Decidable (ScoresFinal es n) :=
  inferInstanceAs (Decidable (∃ row ∈ _, _))

/-- The receipt is there too when the agent does not hear of the confirmation. -/
example : reaches (NetMove.apply quoting) (fun _ _ => True)
    (ScoresFinal (attestedAtEnd (.error "timeout"))) (attestedAtEnd (.error "timeout"))
    (bootNet start) = true := by
  decide +kernel

end Sample

theorem scored_before_end_sample : ∃ n,
    Steps (NetStep Sample.quoting) (bootNet Sample.start) Sample.attestedInPlay n ∧
    ∃ row ∈ calibrationRows n.chain [Sample.pacGoals] (fun _ => true) (fun _ => none),
      row.prediction.source = .receipt ∧ TakenBeforeEnd Sample.quoting Sample.start
        (agentMoves Sample.attestedInPlay) row.prediction.snapshot := by
  have hrun : reaches (NetMove.apply Sample.quoting) (fun _ _ => True) (fun n =>
      ∃ row ∈ calibrationRows n.chain [Sample.pacGoals] (fun _ => true) (fun _ => none),
        row.prediction.source = .receipt) Sample.attestedInPlay (bootNet Sample.start) = true := by
    decide +kernel
  obtain ⟨n, hsteps, row, hrow, hsource⟩ := steps_of_reaches hrun
  exact ⟨n, hsteps.of_guarded, row, hrow, hsource, scored_before_end hsteps.of_guarded
    Sample.attestedInPlay_inTime _ _ _ row hrow hsource⟩

/-- **The final score as a prediction.** The quote of the end of the match is attested before the
market is settled, and the report scores it. -/
theorem final_score_attested : ¬ ∀ cfg now es n, Steps (NetStep cfg) (bootNet now) es n →
    ∀ markets fetched agentQuote, ∀ row ∈ calibrationRows n.chain markets fetched agentQuote,
      row.prediction.source = .receipt →
        TakenBeforeEnd cfg now (agentMoves es) row.prediction.snapshot := by
  intro hall
  have hrun : reaches (NetMove.apply Sample.quoting) (fun _ _ => True)
      (Sample.ScoresFinal (Sample.attestedAtEnd (.ok ""))) (Sample.attestedAtEnd (.ok ""))
      (bootNet Sample.start) = true := by
    decide +kernel
  obtain ⟨n, hsteps, row, hrow, hsource, hnot⟩ := steps_of_reaches hrun
  obtain ⟨pre, mv, post, u, heq, hpre, htakes, hends⟩ :=
    hall _ _ _ n hsteps.of_guarded _ _ _ row hrow hsource
  rw [heq] at hnot
  exact hnot (mem_takenEarly hpre htakes hends)

end Stoppage.Agent
