import Stoppage.Agent.AttestationRun
import Stoppage.Agent.FinalOutcome
import Stoppage.Agent.MatchLifecycle

/-! # Counts that the data lack

Where a count is missing, the normalizer, the strategy and the attestation keeper go on with zero.
`missing_counts_iff` says on which data all that is settled or signed rests on counts that are there.
-/

namespace Stoppage.Agent
open Fallible Sdk NumberText
open Escrow (JsString)
set_option autoImplicit false

/-! ## The feed -/

/-- Every settlement that an update leads to has both of its counts in the update, and the side that
they give. -/
def SettlesOnCounts (u : ScoreUpdate) (fixture : Fixture) (prevStats : Option Stats)
    (prevStatusId : ℤ) (openMarkets : List OpenMarket) (templates : MatchTemplates) : Prop :=
  ∀ event ∈ normalizeScoreUpdate u fixture prevStats prevStatusId,
    ∀ a, .settleMarket a ∈ (decideActions event openMarkets templates).actions →
      ∃ x y, u.currStats (totalKeys a.predicate).1 = some x ∧
        u.currStats (totalKeys a.predicate).2 = some y ∧
        (a.outcome = .yes ↔ a.predicate.threshold < x + y)

/-- The market is about goals or corners. -/
def OpenMarket.Counts (m : OpenMarket) : Prop :=
  m.predicate.kind = .totalGoalsOver ∨ m.predicate.kind = .cornersOver

section Feed
variable {u : ScoreUpdate} {fixture : Fixture} {prevStats : Option Stats} {prevStatusId : ℤ}
  {openMarkets : List OpenMarket} {templates : MatchTemplates} {a : SettleAction} {m : OpenMarket}
  {event : NormalizedEvent}

theorem not_settle_of_not_ended (h : event.isMatchEnded = false) :
    AgentAction.settleMarket a ∉ (decideActions event openMarkets templates).actions := by
  intro ha
  cases event with
  | matchStarted fixtureId matchId home away competitionId ts =>
    obtain ⟨c, -, hc⟩ := List.mem_map.mp ha
    cases hc
  | matchEnded fixtureId matchId finalScore finalStats ts seq minute => cases h
  | _ => exact absurd ha List.not_mem_nil

/-- Only the end of a match settles anything. -/
theorem isFinal_of_settle (hevent : event ∈ normalizeScoreUpdate u fixture prevStats prevStatusId)
    (ha : AgentAction.settleMarket a ∈ (decideActions event openMarkets templates).actions) :
    u.isFinal = true := by
  by_contra hopen
  have hnone := (countP_normalizeScoreUpdate u fixture prevStats prevStatusId
    (Bool.eq_false_iff.mpr hopen)).2
  have hended := Bool.eq_false_iff.mpr (List.countP_eq_zero.mp hnone event hevent)
  exact not_settle_of_not_ended hended ha

theorem counts_of_settleAction {finalScore : Score} {stats : Stats} {seq : ℤ}
    (h : settleAction finalScore stats seq m = some a) : m.Counts := by
  unfold settleAction at h
  split at h
  · exact .inl ‹_›
  · exact .inr ‹_›
  · cases h

/-- The settlements of a final update, one for each market of the match on goals or corners. -/
theorem settle_mem_iff (hfinal : u.isFinal = true) :
    (∃ event ∈ normalizeScoreUpdate u fixture prevStats prevStatusId,
      .settleMarket a ∈ (decideActions event openMarkets templates).actions) ↔
    ∃ m ∈ openMarkets, m.predicate.matchId = fixture.matchId ∧
      settleAction u.finalScore u.currStats u.seq m = some a := by
  rw [normalizeScoreUpdate, if_pos hfinal]
  simp only [List.mem_singleton, exists_eq_left]
  constructor
  · intro ha
    obtain ⟨b, hb, heq⟩ := List.mem_map.mp ha
    cases heq
    obtain ⟨m, hm, hsettle⟩ := List.mem_filterMap.mp hb
    obtain ⟨htracked, hmatch⟩ := List.mem_filter.mp hm
    exact ⟨m, htracked, of_decide_eq_true hmatch, hsettle⟩
  · rintro ⟨m, htracked, hmatch, hsettle⟩
    rw [← hmatch]
    exact settle_mem_decideActions htracked hsettle _ _ _ _

theorem settlesOnCounts_iff :
    SettlesOnCounts u fixture prevStats prevStatusId openMarkets templates ↔
      (u.isFinal = true → ∀ m ∈ openMarkets, m.predicate.matchId = fixture.matchId → m.Counts →
        (u.currStats (totalKeys m.predicate).1).isSome ∧
          (u.currStats (totalKeys m.predicate).2).isSome) := by
  constructor
  · intro h hfinal m hm hmatch hcounts
    obtain ⟨a, ha, hpredicate, -⟩ := settleAction_final u.currStats u.seq hcounts
    have hsettles : ∃ event ∈ normalizeScoreUpdate u fixture prevStats prevStatusId,
        .settleMarket a ∈ (decideActions event openMarkets templates).actions :=
      (settle_mem_iff hfinal).mpr ⟨m, hm, hmatch, ha⟩
    obtain ⟨event, hevent, hsettle⟩ := hsettles
    obtain ⟨x, y, hx, hy, -⟩ := h event hevent a hsettle
    rw [hpredicate] at hx hy
    exact ⟨Option.isSome_of_eq_some hx, Option.isSome_of_eq_some hy⟩
  · intro h event hevent a hsettle
    have hfinal := isFinal_of_settle hevent hsettle
    obtain ⟨m, hm, hmatch, ha⟩ := (settle_mem_iff hfinal).mp ⟨event, hevent, hsettle⟩
    have hcounts := counts_of_settleAction ha
    obtain ⟨b, hb, hpredicate, -, -, -, hyes⟩ := settleAction_final u.currStats u.seq hcounts
    obtain rfl : b = a := Option.some.inj (hb.symm.trans ha)
    obtain ⟨hfirst, hsecond⟩ := h hfinal m hm hmatch hcounts
    obtain ⟨x, hx⟩ := Option.isSome_iff_exists.mp hfirst
    obtain ⟨y, hy⟩ := Option.isSome_iff_exists.mp hsecond
    rw [hpredicate]
    refine ⟨x, y, hx, hy, ?_⟩
    rw [hyes, statTotal, Stats.value, Stats.value, hx, hy]
    exact Iff.rfl

end Feed

/-! ## The keeper -/

/-- A score with something in it. -/
def Given (score : Option JsString) : Prop := ∃ s, score = some s ∧ ¬ Blank s

/-- Whatever the run signs is the sum of two scores that the event has, and its outcome is the side
that the sum gives. -/
def SignsOnCounts (js : Packages) (cfg : AttestConfig) (dateParse : DateParse)
    (w : Surroundings) : Prop :=
  ∀ o c message outcome bundle,
    runAttestationKeeper js cfg dateParse w = .ok (.signs o c message outcome bundle) →
    (outcome = 0 ↔ (cfg.line : ℤ) < o.value) ∧
    ∃ e m home away x y, w.Sees dateParse e m ∧
      e.intHomeScore = some home ∧ e.intAwayScore = some away ∧ ¬ Blank home ∧ ¬ Blank away ∧
      number home = some x ∧ number away = some y ∧ toDouble (x + y) = some (o.value : ℚ)

section Keeper
variable {js : Packages} {cfg : AttestConfig} {dateParse : DateParse} {w : Surroundings}
  {e : SportsDbEvent} {m : ObservedMatch}

theorem totalGoals_eq_some (hm : observe dateParse e = .ok m) (hfinished : m.finished = true)
    {home away : JsString} (hhome : e.intHomeScore = some home) (haway : e.intAwayScore = some away)
    {q : ℚ} : m.totalGoals = some q ↔
      ∃ x y, number home = some x ∧ number away = some y ∧ toDouble (x + y) = some q := by
  obtain ⟨ts, -, -, -, hh, ha⟩ := observe_eq_ok.mp hm
  rw [hfinished, if_pos rfl, hhome, Option.map_some] at hh
  rw [hfinished, if_pos rfl, haway, Option.map_some] at ha
  rw [ObservedMatch.totalGoals, hh, ha, Option.getD_some, Option.getD_some, Option.bind_eq_bind,
    Option.bind_eq_some_iff]
  constructor
  · rintro ⟨x, hx, h⟩
    obtain ⟨y, hy, h⟩ := Option.bind_eq_some_iff.mp h
    exact ⟨x, y, hx, hy, h⟩
  · rintro ⟨x, y, hx, hy, h⟩
    exact ⟨x, hx, Option.bind_eq_some_iff.mpr ⟨y, hy, h⟩⟩

theorem signsOnCounts_iff : SignsOnCounts js cfg dateParse w ↔
    ∀ e m value, w.Settles cfg dateParse e m value →
      Given e.intHomeScore ∧ Given e.intAwayScore := by
  constructor
  · intro h e m value hsettles
    obtain ⟨message, outcome, bundle, hrun⟩ := hsettles.signs js
    obtain ⟨-, e', m', home, away, x, y, hsees, hhome, haway, hblank, hblank', -⟩ :=
      h _ _ _ _ _ hrun
    obtain ⟨rfl, -⟩ := hsettles.sees.unique hsees
    exact ⟨⟨home, hhome, hblank⟩, away, haway, hblank'⟩
  · intro h o c message outcome bundle hrun
    obtain ⟨_, _, e, m, value, -, hsettles, rfl, rfl, -, rfl, -⟩ := signs_iff.mp hrun
    obtain ⟨⟨home, hhome, hblank⟩, away, haway, hblank'⟩ := h e m value hsettles
    obtain ⟨hm, hfinished⟩ := hsettles.sees.reports
    obtain ⟨x, y, hx, hy, hsum⟩ := (totalGoals_eq_some hm hfinished hhome haway).mp hsettles.total
    refine ⟨?_, e, m, home, away, x, y, hsettles.sees, hhome, haway, hblank, hblank', hx, hy, hsum⟩
    rw [AttestConfig.observation]
    split
    · exact iff_of_true rfl ‹_›
    · exact iff_of_false (by decide) ‹_›

end Keeper

/-- **Missing counts.** A final update settles by counts that it has exactly when it has both of
each market of the match, and a run of the keeper signs the sum of scores that the event has exactly
when both are there, unless it does not get to sign. -/
theorem missing_counts_iff {u : ScoreUpdate} {fixture : Fixture} {prevStats : Option Stats}
    {prevStatusId : ℤ} {openMarkets : List OpenMarket} {templates : MatchTemplates} {js : Packages}
    {cfg : AttestConfig} {dateParse : DateParse} {w : Surroundings} :
    (SettlesOnCounts u fixture prevStats prevStatusId openMarkets templates ↔
      (u.isFinal = true → ∀ m ∈ openMarkets, m.predicate.matchId = fixture.matchId → m.Counts →
        (u.currStats (totalKeys m.predicate).1).isSome ∧
          (u.currStats (totalKeys m.predicate).2).isSome)) ∧
    (SignsOnCounts js cfg dateParse w ↔
      ∀ e m value, w.Settles cfg dateParse e m value →
        Given e.intHomeScore ∧ Given e.intAwayScore) :=
  ⟨settlesOnCounts_iff, signsOnCounts_iff⟩

namespace Sample

/-- A final record without statistics. -/
def silent : ScoreUpdate := { update 2 100 "game_finalised" [] with stats := none }

/-- The market on the corners of the match. -/
def moreThanNine : OpenMarket where
  predicate := (createCornersMarket fixture.matchId 9).predicate
  label := "corners"
  createdAt := 0
  ttlSeconds := 7200
  marketPda := Stoppage.Sample.market

theorem totalGoals_missing : (observedEnd none (some [])).totalGoals = some ((0 : ℤ) : ℚ) := by
  have haway : number [] = some 0 := number_of_blank rfl
  rw [ObservedMatch.totalGoals, observedEnd, Option.map_none, Option.map_some, haway]
  show toDouble (0 + 0) = _
  rw [add_zero, toDouble_zero, Int.cast_zero]

end Sample

/-- A final record without statistics settles the corners, and an event without scores is signed. -/
theorem absent_counts_settled :
    ¬ SettlesOnCounts Sample.silent Sample.fixture none 0 [Sample.moreThanNine] defaultTemplates ∧
    ¬ SignsOnCounts Stoppage.Sample.packages Sample.attestConfig Sample.dateParse
      (Sample.surroundings 120 none (some [])) := by
  constructor
  · intro h
    have hpresent := settlesOnCounts_iff.mp h rfl Sample.moreThanNine (.head _) rfl (.inr rfl)
    exact Bool.false_ne_true hpresent.1
  · intro h
    have hfits : FitsI64 0 := ⟨by decide, by decide⟩
    have hsettles := Sample.settles_surroundings (by decide : 120 ≤ 355) Sample.totalGoals_missing
      hfits
    obtain ⟨⟨home, hhome, -⟩, -⟩ := signsOnCounts_iff.mp h _ _ _ hsettles
    cases hhome

end Stoppage.Agent
