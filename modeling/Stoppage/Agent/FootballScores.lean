import Stoppage.Agent.MatchLifecycle

/-! # US football scores in the feed

The normalizer compares the totals of an update with those of the update directly before it, and a
total that is missing counts as zero in both. So a total that was left out once is found risen
again, and a score event may carry a zero for a side that has scored.
-/

namespace Stoppage.Agent
set_option autoImplicit false

/-! ## Totals -/

/-- The statistics that the totals of the two sides are kept under. -/
def goalKeys : List ℕ := [1, 2]

/-- The last report of a total, zero before the first one. -/
def lastTotal (before : List ScoreUpdate) (key : ℕ) : ℤ :=
  (before.filterMap fun u => u.currStats key).getLast?.getD 0

/-- The update reports a total above the last report. -/
def Above (before : List ScoreUpdate) (u : ScoreUpdate) (key : ℕ) : Prop :=
  ∃ total, u.currStats key = some total ∧ lastTotal before key < total

/-- The total of a side of that name has gone up. -/
def Scored (fixture : Fixture) (before : List ScoreUpdate) (u : ScoreUpdate) (team : String) : Prop :=
  ∃ key ∈ goalKeys, teamFromStatKey key fixture = team ∧ Above before u key

/-- The score is not below the last report of a total that the update leaves out. -/
def Keeps (before : List ScoreUpdate) (u : ScoreUpdate) (s : Score) : Prop :=
  (u.currStats 1 = none → lastTotal before 1 ≤ s.home) ∧
    (u.currStats 2 = none → lastTotal before 2 ≤ s.away)

/-- A `goal_scored` on an update is for a side whose total has gone up, and lowers no total. -/
def Genuine (fixture : Fixture) (before : List ScoreUpdate) (u : ScoreUpdate) :
    NormalizedEvent → Prop
  | .goalScored _ _ team _ _ _ score => Scored fixture before u team ∧ ∀ s ∈ score, Keeps before u s
  | _ => True

/-! ## What the normalizer goes by -/

/-- The total is the first one above that of the update directly before, where a missing total
counts as zero. -/
def Raised (before : List ScoreUpdate) (u : ScoreUpdate) (key : ℕ) : Prop :=
  ∃ v, before.getLast? = some v ∧ v.currStats.value key < u.currStats.value key ∧
    (key = 1 ∨ key = 2 ∧ u.currStats.value 1 ≤ v.currStats.value 1)

/-- What has to hold of an update behind others, unless it ends the match: a goal whose scorer is
named is in the totals; a total above that of the update directly before is above the last report
as well, and then no total that was positive is left out. -/
structure TotalsKept (fixture : Fixture) (before : List ScoreUpdate) (u : ScoreUpdate) : Prop where
  goal : u.action = some "goal" → u.isOwnGoal = false →
    ∀ team, teamArg u fixture = some team → team ≠ "" → Scored fixture before u team
  raised : ∀ key, Raised before u key → teamFromStatKey key fixture ≠ "" →
    Scored fixture before u (teamFromStatKey key fixture) ∧
      ∀ other ∈ goalKeys, u.currStats other = none → lastTotal before other ≤ 0

section Update
variable {fixture : Fixture} {before : List ScoreUpdate} {u : ScoreUpdate} {prevStatusId : ℤ}

theorem lastTotal_concat (key : ℕ) :
    lastTotal (before ++ [u]) key = (u.currStats key).getD (lastTotal before key) := by
  rw [lastTotal, List.filterMap_append]
  cases htotal : u.currStats key with
  | none => simp [lastTotal, htotal]
  | some total => simp [htotal]

/-- The statistics of the update before, as the source keeps them. -/
theorem detect_eq_some {team : String} :
    detectTeamFromStatDiff (before.getLast?.map ScoreUpdate.currStats) u.currStats [1, 2] fixture =
        some team ↔
      ∃ key, Raised before u key ∧ teamFromStatKey key fixture = team := by
  cases hlast : before.getLast? with
  | none => simp [detectTeamFromStatDiff, Raised, hlast]
  | some v =>
    simp only [detectTeamFromStatDiff, Raised, hlast, Option.map_some, Option.some.injEq,
      exists_eq_left', List.find?_cons, List.find?_nil]
    by_cases hone : v.currStats.value 1 < u.currStats.value 1
    · simp only [hone, decide_true, Option.map_some, Option.some.injEq]
      constructor
      · rintro rfl
        exact ⟨1, ⟨hone, .inl rfl⟩, rfl⟩
      · rintro ⟨key, ⟨-, rfl | ⟨-, hle⟩⟩, rfl⟩
        · rfl
        · exact absurd hle (not_le.mpr hone)
    · by_cases htwo : v.currStats.value 2 < u.currStats.value 2
      · simp only [hone, htwo, decide_false, decide_true, Option.map_some, Option.some.injEq]
        constructor
        · rintro rfl
          exact ⟨2, ⟨htwo, .inr ⟨rfl, not_lt.mp hone⟩⟩, rfl⟩
        · rintro ⟨key, ⟨hlt, rfl | ⟨rfl, -⟩⟩, rfl⟩
          · exact absurd hlt hone
          · rfl
      · simp only [hone, htwo, decide_false, Option.map_none, reduceCtorEq, false_iff]
        rintro ⟨key, ⟨hlt, rfl | ⟨rfl, -⟩⟩, -⟩
        · exact hone hlt
        · exact htwo hlt

theorem phaseEvents_genuine :
    ∀ e ∈ phaseEvents u fixture prevStatusId, Genuine fixture before u e :=
  forall_mem_phaseEvents (fun _ => trivial) trivial trivial trivial

theorem actionEvents_genuine_iff {prevStats : Option Stats} :
    (∀ e ∈ actionEvents u fixture prevStats, Genuine fixture before u e) ↔
      (u.action = some "goal" → u.isOwnGoal = false →
        ∀ team ∈ teamOf u fixture prevStats [1, 2], Scored fixture before u team) := by
  have hother : Genuine fixture before u (.unmapped fixture.fixtureId fixture.matchId u.ts u.seq) :=
    trivial
  have hgoal : u.action.getD "" = "goal" ↔ u.action = some "goal" := by
    cases u.action with
    | none => exact ⟨fun h => absurd h (by decide), fun h => by cases h⟩
    | some action => simp
  by_cases hisGoal : u.action = some "goal"
  · rw [actionEvents, if_pos (hgoal.mpr hisGoal)]
    simp only [hisGoal, true_imp_iff, List.forall_mem_map, Option.mem_toList]
    cases howngoal : u.isOwnGoal with
    | true => simp [hother]
    | false => simp [Genuine]
  · refine iff_of_true ?_ fun h => absurd h hisGoal
    exact forall_mem_actionEvents (fun h => absurd (hgoal.mp h) hisGoal) (fun _ _ => trivial)
      (fun _ _ => trivial) trivial

theorem keeps_finalScore : Keeps before u u.finalScore ↔
    ∀ other ∈ goalKeys, u.currStats other = none → lastTotal before other ≤ 0 := by
  have hzero {key : ℕ} (h : u.currStats key = none) : u.currStats.value key = 0 := by
    rw [Stats.value, h, Option.getD_none]
  simp only [goalKeys, List.forall_mem_cons, List.not_mem_nil, false_imp_iff, implies_true,
    and_true, Keeps, ScoreUpdate.finalScore]
  constructor
  · rintro ⟨hhome, haway⟩
    exact ⟨fun h => (hhome h).trans_eq (hzero h), fun h => (haway h).trans_eq (hzero h)⟩
  · rintro ⟨hhome, haway⟩
    exact ⟨fun h => (hhome h).trans_eq (hzero h).symm, fun h => (haway h).trans_eq (hzero h).symm⟩

theorem usFootballEvents_genuine_iff (hfootball : u.isUsFootball = true) :
    (∀ e ∈ usFootballEvents u fixture (before.getLast?.map ScoreUpdate.currStats),
        Genuine fixture before u e) ↔
      ∀ key, Raised before u key → teamFromStatKey key fixture ≠ "" →
        Scored fixture before u (teamFromStatKey key fixture) ∧
          ∀ other ∈ goalKeys, u.currStats other = none → lastTotal before other ≤ 0 := by
  rw [usFootballEvents, if_pos hfootball]
  simp only [List.forall_mem_map, Option.mem_toList, Option.mem_def, Option.filter_eq_some_iff,
    detect_eq_some, decide_eq_true_eq, Genuine, Option.some.injEq, forall_eq', keeps_finalScore]
  constructor
  · intro h key hraised hnamed
    exact h _ ⟨⟨key, hraised, rfl⟩, hnamed⟩
  · rintro h _ ⟨⟨key, hraised, rfl⟩, hnamed⟩
    exact h key hraised hnamed

/-- **One update.** -/
theorem normalize_genuine_iff (hfootball : u.isUsFootball = true) :
    (∀ e ∈ normalizeScoreUpdate u fixture (before.getLast?.map ScoreUpdate.currStats) prevStatusId,
        Genuine fixture before u e) ↔
      (u.isFinal = false → TotalsKept fixture before u) := by
  rw [normalizeScoreUpdate]
  cases hfinal : u.isFinal with
  | true => simp [Genuine]
  | false =>
    simp only [Bool.false_eq_true, if_false, true_imp_iff, List.forall_mem_append,
      actionEvents_genuine_iff, usFootballEvents_genuine_iff hfootball]
    constructor
    · rintro ⟨⟨-, hgoal⟩, hraised⟩
      refine ⟨fun haction hown team hteam hnamed => hgoal haction hown team ?_, hraised⟩
      simp [teamOf, hteam, hnamed]
    · intro h
      refine ⟨⟨phaseEvents_genuine, ?_⟩, h.raised⟩
      intro haction hown team hteam
      obtain ⟨hteam, hnamed⟩ := Option.mem_filter_iff.mp hteam
      have hnamed : team ≠ "" := of_decide_eq_true hnamed
      cases harg : teamArg u fixture with
      | some named =>
        rw [harg, Option.some_or] at hteam
        obtain rfl := Option.some.inj hteam
        exact h.goal haction hown _ harg hnamed
      | none =>
        rw [harg, Option.none_or] at hteam
        obtain ⟨key, hraised, rfl⟩ := detect_eq_some.mp hteam
        exact (h.raised key hraised hnamed).1

end Update

/-! ## Streams -/

/-- **When the score events of a stream are genuine.** -/
theorem football_scores_iff {fixtures : ℕ → Option Fixture} {fixture : Fixture}
    {us : List ScoreUpdate} (hstream : StreamOf fixtures fixture us)
    (hfootball : ∀ u ∈ us, u.isUsFootball = true) :
    (∀ before u after, us = before ++ u :: after →
      ∀ e ∈ LiveSource.events fixtures (LiveSource.after fixtures before) u,
        Genuine fixture before u e) ↔
    ∀ before u after, us = before ++ u :: after → u.isFinal = false →
      TotalsKept fixture before u := by
  have hupdate (before : List ScoreUpdate) (u : ScoreUpdate) (after : List ScoreUpdate)
      (h : us = before ++ u :: after) :
      (∀ e ∈ LiveSource.events fixtures (LiveSource.after fixtures before) u,
          Genuine fixture before u e) ↔ (u.isFinal = false → TotalsKept fixture before u) := by
    have hsplit : us = (before ++ [u]) ++ after := by
      rw [h, List.append_assoc, List.singleton_append]
    have hfront : StreamOf fixtures fixture (before ++ [u]) :=
      ⟨hstream.known, fun v hv => hstream.all v (hsplit ▸ List.mem_append_left _ hv)⟩
    have hu : u ∈ us := h ▸ List.mem_append_right _ (.head _)
    rw [hfront.events]
    exact normalize_genuine_iff (hfootball u hu)
  exact forall₄_congr hupdate

theorem totalsKept_of_complete {fixture : Fixture} {before : List ScoreUpdate} {u : ScoreUpdate}
    (hgoal : u.action ≠ some "goal") (hcomplete : ∀ key ∈ goalKeys, u.currStats key ≠ none)
    (hbefore : ∀ v ∈ before, ∀ key ∈ goalKeys, v.currStats key ≠ none) :
    TotalsKept fixture before u := by
  refine ⟨fun haction => absurd haction hgoal, ?_⟩
  rintro key ⟨v, hv, hlt, hkey⟩ -
  have hmem : key ∈ goalKeys := by
    rcases hkey with rfl | ⟨rfl, -⟩
    · exact .head _
    · exact .tail _ (.head _)
  refine ⟨⟨key, hmem, rfl, ?_⟩, fun other hother hnone => absurd hnone (hcomplete other hother)⟩
  obtain ⟨total, htotal⟩ := Option.ne_none_iff_exists'.mp (hcomplete key hmem)
  obtain ⟨last, hlast⟩ := Option.ne_none_iff_exists'.mp
    (hbefore v (List.mem_of_getLast? hv) key hmem)
  have hreported : lastTotal before key = last := by
    obtain ⟨front, rfl⟩ := List.getLast?_eq_some_iff.mp hv
    rw [lastTotal_concat, hlast, Option.getD_some]
  rw [Stats.value, Stats.value, hlast, htotal, Option.getD_some, Option.getD_some] at hlt
  exact ⟨total, htotal, hreported ▸ hlt⟩

namespace Sample

def football (seq : ℤ) (stats : Option (List (ℕ × ℤ))) : ScoreUpdate :=
  { update seq 2 "" [] with
    type := some "UsFootball"
    stats := stats.map fun totals key => totals.lookup key }

/-- Seven points, an update without statistics, and the same seven points again. -/
def repeated : List ScoreUpdate :=
  [football 1 (some [(1, 7), (2, 3)]), football 2 none, football 3 (some [(1, 7), (2, 3)])]

/-- The score grows on one side, and the total of the other one is left out. -/
def partly : List ScoreUpdate :=
  [football 1 (some [(1, 7), (2, 3)]), football 2 (some [(1, 14)])]

/-- The score grows on one side, and both totals are reported. -/
def complete : List ScoreUpdate :=
  [football 1 (some [(1, 7), (2, 3)]), football 2 (some [(1, 14), (2, 3)])]

theorem football_stream : StreamOf fixtures fixture repeated ∧ StreamOf fixtures fixture partly ∧
    StreamOf fixtures fixture complete := by
  refine ⟨⟨rfl, ?_⟩, ⟨rfl, ?_⟩, rfl, ?_⟩
  · simp [repeated, football, update, fixture]
  · simp [partly, football, update, fixture]
  · simp [complete, football, update, fixture]

theorem football_only : (∀ u ∈ repeated, u.isUsFootball = true) ∧
    (∀ u ∈ partly, u.isUsFootball = true) ∧ ∀ u ∈ complete, u.isUsFootball = true := by
  refine ⟨?_, ?_, ?_⟩
  · simp [repeated, football, ScoreUpdate.isUsFootball]
  · simp [partly, football, ScoreUpdate.isUsFootball]
  · simp [complete, football, ScoreUpdate.isUsFootball]

end Sample

/-- Two updates that report both totals, the second one with a touchdown. -/
theorem football_scores_iff_complete :
    StreamOf Sample.fixtures Sample.fixture Sample.complete ∧
    (∀ before u after, Sample.complete = before ++ u :: after →
      ∀ e ∈ LiveSource.events Sample.fixtures (LiveSource.after Sample.fixtures before) u,
        Genuine Sample.fixture before u e) ∧
    .goalScored 17615188 "CIT-ROV-17615188" "City" 1700000000000 2 (some 0) (some ⟨14, 3⟩) ∈
      LiveSource.events Sample.fixtures
        (LiveSource.after Sample.fixtures (Sample.complete.take 1))
        (Sample.football 2 (some [(1, 14), (2, 3)])) := by
  obtain ⟨-, -, hstream⟩ := Sample.football_stream
  have hgoal : ∀ u ∈ Sample.complete, u.action ≠ some "goal" := by
    simp [Sample.complete, Sample.football, Sample.update]
  have hcomplete : ∀ u ∈ Sample.complete, ∀ key ∈ goalKeys, u.currStats key ≠ none := by decide
  refine ⟨hstream, (football_scores_iff hstream Sample.football_only.2.2).mpr ?_, .head _⟩
  intro before u after hsplit _
  have hu : u ∈ Sample.complete :=
    hsplit ▸ List.mem_append_right _ (.head _)
  refine totalsKept_of_complete (hgoal u hu) (hcomplete u hu) fun v hv => ?_
  exact hcomplete v (hsplit ▸ List.mem_append_left _ hv)

/-- A touchdown is announced again after an update without statistics, and the three points of the
other side are gone when their total is left out. -/
theorem touchdown_announced_again :
    (StreamOf Sample.fixtures Sample.fixture Sample.repeated ∧
        (∀ u ∈ Sample.repeated, u.isUsFootball = true) ∧
      ∃ e ∈ LiveSource.events Sample.fixtures
          (LiveSource.after Sample.fixtures (Sample.repeated.take 2))
          (Sample.football 3 (some [(1, 7), (2, 3)])),
        ¬ Genuine Sample.fixture (Sample.repeated.take 2)
          (Sample.football 3 (some [(1, 7), (2, 3)])) e) ∧
    StreamOf Sample.fixtures Sample.fixture Sample.partly ∧
      (∀ u ∈ Sample.partly, u.isUsFootball = true) ∧
    ∃ e ∈ LiveSource.events Sample.fixtures
        (LiveSource.after Sample.fixtures (Sample.partly.take 1)) (Sample.football 2 (some [(1, 14)])),
      ¬ Genuine Sample.fixture (Sample.partly.take 1) (Sample.football 2 (some [(1, 14)])) e := by
  refine ⟨⟨Sample.football_stream.1, Sample.football_only.1, _, .head _, ?_⟩,
    Sample.football_stream.2.1, Sample.football_only.2.1, _, .head _, ?_⟩
  · rintro ⟨⟨key, hkey, -, total, htotal, hlt⟩, -⟩
    simp only [goalKeys, List.mem_cons, List.not_mem_nil, or_false] at hkey
    rcases hkey with rfl | rfl
    · obtain rfl := Option.some.inj (htotal.symm.trans (show _ = some 7 from rfl))
      exact absurd hlt (by decide)
    · obtain rfl := Option.some.inj (htotal.symm.trans (show _ = some 3 from rfl))
      exact absurd hlt (by decide)
  · rintro ⟨-, hkeeps⟩
    exact absurd ((hkeeps _ rfl).2 rfl) (by decide)

end Stoppage.Agent
