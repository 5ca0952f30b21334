import Stoppage.Agent.MatchLifecycle
import Stoppage.Agent.Tracking

/-! # The match state behind the quotes

The agent counts the goals and corners that the actions of the feed report, and the feed has its
own totals. The agent quotes after each event, and an update can lead to two: `quoted_state_iff`
compares what is quoted with the totals over whole streams.
-/

namespace Stoppage.Agent
set_option autoImplicit false

/-! ## Hearing an event -/

namespace World

/-- `onEvent` of `index.ts`, and the match state. -/
def registerTeams (w : World) (matchId home away : String) : World :=
  { w with teamNames := Function.update w.teamNames matchId (some (home, away)) }

def hear (w : World) (event : NormalizedEvent) : World :=
  match event with
  | .matchStarted _ matchId home away _ _ =>
    (w.registerTeams matchId home away).updateMatchState event
  | _ => w.updateMatchState event

end World

/-- The events of a stream of updates, each with its update. -/
def LiveSource.fed (fixtures : ℕ → Option Fixture) :
    LiveSource → List ScoreUpdate → List (ScoreUpdate × NormalizedEvent)
  | _, [] => []
  | s, u :: us => (events fixtures s u).map (u, ·) ++ fed fixtures (keep fixtures s u) us

/-- The agent after an event, when it quotes, and the update whose `seq` the quotes have. -/
structure Moment where
  world : World
  update : Option ScoreUpdate

namespace Moment

def hear (m : Moment) (fed : ScoreUpdate × NormalizedEvent) : Moment :=
  ⟨m.world.hear fed.2, if fed.2.seq?.isSome then some fed.1 else m.update⟩

/-- The moments after each of the events. -/
def hearEach (m : Moment) : List (ScoreUpdate × NormalizedEvent) → List Moment
  | [] => []
  | e :: rest => m.hear e :: (m.hear e).hearEach rest

theorem hearEach_append (m : Moment) (xs ys : List (ScoreUpdate × NormalizedEvent)) :
    m.hearEach (xs ++ ys) = m.hearEach xs ++ (xs.foldl hear m).hearEach ys := by
  induction xs generalizing m with
  | nil => rfl
  | cons x xs ih => exact congrArg _ (ih (m.hear x))

end Moment

/-! ## What the feed reports -/

/-- The goals and corners reported so far, whether the kick-off was, without which no team is known
by name, and the last update that was reported with its `seq`. -/
structure Tally where
  score : Score
  corners : Corners
  kickedOff : Bool
  update : Option ScoreUpdate

def Tally.seq (t : Tally) : ℤ := (t.update.map ScoreUpdate.seq).getD 0

def Tally.asOf (t : Tally) (u : ScoreUpdate) : Tally := { t with update := some u }

/-- One for the side of the team. -/
def credit (fixture : Fixture) (team : String) (home away : ℤ) : ℤ × ℤ :=
  if team = fixture.participant1 then (home + 1, away)
  else if team = fixture.participant2 then (home, away + 1)
  else (home, away)

def Tally.goal (t : Tally) (fixture : Fixture) (team : String) : Tally :=
  { t with
    score := ⟨(credit fixture team t.score.home t.score.away).1,
      (credit fixture team t.score.home t.score.away).2⟩ }

def Tally.corner (t : Tally) (fixture : Fixture) (team : String) : Tally :=
  { t with
    corners := ⟨(credit fixture team t.corners.home t.corners.away).1,
      (credit fixture team t.corners.home t.corners.away).2⟩ }

/-- What the action of an update reports: a goal that is no own goal, or a corner, of the team it
names or whose statistic rose. -/
def Tally.act (fixture : Fixture) (prevStats : Option Stats) (t : Tally) (u : ScoreUpdate) :
    Tally :=
  if t.kickedOff = false then t
  else if u.action = some "goal" then
    match teamOf u fixture prevStats [1, 2] with
    | some team => if u.isOwnGoal then t else t.goal fixture team
    | none => t
  else if u.action = some "corner" then
    match teamOf u fixture prevStats [7, 8] with
    | some team => t.corner fixture team
    | none => t
  else t

/-- The report of a change of phase. A kick-off has no `seq`. -/
def Tally.phase (fixture : Fixture) (prevStatusId : ℤ) (t : Tally) (u : ScoreUpdate) :
    List Tally :=
  if u.status = 2 ∧ prevStatusId < 2 then [{ t with kickedOff := true }]
  else if phaseEvents u fixture prevStatusId = [] then []
  else [t.asOf u]

/-- The report of an action. -/
def Tally.action (fixture : Fixture) (prevStats : Option Stats) (t : Tally) (u : ScoreUpdate) :
    List Tally :=
  if actionEvents u fixture prevStats = [] then []
  else [(t.act fixture prevStats u).asOf u]

/-- The reports of an update behind the updates `before`. -/
def Tally.reports (fixture : Fixture) (before : List ScoreUpdate) (t : Tally) (u : ScoreUpdate) :
    List Tally :=
  if u.isFinal then [{ t with score := u.finalScore }.asOf u]
  else
    let phase := t.phase fixture (lastStatus before) u
    phase ++ (phase.getLastD t).action fixture (before.getLast?.map ScoreUpdate.currStats) u

def talliesFrom (fixture : Fixture) : List ScoreUpdate → Tally → List ScoreUpdate → List Tally
  | _, _, [] => []
  | before, t, u :: us =>
    let reports := t.reports fixture before u
    reports ++ talliesFrom fixture (before ++ [u]) (reports.getLastD t) us

/-- The tallies after each report of a stream. -/
def tallies (fixture : Fixture) (us : List ScoreUpdate) : List Tally :=
  talliesFrom fixture [] ⟨⟨0, 0⟩, ⟨0, 0⟩, false, none⟩ us

/-- The totals reported are those in the statistics of the last update, if it has any. -/
def Tally.MatchesFeed (t : Tally) : Prop :=
  ∀ u stats, t.update = some u → u.stats = some stats →
    t.score = ⟨stats.value 1, stats.value 2⟩ ∧ t.corners = ⟨stats.value 7, stats.value 8⟩

/-! ## The match state follows the reports -/

/-- The state of the match in the agent is the tally. -/
structure Shows (fixture : Fixture) (w : World) (t : Tally) : Prop where
  registered : w.matchToFixture fixture.matchId = some fixture.fixtureId
  named : fixture.matchId ≠ ""
  teams : w.teamNames fixture.matchId =
    if t.kickedOff then some (fixture.participant1, fixture.participant2) else none
  score : ((w.matchState fixture.matchId).getD
    (World.freshMatchState fixture.fixtureId)).score = t.score
  corners : ((w.matchState fixture.matchId).getD
    (World.freshMatchState fixture.fixtureId)).corners = t.corners
  seq : ((w.matchState fixture.matchId).getD
    (World.freshMatchState fixture.fixtureId)).seq = t.seq

theorem World.advance_seq (w : World) (matchId : String) (s : MatchState) (e : NormalizedEvent) :
    (w.advance matchId s e).seq = s.seq := by
  cases e with
  | cardShown fixtureId matchId team card ts seq =>
    cases card <;>
    · simp only [World.advance]
      split_ifs <;> rfl
  | goalScored fixtureId matchId team ts seq minute score =>
    cases score with
    | none =>
      simp only [World.advance]
      split_ifs <;> rfl
    | some score => rfl
  | cornerAwarded fixtureId matchId team ts seq =>
    simp only [World.advance]
    split_ifs <;> rfl
  | _ => rfl

section Hear
variable {fixture : Fixture} {w : World} {t : Tally} {e : NormalizedEvent} {u : ScoreUpdate}

theorem updateMatchState_of (hm : e.matchId? = some fixture.matchId) (h : Shows fixture w t) :
    ∃ ms, w.updateMatchState e =
        { w with matchState := Function.update w.matchState fixture.matchId (some ms) } ∧
      ms.seq = e.seq?.getD t.seq ∧
      ∃ prev, prev.score = t.score ∧ prev.corners = t.corners ∧
        ms.score = (w.advance fixture.matchId prev e).score ∧
        ms.corners = (w.advance fixture.matchId prev e).corners := by
  rw [World.updateMatchState, hm]
  simp only
  rw [if_neg h.named, h.registered]
  let prev := (w.matchState fixture.matchId).getD (World.freshMatchState fixture.fixtureId)
  let next := w.advance fixture.matchId { prev with seq := e.seq?.getD prev.seq } e
  refine ⟨{ next with minute := e.minute?.getD next.minute }, rfl, ?_,
    { prev with seq := e.seq?.getD prev.seq }, h.score, h.corners, rfl, rfl⟩
  exact (World.advance_seq ..).trans (congrArg (e.seq?.getD ·) h.seq)

/-- The state shows the tally, and it is there. -/
structure Known (fixture : Fixture) (w : World) (t : Tally) : Prop where
  shows : Shows fixture w t
  there : ∃ ms, w.matchState fixture.matchId = some ms

theorem Shows.of_advance (h : Shows fixture w t) (hm : e.matchId? = some fixture.matchId)
    {t' : Tally} (hkick : t'.kickedOff = t.kickedOff) (hseq : t'.seq = e.seq?.getD t.seq)
    (hadvance : ∀ prev : MatchState, prev.score = t.score → prev.corners = t.corners →
      (w.advance fixture.matchId prev e).score = t'.score ∧
        (w.advance fixture.matchId prev e).corners = t'.corners) :
    Known fixture (w.updateMatchState e) t' := by
  obtain ⟨ms, hw, hmseq, prev, hscore, hcorners, hms, hms'⟩ := updateMatchState_of hm h
  obtain ⟨hs, hc⟩ := hadvance prev hscore hcorners
  rw [hw]
  refine ⟨⟨h.registered, h.named, ?_, ?_, ?_, ?_⟩, ms, Function.update_self ..⟩
  · rw [hkick]
    exact h.teams
  · simp only [Function.update_self, Option.getD_some, hms, hs]
  · simp only [Function.update_self, Option.getD_some, hms', hc]
  · simp only [Function.update_self, Option.getD_some, hmseq, hseq]

/-- An event of an update of the match that moves neither the score nor the corners. -/
structure NormalizedEvent.Still (matchId : String) (u : ScoreUpdate) (e : NormalizedEvent) :
    Prop where
  ofMatch : e.matchId? = some matchId
  seq : e.seq? = some u.seq
  notStarted : e.isMatchStarted = false
  score : ∀ (w : World) (s : MatchState), (w.advance matchId s e).score = s.score
  corners : ∀ (w : World) (s : MatchState), (w.advance matchId s e).corners = s.corners

theorem World.hear_of_notStarted (h : e.isMatchStarted = false) :
    w.hear e = w.updateMatchState e := by
  cases e <;> first | rfl | cases h

theorem Shows.hear_still (h : Shows fixture w t) (he : e.Still fixture.matchId u) :
    Known fixture (w.hear e) (t.asOf u) := by
  rw [World.hear_of_notStarted he.notStarted]
  refine h.of_advance he.ofMatch rfl ?_ fun prev hscore hcorners => ⟨?_, ?_⟩
  · rw [he.seq]
    rfl
  · rw [he.score, hscore]
    rfl
  · rw [he.corners, hcorners]
    rfl

theorem Shows.hear_started (h : Shows fixture w t) (competitionId : Option ℕ) (ts : ℕ) :
    Known fixture (w.hear (.matchStarted fixture.fixtureId fixture.matchId fixture.participant1
      fixture.participant2 competitionId ts)) { t with kickedOff := true } := by
  have hteams : Shows fixture (w.registerTeams fixture.matchId fixture.participant1
      fixture.participant2) { t with kickedOff := true } := by
    refine ⟨h.registered, h.named, ?_, h.score, h.corners, h.seq⟩
    rw [World.registerTeams, if_pos rfl]
    exact Function.update_self ..
  rw [World.hear]
  exact hteams.of_advance rfl rfl rfl fun prev hscore hcorners => ⟨hscore, hcorners⟩

/-- The side of a team that the agent credits is the one that the tally credits. -/
theorem Shows.credited (h : Shows fixture w t) {team : String} (hteam : team ≠ "") {α : Type}
    (home away other : α) :
    (if team = w.homeTeamFor fixture.matchId then home
      else if team = w.awayTeamFor fixture.matchId then away else other) =
    if t.kickedOff = false then other
      else if team = fixture.participant1 then home
      else if team = fixture.participant2 then away else other := by
  rw [World.homeTeamFor, World.awayTeamFor, h.teams]
  cases t.kickedOff with
  | false => exact (if_neg hteam).trans (if_neg hteam)
  | true => rfl

theorem Shows.hear_goal (h : Shows fixture w t) {team : String} (hteam : team ≠ "") :
    Known fixture (w.hear (.goalScored fixture.fixtureId fixture.matchId team u.ts u.seq none none))
      ((if t.kickedOff = false then t else t.goal fixture team).asOf u) := by
  rw [World.hear_of_notStarted rfl]
  refine h.of_advance rfl ?_ rfl fun prev hscore hcorners => ?_
  · split <;> rfl
  · simp only [World.advance, h.credited hteam]
    cases hkick : t.kickedOff with
    | false => exact ⟨hscore, hcorners⟩
    | true =>
      simp only [Bool.true_eq_false, if_false, Tally.goal, Tally.asOf, credit]
      split_ifs <;> simp [hscore, hcorners]

theorem Shows.hear_corner (h : Shows fixture w t) {team : String} (hteam : team ≠ "") :
    Known fixture (w.hear (.cornerAwarded fixture.fixtureId fixture.matchId team u.ts u.seq))
      ((if t.kickedOff = false then t else t.corner fixture team).asOf u) := by
  rw [World.hear_of_notStarted rfl]
  refine h.of_advance rfl ?_ rfl fun prev hscore hcorners => ?_
  · split <;> rfl
  · simp only [World.advance, h.credited hteam]
    cases hkick : t.kickedOff with
    | false => exact ⟨hscore, hcorners⟩
    | true =>
      simp only [Bool.true_eq_false, if_false, Tally.corner, Tally.asOf, credit]
      split_ifs <;> simp [hscore, hcorners]

theorem Shows.hear_ended (h : Shows fixture w t) (finalScore : Score) (stats : Stats)
    (minute : Option ℤ) :
    Known fixture (w.hear (.matchEnded fixture.fixtureId fixture.matchId finalScore stats u.ts u.seq
      minute)) ({ t with score := finalScore }.asOf u) := by
  rw [World.hear_of_notStarted rfl]
  exact h.of_advance rfl rfl rfl fun prev _ hcorners => ⟨rfl, hcorners⟩

/-! ## One event -/

theorem still_unmapped (fixture : Fixture) (u : ScoreUpdate) :
    (NormalizedEvent.unmapped fixture.fixtureId fixture.matchId u.ts u.seq).Still
      fixture.matchId u :=
  ⟨rfl, rfl, rfl, fun _ _ => rfl, fun _ _ => rfl⟩

theorem still_cardShown (fixture : Fixture) (u : ScoreUpdate) (team : String) (card : CardType) :
    (NormalizedEvent.cardShown fixture.fixtureId fixture.matchId team card u.ts u.seq).Still
      fixture.matchId u := by
  refine ⟨rfl, rfl, rfl, fun w s => ?_, fun w s => ?_⟩
  · cases card <;> simp only [World.advance] <;> split_ifs <;> rfl
  · cases card <;> simp only [World.advance] <;> split_ifs <;> rfl

theorem still_of_phase {prevStatusId : ℤ} (hkick : ¬ (u.status = 2 ∧ prevStatusId < 2)) :
    ∀ e ∈ phaseEvents u fixture prevStatusId, e.Still fixture.matchId u :=
  forall_mem_phaseEvents (fun h => absurd h hkick) ⟨rfl, rfl, rfl, fun _ _ => rfl, fun _ _ => rfl⟩
    ⟨rfl, rfl, rfl, fun _ _ => rfl, fun _ _ => rfl⟩ (still_unmapped fixture u)

theorem length_phaseEvents_le (u : ScoreUpdate) (fixture : Fixture) (prevStatusId : ℤ) :
    (phaseEvents u fixture prevStatusId).length ≤ 1 := by
  simp only [phaseEvents]
  split_ifs <;> simp

theorem length_actionEvents_le (u : ScoreUpdate) (fixture : Fixture) (prevStats : Option Stats) :
    (actionEvents u fixture prevStats).length ≤ 1 := by
  have htoList {α β : Type} (o : Option α) (f : α → β) : (o.toList.map f).length ≤ 1 := by
    cases o <;> simp
  simp only [actionEvents]
  split_ifs <;> first | exact htoList _ _ | simp

theorem ne_of_teamOf {prevStats : Option Stats} {keys : List ℕ} {team : String}
    (h : teamOf u fixture prevStats keys = some team) : team ≠ "" := by
  rw [teamOf, Option.filter_eq_some_iff] at h
  exact of_decide_eq_true h.2

/-- The event of an action brings the state to what the action reports. -/
theorem Shows.hear_action (h : Shows fixture w t) {prevStats : Option Stats}
    (he : e ∈ actionEvents u fixture prevStats) :
    Known fixture (w.hear e) ((t.act fixture prevStats u).asOf u) := by
  have hname (s : String) (hs : s ≠ "") : u.action.getD "" = s ↔ u.action = some s := by
    cases haction : u.action with
    | none => simp [Ne.symm hs]
    | some a => simp
  rw [Tally.act]
  by_cases hgoal : u.action = some "goal"
  · rw [actionEvents, if_pos ((hname "goal" (by decide)).mpr hgoal)] at he
    rw [if_pos hgoal]
    cases hteam : teamOf u fixture prevStats [1, 2] with
    | none =>
      rw [hteam] at he
      cases he
    | some team =>
      rw [hteam, Option.toList_some, List.map_singleton, List.mem_singleton] at he
      subst he
      cases hown : u.isOwnGoal with
      | true =>
        simp only [if_true, ite_self]
        exact h.hear_still (still_unmapped fixture u)
      | false => exact h.hear_goal (ne_of_teamOf hteam)
  · have hnoGoal := mt (hname "goal" (by decide)).mp hgoal
    rw [if_neg hgoal]
    by_cases hcorner : u.action = some "corner"
    · rw [actionEvents, if_neg hnoGoal, if_pos ((hname "corner" (by decide)).mpr hcorner)] at he
      rw [if_pos hcorner]
      cases hteam : teamOf u fixture prevStats [7, 8] with
      | none =>
        rw [hteam] at he
        cases he
      | some team =>
        rw [hteam, Option.toList_some, List.map_singleton, List.mem_singleton] at he
        subst he
        exact h.hear_corner (ne_of_teamOf hteam)
    · rw [if_neg hcorner, ite_self]
      refine h.hear_still (forall_mem_actionEvents (fun h => absurd h hnoGoal)
        (fun h => absurd ((hname "corner" (by decide)).mp h) hcorner) ?_
        (still_unmapped fixture u) e he)
      exact fun team card => still_cardShown fixture u team card

end Hear

/-! ## One update -/

/-- The moments after each of the events show the tallies of the reports, and the last one stays. -/
structure Follows (fixture : Fixture) (m : Moment) (fed : List (ScoreUpdate × NormalizedEvent))
    (t : Tally) (reports : List Tally) : Prop where
  each : List.Forall₂ (fun m t => Known fixture m.world t ∧ t.update = m.update) (m.hearEach fed)
    reports
  last : Shows fixture (fed.foldl Moment.hear m).world (reports.getLastD t) ∧
    (reports.getLastD t).update = (fed.foldl Moment.hear m).update

section Follow
variable {fixture : Fixture} {m : Moment} {t : Tally} {u : ScoreUpdate}

theorem Follows.nil (h : Shows fixture m.world t) (hupdate : t.update = m.update) :
    Follows fixture m [] t [] :=
  ⟨.nil, h, hupdate⟩

theorem Follows.single {e : NormalizedEvent} {t' : Tally} (h : Known fixture (m.world.hear e) t')
    (hupdate : t'.update = if e.seq?.isSome then some u else m.update) :
    Follows fixture m [(u, e)] t [t'] :=
  ⟨.cons ⟨h, hupdate⟩ .nil, h.shows, hupdate⟩

theorem Follows.append {xs ys : List (ScoreUpdate × NormalizedEvent)} {ts ts' : List Tally}
    (h : Follows fixture m xs t ts)
    (h' : Follows fixture (xs.foldl Moment.hear m) ys (ts.getLastD t) ts') :
    Follows fixture m (xs ++ ys) t (ts ++ ts') := by
  constructor
  · rw [Moment.hearEach_append]
    exact List.rel_append h.each h'.each
  · have hlast : (ts ++ ts').getLastD t = ts'.getLastD (ts.getLastD t) := by
      cases ts' with
      | nil => rw [List.append_nil, List.getLastD_nil]
      | cons a ts' => simp [List.getLastD_eq_getLast?]
    rw [hlast, List.foldl_append]
    exact h'.last

theorem follows_phase (h : Shows fixture m.world t) (hupdate : t.update = m.update)
    (prevStatusId : ℤ) :
    Follows fixture m ((phaseEvents u fixture prevStatusId).map (u, ·)) t
      (t.phase fixture prevStatusId u) := by
  rw [Tally.phase]
  by_cases hkick : u.status = 2 ∧ prevStatusId < 2
  · rw [phaseEvents_of_kickOff hkick, if_pos hkick]
    exact .single (h.hear_started fixture.competitionId u.ts) hupdate
  · rw [if_neg hkick]
    have hlength := length_phaseEvents_le u fixture prevStatusId
    have hstill := @still_of_phase fixture u _ hkick
    match phaseEvents u fixture prevStatusId, hlength, hstill with
    | [], _, _ => exact .nil h hupdate
    | [e], _, hstill =>
      have he := hstill e (.head _)
      exact .single (h.hear_still he) (by rw [he.seq]; rfl)

theorem follows_action (h : Shows fixture m.world t) (hupdate : t.update = m.update)
    (prevStats : Option Stats) :
    Follows fixture m ((actionEvents u fixture prevStats).map (u, ·)) t
      (t.action fixture prevStats u) := by
  rw [Tally.action]
  have hlength := length_actionEvents_le u fixture prevStats
  have hhear {e : NormalizedEvent} (he : e ∈ actionEvents u fixture prevStats) :=
    h.hear_action he
  have hseq : ∀ e ∈ actionEvents u fixture prevStats, e.seq?.isSome = true :=
    forall_mem_actionEvents (fun _ _ => rfl) (fun _ _ => rfl) (fun _ _ => rfl) rfl
  match actionEvents u fixture prevStats, hlength, @hhear, hseq with
  | [], _, _, _ => exact .nil h hupdate
  | [e], _, hhear, hseq => exact .single (hhear (.head _)) (by rw [hseq e (.head _)]; rfl)

/-- The events of an update of a soccer match, one by one, bring the state to what the update
reports. -/
theorem follows_update (h : Shows fixture m.world t) (hupdate : t.update = m.update)
    (before : List ScoreUpdate) (hsoccer : u.isUsFootball = false) :
    Follows fixture m ((normalizeScoreUpdate u fixture (before.getLast?.map ScoreUpdate.currStats)
      (lastStatus before)).map (u, ·)) t (t.reports fixture before u) := by
  rw [normalizeScoreUpdate, Tally.reports]
  split
  · exact .single (h.hear_ended u.finalScore u.currStats _) rfl
  · rw [usFootballEvents, hsoccer, if_neg Bool.false_ne_true, List.append_nil, List.map_append]
    have hphase := follows_phase (u := u) h hupdate (lastStatus before)
    exact hphase.append (follows_action hphase.last.1 hphase.last.2 _)

/-! ## Streams -/

/-- The match is registered, and none of its events was heard. -/
structure Registered (fixture : Fixture) (w : World) : Prop where
  fixtureId : w.matchToFixture fixture.matchId = some fixture.fixtureId
  named : fixture.matchId ≠ ""
  noTeams : w.teamNames fixture.matchId = none
  noState : w.matchState fixture.matchId = none

theorem Registered.shows {w : World} (h : Registered fixture w) :
    Shows fixture w ⟨⟨0, 0⟩, ⟨0, 0⟩, false, none⟩ := by
  refine ⟨h.fixtureId, h.named, h.noTeams, ?_, ?_, ?_⟩ <;>
  · rw [h.noState]
    rfl

theorem follows_stream {fixtures : ℕ → Option Fixture} {before us : List ScoreUpdate}
    (h : Shows fixture m.world t) (hupdate : t.update = m.update)
    (hstream : StreamOf fixtures fixture (before ++ us))
    (hsoccer : ∀ u ∈ us, u.isUsFootball = false) :
    Follows fixture m (LiveSource.fed fixtures (LiveSource.after fixtures before) us) t
      (talliesFrom fixture before t us) := by
  induction us generalizing before m t with
  | nil => exact .nil h hupdate
  | cons u us ih =>
    rw [List.append_cons] at hstream
    have hinit : StreamOf fixtures fixture (before ++ [u]) :=
      ⟨hstream.known, fun v hv => hstream.all v (List.mem_append_left _ hv)⟩
    rw [LiveSource.fed, talliesFrom, ← LiveSource.after_concat, hinit.events]
    have hfirst := follows_update h hupdate before (hsoccer u (.head _))
    exact hfirst.append (ih hfirst.last.1 hfirst.last.2 hstream fun v hv =>
      hsoccer v (.tail _ hv))

end Follow

theorem forall_mem_iff_of_forall₂ {α β : Type} {R : α → β → Prop} {P : α → Prop} {Q : β → Prop}
    {xs : List α} {ys : List β} (h : List.Forall₂ R xs ys) (hiff : ∀ x y, R x y → (P x ↔ Q y)) :
    (∀ x ∈ xs, P x) ↔ ∀ y ∈ ys, Q y := by
  induction h with
  | nil => simp only [List.not_mem_nil, false_imp_iff, implies_true]
  | cons hxy _ ih => rw [List.forall_mem_cons, List.forall_mem_cons, hiff _ _ hxy, ih]

/-! ## Quotes -/

/-- What is quoted for the match after the event, whichever markets of it are tracked, has the `seq`
of the update and the totals of its statistics. -/
def Moment.QuotesFeed (cfg : AgentConfig) (matchId : String) (m : Moment) : Prop :=
  ∀ u stats, m.update = some u → u.stats = some stats →
    ∀ e markets q, e.matchId? = some matchId →
      .quoteMarket q ∈ quotesFor cfg e { m.world with openMarkets := markets } →
      q.snapshot.seq = u.seq ∧ q.snapshot.score = ⟨stats.value 1, stats.value 2⟩ ∧
        q.snapshot.corners = ⟨stats.value 7, stats.value 8⟩

section Quote
variable {cfg : AgentConfig} {fixture : Fixture} {w : World}

theorem mem_quotesFor {e : NormalizedEvent} {ms : MatchState} {markets : List OpenMarket}
    {q : QuoteAction} {matchId : String} (he : e.matchId? = some matchId)
    (hms : w.matchState matchId = some ms)
    (h : .quoteMarket q ∈ quotesFor cfg e { w with openMarkets := markets }) :
    q.snapshot.seq = ms.seq ∧ q.snapshot.score = ms.score ∧ q.snapshot.corners = ms.corners := by
  simp only [quotesFor, he, hms] at h
  split at h
  · obtain ⟨q', hq', heq⟩ := List.mem_map.mp h
    obtain ⟨market, -, rfl⟩ := List.mem_map.mp hq'
    cases heq
    exact ⟨rfl, rfl, rfl⟩
  · cases h

/-- A market of the match is quoted. -/
theorem exists_quote {matchId : String} {ms : MatchState} (hquotes : cfg.quoteTracker = true)
    (hnamed : matchId ≠ "") (hms : w.matchState matchId = some ms) :
    ∃ e markets q, e.matchId? = some matchId ∧
      .quoteMarket q ∈ quotesFor cfg e { w with openMarkets := markets } := by
  let e : NormalizedEvent := .unmapped 0 matchId 0 0
  let market : OpenMarket := ⟨⟨.totalGoalsOver, matchId, ⟨none, none, none, none⟩⟩, "", 0, 0,
    ⟨List.replicate 32 0, rfl⟩⟩
  have hquoted : quotesFor cfg e { w with openMarkets := [market] } =
      (quoteOpenMarkets matchId ms.fixtureId ms.minute ms.score ms.corners ms.cards ms.seq e.ts
        [market]).map .quoteMarket := by
    simp only [quotesFor, e, NormalizedEvent.matchId?, hms, if_pos (And.intro hnamed hquotes)]
  have hmarket : market ∈ [market].filter fun m => m.predicate.matchId = matchId :=
    List.mem_filter.mpr ⟨List.mem_singleton_self market, decide_eq_true rfl⟩
  exact ⟨e, [market], _, rfl, hquoted ▸ List.mem_map_of_mem (List.mem_map_of_mem hmarket)⟩

theorem Known.quotes_iff {m : Moment} {t : Tally} (h : Known fixture m.world t)
    (hupdate : t.update = m.update) (hquotes : cfg.quoteTracker = true) :
    m.QuotesFeed cfg fixture.matchId ↔ t.MatchesFeed := by
  obtain ⟨⟨-, hnamed, -, hscore, hcorners, hseq⟩, ms, hms⟩ := h
  rw [hms, Option.getD_some] at hscore hcorners hseq
  rw [Moment.QuotesFeed, Tally.MatchesFeed, hupdate]
  constructor
  · intro hall u stats hu hstats
    obtain ⟨e, markets, q, he, hq⟩ := exists_quote hquotes hnamed hms
    obtain ⟨-, hs, hc⟩ := mem_quotesFor he hms hq
    obtain ⟨-, hs', hc'⟩ := hall u stats hu hstats e markets q he hq
    exact ⟨hscore ▸ hs ▸ hs', hcorners ▸ hc ▸ hc'⟩
  · intro hall u stats hu hstats e markets q he hq
    obtain ⟨hq, hs, hc⟩ := mem_quotesFor he hms hq
    obtain ⟨hs', hc'⟩ := hall u stats hu hstats
    refine ⟨?_, hs.trans (hscore.trans hs'), hc.trans (hcorners.trans hc')⟩
    rw [hq, hseq, Tally.seq, hupdate, hu]
    rfl

end Quote

/-- **The quoted state and the feed.** In every stream of updates of a soccer match, whatever is
quoted after any of its events with the `seq` of an update with statistics has the score and the
corners of these statistics, exactly when at each report of such an update these are what the
actions of the feed have reported so far. -/
theorem quoted_state_iff {cfg : AgentConfig} {fixtures : ℕ → Option Fixture} {fixture : Fixture}
    {us : List ScoreUpdate} {w : World} (hquotes : cfg.quoteTracker = true)
    (hstream : StreamOf fixtures fixture us) (hsoccer : ∀ u ∈ us, u.isUsFootball = false)
    (hw : Registered fixture w) :
    (∀ m ∈ Moment.hearEach ⟨w, none⟩ (LiveSource.fed fixtures .create us),
      m.QuotesFeed cfg fixture.matchId) ↔
    ∀ t ∈ tallies fixture us, t.MatchesFeed := by
  have hfollows := (@follows_stream fixture ⟨w, none⟩ _ _ [] us hw.shows rfl hstream hsoccer).each
  exact forall_mem_iff_of_forall₂ hfollows fun m t hknown => hknown.1.quotes_iff hknown.2 hquotes

namespace Sample

/-- The fixture of the samples is registered. -/
def registered : World where
  now := 0
  running := true
  openMarkets := []
  matchToFixture := fun m => if m = fixture.matchId then some fixture.fixtureId else none
  matchState := fun _ => none
  teamNames := fun _ => none
  pendingSettlements := .empty
  file := none
  writable := true
  submitted := []
  confirmed := []

theorem registered_fixture : Registered fixture registered := ⟨rfl, by decide, rfl, rfl⟩

def quoted : AgentConfig := { config with quoteTracker := true }

def kickOff : ScoreUpdate := update 1 2 "kickoff" []

/-- An own goal of the home side. -/
def ownGoal : ScoreUpdate :=
  { update 2 2 "goal" [(2, 1)] with
    data := fun key => if key = "own_goal" then some (.bool true) else none
    participant := some 1 }

theorem ownGoal_stream : StreamOf fixtures fixture [kickOff, ownGoal] :=
  ⟨rfl, by simp [kickOff, ownGoal, update, fixture]⟩

theorem ownGoal_soccer : ∀ u ∈ [kickOff, ownGoal], u.isUsFootball = false := by
  simp [kickOff, ownGoal, update, ScoreUpdate.isUsFootball]

/-- A goal of the home side as the second half begins. -/
def goalAtRestart : ScoreUpdate :=
  { update 2 4 "goal" [(1, 1)] with participant := some 1 }

/-- The feed has 0:1 after the own goal, and the agent has 0:0. -/
theorem ownGoal_moment : ∃ m ∈ Moment.hearEach ⟨registered, none⟩
    (LiveSource.fed fixtures .create [kickOff, ownGoal]), m.update = some ownGoal ∧
      ∃ ms, m.world.matchState fixture.matchId = some ms ∧ ms.score = ⟨0, 0⟩ :=
  ⟨_, List.mem_of_getElem? (i := 2) rfl, rfl, _, rfl, rfl⟩

/-- An update that begins the second half and reports a goal is quoted twice: first without the
goal. -/
example : (Moment.hearEach ⟨registered, none⟩
    (LiveSource.fed fixtures .create [kickOff, goalAtRestart])).map (fun m =>
      (m.update.map ScoreUpdate.seq, (m.world.matchState fixture.matchId).map MatchState.score)) =
    [(none, some ⟨0, 0⟩), (some 1, some ⟨0, 0⟩), (some 2, some ⟨0, 0⟩), (some 2, some ⟨1, 0⟩)] := by
  decide +kernel

end Sample

theorem quoted_state_iff_sample :
    Sample.quoted.quoteTracker = true ∧
      StreamOf Sample.fixtures Sample.fixture [Sample.kickOff, Sample.ownGoal] ∧
      Registered Sample.fixture Sample.registered ∧
      ((∀ m ∈ Moment.hearEach ⟨Sample.registered, none⟩
          (LiveSource.fed Sample.fixtures .create [Sample.kickOff, Sample.ownGoal]),
        m.QuotesFeed Sample.quoted Sample.fixture.matchId) ↔
      ∀ t ∈ tallies Sample.fixture [Sample.kickOff, Sample.ownGoal], t.MatchesFeed) ∧
      ¬ ∀ t ∈ tallies Sample.fixture [Sample.kickOff, Sample.ownGoal], t.MatchesFeed := by
  refine ⟨rfl, Sample.ownGoal_stream, Sample.registered_fixture, quoted_state_iff rfl
    Sample.ownGoal_stream Sample.ownGoal_soccer Sample.registered_fixture, fun h => ?_⟩
  have hreported : tallies Sample.fixture [Sample.kickOff, Sample.ownGoal] =
      [⟨⟨0, 0⟩, ⟨0, 0⟩, true, none⟩, ⟨⟨0, 0⟩, ⟨0, 0⟩, true, some Sample.kickOff⟩,
        ⟨⟨0, 0⟩, ⟨0, 0⟩, true, some Sample.ownGoal⟩] := rfl
  rw [hreported] at h
  exact absurd (h _ (.tail _ (.tail _ (.head _))) _ _ rfl rfl).1 (by decide +kernel)

/-- An own goal is in the statistics of the feed and not in what is quoted. -/
theorem own_goal_missed : ¬ ∀ (cfg : AgentConfig) (fixtures : ℕ → Option Fixture)
    (fixture : Fixture) (us : List ScoreUpdate) (w : World), cfg.quoteTracker = true →
    StreamOf fixtures fixture us → (∀ u ∈ us, u.isUsFootball = false) → Registered fixture w →
      ∀ m ∈ Moment.hearEach ⟨w, none⟩ (LiveSource.fed fixtures .create us),
        m.QuotesFeed cfg fixture.matchId := by
  intro h
  obtain ⟨m, hm, hupdate, ms, hms, hscore⟩ := Sample.ownGoal_moment
  have hquotes := h Sample.quoted _ _ _ _ rfl Sample.ownGoal_stream Sample.ownGoal_soccer
    Sample.registered_fixture m hm Sample.ownGoal _ hupdate rfl
  obtain ⟨e, markets, q, he, hq⟩ := @exists_quote Sample.quoted _ _ _ rfl
    Sample.registered_fixture.named hms
  have hquoted := (mem_quotesFor he hms hq).2.1.trans hscore
  have hfeed := hquoted.symm.trans (hquotes e markets q he hq).2.1
  exact absurd hfeed (by decide +kernel)

end Stoppage.Agent
