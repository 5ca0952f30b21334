import Stoppage.Agent.State

/-! # `packages/txline/src/normalizer.ts` and `apps/agent/src/source.ts`: the feed

Score updates become events by their action and by the edges of their status. The live source keeps
the last statistics and the last status of each fixture.
-/

namespace Stoppage.Agent
set_option autoImplicit false

/-! ## Updates -/

/-- Numbers by statistic key. -/
abbrev Stats := ℕ → Option ℤ

def Stats.value (stats : Stats) (key : ℕ) : ℤ := (stats key).getD 0

/-- What the normalizer tells apart in `Data`. -/
inductive Datum where
  | bool (b : Bool)
  | text (s : String)
deriving DecidableEq

structure ScoreUpdate where
  fixtureId : ℕ
  seq : ℤ
  ts : ℕ
  statusId : Option ℤ
  action : Option String
  type : Option String
  clockSeconds : Option ℤ
  stats : Option Stats
  data : String → Option Datum
  participant : Option ℤ

/-- A fixture with its `matchIdFromFixture`. -/
structure Fixture where
  fixtureId : ℕ
  competitionId : Option ℕ
  participant1 : String
  participant2 : String
  matchId : String

namespace ScoreUpdate

def status (u : ScoreUpdate) : ℤ := u.statusId.getD 0

def currStats (u : ScoreUpdate) : Stats := u.stats.getD fun _ => none

def isUsFootball (u : ScoreUpdate) : Bool := u.type = some "UsFootball"

/-- The branch for a finalised match. -/
def isFinal (u : ScoreUpdate) : Bool := u.action = some "game_finalised" || u.status = 100

def isOwnGoal (u : ScoreUpdate) : Bool :=
  u.data "own_goal" = some (.bool true) || u.data "ownGoal" = some (.bool true) ||
    u.data "type" = some (.text "own_goal")

def finalScore (u : ScoreUpdate) : Score := ⟨u.currStats.value 1, u.currStats.value 2⟩

end ScoreUpdate

/-! ## The normalizer -/

def teamFromParticipant (participant : ℤ) (fixture : Fixture) : String :=
  if participant = 1 then fixture.participant1 else fixture.participant2

def teamFromStatKey (statKey : ℕ) (fixture : Fixture) : String :=
  if statKey % 1000 % 2 = 1 then fixture.participant1 else fixture.participant2

def teamArg (update : ScoreUpdate) (fixture : Fixture) : Option String :=
  match update.participant with
  | none => none
  | some p => if p = 0 then none else some (teamFromParticipant p fixture)

def detectTeamFromStatDiff (prev : Option Stats) (curr : Stats) (candidateKeys : List ℕ)
    (fixture : Fixture) : Option String :=
  match prev with
  | none => none
  | some prev =>
    (candidateKeys.find? fun key => prev.value key < curr.value key).map (teamFromStatKey · fixture)

/-- `teamArg ?? detectTeamFromStatDiff(...)`, where the empty name counts as none. -/
def teamOf (update : ScoreUpdate) (fixture : Fixture) (prevStats : Option Stats)
    (candidateKeys : List ℕ) : Option String :=
  ((teamArg update fixture).or
    (detectTeamFromStatDiff prevStats update.currStats candidateKeys fixture)).filter (· ≠ "")

def phaseEvents (update : ScoreUpdate) (fixture : Fixture) (prevStatusId : ℤ) :
    List NormalizedEvent :=
  let statusId := update.status
  let other := NormalizedEvent.unmapped fixture.fixtureId fixture.matchId update.ts update.seq
  if prevStatusId = statusId then []
  else if statusId = 2 ∧ prevStatusId < 2 then
    [.matchStarted fixture.fixtureId fixture.matchId fixture.participant1 fixture.participant2
      fixture.competitionId update.ts]
  else if update.isUsFootball then []
  else if statusId = 3 ∧ prevStatusId < 3 then
    [.halftime fixture.fixtureId fixture.matchId update.ts update.seq]
  else if statusId = 4 ∧ prevStatusId < 4 then
    [.secondHalfStarted fixture.fixtureId fixture.matchId update.ts update.seq]
  -- extra time, penalty shootout, interruption and resumption
  else if statusId = 7 ∧ prevStatusId ≤ 7 then [other]
  else if statusId = 12 ∧ prevStatusId ≤ 12 then [other]
  else if statusId = 14 ∧ prevStatusId ≠ 14 then [other]
  else if statusId ∈ [2, 4, 7, 9] ∧ prevStatusId = 14 then [other]
  else []

def actionEvents (update : ScoreUpdate) (fixture : Fixture) (prevStats : Option Stats) :
    List NormalizedEvent :=
  let action := update.action.getD ""
  let other := NormalizedEvent.unmapped fixture.fixtureId fixture.matchId update.ts update.seq
  let team := teamOf update fixture prevStats
  let named := ((teamArg update fixture).filter (· ≠ "")).toList
  if action = "goal" then
    (team [1, 2]).toList.map fun t =>
      if update.isOwnGoal then other
      else .goalScored fixture.fixtureId fixture.matchId t update.ts update.seq none none
  else if action = "corner" then
    (team [7, 8]).toList.map fun t =>
      .cornerAwarded fixture.fixtureId fixture.matchId t update.ts update.seq
  else if action = "yellow_card" then
    (team [3, 4]).toList.map fun t =>
      .cardShown fixture.fixtureId fixture.matchId t .yellow update.ts update.seq
  else if action = "red_card" ∨ action = "second_yellow_card" then
    (team [5, 6]).toList.map fun t =>
      .cardShown fixture.fixtureId fixture.matchId t .red update.ts update.seq
  else if action ∈ ["shot", "substitution", "free_kick", "penalty"] then named.map fun _ => other
  else if action ∈ ["var", "var_review"] then [other]
  else if action ≠ "" ∧ update.isUsFootball = false ∧
      action ∉ ["game_finalised", "scheduled", "fixture_updated"] then [other]
  else []

section Events
variable {update : ScoreUpdate} {fixture : Fixture} {P : NormalizedEvent → Prop}

theorem forall_mem_ite {α : Type} {Q : α → Prop} {c : Prop} [Decidable c] {xs ys : List α}
    (hx : c → ∀ x ∈ xs, Q x) (hy : ∀ x ∈ ys, Q x) : ∀ x ∈ if c then xs else ys, Q x := by
  split
  · exact hx ‹c›
  · exact hy

theorem phaseEvents_of_kickOff {prevStatusId : ℤ} (h : update.status = 2 ∧ prevStatusId < 2) :
    phaseEvents update fixture prevStatusId =
      [.matchStarted fixture.fixtureId fixture.matchId fixture.participant1 fixture.participant2
        fixture.competitionId update.ts] := by
  rw [phaseEvents, if_neg (by omega), if_pos h]

theorem forall_mem_phaseEvents {prevStatusId : ℤ}
    (hstarted : update.status = 2 ∧ prevStatusId < 2 →
      P (.matchStarted fixture.fixtureId fixture.matchId fixture.participant1 fixture.participant2
        fixture.competitionId update.ts))
    (hhalftime : P (.halftime fixture.fixtureId fixture.matchId update.ts update.seq))
    (hsecond : P (.secondHalfStarted fixture.fixtureId fixture.matchId update.ts update.seq))
    (hother : P (.unmapped fixture.fixtureId fixture.matchId update.ts update.seq)) :
    ∀ e ∈ phaseEvents update fixture prevStatusId, P e := by
  have hother' := List.forall_mem_singleton.mpr hother
  rw [phaseEvents]
  refine forall_mem_ite (fun _ => List.forall_mem_nil P) (forall_mem_ite ?_ (forall_mem_ite
    (fun _ => List.forall_mem_nil P) (forall_mem_ite ?_ (forall_mem_ite ?_ (forall_mem_ite
      (fun _ => hother') (forall_mem_ite (fun _ => hother') (forall_mem_ite (fun _ => hother')
        (forall_mem_ite (fun _ => hother') (List.forall_mem_nil P)))))))))
  · exact fun hkick => List.forall_mem_singleton.mpr (hstarted hkick)
  · exact fun _ => List.forall_mem_singleton.mpr hhalftime
  · exact fun _ => List.forall_mem_singleton.mpr hsecond

theorem forall_mem_actionEvents {prevStats : Option Stats}
    (hgoal : update.action.getD "" = "goal" → ∀ team,
      P (.goalScored fixture.fixtureId fixture.matchId team update.ts update.seq none none))
    (hcorner : update.action.getD "" = "corner" → ∀ team,
      P (.cornerAwarded fixture.fixtureId fixture.matchId team update.ts update.seq))
    (hcard : ∀ team card,
      P (.cardShown fixture.fixtureId fixture.matchId team card update.ts update.seq))
    (hother : P (.unmapped fixture.fixtureId fixture.matchId update.ts update.seq)) :
    ∀ e ∈ actionEvents update fixture prevStats, P e := by
  have hother' := List.forall_mem_singleton.mpr hother
  rw [actionEvents]
  refine forall_mem_ite (fun hisGoal => ?_) (forall_mem_ite (fun hisCorner => ?_) (forall_mem_ite
    (fun _ => ?_) (forall_mem_ite (fun _ => ?_) (forall_mem_ite (fun _ => ?_) (forall_mem_ite
      (fun _ => hother') (forall_mem_ite (fun _ => hother') (List.forall_mem_nil P)))))))
  · refine List.forall_mem_map.mpr fun team _ => ?_
    split
    · exact hother
    · exact hgoal hisGoal team
  · exact List.forall_mem_map.mpr fun team _ => hcorner hisCorner team
  · exact List.forall_mem_map.mpr fun team _ => hcard team .yellow
  · exact List.forall_mem_map.mpr fun team _ => hcard team .red
  · exact List.forall_mem_map.mpr fun _ _ => hother

end Events

/-- `Math.round(quarterBase + (900 - clockSeconds) / 60)` -/
def usFootballMinute (statusId : ℤ) (clockSeconds : Option ℤ) : ℤ :=
  let quarterBase : ℤ :=
    if statusId = 3 ∨ statusId = 4 then 15
    else if statusId = 5 ∨ statusId = 6 then 30
    else if statusId = 7 ∨ statusId = 8 then 45
    else if statusId = 9 ∨ statusId = 100 then 60
    else 0
  match clockSeconds with
  | some seconds =>
    if statusId ∈ [2, 4, 6, 8] then (60 * quarterBase + (900 - seconds) + 30) / 60 else quarterBase
  | none => quarterBase

def usFootballEvents (update : ScoreUpdate) (fixture : Fixture) (prevStats : Option Stats) :
    List NormalizedEvent :=
  if update.isUsFootball then
    ((detectTeamFromStatDiff prevStats update.currStats [1, 2] fixture).filter (· ≠ "")).toList.map
      fun t => .goalScored fixture.fixtureId fixture.matchId t update.ts update.seq
        (some (usFootballMinute update.status update.clockSeconds)) (some update.finalScore)
  else []

def normalizeScoreUpdate (update : ScoreUpdate) (fixture : Fixture) (prevStats : Option Stats)
    (prevStatusId : ℤ) : List NormalizedEvent :=
  if update.isFinal then
    [.matchEnded fixture.fixtureId fixture.matchId update.finalScore update.currStats update.ts
      update.seq (if update.isUsFootball then some 60 else none)]
  else
    phaseEvents update fixture prevStatusId ++ actionEvents update fixture prevStats ++
      usFootballEvents update fixture prevStats

/-! ## The live source -/

structure LiveSource where
  prevStats : ℕ → Option Stats
  prevStatusId : ℕ → Option ℤ

namespace LiveSource

def create : LiveSource := ⟨fun _ => none, fun _ => none⟩

def events (fixtures : ℕ → Option Fixture) (s : LiveSource) (update : ScoreUpdate) :
    List NormalizedEvent :=
  match fixtures update.fixtureId with
  | none => []
  | some fixture =>
    normalizeScoreUpdate update fixture (s.prevStats update.fixtureId)
      ((s.prevStatusId update.fixtureId).getD 0)

def keep (fixtures : ℕ → Option Fixture) (s : LiveSource) (update : ScoreUpdate) : LiveSource :=
  match fixtures update.fixtureId with
  | none => s
  | some _ =>
    { prevStats := Function.update s.prevStats update.fixtureId (some update.currStats)
      prevStatusId :=
        if update.status = 0 then s.prevStatusId
        else Function.update s.prevStatusId update.fixtureId (some update.status) }

def after (fixtures : ℕ → Option Fixture) (us : List ScoreUpdate) : LiveSource :=
  us.foldl (keep fixtures) create

def emitted (fixtures : ℕ → Option Fixture) (us : List ScoreUpdate) : List NormalizedEvent :=
  (us.foldl (fun (r : LiveSource × List NormalizedEvent) u =>
    (keep fixtures r.1 u, r.2 ++ events fixtures r.1 u)) (create, [])).2

theorem after_concat (fixtures : ℕ → Option Fixture) (us : List ScoreUpdate) (u : ScoreUpdate) :
    after fixtures (us ++ [u]) = keep fixtures (after fixtures us) u := by
  rw [after, List.foldl_append]
  rfl

theorem emitted_concat (fixtures : ℕ → Option Fixture) (us : List ScoreUpdate) (u : ScoreUpdate) :
    emitted fixtures (us ++ [u]) = emitted fixtures us ++ events fixtures (after fixtures us) u := by
  have hsource : ∀ vs : List ScoreUpdate,
      (vs.foldl (fun (r : LiveSource × List NormalizedEvent) u =>
        (keep fixtures r.1 u, r.2 ++ events fixtures r.1 u)) (create, [])).1 = after fixtures vs := by
    intro vs
    induction vs using List.reverseRecOn with
    | nil => rfl
    | append_singleton vs v ih =>
      rw [List.foldl_append, after_concat, ← ih]
      rfl
  rw [emitted, List.foldl_append, ← hsource us]
  rfl

end LiveSource

/-! ## One fixture -/

/-- A stream of updates of one fixture that the source knows. -/
structure StreamOf (fixtures : ℕ → Option Fixture) (fixture : Fixture) (us : List ScoreUpdate) :
    Prop where
  known : fixtures fixture.fixtureId = some fixture
  all : ∀ u ∈ us, u.fixtureId = fixture.fixtureId

/-- The last status of a stream that is not zero. -/
def lastStatus (us : List ScoreUpdate) : ℤ :=
  ((us.map ScoreUpdate.status).filter (· ≠ 0)).getLast?.getD 0

section Stream
variable {fixtures : ℕ → Option Fixture} {fixture : Fixture} {us : List ScoreUpdate}
  {u : ScoreUpdate}

theorem StreamOf.init (h : StreamOf fixtures fixture (us ++ [u])) : StreamOf fixtures fixture us :=
  ⟨h.known, fun v hv => h.all v (List.mem_append_left _ hv)⟩

theorem StreamOf.last (h : StreamOf fixtures fixture (us ++ [u])) :
    u.fixtureId = fixture.fixtureId :=
  h.all u (List.mem_append_right _ (.head _))

theorem lastStatus_concat : lastStatus (us ++ [u]) =
    if u.status = 0 then lastStatus us else u.status := by
  rw [lastStatus, List.map_append, List.filter_append]
  split
  · rename_i hzero
    simp [lastStatus, hzero]
  · rename_i hstatus
    simp [hstatus]

theorem StreamOf.prevStatusId (h : StreamOf fixtures fixture us) :
    ((LiveSource.after fixtures us).prevStatusId fixture.fixtureId).getD 0 = lastStatus us := by
  induction us using List.reverseRecOn with
  | nil => rfl
  | append_singleton us u ih =>
    have hid := h.last
    rw [LiveSource.after_concat, LiveSource.keep, hid, h.known, lastStatus_concat]
    simp only
    split
    · exact ih h.init
    · rw [Function.update_self, Option.getD_some]

theorem StreamOf.prevStats (h : StreamOf fixtures fixture us) :
    (LiveSource.after fixtures us).prevStats fixture.fixtureId =
      us.getLast?.map ScoreUpdate.currStats := by
  induction us using List.reverseRecOn with
  | nil => rfl
  | append_singleton us u ih =>
    have hid := h.last
    rw [LiveSource.after_concat, LiveSource.keep, hid, h.known]
    simp only
    rw [Function.update_self, List.getLast?_concat]
    rfl

theorem StreamOf.events (h : StreamOf fixtures fixture (us ++ [u])) :
    LiveSource.events fixtures (LiveSource.after fixtures us) u =
      normalizeScoreUpdate u fixture (us.getLast?.map ScoreUpdate.currStats) (lastStatus us) := by
  rw [LiveSource.events, h.last, h.known]
  simp only
  rw [h.init.prevStats, h.init.prevStatusId]

end Stream

end Stoppage.Agent
