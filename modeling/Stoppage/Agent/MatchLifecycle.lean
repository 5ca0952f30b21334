import Stoppage.Agent.Feed

/-! # Kick-off and end of a match in the feed

A status edge announces the kick-off, and every finalised update announces the end, however often
it is sent. `lifecycle_once_iff` says for which streams both come once and in order.
-/

namespace Stoppage.Agent
set_option autoImplicit false

/-! ## Events -/

def NormalizedEvent.isMatchStarted : NormalizedEvent → Bool
  | .matchStarted .. => true
  | _ => false

def NormalizedEvent.isMatchEnded : NormalizedEvent → Bool
  | .matchEnded .. => true
  | _ => false

/-- At most one `match_started`, at most one `match_ended`, and none of the former after the
latter. -/
structure LifecycleOnce (events : List NormalizedEvent) : Prop where
  startedOnce : events.countP NormalizedEvent.isMatchStarted ≤ 1
  endedOnce : events.countP NormalizedEvent.isMatchEnded ≤ 1
  startedFirst : events.Pairwise fun e later =>
    e.isMatchEnded = true → later.isMatchStarted = false

/-! ## One update -/

/-- Neither of both. -/
def NormalizedEvent.Inner (e : NormalizedEvent) : Prop :=
  e.isMatchStarted = false ∧ e.isMatchEnded = false

theorem inner_of_mem_map {α : Type} {f : α → NormalizedEvent} {xs : List α}
    (h : ∀ x, (f x).Inner) : ∀ e ∈ xs.map f, e.Inner := by
  intro e he
  obtain ⟨x, -, rfl⟩ := List.mem_map.mp he
  exact h x

theorem countP_eq_zero_of_inner {events : List NormalizedEvent} (h : ∀ e ∈ events, e.Inner) :
    events.countP NormalizedEvent.isMatchStarted = 0 ∧
      events.countP NormalizedEvent.isMatchEnded = 0 := by
  constructor
  · exact List.countP_eq_zero.mpr fun e he => Bool.eq_false_iff.mp (h e he).1
  · exact List.countP_eq_zero.mpr fun e he => Bool.eq_false_iff.mp (h e he).2

section Update
variable (u : ScoreUpdate) (fixture : Fixture) (prevStats : Option Stats) (prevStatusId : ℤ)

theorem actionEvents_inner : ∀ e ∈ actionEvents u fixture prevStats, e.Inner :=
  forall_mem_actionEvents (fun _ _ => ⟨rfl, rfl⟩) (fun _ _ => ⟨rfl, rfl⟩) (fun _ _ => ⟨rfl, rfl⟩)
    ⟨rfl, rfl⟩

theorem usFootballEvents_inner : ∀ e ∈ usFootballEvents u fixture prevStats, e.Inner := by
  unfold usFootballEvents
  split
  · exact inner_of_mem_map fun t => ⟨rfl, rfl⟩
  · intro e he
    cases he

theorem countP_phaseEvents :
    (phaseEvents u fixture prevStatusId).countP NormalizedEvent.isMatchStarted =
        (if u.status = 2 ∧ prevStatusId < 2 then 1 else 0) ∧
      (phaseEvents u fixture prevStatusId).countP NormalizedEvent.isMatchEnded = 0 := by
  by_cases hkick : u.status = 2 ∧ prevStatusId < 2
  · rw [phaseEvents_of_kickOff hkick, if_pos hkick]
    exact ⟨rfl, rfl⟩
  · rw [if_neg hkick]
    exact countP_eq_zero_of_inner (forall_mem_phaseEvents (fun h => absurd h hkick) ⟨rfl, rfl⟩
      ⟨rfl, rfl⟩ ⟨rfl, rfl⟩)

/-- An update that is not final announces the kick-off at most, and at its edge. -/
theorem countP_normalizeScoreUpdate (h : u.isFinal = false) :
    (normalizeScoreUpdate u fixture prevStats prevStatusId).countP
        NormalizedEvent.isMatchStarted = (if u.status = 2 ∧ prevStatusId < 2 then 1 else 0) ∧
      (normalizeScoreUpdate u fixture prevStats prevStatusId).countP
        NormalizedEvent.isMatchEnded = 0 := by
  obtain ⟨hstarted, hended⟩ := countP_phaseEvents u fixture prevStatusId
  obtain ⟨ha, ha'⟩ := countP_eq_zero_of_inner (actionEvents_inner u fixture prevStats)
  obtain ⟨hf, hf'⟩ := countP_eq_zero_of_inner (usFootballEvents_inner u fixture prevStats)
  rw [normalizeScoreUpdate, h, if_neg Bool.false_ne_true]
  simp only [List.countP_append, hstarted, hended, ha, ha', hf, hf', Nat.add_zero, and_self]

end Update

/-! ## Streams -/

/-- Behind the updates `before`, the update announces the kick-off. -/
def KicksOff (before : List ScoreUpdate) (u : ScoreUpdate) : Prop :=
  u.isFinal = false ∧ u.status = 2 ∧ lastStatus before < 2

instance (before : List ScoreUpdate) (u : ScoreUpdate) : Decidable (KicksOff before u) :=
  inferInstanceAs (Decidable (_ ∧ _))

/-- One update of the stream is final at most, and one kicks off at most, before the final one. -/
structure Orderly (us : List ScoreUpdate) : Prop where
  finalOnce : ∀ before u between v after, us = before ++ u :: (between ++ v :: after) →
    v.isFinal = true → u.isFinal = false
  kickOffFirst : ∀ before u between v after, us = before ++ u :: (between ++ v :: after) →
    KicksOff (before ++ u :: between) v → u.isFinal = false ∧ ¬ KicksOff before u

section Stream
variable {fixtures : ℕ → Option Fixture} {fixture : Fixture} {us : List ScoreUpdate}
  {u : ScoreUpdate}

theorem countP_events (h : StreamOf fixtures fixture (us ++ [u])) :
    (LiveSource.events fixtures (LiveSource.after fixtures us) u).countP
        NormalizedEvent.isMatchStarted = (if KicksOff us u then 1 else 0) ∧
      (LiveSource.events fixtures (LiveSource.after fixtures us) u).countP
        NormalizedEvent.isMatchEnded = (if u.isFinal then 1 else 0) := by
  rw [h.events]
  cases hfinal : u.isFinal with
  | true =>
    rw [normalizeScoreUpdate, if_pos hfinal]
    simp [KicksOff, hfinal, NormalizedEvent.isMatchStarted, NormalizedEvent.isMatchEnded]
  | false =>
    obtain ⟨hstarted, hended⟩ := countP_normalizeScoreUpdate u fixture
      (us.getLast?.map ScoreUpdate.currStats) (lastStatus us) hfinal
    rw [hstarted, hended]
    simp [KicksOff, hfinal]

theorem countP_started_eq_zero_iff (h : StreamOf fixtures fixture us) :
    (LiveSource.emitted fixtures us).countP NormalizedEvent.isMatchStarted = 0 ↔
      ∀ before w after, us = before ++ w :: after → ¬ KicksOff before w := by
  induction us using List.reverseRecOn with
  | nil => simp [LiveSource.emitted]
  | append_singleton us u ih =>
    rw [LiveSource.emitted_concat, List.countP_append, (countP_events h).1, Nat.add_eq_zero_iff,
      ih h.init]
    constructor
    · rintro ⟨hbefore, hlast⟩ before w after heq
      rcases List.eq_nil_or_concat after with rfl | ⟨after, x, rfl⟩
      · obtain ⟨rfl, hw⟩ := List.append_inj' heq rfl
        cases hw
        simpa using hlast
      · rw [List.concat_eq_append, ← List.cons_append, ← List.append_assoc] at heq
        exact hbefore before w after (List.append_inj' heq rfl).1
    · intro hall
      refine ⟨fun before w after heq => hall before w (after ++ [u]) ?_, ?_⟩
      · rw [heq, List.append_assoc, List.cons_append]
      · simpa using hall us u [] rfl

theorem countP_ended_eq_zero_iff (h : StreamOf fixtures fixture us) :
    (LiveSource.emitted fixtures us).countP NormalizedEvent.isMatchEnded = 0 ↔
      ∀ w ∈ us, w.isFinal = false := by
  induction us using List.reverseRecOn with
  | nil => simp [LiveSource.emitted]
  | append_singleton us u ih =>
    rw [LiveSource.emitted_concat, List.countP_append, (countP_events h).2, Nat.add_eq_zero_iff,
      ih h.init]
    simp [or_imp, forall_and]

/-- The events so far are in order, and those of the next update stay so. -/
theorem lifecycleOnce_concat (h : StreamOf fixtures fixture (us ++ [u])) :
    LifecycleOnce (LiveSource.emitted fixtures (us ++ [u])) ↔
      LifecycleOnce (LiveSource.emitted fixtures us) ∧
      (u.isFinal = true →
        (LiveSource.emitted fixtures us).countP NormalizedEvent.isMatchEnded = 0) ∧
      (KicksOff us u →
        (LiveSource.emitted fixtures us).countP NormalizedEvent.isMatchEnded = 0 ∧
        (LiveSource.emitted fixtures us).countP NormalizedEvent.isMatchStarted = 0) := by
  obtain ⟨hstarted, hended⟩ := countP_events h
  rw [LiveSource.emitted_concat]
  generalize LiveSource.events fixtures (LiveSource.after fixtures us) u = new at hstarted hended
  generalize LiveSource.emitted fixtures us = old
  have hnever : KicksOff us u → u.isFinal = false := fun hkick => hkick.1
  have hstart : (∃ e ∈ new, e.isMatchStarted = true) ↔ KicksOff us u := by
    rw [← List.countP_pos_iff, hstarted]
    split <;> simp_all
  have hold : (∃ e ∈ old, e.isMatchEnded = true) ↔
      old.countP NormalizedEvent.isMatchEnded ≠ 0 := by
    rw [← List.countP_pos_iff, Nat.pos_iff_ne_zero]
  have hpairwise : new.Pairwise fun e later =>
      e.isMatchEnded = true → later.isMatchStarted = false := by
    have hany : new.Pairwise fun _ _ => True := List.pairwise_of_forall fun _ _ => trivial
    refine hany.imp_of_mem ?_
    intro e later he hlater _ hend
    by_contra hbegin
    have hkick := hstart.mp ⟨later, hlater, Bool.not_eq_false _ ▸ hbegin⟩
    have hpos := List.countP_pos_iff.mpr ⟨e, he, hend⟩
    rw [hended, hnever hkick] at hpos
    exact absurd hpos (by simp)
  constructor
  · rintro ⟨hs, he, hfirst⟩
    obtain ⟨hfirstOld, -, hcross⟩ := List.pairwise_append.mp hfirst
    rw [List.countP_append, hstarted] at hs
    rw [List.countP_append, hended] at he
    refine ⟨⟨by omega, by omega, hfirstOld⟩, ?_, ?_⟩
    · intro hfinal
      rw [if_pos hfinal] at he
      omega
    · intro hkick
      rw [if_pos hkick] at hs
      refine ⟨?_, by omega⟩
      by_contra hne
      obtain ⟨e, heOld, hend⟩ := hold.mpr hne
      obtain ⟨later, hlater, hbegin⟩ := hstart.mpr hkick
      rw [hcross e heOld later hlater hend] at hbegin
      cases hbegin
  · rintro ⟨⟨hs, he, hfirst⟩, hfinal, hkick⟩
    refine ⟨?_, ?_, List.pairwise_append.mpr ⟨hfirst, hpairwise, ?_⟩⟩
    · rw [List.countP_append, hstarted]
      split
      · rename_i hk
        have := (hkick hk).2
        omega
      · omega
    · rw [List.countP_append, hended]
      split
      · rename_i hf
        have := hfinal hf
        omega
      · omega
    · intro e heOld later hlater hend
      by_contra hbegin
      have hk := hstart.mp ⟨later, hlater, Bool.not_eq_false _ ▸ hbegin⟩
      exact hold.mp ⟨e, heOld, hend⟩ (hkick hk).1

theorem orderly_concat : Orderly (us ++ [u]) ↔ Orderly us ∧
    (u.isFinal = true → ∀ w ∈ us, w.isFinal = false) ∧
    (KicksOff us u → (∀ w ∈ us, w.isFinal = false) ∧
      ∀ before w after, us = before ++ w :: after → ¬ KicksOff before w) := by
  constructor
  · rintro ⟨hfinal, hkick⟩
    have hlast (before : List ScoreUpdate) (w : ScoreUpdate) (after : List ScoreUpdate)
        (heq : us = before ++ w :: after) :
        us ++ [u] = before ++ w :: (after ++ u :: []) := by
      rw [heq, List.append_assoc, List.cons_append]
    refine ⟨⟨?_, ?_⟩, ?_, ?_⟩
    · intro before w between v after heq
      refine hfinal before w between v (after ++ [u]) ?_
      rw [heq]
      simp
    · intro before w between v after heq
      refine hkick before w between v (after ++ [u]) ?_
      rw [heq]
      simp
    · intro hu w hw
      obtain ⟨before, after, heq⟩ := List.append_of_mem hw
      exact hfinal before w after u [] (hlast before w after heq) hu
    · intro hu
      have hboth (before : List ScoreUpdate) (w : ScoreUpdate) (after : List ScoreUpdate)
          (heq : us = before ++ w :: after) := hkick before w after u [] (hlast before w after heq)
        (heq ▸ hu)
      constructor
      · intro w hw
        obtain ⟨before, after, heq⟩ := List.append_of_mem hw
        exact (hboth before w after heq).1
      · intro before w after heq
        exact (hboth before w after heq).2
  · rintro ⟨⟨hfinal, hkick⟩, hfinalLast, hkickLast⟩
    have hcases {before between after : List ScoreUpdate} {w v : ScoreUpdate}
        (heq : us ++ [u] = before ++ w :: (between ++ v :: after)) :
        (u = v ∧ us = before ++ w :: between) ∨
          ∃ rest, us = before ++ w :: (between ++ v :: rest) := by
      rcases List.eq_nil_or_concat after with rfl | ⟨rest, x, rfl⟩
      · rw [← List.cons_append, ← List.append_assoc] at heq
        obtain ⟨hus, hu⟩ := List.append_inj' heq rfl
        exact .inl ⟨List.singleton_inj.mp hu, hus⟩
      · rw [List.concat_eq_append, ← List.cons_append, ← List.append_assoc, ← List.cons_append,
          ← List.append_assoc] at heq
        exact .inr ⟨rest, by simpa using (List.append_inj' heq rfl).1⟩
    refine ⟨?_, ?_⟩
    · intro before w between v after heq hv
      rcases hcases heq with ⟨rfl, hus⟩ | ⟨rest, hus⟩
      · exact hfinalLast hv w (by simp [hus])
      · exact hfinal before w between v rest hus hv
    · intro before w between v after heq hv
      rcases hcases heq with ⟨rfl, hus⟩ | ⟨rest, hus⟩
      · rw [← hus] at hv
        exact ⟨(hkickLast hv).1 w (by simp [hus]), (hkickLast hv).2 before w between hus⟩
      · exact hkick before w between v rest hus hv

end Stream

/-- **Lifecycle events once.** In a stream of updates of a fixture the kick-off and the end are
announced once at most and in order, exactly when the stream is orderly. -/
theorem lifecycle_once_iff {fixtures : ℕ → Option Fixture} {fixture : Fixture}
    {us : List ScoreUpdate} (h : StreamOf fixtures fixture us) :
    LifecycleOnce (LiveSource.emitted fixtures us) ↔ Orderly us := by
  induction us using List.reverseRecOn with
  | nil =>
    constructor
    · intro _
      constructor <;> simp
    · intro _
      exact ⟨Nat.zero_le 1, Nat.zero_le 1, .nil⟩
  | append_singleton us u ih =>
    rw [lifecycleOnce_concat h, orderly_concat, ih h.init, countP_ended_eq_zero_iff h.init,
      countP_started_eq_zero_iff h.init]

namespace Sample

def fixture : Fixture where
  fixtureId := 17615188
  competitionId := none
  participant1 := "City"
  participant2 := "Rovers"
  matchId := "CIT-ROV-17615188"

def update (seq : ℤ) (statusId : ℤ) (action : String) (stats : List (ℕ × ℤ)) : ScoreUpdate where
  fixtureId := 17615188
  seq := seq
  ts := 1700000000000
  statusId := some statusId
  action := some action
  type := some "Soccer"
  clockSeconds := none
  stats := some fun key => stats.lookup key
  data := fun _ => none
  participant := none

def fixtures (id : ℕ) : Option Fixture := if id = 17615188 then some fixture else none

/-- Kick-off, and the final record twice. -/
def resent : List ScoreUpdate :=
  [update 1 2 "kickoff" [], update 2 100 "game_finalised" [(1, 1)],
    update 2 100 "game_finalised" [(1, 1)]]

theorem resent_stream : StreamOf fixtures fixture resent :=
  ⟨rfl, by simp [resent, update, fixture]⟩

end Sample

theorem lifecycle_once_iff_sample :
    ¬ LifecycleOnce (LiveSource.emitted Sample.fixtures Sample.resent) := by
  intro h
  have hfinal := ((lifecycle_once_iff Sample.resent_stream).mp h).finalOnce [_] _ [] _ [] rfl rfl
  cases hfinal

/-- A final record that is sent again ends the match again. -/
theorem ended_twice : StreamOf Sample.fixtures Sample.fixture Sample.resent ∧
    (LiveSource.emitted Sample.fixtures Sample.resent).countP NormalizedEvent.isMatchEnded = 2 :=
  ⟨Sample.resent_stream, by decide +kernel⟩

end Stoppage.Agent
