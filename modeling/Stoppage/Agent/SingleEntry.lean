import Stoppage.Agent.Tracking

/-! # No market is tracked twice

Four places add to the tracked markets. The retries and the rehydration look first, and the two of
`createMarket` do not: `single_tracking_iff`.
-/

namespace Stoppage.Agent
open TransitionSystem
set_option autoImplicit false

/-! ## One entry for a market -/

/-- `createMarket` does not add a market that is tracked already. -/
def Fresh (cfg : AgentConfig) (s : System) (mv : Move) : Prop :=
  ∀ key ∈ mv.creates cfg s, key ∉ s.shared.tracked

instance (cfg : AgentConfig) (s : System) (mv : Move) : Decidable (Fresh cfg s mv) :=
  Option.decidableForallMem (mv.creates cfg s)

/-- The actions are decided one for each of some tracked markets, all with different addresses. -/
def OneEach {α : Type} (w : World) (decide : OpenMarket → Option α) (actions : List α) : Prop :=
  ∃ ms, List.Sublist ms w.openMarkets ∧ (ms.map OpenMarket.marketPda).Nodup ∧
    ms.map decide = actions.map some

/-- No address is tracked twice, so that the end of a match settles a market at most once, and a
pass over the markets quotes it at most once. -/
structure SingleTracking (w : World) : Prop where
  nodup : w.tracked.Nodup
  settles : ∀ fixtureId matchId finalScore finalStats ts seq minute templates, ∃ actions,
    (decideActions (.matchEnded fixtureId matchId finalScore finalStats ts seq minute)
      w.openMarkets templates).actions = actions.map .settleMarket ∧
    OneEach w (settleAction finalScore finalStats seq) actions
  quotes : ∀ matchId fixtureId minute score corners cards seq ts,
    OneEach w (fun m => some ⟨m.predicate, m.label,
        ⟨matchId, fixtureId, minute, score, corners, cards, seq, ts⟩⟩)
      (quoteOpenMarkets matchId fixtureId minute score corners cards seq ts w.openMarkets)

theorem oneEach_filterMap {α : Type} {w : World} (decide : OpenMarket → Option α)
    (keep : OpenMarket → Bool) (h : w.tracked.Nodup) :
    OneEach w decide ((w.openMarkets.filter keep).filterMap decide) := by
  refine ⟨(w.openMarkets.filter keep).filter fun m => (decide m).isSome,
    List.filter_sublist.trans List.filter_sublist, ?_, ?_⟩
  · exact h.sublist ((List.filter_sublist.trans List.filter_sublist).map _)
  · induction w.openMarkets.filter keep with
    | nil => rfl
    | cons m ms ih =>
      cases hm : decide m with
      | none => simp [hm, ih]
      | some a => simp [hm, ih]

theorem singleTracking_of_nodup {w : World} (h : w.tracked.Nodup) : SingleTracking w := by
  refine ⟨h, ?_, ?_⟩
  · intro fixtureId matchId finalScore finalStats ts seq minute templates
    exact ⟨_, rfl, oneEach_filterMap _ _ h⟩
  · intro matchId fixtureId minute score corners cards seq ts
    have hone := oneEach_filterMap (fun m => some (⟨m.predicate, m.label,
      ⟨matchId, fixtureId, minute, score, corners, cards, seq, ts⟩⟩ : QuoteAction))
      (fun m => m.predicate.matchId = matchId) h
    rwa [List.filterMap_eq_map'] at hone

theorem tracked_nodup_concat {l : List OpenMarket} {m : OpenMarket}
    (h : (l.map OpenMarket.marketPda).Nodup) :
    ((l ++ [m]).map OpenMarket.marketPda).Nodup ↔ m.marketPda ∉ l.map OpenMarket.marketPda := by
  rw [List.map_append, List.map_singleton, ← List.concat_eq_append, List.nodup_concat]
  exact and_iff_left h

theorem Touches.nodup_iff {before after : List OpenMarket} {c : Option Pubkey}
    {r : Option (ℕ × Pubkey)} (h : Touches before c r after)
    (hbefore : (before.map OpenMarket.marketPda).Nodup) :
    (after.map OpenMarket.marketPda).Nodup ↔
      ∀ key ∈ c, key ∉ before.map OpenMarket.marketPda := by
  cases h with
  | same => simpa using hbefore
  | create m => simpa using tracked_nodup_concat hbefore
  | track m hnot => simpa using (tracked_nodup_concat hbefore).mpr hnot
  | remove idx key => simpa using hbefore.sublist ((List.eraseIdx_sublist before idx).map _)

theorem track_nodup {w : World} (key : Pubkey) (p : PendingSettlement) (h : w.tracked.Nodup) :
    (w.track key p).tracked.Nodup := by
  rcases World.track_openMarkets (w := w) key p with hsame | ⟨hnot, hpush⟩
  · rwa [World.tracked, hsame]
  · rw [World.tracked, hpush]
    exact (tracked_nodup_concat h).mpr hnot

theorem loadRows_nodup (rows : List (Pubkey × PendingSettlement)) {w : World}
    (h : w.tracked.Nodup) : (rows.foldl World.loadRow w).tracked.Nodup := by
  induction rows generalizing w with
  | nil => exact h
  | cons row rows ih =>
    refine ih ?_
    unfold World.loadRow
    split
    · exact h
    · exact track_nodup _ _ h

theorem start_nodup (w : World) : w.reset.start.tracked.Nodup := by
  unfold World.start World.loadPendingSettlements
  split
  · exact List.nodup_nil
  · exact loadRows_nodup _ List.nodup_nil

/-- A single move keeps the markets apart exactly when what it creates is not there. -/
theorem Step.nodup_iff {cfg : AgentConfig} {s t : System} {mv : Move} (h : Step cfg s mv t)
    (hs : s.shared.tracked.Nodup) : t.shared.tracked.Nodup ↔ Fresh cfg s mv := by
  by_cases hmv : mv = .restart
  · subst hmv
    cases Option.some.inj h
    refine iff_of_true (start_nodup s.shared) ?_
    intro key hkey
    cases hkey
  · exact (h.touches hmv).nodup_iff hs

theorem nodup_of_fresh {cfg : AgentConfig} {now : ℕ} {as : List Move} {t : System}
    (h : Steps (guarded (Step cfg) (Fresh cfg)) (boot now) as t) : t.shared.tracked.Nodup := by
  refine h.invariant (I := fun s => s.shared.tracked.Nodup) ?_ List.nodup_nil
  intro u mv v _ hstep hu
  exact (hstep.1.nodup_iff hu).mpr hstep.2

/-- **Single tracking entry.** Every state of a run tracks each market once if and only if no step
of the run creates a market that is tracked. -/
theorem single_tracking_iff {cfg : AgentConfig} {now : ℕ} {as : List Move} {t : System}
    (h : Steps (Step cfg) (boot now) as t) :
    (∀ bs u, bs <+: as → Steps (Step cfg) (boot now) bs u → SingleTracking u.shared) ↔
      Steps (guarded (Step cfg) (Fresh cfg)) (boot now) as t := by
  constructor
  · intro hall
    refine h.history (.nil _) ?_
    intro bs mv u v hpre hu hguarded hstep
    refine hguarded.append (.single ⟨hstep, ?_⟩)
    have hsu := hall bs u ((List.prefix_append bs [mv]).trans hpre) hu
    have hsv := hall _ v hpre (hu.append (.single hstep))
    exact (hstep.nodup_iff hsu.nodup).mp hsv.nodup
  · rintro hguarded bs u ⟨cs, rfl⟩ hu
    obtain ⟨u', hu', -⟩ := Steps.append_iff.mp hguarded
    have hsame := hu.unique (fun _ _ _ _ h h' => Option.some.inj (h.symm.trans h')) hu'.of_guarded
    subst hsame
    exact singleTracking_of_nodup (nodup_of_fresh hu')

/-- Two matches that begin and end track three markets. -/
theorem single_tracking_iff_sample : ∃ t, Steps (guarded (Step Sample.config) (Fresh Sample.config))
      (boot Sample.start) Sample.both t ∧
    t.shared.tracked = [Sample.pacGoals, Sample.citGoals, Sample.citCorners] ∧
    SingleTracking t.shared := by
  have hrun : reaches (Move.apply Sample.config) (Fresh Sample.config) (fun s =>
      s.shared.tracked = [Sample.pacGoals, Sample.citGoals, Sample.citCorners]) Sample.both
      (boot Sample.start) = true := by
    decide +kernel
  obtain ⟨t, hsteps, ht⟩ := steps_of_reaches hrun
  exact ⟨t, hsteps, ht,
    (single_tracking_iff hsteps.of_guarded).mpr hsteps _ t List.prefix_rfl hsteps.of_guarded⟩

/-- **Tracked twice.** A match that is announced again, when its market exists. -/
theorem tracked_twice : ¬ ∀ cfg now as t, Steps (Step cfg) (boot now) as t →
    SingleTracking t.shared := by
  intro hall
  have hrun : reaches (Move.apply Sample.config) (fun _ _ => True) (fun s =>
      s.shared.tracked = [Sample.pacGoals, Sample.pacGoals])
      (Sample.begins 18041422 Sample.pac ⟨some 3, none, none⟩ ++
        Sample.creates (Sample.start + 2000) ++
        Sample.begins 18041422 Sample.pac ⟨some 3, none, none⟩ ++
        [.resume 0 (.account (.ok true))])
      (boot Sample.start) = true := by
    decide +kernel
  obtain ⟨t, hsteps, ht⟩ := steps_of_reaches hrun
  have hnodup := (hall _ _ _ t hsteps.of_guarded).nodup
  rw [ht] at hnodup
  exact absurd hnodup (by decide +kernel)

end Stoppage.Agent
