import Stoppage.Agent.Pending
import Stoppage.Agent.Terms

/-! # Snapshots, from the quote to the attestation

A quote takes its snapshot when an event is decided on, and its attestation is sent an await later.
`Step.snapshots` and `Step.sent` say where the snapshots of a move come from.
-/

namespace Stoppage.Agent
open TransitionSystem
set_option autoImplicit false

/-! ## Snapshots on their way -/

def AgentAction.snapshot? : AgentAction → Option PricingSnapshot
  | .quoteMarket a => some a.snapshot
  | _ => none

def snapshotsOf (actions : List AgentAction) : List PricingSnapshot :=
  actions.filterMap AgentAction.snapshot?

def Caller.snapshots : Caller → List PricingSnapshot
  | .handleEvent rest => snapshotsOf rest
  | _ => []

def Point.snapshot? : Point → Option PricingSnapshot
  | .quote _ snapshot _ => some snapshot
  | _ => none

def Task.snapshots : Task → List PricingSnapshot
  | .advising _ => []
  | .acting caller p => p.snapshot?.toList ++ caller.snapshots

def Next.snapshots : Next → List PricingSnapshot
  | .finished => []
  | .waits t => t.snapshots
  | .calls caller a => a.snapshot?.toList ++ caller.snapshots

/-- The event that a move decides on, and the state of the agent it does so in. -/
def Move.decides (cfg : AgentConfig) (s : System) : Move → Option (NormalizedEvent × World)
  | .event e =>
    if s.shared.running ∧ asksAdvice cfg e = false then some (e, s.shared.updateMatchState e)
    else none
  | .resume i (.advice _) =>
    match s.tasks[i]? with
    | some (.advising e) => some (e, s.shared)
    | _ => none
  | _ => none

def Move.takes (cfg : AgentConfig) (s : System) (mv : Move) : List PricingSnapshot :=
  match mv.decides cfg s with
  | some (e, w) => snapshotsOf (quotesFor cfg e w)
  | none => []

/-! ## What the code between two awaits does with them -/

section Snapshots
variable {cfg : AgentConfig} {s t : System} {mv : Move} {w w' : World}

theorem snapshots_runActions (actions : List AgentAction) :
    (runActions actions).snapshots = snapshotsOf actions := by
  cases actions with
  | nil => rfl
  | cons a rest => cases a <;> rfl

theorem snapshots_decideActions (e : NormalizedEvent) (markets : List OpenMarket)
    (templates : MatchTemplates) : snapshotsOf (decideActions e markets templates).actions = [] := by
  refine List.filterMap_eq_nil_iff.mpr fun a ha => ?_
  cases e with
  | matchStarted fixtureId matchId home away competitionId ts =>
    obtain ⟨c, -, rfl⟩ := List.mem_map.mp ha
    rfl
  | matchEnded fixtureId matchId finalScore finalStats ts seq minute =>
    obtain ⟨b, -, rfl⟩ := List.mem_map.mp ha
    rfl
  | _ => exact absurd ha List.not_mem_nil

theorem snapshots_handleDecision (e : NormalizedEvent) (templates : MatchTemplates) :
    (handleDecision cfg e templates w).2.snapshots = snapshotsOf (quotesFor cfg e w) := by
  rw [handleDecision, snapshots_runActions, snapshotsOf, List.filterMap_append]
  exact (congrArg _ (snapshots_decideActions e _ templates)).trans (List.append_nil _)

theorem snapshots_retryFrom (now : ℕ) (rows : List (Pubkey × PendingSettlement)) (w : World) :
    (retryFrom now rows w).2.snapshots = [] := by
  rcases retryFrom_cases now rows w with hr | ⟨key, p, rest, -, -, hr⟩
  · rw [hr]
    rfl
  · rw [hr]
    rfl

theorem snapshots_giveUpFrom (now : ℕ) (rows : List (Pubkey × PendingSettlement)) (w : World) :
    (giveUpFrom now rows w).2.snapshots = [] := by
  rcases giveUpFrom_cases now rows w with hr | ⟨key, p, rest, -, -, -, hr⟩
  · rw [hr]
    rfl
  · rw [hr]
    rfl

theorem snapshots_continueCaller (caller : Caller) (r : ActionResult) (w : World) :
    (continueCaller caller r w).2.snapshots = caller.snapshots := by
  cases caller with
  | handleEvent rest => exact snapshots_runActions rest
  | processPending now rest => exact snapshots_retryFrom now rest w
  | finalAttempt now key p rest =>
    rw [continueCaller]
    split
    · exact snapshots_giveUpFrom now rest _
    · rfl
  | giveUpVoid now key p rest => exact snapshots_giveUpFrom now rest _

theorem snapshot_startAction {a : AgentAction} {p : Point} {snap : PricingSnapshot}
    (hp : (startAction cfg a w).2 = .waits p) (hsnap : p.snapshot? = some snap) :
    a.snapshot? = some snap := by
  cases a with
  | createMarket a =>
    simp only [startAction, createMarket] at hp
    split at hp
    · cases hp
    · cases hp
      cases hsnap
  | settleMarket a =>
    obtain ⟨st, rfl, -⟩ := settleMarket_waits hp
    cases hsnap
  | voidMarket a =>
    simp only [startAction, voidMarket] at hp
    split at hp
    · cases hp
    · split at hp
      · cases hp
      · cases hp
        cases hsnap
  | quoteMarket a =>
    simp only [startAction, quoteMarket] at hp
    split at hp
    · cases hp
    · split at hp
      · cases hp
      · cases hp
        exact hsnap

theorem snapshot_resumePoint {p p' : Point} {answer : Answer} {snap : PricingSnapshot}
    (h : resumePoint cfg p answer w = some (w', .waits p')) (hsnap : p'.snapshot? = some snap) :
    p.snapshot? = some snap := by
  cases p with
  | create a closesAt c =>
    cases resumeCreate_turn h with
    | noBlockhash e f hf => exact absurd hf.symm (createFailed_ne_waits cfg a e _)
    | unconfirmed e f hf => exact absurd hf.symm (createFailed_ne_waits cfg a e _)
    | _ => cases hsnap
  | settle st c =>
    obtain ⟨c', rfl⟩ := resumeSettle_waits h
    cases hsnap
  | void market c =>
    cases resumeVoid_turn h
    cases hsnap
  | quote marketPda snapshot c =>
    cases resumeQuote_turn h
    exact hsnap
  | returned a r => cases h
  | sleep wakeAt r => cases h

theorem snapshot_finishAction {settling : Option SettleAction} {f : Flow} {snap : PricingSnapshot}
    (h : (finishAction settling (w, f)).2.snapshot? = some snap) :
    ∃ p, f = .waits p ∧ p.snapshot? = some snap := by
  cases f with
  | waits p => exact ⟨p, rfl, h⟩
  | returned r => cases settling <;> cases h
  | thrown e => cases h

theorem snapshot_resumeAction {p p' : Point} {answer : Answer} {snap : PricingSnapshot}
    (h : resumeAction cfg p answer w = some (w', p')) (hsnap : p'.snapshot? = some snap) :
    p.snapshot? = some snap := by
  unfold resumeAction at h
  split at h
  · cases h
    cases hsnap
  · obtain ⟨⟨v, f⟩, hpoint, hfinish⟩ := Option.map_eq_some_iff.mp h
    have hp' : (finishAction p.settling (v, f)).2 = p' := congrArg Prod.snd hfinish
    rw [← hp'] at hsnap
    obtain ⟨q, rfl, hq⟩ := snapshot_finishAction hsnap
    exact snapshot_resumePoint hpoint hq

theorem snapshots_dispatch {r : World × Next} {u : Task} (hu : (dispatch cfg r).2 = some u) :
    u.snapshots ⊆ r.2.snapshots := by
  obtain ⟨v, n⟩ := r
  cases n with
  | finished => cases hu
  | waits t =>
    cases hu
    exact List.Subset.refl _
  | calls caller a =>
    cases hu
    intro snap hsnap
    rcases List.mem_append.mp hsnap with hsnap | hsnap
    · obtain ⟨p, hp, hpsnap⟩ := snapshot_finishAction (Option.mem_toList.mp hsnap)
      exact List.mem_append_left _ (Option.mem_toList.mpr (snapshot_startAction hp hpsnap))
    · exact List.mem_append_right _ hsnap

theorem Turn.snapshots {r : World × Next} (h : Turn cfg s mv r) :
    ∀ snap ∈ r.2.snapshots, (∃ u ∈ s.tasks, snap ∈ u.snapshots) ∨ snap ∈ mv.takes cfg s := by
  intro snap hsnap
  cases h with
  | event e =>
    right
    simp only [handleEvent] at hsnap
    split at hsnap
    · rename_i hrunning
      split at hsnap
      · cases hsnap
      · rename_i hadvice
        rw [snapshots_handleDecision] at hsnap
        rw [Move.takes, Move.decides, if_pos ⟨hrunning, Bool.not_eq_true _ ▸ hadvice⟩]
        exact hsnap
    · cases hsnap
  | retry =>
    simp only [processPendingSettlements] at hsnap
    split at hsnap
    · rw [snapshots_retryFrom] at hsnap
      cases hsnap
    · cases hsnap
  | housekeep =>
    simp only [housekeepPass] at hsnap
    split at hsnap
    · rw [snapshots_giveUpFrom] at hsnap
      cases hsnap
    · cases hsnap
  | advised i e templates htask =>
    right
    rw [snapshots_handleDecision] at hsnap
    simp only [Move.takes, Move.decides, htask]
    exact hsnap
  | acts i answer caller p p' w htask hact =>
    refine .inl ⟨_, List.mem_of_getElem? htask, ?_⟩
    rcases List.mem_append.mp hsnap with hsnap | hsnap
    · have hp := snapshot_resumeAction hact (Option.mem_toList.mp hsnap)
      exact List.mem_append_left _ (Option.mem_toList.mpr hp)
    · exact List.mem_append_right _ hsnap
  | returns i caller wakeAt result htask hwake =>
    rw [snapshots_continueCaller] at hsnap
    exact .inl ⟨_, List.mem_of_getElem? htask, List.mem_append_right _ hsnap⟩

/-- **Snapshots of a move.** A snapshot on its way was so before the move, or the move has taken
it. -/
theorem Step.snapshots (h : Step cfg s mv t) : ∀ u ∈ t.tasks, ∀ snap ∈ u.snapshots,
    (∃ u ∈ s.tasks, snap ∈ u.snapshots) ∨ snap ∈ mv.takes cfg s := by
  intro u hu snap hsnap
  rcases h.cases with ⟨r, hnext, rfl⟩ | ⟨w, -, -, -, rfl⟩ | ⟨-, rfl⟩
  · rcases List.mem_append.mp hu with hu | hu
    · exact .inl ⟨u, mv.mem_of_mem_rest hu, hsnap⟩
    · have hsub := snapshots_dispatch (Option.mem_toList.mp hu)
      exact (Turn.of_next hnext).snapshots snap (hsub hsnap)
  · exact .inl ⟨u, hu, hsnap⟩
  · exact absurd hu List.not_mem_nil

end Snapshots

/-! ## Attestations that are sent -/

namespace World
variable (w : World)

@[simp] theorem submitted_persistPendingSettlements :
    w.persistPendingSettlements.submitted = w.submitted := by
  unfold persistPendingSettlements
  split <;> rfl

@[simp] theorem submitted_setPending (key : Pubkey) (p : PendingSettlement) :
    (w.setPending key p).submitted = w.submitted := submitted_persistPendingSettlements _

@[simp] theorem submitted_deletePending (key : Pubkey) :
    (w.deletePending key).submitted = w.submitted := submitted_persistPendingSettlements _

@[simp] theorem submitted_enqueue (a : SettleAction) (key : Pubkey) :
    (w.enqueueSettlementRetry a key).submitted = w.submitted := by
  simp only [enqueueSettlementRetry]
  split
  · exact submitted_deletePending w key
  · exact submitted_setPending w key _

@[simp] theorem submitted_updateMatchState (e : NormalizedEvent) :
    (w.updateMatchState e).submitted = w.submitted := by
  unfold updateMatchState
  split
  · rfl
  · split
    · rfl
    · split <;> rfl

@[simp] theorem submitted_track (key : Pubkey) (p : PendingSettlement) :
    (w.track key p).submitted = w.submitted := by
  unfold track
  split <;> rfl

theorem submitted_loadRows (rows : List (Pubkey × PendingSettlement)) :
    (rows.foldl loadRow w).submitted = w.submitted := by
  induction rows generalizing w with
  | nil => rfl
  | cons row rows ih =>
    refine (ih _).trans ?_
    unfold loadRow
    split
    · rfl
    · exact submitted_track _ _ _

theorem submitted_restart : w.reset.start.submitted = w.submitted := by
  unfold start loadPendingSettlements
  split
  · rfl
  · exact submitted_loadRows _ _

end World

@[simp] theorem submitted_recordSettlement (a : SettleAction) (r : ActionResult) (w : World) :
    (recordSettlement a r w).submitted = w.submitted := by
  unfold recordSettlement
  split
  · rfl
  · split
    · exact World.submitted_deletePending _ _
    · exact World.submitted_enqueue _ _ _

section Attested
variable {cfg : AgentConfig} {s t : System} {mv : Move} {w w' : World}

/-- A settlement sends transactions of its own market. -/
def Point.Proper : Point → Prop
  | .settle st c => ∀ tx ∈ c.sends, tx.settlement = some st.args
  | _ => True

def Task.Proper : Task → Prop
  | .advising _ => True
  | .acting _ p => p.Proper

theorem resumeSettle_proper {st : Settling} {c c' : SettleAwait} {answer : Answer}
    (hc : (Point.settle st c).Proper)
    (h : resumeSettle cfg st c answer w = some (w', .waits (.settle st c'))) :
    (Point.settle st c').Proper :=
  (resumeSettle_turn h).sends hc

theorem Step.proper (h : Step cfg s mv t) (hs : ∀ u ∈ s.tasks, u.Proper) :
    ∀ u ∈ t.tasks, u.Proper := by
  intro u hu
  rcases h.cases with ⟨r, hnext, rfl⟩ | ⟨w, -, -, -, rfl⟩ | ⟨-, rfl⟩
  · rcases List.mem_append.mp hu with hu | hu
    · exact hs u (mv.mem_of_mem_rest hu)
    · cases u with
      | advising e => trivial
      | acting caller p =>
        cases p with
        | settle st c' =>
          rcases (Turn.of_next hnext).point (Option.mem_toList.mp hu) with
            ⟨i, answer, p, -, htask, -, hact⟩ | ⟨a, -, hexecute⟩
          · obtain ⟨c, rfl, hsettle⟩ := resumeAction_settle hact
            exact resumeSettle_proper (hs _ (List.mem_of_getElem? htask)) hsettle
          · obtain ⟨-, rfl, -⟩ := executeAction_settle (congrArg Prod.snd hexecute)
            exact fun tx htx => absurd htx List.not_mem_nil
        | _ => trivial
  · exact hs u hu
  · exact absurd hu List.not_mem_nil

/-! ### The code between two awaits -/

theorem submitted_startAction (a : AgentAction) :
    (startAction cfg a w).1.submitted = w.submitted := by
  cases a with
  | createMarket a =>
    simp only [startAction, createMarket]
    split <;> rfl
  | settleMarket a => rfl
  | voidMarket a =>
    simp only [startAction, voidMarket]
    split
    · rfl
    · split <;> rfl
  | quoteMarket a => rfl

theorem submitted_dispatch (r : World × Next) : (dispatch cfg r).1.submitted = r.1.submitted := by
  obtain ⟨v, n⟩ := r
  cases n with
  | finished => rfl
  | waits t => rfl
  | calls caller a =>
    rw [dispatch, executeAction, finishAction_shared]
    exact submitted_startAction a

theorem submitted_retryFrom (now : ℕ) (rows : List (Pubkey × PendingSettlement)) (w : World) :
    (retryFrom now rows w).1.submitted = w.submitted := by
  rcases retryFrom_cases now rows w with hr | ⟨key, p, rest, -, -, hr⟩
  · rw [hr]
  · rw [hr]
    exact World.submitted_track w key p

theorem submitted_giveUpFrom (now : ℕ) (rows : List (Pubkey × PendingSettlement)) (w : World) :
    (giveUpFrom now rows w).1.submitted = w.submitted := by
  rcases giveUpFrom_cases now rows w with hr | ⟨key, p, rest, -, -, -, hr⟩
  · rw [hr]
  · rw [hr]

theorem submitted_continueCaller (caller : Caller) (r : ActionResult) (w : World) :
    (continueCaller caller r w).1.submitted = w.submitted := by
  cases caller with
  | handleEvent rest => rfl
  | processPending now rest => exact submitted_retryFrom now rest w
  | finalAttempt now key p rest =>
    rw [continueCaller]
    split
    · exact (submitted_giveUpFrom now rest _).trans (World.submitted_deletePending w key)
    · rfl
  | giveUpVoid now key p rest =>
    exact (submitted_giveUpFrom now rest _).trans (World.submitted_deletePending w key)

theorem sent_resumePoint {p : Point} {answer : Answer} {f : Flow} {k : Pubkey} {time : ℕ}
    {snap : PricingSnapshot} (hp : p.Proper) (h : resumePoint cfg p answer w = some (w', f))
    (hmem : (time, .attestPricing k snap) ∈ w'.submitted) :
    (time, .attestPricing k snap) ∈ w.submitted ∨ p.snapshot? = some snap := by
  have hother (tx : Tx) (hne : tx ≠ .attestPricing k snap)
      (hmem : (time, .attestPricing k snap) ∈ (w.submit tx).submitted) :
      (time, .attestPricing k snap) ∈ w.submitted := by
    rcases List.mem_append.mp hmem with hmem | hmem
    · exact hmem
    · exact absurd (congrArg Prod.snd (List.mem_singleton.mp hmem)).symm hne
  cases p with
  | create a closesAt c =>
    left
    cases resumeCreate_turn h with
    | sends => exact hother _ (by rintro ⟨⟩) hmem
    | _ => exact hmem
  | settle st c =>
    left
    cases resumeSettle_turn h with
    | bundle => exact hother _ (by rintro ⟨⟩) hmem
    | resolve => exact hother _ (by rintro ⟨⟩) hmem
    | resume => exact hother _ (by rintro ⟨⟩) hmem
    | next tx next rest signature =>
      refine hother next ?_ hmem
      rintro rfl
      cases hp _ (.tail _ (.head _))
    | _ => exact hmem
  | void market c =>
    left
    cases resumeVoid_turn h with
    | sends => exact hother _ (by rintro ⟨⟩) hmem
    | _ => exact hmem
  | quote marketPda snapshot c =>
    cases resumeQuote_turn h with
    | sends =>
      rcases List.mem_append.mp hmem with hmem | hmem
      · exact .inl hmem
      · cases List.mem_singleton.mp hmem
        exact .inr rfl
    | _ => exact .inl hmem
  | returned a r => cases h
  | sleep wakeAt r => cases h

theorem sent_resumeAction {p p' : Point} {answer : Answer} {k : Pubkey} {time : ℕ}
    {snap : PricingSnapshot} (hp : p.Proper) (h : resumeAction cfg p answer w = some (w', p'))
    (hmem : (time, .attestPricing k snap) ∈ w'.submitted) :
    (time, .attestPricing k snap) ∈ w.submitted ∨ p.snapshot? = some snap := by
  unfold resumeAction at h
  split at h
  · cases h
    rw [submitted_recordSettlement] at hmem
    exact .inl hmem
  · obtain ⟨⟨v, f⟩, hpoint, hfinish⟩ := Option.map_eq_some_iff.mp h
    have hv := finishAction_shared p.settling v f
    rw [hfinish] at hv
    cases hv
    exact sent_resumePoint hp hpoint hmem

/-- **Attestations of a move.** An attestation was sent before the move, or its snapshot was on its
way. -/
theorem Step.sent (h : Step cfg s mv t) (hs : ∀ u ∈ s.tasks, u.Proper) {k : Pubkey} {time : ℕ}
    {snap : PricingSnapshot} (hmem : (time, .attestPricing k snap) ∈ t.shared.submitted) :
    (time, .attestPricing k snap) ∈ s.shared.submitted ∨ ∃ u ∈ s.tasks, snap ∈ u.snapshots := by
  rcases h.cases with ⟨r, hnext, rfl⟩ | ⟨w, -, -, hstill, rfl⟩ | ⟨-, rfl⟩
  · have hdispatch : (dispatch cfg r).1.submitted = r.1.submitted := submitted_dispatch r
    have hr : (time, .attestPricing k snap) ∈ r.1.submitted := hdispatch ▸ hmem
    cases Turn.of_next hnext with
    | event e =>
      simp only [handleEvent] at hr
      left
      split at hr
      · split at hr
        · exact World.submitted_updateMatchState _ e ▸ hr
        · exact World.submitted_updateMatchState _ e ▸ hr
      · exact hr
    | retry =>
      simp only [processPendingSettlements] at hr
      left
      split at hr
      · exact submitted_retryFrom _ _ _ ▸ hr
      · exact hr
    | housekeep =>
      simp only [housekeepPass] at hr
      left
      split at hr
      · exact submitted_giveUpFrom _ _ _ ▸ hr
      · exact hr
    | advised i e templates htask => exact .inl hr
    | acts i answer caller p p' w htask hact =>
      have hmemTask := List.mem_of_getElem? htask
      rcases sent_resumeAction (hs _ hmemTask) hact hr with hold | hsnap
      · exact .inl hold
      · exact .inr ⟨_, hmemTask, List.mem_append_left _ (Option.mem_toList.mpr hsnap)⟩
    | returns i caller wakeAt result htask hwake =>
      exact .inl (submitted_continueCaller caller result _ ▸ hr)
  · exact .inl (hstill.submitted ▸ hmem)
  · exact .inl (World.submitted_restart s.shared ▸ hmem)

end Attested

end Stoppage.Agent
