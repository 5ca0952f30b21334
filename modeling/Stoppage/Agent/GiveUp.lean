import Stoppage.Agent.Account
import Stoppage.Agent.Tracking

/-! # No pending settlement is dropped

`pending_accounted`: in a run of careful moves, an entry leaves only with a settlement of its market
or with a void that was sent after its window. The retries give up on their own, without either
(`dropped_silently`).
-/

namespace Stoppage.Agent
open TransitionSystem
set_option autoImplicit false

/-! ## Beginning an action -/

/-- What a housekeeping pass calls for the entry it is at. -/
def Caller.Calls : Caller → AgentAction → Prop
  | .finalAttempt _ _ p _, a => a = .settleMarket p.action
  | .giveUpVoid _ _ p _, a => a = giveUpAction p
  | _, _ => True

def Next.Serves (w : World) : Next → Prop
  | .finished => True
  | .waits t => t.Serves w
  | .calls caller a => caller.Fits w ∧ caller.Calls a

section Begin
variable {cfg : AgentConfig} {w : World} {caller : Caller} {a : AgentAction}

theorem startAction_same (cfg : AgentConfig) (a : AgentAction) (w : World) :
    Same w (startAction cfg a w).1 := by
  cases a with
  | createMarket a =>
    simp only [startAction, createMarket]
    split
    · exact same_push w _
    · exact .refl w
  | voidMarket a =>
    simp only [startAction, voidMarket]
    split
    · exact .refl w
    · split
      · exact same_splice w _
      · exact same_splice w _
  | _ => exact .refl w

theorem settleMarket_returned {a : SettleAction} {r : ActionResult}
    (h : settleMarket cfg a w = .returned r) : r.success ≠ true := by
  unfold settleMarket at h
  split at h
  · cases h
    exact Bool.false_ne_true
  · split at h
    · split at h
      · cases h
        exact Bool.false_ne_true
      · cases h
    · cases h
      exact Bool.false_ne_true

theorem settleMarket_ne_thrown {a : SettleAction} (e : String) :
    settleMarket cfg a w ≠ .thrown e := by
  unfold settleMarket
  split
  · exact Flow.noConfusion
  · split
    · split <;> exact Flow.noConfusion
    · exact Flow.noConfusion

/-- A settlement begins at its proof, or has failed at once. -/
theorem executeAction_settle_cases (cfg : AgentConfig) (a : SettleAction) (w : World) :
    (∃ st, (executeAction cfg (.settleMarket a) w).2 = .settle st .proof ∧ st.action = a ∧
        st.Located w) ∨
      ∃ r, (executeAction cfg (.settleMarket a) w).2 = .returned a r ∧ r.success ≠ true := by
  rw [executeAction, startAction]
  cases hflow : settleMarket cfg a w with
  | waits p =>
    obtain ⟨st, rfl, haction, hlocated⟩ := settleMarket_waits hflow
    exact .inl ⟨st, rfl, haction, hlocated⟩
  | returned r => exact .inr ⟨r, rfl, settleMarket_returned hflow⟩
  | thrown e => exact absurd hflow (settleMarket_ne_thrown e)

/-- A void begins with the market it has found, or has found none. -/
theorem executeAction_void_cases (hlive : cfg.dryRun = false) (a : VoidAction) (w : World) :
    (∃ m ∈ w.openMarkets.find? (sameLine a.predicate),
        (executeAction cfg (.voidMarket a) w).2 = .void m .blockhash) ∨
      w.openMarkets.find? (sameLine a.predicate) = none ∧
        ∃ wakeAt r, (executeAction cfg (.voidMarket a) w).2 = .sleep wakeAt r := by
  rw [executeAction, startAction]
  unfold voidMarket
  cases hfound : findOpen a.predicate w.openMarkets with
  | none => exact .inr ⟨findOpen_eq_none hfound, _, _, rfl⟩
  | some found =>
    obtain ⟨idx, m⟩ := found
    refine .inl ⟨m, (findOpen_eq_some hfound).2, ?_⟩
    simp only [hlive, Bool.false_eq_true, if_false]
    rfl

theorem executeAction_settles (cfg : AgentConfig) (a : AgentAction) (w : World) :
    (executeAction cfg a w).2.Settles w := by
  cases a with
  | createMarket a =>
    simp only [executeAction, startAction, createMarket]
    split <;> trivial
  | settleMarket a =>
    rcases executeAction_settle_cases cfg a w with ⟨st, hst, -, hlocated⟩ | ⟨r, hr, hfailed⟩
    · obtain ⟨fixtureId, hargs⟩ := hlocated.args
      rw [hst]
      exact ⟨congrArg SettleProofArgs.marketPda hargs, fun tx htx => by cases htx⟩
    · rw [hr]
      exact fun hsuccess => absurd hsuccess hfailed
  | voidMarket a =>
    simp only [executeAction, startAction, voidMarket]
    split
    · trivial
    · split <;> trivial
  | quoteMarket a =>
    simp only [executeAction, startAction, quoteMarket]
    split
    · trivial
    · split <;> trivial

/-- Beginning the action that a caller calls, where it finds its own market. -/
theorem executeAction_serves (hlive : cfg.dryRun = false) (hfits : caller.Fits w)
    (hcalls : caller.Calls a) (hfinds : FindsOwn w (.calls caller a)) :
    Same w (executeAction cfg a w).1 ∧
      caller.Serves (executeAction cfg a w).1 (executeAction cfg a w).2 := by
  have hsame : Same w (executeAction cfg a w).1 := by
    rw [executeAction, finishAction_shared]
    exact startAction_same cfg a w
  refine ⟨hsame, hfits.same hsame, (executeAction_settles cfg a w).stable hsame.changes, ?_⟩
  refine Caller.Gets.same ?_ hsame
  cases caller with
  | finalAttempt now key p rest =>
    cases hcalls
    rcases executeAction_settle_cases cfg p.action w with
      ⟨st, hst, haction, hlocated⟩ | ⟨r, hr, hfailed⟩
    · have hm := (findOpen_eq_some hlocated.found).2
      rw [haction] at hm
      rw [hst]
      cases hpending : w.isPending key with
      | false => exact .inl (free_of_not_isPending hpending)
      | true => exact .inr (hfinds hpending st.market hm)
    · rw [hr]
      exact fun hsuccess => absurd hsuccess hfailed
  | giveUpVoid now key p rest =>
    cases hcalls
    rcases executeAction_void_cases hlive ⟨p.action.predicate, p.action.label⟩ w with
      ⟨m, hm, hp⟩ | ⟨hnone, wakeAt, r, hp⟩
    · rw [giveUpAction, hp]
      cases hpending : w.isPending key with
      | false => exact .inl (free_of_not_isPending hpending)
      | true =>
        obtain ⟨m', hm', hkey⟩ := hfinds hpending
        cases hm.symm.trans hm'
        exact .inr hkey
    · rw [giveUpAction, hp]
      refine .inl (free_of_not_isPending ?_)
      by_contra hpending
      obtain ⟨m', hm', -⟩ := hfinds (Bool.not_eq_false _ ▸ hpending)
      rw [hnone] at hm'
      cases hm'
  | _ => trivial

end Begin

/-! ## The loops -/

section Loops
variable {cfg : AgentConfig} {w : World}

theorem runActions_serves (as : List AgentAction) : (runActions as).Serves w := by
  cases as with
  | nil => trivial
  | cons a rest => exact ⟨trivial, trivial⟩

theorem retryFrom_serves (now : ℕ) (rows : List (Pubkey × PendingSettlement)) (w : World) :
    Same w (retryFrom now rows w).1 ∧ (retryFrom now rows w).2.Serves (retryFrom now rows w).1 := by
  rcases retryFrom_cases now rows w with hr | ⟨key, p, rest, -, -, hr⟩
  · rw [hr]
    exact ⟨.refl w, trivial⟩
  · rw [hr]
    exact ⟨same_track w key p, trivial, trivial⟩

theorem giveUpFrom_serves {now : ℕ} {rows : List (Pubkey × PendingSettlement)} (hnow : now ≤ w.now)
    (hrows : ∀ row ∈ rows, Fits w row) :
    (giveUpFrom now rows w).1 = w ∧ (giveUpFrom now rows w).2.Serves w := by
  rcases giveUpFrom_cases now rows w with hr | ⟨key, p, rest, hmem, hrest, hlate, hr⟩
  · rw [hr]
    exact ⟨rfl, trivial⟩
  · rw [hr]
    refine ⟨rfl, ⟨⟨hnow, hlate⟩, fun row hrow => ?_⟩, rfl⟩
    rcases List.mem_cons.mp hrow with rfl | hrow
    · exact hrows _ hmem
    · exact hrows row (hrest row hrow)

theorem handleEvent_serves (cfg : AgentConfig) (e : NormalizedEvent) (w : World) :
    Same w (handleEvent cfg e w).1 ∧ (handleEvent cfg e w).2.Serves (handleEvent cfg e w).1 := by
  simp only [handleEvent]
  split
  · split
    · exact ⟨same_updateMatchState w e, trivial⟩
    · exact ⟨same_updateMatchState w e, runActions_serves _⟩
  · exact ⟨.refl w, trivial⟩

/-- A housekeeping pass drops the entry it is at, which may leave, and goes on with the rest. -/
theorem drop_serves {now : ℕ} {key : Pubkey} {p : PendingSettlement}
    {rest : List (Pubkey × PendingSettlement)} (hnow : now ≤ w.now)
    (hrows : ∀ row ∈ (key, p) :: rest, Fits w row) (hfree : Free w key ∨ Voided w key p) :
    (Changes none w (giveUpFrom now rest (w.deletePending key)).1 ∧
      Accounted w (giveUpFrom now rest (w.deletePending key)).1) ∧
      (giveUpFrom now rest (w.deletePending key)).2.Serves
        (giveUpFrom now rest (w.deletePending key)).1 := by
  have hchanges := deletePending_changes w key
  obtain ⟨hworld, hserves⟩ := giveUpFrom_serves (hnow.trans hchanges.now)
    fun row hrow => (hrows row (List.mem_cons_of_mem _ hrow)).stable hchanges fun hk => by cases hk
  rw [hworld]
  refine ⟨⟨hchanges, deletePending_accounted fun q hq => ?_⟩, hserves⟩
  rcases hfree with (hnone | hsettled) | ⟨time, hsent, hlate⟩
  · rw [hnone] at hq
    cases hq
  · exact .inl hsettled
  · rcases hrows _ List.mem_cons_self with hsettled | hwindow
    · exact .inl hsettled
    · refine .inr ⟨time, hsent, ?_⟩
      rwa [hwindow q hq]

theorem continueCaller_serves {caller : Caller} {wakeAt : ℕ} {r : ActionResult}
    (h : caller.Serves w (.sleep wakeAt r)) :
    (Changes none w (continueCaller caller r w).1 ∧ Accounted w (continueCaller caller r w).1) ∧
      (continueCaller caller r w).2.Serves (continueCaller caller r w).1 := by
  have hsame : ∀ v, Same w v → Changes none w v ∧ Accounted w v :=
    fun v hv => ⟨hv.changes, .of_pending_eq hv.pending⟩
  cases caller with
  | handleEvent rest => exact ⟨hsame w (.refl w), runActions_serves rest⟩
  | processPending now rest =>
    obtain ⟨htrack, hserves⟩ := retryFrom_serves now rest w
    exact ⟨hsame _ htrack, hserves⟩
  | finalAttempt now key p rest =>
    unfold continueCaller
    dsimp only
    split
    · rename_i hsuccess
      exact drop_serves h.fits.1.1 h.fits.2 (.inl (h.gets hsuccess.1 hsuccess.2))
    · exact ⟨hsame w (.refl w), h.fits, rfl⟩
  | giveUpVoid now key p rest => exact drop_serves h.fits.1.1 h.fits.2 h.gets

end Loops

/-! ## Runs -/

section Runs
variable {cfg : AgentConfig} {s t : System} {mv : Move}

theorem Turn.serves {r : World × Next} (h : Turn cfg s mv r) (hcareful : Careful cfg s mv)
    (hs : ∀ u ∈ s.tasks, u.Serves s.shared) : Kept s r.1 ∧ r.2.Serves r.1 := by
  cases h with
  | event e =>
    obtain ⟨hsame, hserves⟩ := handleEvent_serves cfg e s.shared
    exact ⟨.of_same hsame, hserves⟩
  | retry =>
    unfold processPendingSettlements
    split
    · obtain ⟨hsame, hserves⟩ := retryFrom_serves s.shared.now s.shared.pendingSettlements.entries
        s.shared
      exact ⟨.of_same hsame, hserves⟩
    · exact ⟨.of_same (.refl _), trivial⟩
  | housekeep =>
    unfold housekeepPass
    split
    · obtain ⟨hworld, hserves⟩ := giveUpFrom_serves (w := s.shared) le_rfl
        fun row (hrow : row ∈ s.shared.pendingSettlements.entries) => by
          refine .inr fun p hp => ?_
          rw [OrderedMap.get_eq_some_iff.mpr hrow] at hp
          cases hp
          rfl
      rw [hworld]
      exact ⟨.of_same (.refl _), hserves⟩
    · exact ⟨.of_same (.refl _), trivial⟩
  | advised i e templates htask => exact ⟨.of_same (.refl _), runActions_serves _⟩
  | acts i answer caller p p' w htask hact =>
    have hmem := List.mem_of_getElem? htask
    refine resumeAction_serves hcareful.live (hs _ hmem) hmem ?_ ?_ hact
    · refine hcareful.inTime (p, answer) ?_
      rw [Move.point, htask]
      rfl
    · rintro now key q rest e rfl rfl
      refine hcareful.sends key ?_
      rw [Move.unsent, htask]
      rfl
  | returns i caller wakeAt r htask hwake =>
    obtain ⟨⟨hchanges, haccounted⟩, hserves⟩ :=
      continueCaller_serves (hs _ (List.mem_of_getElem? htask))
    exact ⟨.of_changes hchanges haccounted, hserves⟩

theorem dispatch_serves {r : World × Next} (hlive : cfg.dryRun = false) (h : r.2.Serves r.1)
    (hfinds : FindsOwn r.1 r.2) :
    Same r.1 (dispatch cfg r).1 ∧
      ∀ u, (dispatch cfg r).2 = some u → u.Serves (dispatch cfg r).1 := by
  obtain ⟨w, n⟩ := r
  cases n with
  | finished => exact ⟨.refl w, fun u hu => by cases hu⟩
  | waits t =>
    refine ⟨.refl w, fun u hu => ?_⟩
    cases hu
    exact h
  | calls caller a =>
    obtain ⟨hsame, hserves⟩ := executeAction_serves hlive h.1 h.2 hfinds
    refine ⟨hsame, fun u hu => ?_⟩
    cases hu
    exact hserves

/-- Loading the file makes an entry for each of its rows that has a match. -/
theorem loadRows_get {key : Pubkey} (rows : List (Pubkey × PendingSettlement)) {w : World}
    (h : w.pendingSettlements.get key ≠ none ∨
      ∃ kept ∈ rows, kept.1 = key ∧ kept.2.action.predicate.matchId ≠ "") :
    (rows.foldl World.loadRow w).pendingSettlements.get key ≠ none := by
  induction rows generalizing w with
  | nil =>
    rcases h with hget | ⟨kept, hkept, -⟩
    · exact hget
    · exact absurd hkept List.not_mem_nil
  | cons row rows ih =>
    refine ih ?_
    by_cases hmatch : row.2.action.predicate.matchId = ""
    · rw [World.loadRow, if_pos hmatch]
      rcases h with hget | ⟨kept, hkept, hkey, hne⟩
      · exact .inl hget
      · rcases List.mem_cons.mp hkept with rfl | hrest
        · exact absurd hmatch hne
        · exact .inr ⟨kept, hrest, hkey, hne⟩
    · rw [World.loadRow, if_neg hmatch, (same_track _ _ _).pending]
      by_cases hrow : key = row.1
      · subst hrow
        rw [OrderedMap.get_set_self]
        exact .inl (Option.some_ne_none _)
      · rw [OrderedMap.get_set_of_ne hrow]
        rcases h with hget | ⟨kept, hkept, hkey, hne⟩
        · exact .inl hget
        · rcases List.mem_cons.mp hkept with rfl | hrest
          · exact absurd hkey.symm hrow
          · exact .inr ⟨kept, hrest, hkey, hne⟩

theorem restart_accounted {w : World} (h : w.Filed) : Accounted w w.reset.start := by
  intro key p hp hnone
  obtain ⟨rows, hrows, kept, hkept, hkey, hmatch⟩ := h _ (OrderedMap.get_eq_some_iff.mp hp)
  have hfile : { w.reset with running := true }.file = some rows := hrows
  rw [World.start, World.loadPendingSettlements, hfile] at hnone
  exact absurd hnone (loadRows_get rows (.inr ⟨kept, hkept, hkey, hmatch⟩))

theorem Step.serves (h : Step cfg s mv t) (hcareful : Careful cfg s mv)
    (hs : Pool.Holds (fun _ => True) Task.Serves s) :
    Accounted s.shared t.shared ∧ Pool.Holds (fun _ => True) Task.Serves t := by
  rcases h.cases with ⟨r, hnext, rfl⟩ | ⟨w, -, -, hstill, rfl⟩ | ⟨rfl, rfl⟩
  · obtain ⟨⟨fresh, hfresh, hchanges, haccounted⟩, hserves⟩ :=
      (Turn.of_next hnext).serves hcareful hs.task
    obtain ⟨hsame, hself⟩ := dispatch_serves hcareful.live hserves (hcareful.finds r hnext)
    refine ⟨haccounted.same hsame, hs.turn (fun u hu => Move.mem_of_mem_rest hu) trivial ?_ hself⟩
    intro u hu hserve
    have hturn := hserve.stable hchanges fun k hk => hfresh k hk u (Move.mem_of_mem_rest hu)
    exact hturn.stable hsame.changes fun k hk => by cases hk
  · have hsame : Same s.shared w := by
      refine ⟨.of_pending_eq hstill.now ?_ ?_ hstill.pending, hstill.pending⟩
      · exact fun tx htx => hstill.confirmed ▸ htx
      · exact fun e he => hstill.submitted ▸ he
    refine ⟨.of_pending_eq hstill.pending, trivial, fun u hu => ?_⟩
    exact (hs.task u hu).stable hsame.changes fun k hk => by cases hk
  · exact ⟨restart_accounted (hcareful.filed rfl), trivial,
      fun u hu => absurd hu List.not_mem_nil⟩

/-- **A pending settlement is never dropped silently.** In every run of careful moves, an entry
leaves only with a settlement of its market that was confirmed, or with a void of it that was sent
after the entry's give-up window. -/
theorem pending_accounted {now : ℕ} {as : List Move}
    (h : Steps (guarded (Step cfg) (Careful cfg)) (boot now) as s)
    (hstep : Step cfg s mv t) (hcareful : Careful cfg s mv) : Accounted s.shared t.shared := by
  have hinv : Pool.Holds (fun _ => True) Task.Serves s := by
    refine h.invariant (fun u mv v _ hstep hu => (hstep.1.serves hstep.2 hu).2) ?_
    exact ⟨trivial, fun u hu => absurd hu List.not_mem_nil⟩
  exact (hstep.serves hcareful hinv).1

end Runs

namespace Sample

/-- A match whose settlement has no proof when it ends, and eight hours on the clock. -/
def overdue : List Move :=
  begins 18041422 pac ⟨some 3, none, none⟩ ++ creates (start + 2000) ++ [ends 18041422 pac] ++
    [.resume 0 (.proof (.error "")), .resume 0 .awake, .clock (start + 4000), .resume 0 .awake,
      .clock (start + 28900000)]

/-- A housekeeping pass whose final attempt is sent and reverts, and which then sends the void. -/
def givenUp : List Move :=
  [.housekeepTick, .resume 0 (.proof (.ok ())), .resume 0 (.built (.ok false)),
    .resume 0 (.sent (.error "")), .clock (start + 28903000), .resume 0 .awake,
    .resume 0 (.blockhash (.ok ())), .resume 0 (.sent (.ok "")), .clock (start + 28905000)]

end Sample

/-- The entry of a market that a housekeeping pass has voided leaves. -/
theorem pending_accounted_sample : ∃ s t,
    Steps (guarded (Step Sample.config) (Careful Sample.config)) (boot Sample.start)
      (Sample.overdue ++ Sample.givenUp) s ∧
    Step Sample.config s (.resume 0 .awake) t ∧
    s.shared.isPending Sample.pacGoals = true ∧ t.shared.isPending Sample.pacGoals = false ∧
    Accounted s.shared t.shared := by
  have hrun : reaches (Move.apply Sample.config) (Careful Sample.config) (fun s =>
      s.shared.isPending Sample.pacGoals = true ∧ Careful Sample.config s (.resume 0 .awake) ∧
        (Move.apply Sample.config s (.resume 0 .awake)).any fun t =>
          !t.shared.isPending Sample.pacGoals)
      (Sample.overdue ++ Sample.givenUp) (boot Sample.start) = true := by
    decide +kernel
  obtain ⟨s, hsteps, hpending, hcareful, hnext⟩ := steps_of_reaches hrun
  obtain ⟨t, ht, hgone⟩ := (Option.any_eq_true _ _).mp hnext
  exact ⟨s, t, hsteps, ht, hpending, by simpa using hgone, pending_accounted hsteps ht hcareful⟩

/-- **Dropped silently.** The retry of an overdue settlement fails, and its entry leaves with
nothing sent. -/
theorem dropped_silently : ¬ ∀ cfg now as s mv t, cfg.dryRun = false →
    Steps (Step cfg) (boot now) as s → Step cfg s mv t → Accounted s.shared t.shared := by
  intro hall
  have hrun : reaches (Move.apply Sample.config) (fun _ _ => True) (fun s =>
      s.shared.isPending Sample.pacGoals = true ∧
        (Move.apply Sample.config s (.resume 0 .awake)).any fun t =>
          !t.shared.isPending Sample.pacGoals &&
            decide (∀ tx ∈ t.shared.confirmed, tx.settles = none) &&
            decide (∀ e ∈ t.shared.submitted, e.2 ≠ .voidMarket Sample.pacGoals))
      (Sample.overdue ++ [.retryTick, .resume 0 (.proof (.error ""))]) (boot Sample.start) =
        true := by
    decide +kernel
  obtain ⟨s, hsteps, hpending, hnext⟩ := steps_of_reaches hrun
  obtain ⟨t, ht, hgone⟩ := (Option.any_eq_true _ _).mp hnext
  simp only [Bool.and_eq_true, Bool.not_eq_true', decide_eq_true_eq] at hgone
  obtain ⟨⟨hnone, hconfirmed⟩, hsent⟩ := hgone
  obtain ⟨p, hp⟩ := Option.isSome_iff_exists.mp hpending
  have hfree := Option.isNone_iff_eq_none.mp (Option.isSome_eq_false_iff.mp hnone)
  rcases hall _ _ _ s _ t rfl hsteps.of_guarded ht Sample.pacGoals p hp hfree with
    ⟨tx, htx, hkey⟩ | ⟨time, hmem, -⟩
  · rw [hconfirmed tx htx] at hkey
    cases hkey
  · exact hsent _ hmem rfl

end Stoppage.Agent
