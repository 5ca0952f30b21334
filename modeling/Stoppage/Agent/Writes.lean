import Stoppage.Agent.GiveUp

/-! # What a move writes

The agent writes its pending settlements to the file after each change of them. `Move.change` reads
the change off a move, and `Step.writes` says that a move changes memory and file in this way only.
-/

namespace Stoppage.Agent
open TransitionSystem
set_option autoImplicit false

/-! ## Changes -/

/-- What happens to the pending settlements before they are written. -/
inductive Change where
  | rewrite
  | drop (key : Pubkey)
  | renew (key : Pubkey) (action : SettleAction)
deriving DecidableEq

/-- The entry of the market is older than the give-up window. -/
def World.expired (w : World) (key : Pubkey) : Bool :=
  (w.pendingSettlements.get key).any fun p => decide (p.enqueuedAt + settleRetryGiveUpMs < w.now)

/-- What `executeAction` puts on record when a settlement has returned. -/
def recordChange (a : SettleAction) (r : ActionResult) (w : World) : Option Change :=
  r.marketPda.map fun key => if r.success ∨ w.expired key then .drop key else .renew key a

/-- The entry that a housekeeping pass drops when its action has returned. -/
def Caller.drops (r : ActionResult) : Caller → Option Pubkey
  | .finalAttempt _ key _ _ => if r.success ∧ r.marketPda.isSome then some key else none
  | .giveUpVoid _ key _ _ => some key
  | _ => none

def Move.change (s : System) : Move → Option Change
  | .stop => some .rewrite
  | .resume i .awake =>
    match s.tasks[i]? with
    | some (.acting _ (.returned a r)) => recordChange a r s.shared
    | some (.acting caller (.sleep _ r)) => (caller.drops r).map .drop
    | _ => none
  | _ => none

def Change.Makes (c : Change) (m m' : OrderedMap Pubkey PendingSettlement) : Prop :=
  match c with
  | .rewrite => m' = m
  | .drop key => m' = m.delete key
  | .renew key a => ∃ p, p.action = a ∧ m' = m.set key p

/-- The change, if there is one, in memory and, if the disk lets it, in the file. -/
def Writes (change : Option Change) (w w' : World) : Prop :=
  match change with
  | none => w'.pendingSettlements = w.pendingSettlements ∧ w'.file = w.file
  | some c => c.Makes w.pendingSettlements w'.pendingSettlements ∧
      w'.file = if w.writable then some w'.pendingSettlements.entries else w.file

/-! ## Code that writes nothing -/

structure Quiet (w w' : World) : Prop where
  pending : w'.pendingSettlements = w.pendingSettlements
  file : w'.file = w.file

section Quiet
variable {cfg : AgentConfig} {w v w' : World} {c : Option Change}

theorem Quiet.refl (w : World) : Quiet w w := ⟨rfl, rfl⟩

theorem Quiet.writes (h : Quiet w w') : Writes none w w' := ⟨h.pending, h.file⟩

theorem Writes.quiet (h : Writes c w v) (hq : Quiet v w') : Writes c w w' := by
  cases c with
  | none => exact ⟨hq.pending.trans h.1, hq.file.trans h.2⟩
  | some c =>
    refine ⟨hq.pending ▸ h.1, ?_⟩
    rw [hq.file, hq.pending]
    exact h.2

theorem quiet_track (w : World) (key : Pubkey) (p : PendingSettlement) :
    Quiet w (w.track key p) := by
  unfold World.track
  split <;> exact ⟨rfl, rfl⟩

theorem quiet_updateMatchState (w : World) (e : NormalizedEvent) :
    Quiet w (w.updateMatchState e) := by
  unfold World.updateMatchState
  split
  · exact .refl w
  · split
    · exact .refl w
    · split <;> exact ⟨rfl, rfl⟩

theorem startAction_quiet (cfg : AgentConfig) (a : AgentAction) (w : World) :
    Quiet w (startAction cfg a w).1 := by
  cases a with
  | createMarket a =>
    simp only [startAction, createMarket]
    split <;> exact ⟨rfl, rfl⟩
  | settleMarket a => exact .refl w
  | voidMarket a =>
    simp only [startAction, voidMarket]
    split
    · exact .refl w
    · split <;> exact ⟨rfl, rfl⟩
  | quoteMarket a => exact .refl w

theorem resumePoint_quiet {p : Point} {answer : Answer} {f : Flow}
    (h : resumePoint cfg p answer w = some (w', f)) : Quiet w w' := by
  cases p with
  | create a closesAt c =>
    cases resumeCreate_turn h <;> exact ⟨rfl, rfl⟩
  | settle st c =>
    cases resumeSettle_turn h <;> exact ⟨rfl, rfl⟩
  | void market c =>
    cases resumeVoid_turn h <;> exact ⟨rfl, rfl⟩
  | quote marketPda snapshot c =>
    cases resumeQuote_turn h <;> exact ⟨rfl, rfl⟩
  | returned a r => cases h
  | sleep wakeAt r => cases h

theorem dispatch_quiet (r : World × Next) : Quiet r.1 (dispatch cfg r).1 := by
  obtain ⟨w, n⟩ := r
  cases n with
  | calls caller a =>
    rw [dispatch, executeAction, finishAction_shared]
    exact startAction_quiet cfg a w
  | _ => exact .refl w

theorem retryFrom_quiet (now : ℕ) (rows : List (Pubkey × PendingSettlement)) (w : World) :
    Quiet w (retryFrom now rows w).1 := by
  rcases retryFrom_cases now rows w with h | ⟨key, p, rest, -, -, h⟩
  · rw [h]
    exact .refl w
  · rw [h]
    exact quiet_track w key p

theorem giveUpFrom_quiet (now : ℕ) (rows : List (Pubkey × PendingSettlement)) (w : World) :
    Quiet w (giveUpFrom now rows w).1 := by
  rcases giveUpFrom_cases now rows w with h | ⟨key, p, rest, -, -, -, h⟩ <;>
    · rw [h]
      exact .refl w

theorem handleEvent_quiet (e : NormalizedEvent) (w : World) : Quiet w (handleEvent cfg e w).1 := by
  simp only [handleEvent]
  split
  · split <;> exact quiet_updateMatchState w e
  · exact .refl w

end Quiet

/-! ## Code that writes -/

section Writing
variable {cfg : AgentConfig} {w : World}

theorem persist_writes {change : Change} {m : OrderedMap Pubkey PendingSettlement}
    (h : change.Makes w.pendingSettlements m) :
    Writes (some change) w { w with pendingSettlements := m }.persistPendingSettlements := by
  unfold World.persistPendingSettlements
  split
  · rename_i hwritable
    exact ⟨h, (if_pos hwritable).symm⟩
  · rename_i hreadonly
    exact ⟨h, (if_neg hreadonly).symm⟩

theorem deletePending_writes (w : World) (key : Pubkey) :
    Writes (some (.drop key)) w (w.deletePending key) := persist_writes rfl

theorem expired_iff (w : World) (key : Pubkey) :
    w.expired key = true ↔
      ((w.pendingSettlements.get key).map PendingSettlement.enqueuedAt).getD w.now +
        settleRetryGiveUpMs < w.now := by
  unfold World.expired
  cases w.pendingSettlements.get key with
  | none =>
    rw [Option.any_none, Option.map_none, Option.getD_none]
    have hintime : ¬ w.now + settleRetryGiveUpMs < w.now := by omega
    constructor
    · intro hfalse
      cases hfalse
    · intro hlate
      exact absurd hlate hintime
  | some p =>
    rw [Option.any_some, Option.map_some, Option.getD_some, decide_eq_true_eq]

theorem enqueue_writes (w : World) (a : SettleAction) (key : Pubkey) :
    Writes (some (if w.expired key then .drop key else .renew key a)) w
      (w.enqueueSettlementRetry a key) := by
  unfold World.enqueueSettlementRetry
  by_cases hexpired : w.expired key = true
  · rw [if_pos hexpired]
    dsimp only
    rw [if_pos ((expired_iff w key).mp hexpired)]
    exact deletePending_writes w key
  · rw [if_neg hexpired]
    dsimp only
    rw [if_neg (mt (expired_iff w key).mpr hexpired)]
    exact persist_writes ⟨_, rfl, rfl⟩

theorem recordSettlement_writes (a : SettleAction) (r : ActionResult) (w : World) :
    Writes (recordChange a r w) w (recordSettlement a r w) := by
  unfold recordSettlement recordChange
  cases r.marketPda with
  | none => exact (Quiet.refl w).writes
  | some key =>
    by_cases hr : r.success = true
    · simp only [Option.map_some, hr, true_or, if_true]
      exact deletePending_writes w key
    · simp only [Option.map_some, hr, Bool.false_eq_true, false_or, if_false]
      exact enqueue_writes w a key

theorem resumeAction_writes {s : System} {i : ℕ} {answer : Answer} {caller : Caller}
    {p p' : Point} {w' : World} (htask : s.tasks[i]? = some (.acting caller p))
    (h : resumeAction cfg p answer s.shared = some (w', p')) :
    Writes ((Move.resume i answer).change s) s.shared w' := by
  unfold resumeAction at h
  split at h
  · cases h
    simp only [Move.change, htask]
    exact recordSettlement_writes _ _ _
  · rename_i hnot
    obtain ⟨⟨v, f⟩, hpoint, hfinish⟩ := Option.map_eq_some_iff.mp h
    have hv := finishAction_shared p.settling v f
    rw [hfinish] at hv
    cases hv
    have hnone : (Move.resume i answer).change s = none := by
      cases p with
      | returned a r => cases hpoint
      | sleep wakeAt r => cases hpoint
      | _ => cases answer <;> simp only [Move.change, htask]
    rw [hnone]
    exact (resumePoint_quiet hpoint).writes

theorem continueCaller_writes (caller : Caller) (r : ActionResult) (w : World) :
    Writes ((caller.drops r).map .drop) w (continueCaller caller r w).1 := by
  unfold continueCaller Caller.drops
  cases caller with
  | handleEvent rest => exact (Quiet.refl w).writes
  | processPending now rest => exact (retryFrom_quiet now rest w).writes
  | finalAttempt now key p rest =>
    dsimp only
    split
    · exact (deletePending_writes w key).quiet (giveUpFrom_quiet now rest (w.deletePending key))
    · exact (Quiet.refl w).writes
  | giveUpVoid now key p rest =>
    exact (deletePending_writes w key).quiet (giveUpFrom_quiet now rest (w.deletePending key))

theorem Turn.writes {s : System} {mv : Move} {r : World × Next} (h : Turn cfg s mv r) :
    Writes (mv.change s) s.shared r.1 := by
  cases h with
  | event e => exact (handleEvent_quiet e _).writes
  | retry =>
    unfold processPendingSettlements
    split
    · exact (retryFrom_quiet _ _ _).writes
    · exact (Quiet.refl _).writes
  | housekeep =>
    unfold housekeepPass
    split
    · exact (giveUpFrom_quiet _ _ _).writes
    · exact (Quiet.refl _).writes
  | advised i e templates htask => exact (Quiet.refl _).writes
  | acts i answer caller p p' w htask hact => exact resumeAction_writes htask hact
  | returns i caller wakeAt r htask hwake =>
    simp only [Move.change, htask]
    exact continueCaller_writes caller r s.shared

theorem Step.next_isSome {s t : System} {i : ℕ} {answer : Answer}
    (h : Step cfg s (.resume i answer) t) : ((Move.resume i answer).next cfg s).isSome = true := by
  have hresume : s.resume (fun u w => (resumeTask cfg answer u w).map (dispatch cfg)) i = some t := h
  obtain ⟨task, v, t', htask, hrun, -⟩ := Pool.resume_eq_some.mp hresume
  obtain ⟨r, hr, -⟩ := Option.map_eq_some_iff.mp hrun
  rw [Move.next, htask, Option.bind_some, hr]
  rfl

theorem stop_writes (w : World) : Writes (some .rewrite) w w.stop := by
  unfold World.stop World.persistPendingSettlements
  split
  · rename_i hwritable
    exact ⟨rfl, (if_pos hwritable).symm⟩
  · rename_i hreadonly
    exact ⟨rfl, (if_neg hreadonly).symm⟩

/-- **Writes of a move.** A move within a process changes the pending settlements, and then the
file, by its change only. -/
theorem Step.writes {s t : System} {mv : Move} (h : Step cfg s mv t) (hmv : mv ≠ .restart) :
    Writes (mv.change s) s.shared t.shared := by
  have hturn : ∀ r, mv.next cfg s = some r → t = turned cfg (mv.rest s) r →
      Writes (mv.change s) s.shared t.shared := by
    rintro r hnext rfl
    exact (Turn.of_next hnext).writes.quiet (dispatch_quiet r)
  cases mv with
  | restart => exact absurd rfl hmv
  | event e => exact hturn _ rfl (Option.some.inj h).symm
  | retryTick => exact hturn _ rfl (Option.some.inj h).symm
  | housekeepTick => exact hturn _ rfl (Option.some.inj h).symm
  | resume i answer =>
    rcases h.cases with ⟨r, hnext, ht⟩ | ⟨w, hnext, -, -, -⟩ | ⟨hrestart, -⟩
    · exact hturn r hnext ht
    · exact absurd (h.next_isSome) (by rw [hnext]; exact Bool.false_ne_true)
    · cases hrestart
  | clock now =>
    simp only [Step, Move.apply, Option.ite_none_right_eq_some, Option.some.injEq] at h
    obtain ⟨-, rfl⟩ := h
    exact ⟨rfl, rfl⟩
  | stop =>
    cases Option.some.inj h
    exact stop_writes s.shared
  | _ =>
    cases Option.some.inj h
    exact ⟨rfl, rfl⟩

end Writing

end Stoppage.Agent
