import Stoppage.Agent.Turns

/-! # What a move does to the tracked markets

`Step.touches`: short of a restart, a move leaves the list alone, adds one entry at its end or
removes one by its index, and `Move.creates` and `Move.removes` say which of these are due to an
action.
-/

namespace Stoppage.Agent
open TransitionSystem
set_option autoImplicit false

/-! ## The world's own functions -/

namespace World
variable {w : World}

@[simp] theorem persist_openMarkets : w.persistPendingSettlements.openMarkets = w.openMarkets := by
  unfold persistPendingSettlements
  split <;> rfl

@[simp] theorem deletePending_openMarkets (key : Pubkey) :
    (w.deletePending key).openMarkets = w.openMarkets := persist_openMarkets

@[simp] theorem setPending_openMarkets (key : Pubkey) (p : PendingSettlement) :
    (w.setPending key p).openMarkets = w.openMarkets := persist_openMarkets

@[simp] theorem enqueue_openMarkets (a : SettleAction) (key : Pubkey) :
    (w.enqueueSettlementRetry a key).openMarkets = w.openMarkets := by
  simp only [enqueueSettlementRetry]
  split
  · exact deletePending_openMarkets key
  · exact setPending_openMarkets key _

@[simp] theorem updateMatchState_openMarkets (e : NormalizedEvent) :
    (w.updateMatchState e).openMarkets = w.openMarkets := by
  unfold updateMatchState
  split
  · rfl
  · split
    · rfl
    · split <;> rfl

/-- Tracking a pending settlement adds it only when its address is not tracked yet. -/
theorem track_openMarkets (key : Pubkey) (p : PendingSettlement) :
    (w.track key p).openMarkets = w.openMarkets ∨
      key ∉ w.tracked ∧ (w.track key p).openMarkets = w.openMarkets ++ [rehydrated key p] := by
  unfold track
  split
  · exact .inl rfl
  · rename_i hnot
    exact .inr ⟨hnot, rfl⟩

end World

@[simp] theorem recordSettlement_openMarkets (a : SettleAction) (r : ActionResult) (w : World) :
    (recordSettlement a r w).openMarkets = w.openMarkets := by
  unfold recordSettlement
  split
  · rfl
  · split
    · exact World.deletePending_openMarkets _
    · exact World.enqueue_openMarkets _ _

/-! ## Which parts of a turn add or remove a market -/

/-- The market that `createMarket` adds after an await. -/
def Point.creates (cfg : AgentConfig) : Point → Answer → Option Pubkey
  | .create a _ .accountInfo, .account _ => some (cfg.marketPda a.predicate)
  | _, _ => none

/-- The market that `createMarket` adds at once. -/
def Next.creates (cfg : AgentConfig) : Next → Option Pubkey
  | .calls _ (.createMarket a) => if cfg.dryRun then some (cfg.marketPda a.predicate) else none
  | _ => none

/-- The entry that a settlement removes after an await: its index and market. -/
def Point.removes (cfg : AgentConfig) : Point → Answer → Option (ℕ × Pubkey)
  | .settle st (.submit _ []), .sent (.ok _) => some (st.idx, st.market.marketPda)
  | .settle st .proof, .proof (.ok _) =>
    if cfg.dryRun then some (st.idx, st.market.marketPda) else none
  | _, _ => none

/-- The entry that `voidMarket` removes at once: its index and market. -/
def Next.removes (w : World) : Next → Option (ℕ × Pubkey)
  | .calls _ (.voidMarket a) =>
    (findOpen a.predicate w.openMarkets).map fun found => (found.1, found.2.marketPda)
  | _ => none

/-- The market that `createMarket` adds in a move. -/
def Move.creates (cfg : AgentConfig) (s : System) (mv : Move) : Option Pubkey :=
  ((mv.point s).bind fun p => p.1.creates cfg p.2).or
    ((mv.next cfg s).bind fun r => r.2.creates cfg)

/-- The entry that a successful `settleMarket` or `voidMarket` removes in a move. -/
def Move.removes (cfg : AgentConfig) (s : System) (mv : Move) : Option (ℕ × Pubkey) :=
  ((mv.point s).bind fun p => p.1.removes cfg p.2).or
    ((mv.next cfg s).bind fun r => r.2.removes s.shared)

/-- What a piece of a turn does to the tracked markets, given what it creates and removes. -/
inductive Touches (before : List OpenMarket) :
    Option Pubkey → Option (ℕ × Pubkey) → List OpenMarket → Prop
  | same : Touches before none none before
  | create (m : OpenMarket) : Touches before (some m.marketPda) none (before ++ [m])
  | track (m : OpenMarket) : m.marketPda ∉ before.map OpenMarket.marketPda →
      Touches before none none (before ++ [m])
  | remove (idx : ℕ) (key : Pubkey) : Touches before none (some (idx, key)) (before.eraseIdx idx)

theorem resumeCreate_touches {cfg : AgentConfig} {a : CreateAction} {closesAt : ℕ}
    {c : CreateAwait} {answer : Answer} {w w' : World} {f : Flow}
    (h : resumeCreate cfg a closesAt c answer w = some (w', f)) :
    Touches w.openMarkets ((Point.create a closesAt c).creates cfg answer)
      ((Point.create a closesAt c).removes cfg answer) w'.openMarkets := by
  cases resumeCreate_turn h with
  | found => exact .create (opened cfg w a)
  | missing answer hnot => exact .create (opened cfg w a)
  | _ => exact .same

theorem resumeSettle_touches {cfg : AgentConfig} {st : Settling} {c : SettleAwait}
    {answer : Answer} {w w' : World} {f : Flow}
    (h : resumeSettle cfg st c answer w = some (w', f)) :
    Touches w.openMarkets ((Point.settle st c).creates cfg answer)
      ((Point.settle st c).removes cfg answer) w'.openMarkets := by
  cases resumeSettle_turn h with
  | dryRun hdry =>
    rw [Point.removes, if_pos hdry]
    exact .remove st.idx st.market.marketPda
  | proved hlive =>
    rw [Point.removes, if_neg hlive]
    exact .same
  | last tx signature => exact .remove st.idx st.market.marketPda
  | sendThrows tx rest e => cases rest <;> exact .same
  | _ => exact .same

theorem resumeVoid_openMarkets {market : OpenMarket} {c : VoidAwait} {answer : Answer}
    {w w' : World} {f : Flow} (h : resumeVoid market c answer w = some (w', f)) :
    w'.openMarkets = w.openMarkets := by
  cases resumeVoid_turn h <;> rfl

theorem resumeQuote_openMarkets {marketPda : Pubkey} {snapshot : PricingSnapshot} {c : QuoteAwait}
    {answer : Answer} {w w' : World} {f : Flow}
    (h : resumeQuote marketPda snapshot c answer w = some (w', f)) :
    w'.openMarkets = w.openMarkets := by
  cases resumeQuote_turn h <;> rfl

theorem resumePoint_touches {cfg : AgentConfig} {p : Point} {answer : Answer} {w w' : World}
    {f : Flow} (h : resumePoint cfg p answer w = some (w', f)) :
    Touches w.openMarkets (p.creates cfg answer) (p.removes cfg answer) w'.openMarkets := by
  cases p with
  | create a closesAt c => exact resumeCreate_touches h
  | settle st c => exact resumeSettle_touches h
  | void market c =>
    rw [resumeVoid_openMarkets h]
    exact .same
  | quote marketPda snapshot c =>
    rw [resumeQuote_openMarkets h]
    exact .same
  | returned a r => cases h
  | sleep wakeAt r => cases h

theorem startAction_touches (cfg : AgentConfig) (caller : Caller) (a : AgentAction) (w : World) :
    Touches w.openMarkets ((Next.calls caller a).creates cfg) ((Next.calls caller a).removes w)
      (startAction cfg a w).1.openMarkets := by
  cases a with
  | createMarket a =>
    simp only [startAction, createMarket, Next.creates]
    split
    · exact .create (opened cfg w a)
    · exact .same
  | settleMarket a => exact .same
  | voidMarket a =>
    simp only [startAction, voidMarket, Next.removes]
    cases findOpen a.predicate w.openMarkets with
    | none => exact .same
    | some found =>
      obtain ⟨idx, market⟩ := found
      simp only [Option.map_some]
      split
      · exact .remove idx market.marketPda
      · exact .remove idx market.marketPda
  | quoteMarket a => exact .same

theorem resumeAction_touches {cfg : AgentConfig} {p p' : Point} {answer : Answer} {w w' : World}
    (h : resumeAction cfg p answer w = some (w', p')) :
    Touches w.openMarkets (p.creates cfg answer) (p.removes cfg answer) w'.openMarkets := by
  unfold resumeAction at h
  split at h
  · cases h
    rw [recordSettlement_openMarkets]
    exact .same
  · obtain ⟨⟨v, f⟩, hpoint, hfinish⟩ := Option.map_eq_some_iff.mp h
    have hv := finishAction_shared p.settling v f
    rw [hfinish] at hv
    cases hv
    exact resumePoint_touches hpoint

/-! ## The loops themselves only track markets -/

theorem Next.removes_congr {v w : World} (h : v.openMarkets = w.openMarkets) (n : Next) :
    n.removes v = n.removes w := by
  cases n with
  | calls caller a =>
    cases a with
    | voidMarket a => rw [Next.removes, Next.removes, h]
    | _ => rfl
  | _ => rfl

/-- Carrying on from where the tracked markets are still those of `v`. -/
theorem dispatch_touches {cfg : AgentConfig} {v : World} {r : World × Next}
    (h : r.1.openMarkets = v.openMarkets) :
    Touches v.openMarkets (r.2.creates cfg) (r.2.removes v) (dispatch cfg r).1.openMarkets := by
  obtain ⟨w, n⟩ := r
  rw [← Next.removes_congr h, ← h]
  cases n with
  | finished => exact .same
  | waits t => exact .same
  | calls caller a =>
    rw [dispatch, executeAction, finishAction_shared]
    exact startAction_touches cfg caller a w

theorem retryFrom_touches (cfg : AgentConfig) (now : ℕ) (rows : List (Pubkey × PendingSettlement))
    (w : World) :
    Touches w.openMarkets ((retryFrom now rows w).2.creates cfg)
      ((retryFrom now rows w).2.removes w)
      (dispatch cfg (retryFrom now rows w)).1.openMarkets := by
  rcases retryFrom_cases now rows w with h | ⟨key, p, rest, -, -, h⟩
  · rw [h]
    exact .same
  · rw [h]
    rcases World.track_openMarkets (w := w) key p with hsame | ⟨hnot, hpush⟩
    · exact dispatch_touches hsame
    · rw [dispatch, executeAction, finishAction_shared, startAction, hpush]
      exact .track (World.rehydrated key p) hnot

theorem giveUpFrom_openMarkets (now : ℕ) (rows : List (Pubkey × PendingSettlement)) (w : World) :
    (giveUpFrom now rows w).1.openMarkets = w.openMarkets := by
  rcases giveUpFrom_cases now rows w with h | ⟨key, p, rest, -, -, -, h⟩
  · rw [h]
  · rw [h]

theorem continueCaller_touches (cfg : AgentConfig) (caller : Caller) (r : ActionResult)
    (w : World) :
    Touches w.openMarkets ((continueCaller caller r w).2.creates cfg)
      ((continueCaller caller r w).2.removes w)
      (dispatch cfg (continueCaller caller r w)).1.openMarkets := by
  cases caller with
  | handleEvent rest => exact dispatch_touches rfl
  | processPending now rest => exact retryFrom_touches cfg now rest w
  | finalAttempt now key pending rest =>
    refine dispatch_touches ?_
    unfold continueCaller
    dsimp only
    split
    · rw [giveUpFrom_openMarkets, World.deletePending_openMarkets]
    · rfl
  | giveUpVoid now key pending rest =>
    refine dispatch_touches ?_
    rw [continueCaller, giveUpFrom_openMarkets, World.deletePending_openMarkets]

theorem handleEvent_openMarkets (cfg : AgentConfig) (e : NormalizedEvent) (w : World) :
    (handleEvent cfg e w).1.openMarkets = w.openMarkets := by
  simp only [handleEvent]
  split
  · split
    · exact World.updateMatchState_openMarkets e
    · exact World.updateMatchState_openMarkets e
  · rfl

theorem Turn.touches {cfg : AgentConfig} {s : System} {mv : Move} {r : World × Next}
    (hnext : mv.next cfg s = some r) :
    Touches s.shared.openMarkets (mv.creates cfg s) (mv.removes cfg s)
      (dispatch cfg r).1.openMarkets := by
  unfold Move.creates Move.removes
  rw [hnext]
  cases Turn.of_next hnext with
  | event e => exact dispatch_touches (handleEvent_openMarkets cfg e s.shared)
  | retry =>
    unfold processPendingSettlements
    split
    · exact retryFrom_touches cfg _ _ _
    · exact .same
  | housekeep =>
    refine dispatch_touches ?_
    unfold housekeepPass
    split
    · exact giveUpFrom_openMarkets _ _ _
    · rfl
  | advised i e templates htask =>
    rw [Move.point, htask]
    exact dispatch_touches rfl
  | acts i answer caller p p' w htask hact =>
    rw [Move.point, htask]
    have htouch := resumeAction_touches hact
    simpa [Next.creates, Next.removes, dispatch] using htouch
  | returns i caller wakeAt r htask hwake =>
    rw [Move.point, htask]
    exact continueCaller_touches cfg caller r s.shared

theorem Step.touches {cfg : AgentConfig} {s t : System} {mv : Move} (h : Step cfg s mv t)
    (hmv : mv ≠ .restart) :
    Touches s.shared.openMarkets (mv.creates cfg s) (mv.removes cfg s) t.shared.openMarkets := by
  rcases h.cases with ⟨r, hnext, rfl⟩ | ⟨w, hnext, hpoint, hstill, rfl⟩ | ⟨hrestart, -⟩
  · exact Turn.touches hnext
  · rw [Move.creates, Move.removes, hnext, hpoint, hstill.openMarkets]
    exact .same
  · exact absurd hrestart hmv

end Stoppage.Agent
