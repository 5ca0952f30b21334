import Stoppage.Agent.Tracked

/-! # The terms a market is settled by

An action carries the threshold and the outcome of the predicate it was decided for, through
retries, the file and a new process. `Sound` says so of all that the agent holds, given the history
of its moves.
-/

namespace Stoppage.Agent
open TransitionSystem
set_option autoImplicit false

/-! ## Terms -/

/-- The predicates that the agent makes markets for. -/
inductive Template : MarketPredicate → Prop
  | totalGoals (matchId : String) (threshold : ℤ) (scoreUnit : ScoreUnit) :
      Template (createTotalGoalsMarket matchId threshold scoreUnit).predicate
  | corners (matchId : String) (threshold : ℤ) :
      Template (createCornersMarket matchId threshold).predicate

/-- What a market of a kind counts at the end of its match. -/
def finalTotal (kind : PredicateKind) (finalScore : Score) (finalStats : ℕ → Option ℤ) : Option ℤ :=
  match kind with
  | .totalGoalsOver => some (finalScore.home + finalScore.away)
  | .cornersOver => some ((finalStats 7).getD 0 + (finalStats 8).getD 0)
  | _ => none

/-- The threshold is that of a template with the market's address, and the outcome the one that
this template has at an end of its match in the history. -/
def OwnTerms (cfg : AgentConfig) (es : List Move) (args : SettleProofArgs) : Prop :=
  ∃ p, Template p ∧ cfg.marketPda p = args.marketPda ∧ args.threshold = p.threshold ∧
    ∃ fixtureId finalScore finalStats ts seq minute total,
      Move.event (.matchEnded fixtureId p.matchId finalScore finalStats ts seq minute) ∈ es ∧
      finalTotal p.kind finalScore finalStats = some total ∧
      args.outcome = if p.threshold < total then .yes else .no

/-! ## Decided actions -/

/-- The action was decided at an end of the match of its predicate. -/
def Decided (es : List Move) (a : SettleAction) : Prop :=
  ∃ fixtureId finalScore finalStats ts seq minute m, Template m.predicate ∧
    Move.event (.matchEnded fixtureId m.predicate.matchId finalScore finalStats ts seq minute) ∈ es ∧
    settleAction finalScore finalStats seq m = some a

theorem settleAction_terms {finalScore : Score} {finalStats : ℕ → Option ℤ} {seq : ℤ}
    {m : OpenMarket} {a : SettleAction} (h : settleAction finalScore finalStats seq m = some a) :
    a.predicate = m.predicate ∧ ∃ total,
      finalTotal m.predicate.kind finalScore finalStats = some total ∧
      a.outcome = if m.predicate.threshold < total then .yes else .no := by
  unfold settleAction at h
  split at h
  · rename_i hkind
    cases h
    exact ⟨rfl, _, by rw [hkind, finalTotal], rfl⟩
  · rename_i hkind
    cases h
    exact ⟨rfl, _, by rw [hkind, finalTotal], rfl⟩
  · cases h

theorem Decided.ownTerms {cfg : AgentConfig} {es : List Move} {a : SettleAction} {m : OpenMarket}
    (h : Decided es a) (hm : m.marketPda = cfg.marketPda a.predicate) (fixtureId : ℕ) :
    OwnTerms cfg es (settleArgs fixtureId a m) := by
  obtain ⟨fixture, finalScore, finalStats, ts, seq, minute, m', htemplate, hevent, hsettle⟩ := h
  obtain ⟨hpredicate, total, htotal, houtcome⟩ := settleAction_terms hsettle
  refine ⟨a.predicate, hpredicate ▸ htemplate, hm.symm, rfl, fixture, finalScore, finalStats, ts,
    seq, minute, total, ?_⟩
  rw [hpredicate]
  exact ⟨hevent, htotal, houtcome⟩

theorem Decided.template {es : List Move} {a : SettleAction} (h : Decided es a) :
    Template a.predicate := by
  obtain ⟨_, _, _, _, _, _, m, htemplate, _, hsettle⟩ := h
  exact (settleAction_terms hsettle).1 ▸ htemplate

/-! ## What the agent holds has been decided -/

def AgentAction.Sound (es : List Move) : AgentAction → Prop
  | .createMarket a => Template a.predicate
  | .settleMarket a => Decided es a
  | _ => True

def Caller.Sound (es : List Move) : Caller → Prop
  | .handleEvent rest => ∀ a ∈ rest, a.Sound es
  | .processPending _ rest => ∀ row ∈ rest, Decided es row.2.action
  | .finalAttempt _ _ p rest | .giveUpVoid _ _ p rest =>
    Decided es p.action ∧ ∀ row ∈ rest, Decided es row.2.action

/-- The transactions that a settlement is still to send, the current one first. -/
def SettleAwait.sends : SettleAwait → List Tx
  | .submit tx rest => tx :: rest
  | _ => []

theorem SettleTurn.sends {cfg : AgentConfig} {st : Settling} {c c' : SettleAwait} {answer : Answer}
    {w w' : World} (h : SettleTurn cfg st w c answer w' (.waits (.settle st c')))
    (hc : ∀ tx ∈ c.sends, tx.settlement = some st.args) :
    ∀ tx ∈ c'.sends, tx.settlement = some st.args := by
  have hnone : ∀ tx ∈ ([] : List Tx), tx.settlement = some st.args := List.forall_mem_nil _
  cases h with
  | proved => exact hnone
  | bundle => exact List.forall_mem_singleton.mpr rfl
  | tooLarge => exact hnone
  | resolve => exact List.forall_mem_cons.mpr ⟨rfl, List.forall_mem_singleton.mpr rfl⟩
  | resume => exact List.forall_mem_singleton.mpr rfl
  | next tx next rest signature => exact fun tx' htx => hc tx' (List.mem_cons_of_mem _ htx)
  | last tx signature => exact hnone

def Point.Sound (cfg : AgentConfig) (es : List Move) : Point → Prop
  | .create a _ _ => Template a.predicate
  | .settle st c => Decided es st.action ∧ OwnTerms cfg es st.args ∧
      ∀ tx ∈ c.sends, tx.settlement = some st.args
  | .returned a _ => Decided es a
  | _ => True

def Task.Sound (cfg : AgentConfig) (es : List Move) : Task → Prop
  | .advising e => Move.event e ∈ es
  | .acting caller p => caller.Sound es ∧ p.Sound cfg es

structure World.Sound (cfg : AgentConfig) (es : List Move) (w : World) : Prop where
  openMarkets : ∀ m ∈ w.openMarkets, Template m.predicate
  pending : ∀ key p, w.pendingSettlements.get key = some p → Decided es p.action
  file : ∀ rows, w.file = some rows → ∀ row ∈ rows, Decided es row.2.action
  submitted : ∀ e ∈ w.submitted, ∀ args, e.2.settlement = some args → OwnTerms cfg es args

def Next.Sound (cfg : AgentConfig) (es : List Move) : Next → Prop
  | .finished => True
  | .waits t => t.Sound cfg es
  | .calls caller a => caller.Sound es ∧ a.Sound es

section Mono
variable {cfg : AgentConfig} {es fs : List Move} (hsub : es ⊆ fs)
include hsub

theorem Decided.mono {a : SettleAction} (h : Decided es a) : Decided fs a := by
  obtain ⟨fixtureId, finalScore, finalStats, ts, seq, minute, m, htemplate, hevent, hsettle⟩ := h
  exact ⟨fixtureId, finalScore, finalStats, ts, seq, minute, m, htemplate, hsub hevent, hsettle⟩

theorem OwnTerms.mono {args : SettleProofArgs} (h : OwnTerms cfg es args) :
    OwnTerms cfg fs args := by
  obtain ⟨p, htemplate, hpda, hthreshold, fixtureId, finalScore, finalStats, ts, seq, minute, total,
    hevent, hrest⟩ := h
  exact ⟨p, htemplate, hpda, hthreshold, fixtureId, finalScore, finalStats, ts, seq, minute, total,
    hsub hevent, hrest⟩

theorem Caller.Sound.mono {caller : Caller} (h : caller.Sound es) : caller.Sound fs := by
  cases caller with
  | handleEvent rest =>
    intro a ha
    cases a with
    | createMarket a => exact h _ ha
    | settleMarket a => exact (h _ ha).mono hsub
    | _ => trivial
  | processPending now rest => exact fun row hrow => (h row hrow).mono hsub
  | finalAttempt now key p rest =>
    exact ⟨h.1.mono hsub, fun row hrow => (h.2 row hrow).mono hsub⟩
  | giveUpVoid now key p rest =>
    exact ⟨h.1.mono hsub, fun row hrow => (h.2 row hrow).mono hsub⟩

theorem Task.Sound.mono {t : Task} (h : t.Sound cfg es) : t.Sound cfg fs := by
  cases t with
  | advising e => exact hsub h
  | acting caller p =>
    refine ⟨h.1.mono hsub, ?_⟩
    cases p with
    | create a closesAt c => exact h.2
    | settle st c => exact ⟨h.2.1.mono hsub, h.2.2.1.mono hsub, h.2.2.2⟩
    | returned a r => exact Decided.mono hsub h.2
    | _ => trivial

theorem World.Sound.mono {w : World} (h : w.Sound cfg es) : w.Sound cfg fs where
  openMarkets := h.openMarkets
  pending key p hp := (h.pending key p hp).mono hsub
  file rows hrows row hrow := (h.file rows hrows row hrow).mono hsub
  submitted e he args hargs := (h.submitted e he args hargs).mono hsub

end Mono

/-! ## The world's functions -/

section Worlds
variable {cfg : AgentConfig} {es : List Move} {w w' : World}

theorem World.Sound.congr (h : w.Sound cfg es) (hm : w'.openMarkets = w.openMarkets)
    (hp : w'.pendingSettlements = w.pendingSettlements) (hf : w'.file = w.file)
    (hs : w'.submitted = w.submitted) : w'.Sound cfg es where
  openMarkets m hmem := h.openMarkets m (hm ▸ hmem)
  pending key p hkey := h.pending key p (hp ▸ hkey)
  file rows hrows := h.file rows (hf ▸ hrows)
  submitted e he := h.submitted e (hs ▸ he)

theorem World.Sound.persist (h : w.Sound cfg es) : w.persistPendingSettlements.Sound cfg es := by
  unfold World.persistPendingSettlements
  split
  · refine ⟨h.openMarkets, h.pending, ?_, h.submitted⟩
    intro rows hrows row hrow
    cases hrows
    exact h.pending row.1 row.2 (OrderedMap.get_eq_some_iff.mpr hrow)
  · exact h

theorem World.Sound.set (h : w.Sound cfg es) (key : Pubkey) {p : PendingSettlement}
    (hp : Decided es p.action) :
    { w with pendingSettlements := w.pendingSettlements.set key p }.Sound cfg es := by
  refine ⟨h.openMarkets, fun k q hkq => ?_, h.file, h.submitted⟩
  by_cases hk : k = key
  · subst hk
    rw [OrderedMap.get_set_self] at hkq
    cases hkq
    exact hp
  · rw [OrderedMap.get_set_of_ne hk] at hkq
    exact h.pending k q hkq

theorem World.Sound.deletePending (h : w.Sound cfg es) (key : Pubkey) :
    (w.deletePending key).Sound cfg es := by
  refine World.Sound.persist ⟨h.openMarkets, fun k q hkq => ?_, h.file, h.submitted⟩
  exact h.pending k q (OrderedMap.get_delete_eq_some_iff.mp hkq).2

theorem World.Sound.record (h : w.Sound cfg es) {a : SettleAction} (ha : Decided es a)
    (r : ActionResult) : (recordSettlement a r w).Sound cfg es := by
  unfold recordSettlement
  split
  · exact h
  · split
    · exact h.deletePending _
    · simp only [World.enqueueSettlementRetry]
      split
      · exact h.deletePending _
      · exact (h.set _ ha).persist

theorem World.Sound.push (h : w.Sound cfg es) {m : OpenMarket} (hm : Template m.predicate) :
    (w.push m).Sound cfg es := by
  refine ⟨fun m' hm' => ?_, h.pending, h.file, h.submitted⟩
  rcases List.mem_append.mp hm' with hold | hnew
  · exact h.openMarkets m' hold
  · exact List.mem_singleton.mp hnew ▸ hm

theorem World.Sound.track (h : w.Sound cfg es) (key : Pubkey) {p : PendingSettlement}
    (hp : Decided es p.action) : (w.track key p).Sound cfg es := by
  unfold World.track
  split
  · exact h
  · exact h.push hp.template

theorem World.Sound.updateMatchState (h : w.Sound cfg es) (e : NormalizedEvent) :
    (w.updateMatchState e).Sound cfg es := by
  unfold World.updateMatchState
  split
  · exact h
  · split
    · exact h
    · split
      · exact h
      · exact h.congr rfl rfl rfl rfl

theorem World.Sound.loadRows {rows : List (Pubkey × PendingSettlement)} (h : w.Sound cfg es)
    (hrows : ∀ row ∈ rows, Decided es row.2.action) :
    (rows.foldl World.loadRow w).Sound cfg es := by
  induction rows generalizing w with
  | nil => exact h
  | cons row rows ih =>
    refine ih ?_ fun r hr => hrows r (List.mem_cons_of_mem _ hr)
    unfold World.loadRow
    split
    · exact h
    · have hrow := hrows row List.mem_cons_self
      exact (h.set row.1 hrow).track _ hrow

theorem World.Sound.restart (h : w.Sound cfg es) : w.reset.start.Sound cfg es := by
  have hempty : ∀ v : World, v.openMarkets = [] → v.pendingSettlements = .empty →
      v.file = w.file → v.submitted = w.submitted → v.Sound cfg es := by
    intro v hm hp hf hs
    refine ⟨fun m hmem => ?_, fun key p hkey => ?_, fun rows hrows => h.file rows (hf ▸ hrows),
      fun e he => h.submitted e (hs ▸ he)⟩
    · rw [hm] at hmem
      exact absurd hmem List.not_mem_nil
    · rw [hp] at hkey
      cases hkey
  unfold World.start World.loadPendingSettlements
  split
  · exact hempty { w.reset with running := true } rfl rfl rfl rfl
  · rename_i rows hrows
    exact World.Sound.loadRows (hempty { w.reset with running := true } rfl rfl rfl rfl)
      (h.file rows hrows)

theorem World.Sound.confirm (h : w.Sound cfg es) (tx : Tx) : (w.confirm tx).Sound cfg es :=
  ⟨h.openMarkets, h.pending, h.file, h.submitted⟩

theorem World.Sound.splice (h : w.Sound cfg es) (idx : ℕ) : (w.splice idx).Sound cfg es :=
  ⟨fun m hm => h.openMarkets m (List.mem_of_mem_eraseIdx hm), h.pending, h.file, h.submitted⟩

theorem World.Sound.submit (h : w.Sound cfg es) {tx : Tx}
    (htx : ∀ args, tx.settlement = some args → OwnTerms cfg es args) :
    (w.submit tx).Sound cfg es := by
  refine ⟨h.openMarkets, h.pending, h.file, fun e he args hargs => ?_⟩
  rcases List.mem_append.mp he with hold | hnew
  · exact h.submitted e hold args hargs
  · rw [List.mem_singleton.mp hnew] at hargs
    exact htx args hargs

theorem World.Sound.submit_other (h : w.Sound cfg es) {tx : Tx} (htx : tx.settlement = none) :
    (w.submit tx).Sound cfg es := by
  refine h.submit fun args hargs => ?_
  rw [htx] at hargs
  cases hargs

end Worlds

end Stoppage.Agent
