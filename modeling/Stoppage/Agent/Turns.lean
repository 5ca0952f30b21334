import Stoppage.Agent.Loop

/-! # What a move does

`Step.cases` inverts a move: a turn of one task, a change around the agent, or a new process.
`Turn.of_next` says which code runs in a turn, and `Turn.point` where the action it leaves behind
comes from.
-/

namespace Stoppage.Agent
open TransitionSystem
set_option autoImplicit false

/-! ## Moves -/

/-- The tasks that do not run in a move. -/
def Move.rest (s : System) : Move → List Task
  | .resume i _ => s.others i
  | _ => s.tasks

/-- The point at which the action of a resumed task goes on. -/
def Move.point (s : System) : Move → Option (Point × Answer)
  | .resume i answer =>
    match s.tasks[i]? with
    | some (.acting _ p) => some (p, answer)
    | _ => none
  | _ => none

theorem Move.mem_of_mem_rest {s : System} {mv : Move} {t : Task} (h : t ∈ mv.rest s) :
    t ∈ s.tasks := by
  cases mv with
  | resume i answer => exact Pool.mem_of_mem_others h
  | _ => exact h

theorem Move.mem_of_point {s : System} {mv : Move} {p : Point} {answer : Answer}
    (h : mv.point s = some (p, answer)) : ∃ caller, Task.acting caller p ∈ s.tasks := by
  cases mv with
  | resume i answer =>
    unfold Move.point at h
    dsimp only at h
    split at h
    · rename_i caller p' htask
      cases h
      exact ⟨caller, List.mem_of_getElem? htask⟩
    · cases h
  | _ => cases h

/-- A move around the agent: neither its markets nor its transactions change, and the file is as it
was or as the pending settlements are. -/
structure Still (w w' : World) : Prop where
  now : w.now ≤ w'.now
  openMarkets : w'.openMarkets = w.openMarkets
  pending : w'.pendingSettlements = w.pendingSettlements
  file : w'.file = w.file ∨ w'.file = some w.pendingSettlements.entries
  submitted : w'.submitted = w.submitted
  confirmed : w'.confirmed = w.confirmed

/-- The system after a turn. -/
def turned (cfg : AgentConfig) (rest : List Task) (r : World × Next) : System :=
  ⟨(dispatch cfg r).1, rest ++ (dispatch cfg r).2.toList⟩

theorem Step.cases {cfg : AgentConfig} {s t : System} {mv : Move} (h : Step cfg s mv t) :
    (∃ r, mv.next cfg s = some r ∧ t = turned cfg (mv.rest s) r) ∨
      (∃ w, mv.next cfg s = none ∧ mv.point s = none ∧ Still s.shared w ∧ t = ⟨w, s.tasks⟩) ∨
      (mv = .restart ∧ t = ⟨s.shared.reset.start, []⟩) := by
  cases mv with
  | event e => exact .inl ⟨_, rfl, (Option.some.inj h).symm⟩
  | retryTick => exact .inl ⟨_, rfl, (Option.some.inj h).symm⟩
  | housekeepTick => exact .inl ⟨_, rfl, (Option.some.inj h).symm⟩
  | resume i answer =>
    have hresume :
        s.resume (fun t w => (resumeTask cfg answer t w).map (dispatch cfg)) i = some t := h
    obtain ⟨task, w, t', htask, hrun, rfl⟩ := Pool.resume_eq_some.mp hresume
    obtain ⟨r, hr, hdispatch⟩ := Option.map_eq_some_iff.mp hrun
    refine .inl ⟨r, ?_, ?_⟩
    · rw [Move.next, htask, Option.bind_some, hr]
    · rw [turned, hdispatch]
      rfl
  | clock now =>
    simp only [Step, Move.apply, Option.ite_none_right_eq_some, Option.some.injEq] at h
    obtain ⟨hle, rfl⟩ := h
    refine .inr (.inl ⟨_, rfl, rfl, ?_, rfl⟩)
    exact ⟨hle, rfl, rfl, .inl rfl, rfl, rfl⟩
  | stop =>
    cases Option.some.inj h
    refine .inr (.inl ⟨_, rfl, rfl, ?_, rfl⟩)
    unfold World.stop World.persistPendingSettlements
    split
    · exact ⟨le_rfl, rfl, rfl, .inr rfl, rfl, rfl⟩
    · exact ⟨le_rfl, rfl, rfl, .inl rfl, rfl, rfl⟩
  | restart => exact .inr (.inr ⟨rfl, (Option.some.inj h).symm⟩)
  | _ =>
    cases Option.some.inj h
    refine .inr (.inl ⟨_, rfl, rfl, ?_, rfl⟩)
    exact ⟨le_rfl, rfl, rfl, .inl rfl, rfl, rfl⟩

/-! ## Turns -/

/-- The code that runs in a turn, from where it left off to its next call or await. -/
inductive Turn (cfg : AgentConfig) (s : System) : Move → World × Next → Prop
  | event (e : NormalizedEvent) : Turn cfg s (.event e) (handleEvent cfg e s.shared)
  | retry : Turn cfg s .retryTick (processPendingSettlements s.shared)
  | housekeep : Turn cfg s .housekeepTick (housekeepPass s.shared)
  | advised (i : ℕ) (e : NormalizedEvent) (templates : Option MatchTemplates) :
      s.tasks[i]? = some (.advising e) →
      Turn cfg s (.resume i (.advice templates))
        (handleDecision cfg e (templates.getD (templatesFor e)) s.shared)
  | acts (i : ℕ) (answer : Answer) (caller : Caller) (p p' : Point) (w : World) :
      s.tasks[i]? = some (.acting caller p) →
      resumeAction cfg p answer s.shared = some (w, p') →
      Turn cfg s (.resume i answer) (w, .waits (.acting caller p'))
  | returns (i : ℕ) (caller : Caller) (wakeAt : ℕ) (r : ActionResult) :
      s.tasks[i]? = some (.acting caller (.sleep wakeAt r)) → wakeAt ≤ s.shared.now →
      Turn cfg s (.resume i .awake) (continueCaller caller r s.shared)

theorem Turn.of_next {cfg : AgentConfig} {s : System} {mv : Move} {r : World × Next}
    (h : mv.next cfg s = some r) : Turn cfg s mv r := by
  cases mv with
  | event e => exact Option.some.inj h ▸ .event e
  | retryTick => exact Option.some.inj h ▸ .retry
  | housekeepTick => exact Option.some.inj h ▸ .housekeep
  | resume i answer =>
    obtain ⟨task, htask, hrun⟩ := Option.bind_eq_some_iff.mp h
    unfold resumeTask at hrun
    split at hrun
    · cases hrun
      exact .advised i _ _ htask
    · split at hrun
      · rename_i hwake
        cases hrun
        exact .returns i _ _ _ htask hwake
      · cases hrun
    · obtain ⟨⟨w, p'⟩, hact, rfl⟩ := Option.map_eq_some_iff.mp hrun
      exact .acts i answer _ _ p' w htask hact
    · cases hrun
  | _ => cases h

/-! ## The loops over pending settlements -/

theorem retryFrom_cases (now : ℕ) (rows : List (Pubkey × PendingSettlement)) (w : World) :
    retryFrom now rows w = (w, .finished) ∨
      ∃ key p rest, (key, p) ∈ rows ∧ (∀ row ∈ rest, row ∈ rows) ∧
        retryFrom now rows w =
          (w.track key p, .calls (.processPending now rest) (.settleMarket p.action)) := by
  induction rows with
  | nil => exact .inl rfl
  | cons row rows ih =>
    obtain ⟨key, p⟩ := row
    unfold retryFrom
    split
    · rcases ih with h | ⟨k, q, rest, hmem, hrest, h⟩
      · exact .inl h
      · refine .inr ⟨k, q, rest, List.mem_cons_of_mem _ hmem, fun r hr => ?_, h⟩
        exact List.mem_cons_of_mem _ (hrest r hr)
    · exact .inr ⟨key, p, rows, List.mem_cons_self, fun r hr => List.mem_cons_of_mem _ hr, rfl⟩

theorem giveUpFrom_cases (now : ℕ) (rows : List (Pubkey × PendingSettlement)) (w : World) :
    giveUpFrom now rows w = (w, .finished) ∨
      ∃ key p rest, (key, p) ∈ rows ∧ (∀ row ∈ rest, row ∈ rows) ∧
        p.enqueuedAt + settleRetryGiveUpMs < now ∧
        giveUpFrom now rows w =
          (w, .calls (.finalAttempt now key p rest) (.settleMarket p.action)) := by
  induction rows with
  | nil => exact .inl rfl
  | cons row rows ih =>
    obtain ⟨key, p⟩ := row
    unfold giveUpFrom
    split
    · rcases ih with h | ⟨k, q, rest, hmem, hrest, hnow, h⟩
      · exact .inl h
      · refine .inr ⟨k, q, rest, List.mem_cons_of_mem _ hmem, fun r hr => ?_, hnow, h⟩
        exact List.mem_cons_of_mem _ (hrest r hr)
    · rename_i hnow
      exact .inr ⟨key, p, rows, List.mem_cons_self, fun r hr => List.mem_cons_of_mem _ hr,
        Nat.lt_of_not_le hnow, rfl⟩

/-! ## Where a settlement under way comes from -/

theorem findOpen_eq_some {p : MarketPredicate} {openMarkets : List OpenMarket} {idx : ℕ}
    {m : OpenMarket} (h : findOpen p openMarkets = some (idx, m)) :
    openMarkets[idx]? = some m ∧ openMarkets.find? (sameLine p) = some m := by
  obtain ⟨i, hi, hrest⟩ := Option.bind_eq_some_iff.mp h
  obtain ⟨m', hm, hpair⟩ := Option.bind_eq_some_iff.mp hrest
  cases hpair
  obtain ⟨hlt, hidx, hbefore⟩ := List.findIdx?_eq_some_iff_getElem.mp hi
  have hget := (List.getElem?_eq_some_iff.mp hm).2
  refine ⟨hm, List.find?_eq_some_iff_getElem.mpr ⟨hget ▸ hidx, _, hlt, hget, fun j hj => ?_⟩⟩
  simpa using hbefore j hj

theorem findOpen_eq_none {p : MarketPredicate} {openMarkets : List OpenMarket}
    (h : findOpen p openMarkets = none) : openMarkets.find? (sameLine p) = none := by
  have hidx : openMarkets.findIdx? (sameLine p) = none := by
    cases hi : openMarkets.findIdx? (sameLine p) with
    | none => rfl
    | some i =>
      obtain ⟨hlt, -, -⟩ := List.findIdx?_eq_some_iff_getElem.mp hi
      simp [findOpen, hi, List.getElem?_eq_getElem hlt] at h
  rw [List.find?_eq_none]
  intro m hm
  simpa using List.findIdx?_eq_none_iff.mp hidx m hm

/-- The lookup of `settleMarket` finds the market, and the arguments are those it makes of it. -/
structure Settling.Located (st : Settling) (w : World) : Prop where
  found : findOpen st.action.predicate w.openMarkets = some (st.idx, st.market)
  args : ∃ fixtureId, st.args = settleArgs fixtureId st.action st.market

theorem settleMarket_waits {cfg : AgentConfig} {a : SettleAction} {w : World} {p : Point}
    (h : settleMarket cfg a w = .waits p) :
    ∃ st, p = .settle st .proof ∧ st.action = a ∧ st.Located w := by
  unfold settleMarket at h
  split at h
  · cases h
  · rename_i idx market hfound
    split at h
    · split at h
      · cases h
      · rename_i fixtureId hfixture
        cases h
        exact ⟨_, rfl, rfl, hfound, fixtureId, rfl⟩
    · cases h

@[simp] theorem finishAction_shared (settling : Option SettleAction) (w : World) (f : Flow) :
    (finishAction settling (w, f)).1 = w := by
  cases f <;> rfl

theorem finishAction_eq_settle {settling : Option SettleAction} {w : World} {f : Flow}
    {st : Settling} {c : SettleAwait} (h : (finishAction settling (w, f)).2 = .settle st c) :
    f = .waits (.settle st c) := by
  cases f with
  | waits p =>
    cases h
    rfl
  | returned r => cases settling <;> cases h
  | thrown e => cases h

theorem createFailed_ne_waits (cfg : AgentConfig) (a : CreateAction) (e : String) (p : Point) :
    createFailed cfg a e ≠ .waits p := by
  unfold createFailed
  split <;> exact Flow.noConfusion

theorem resumeSettle_waits {cfg : AgentConfig} {st : Settling} {c : SettleAwait} {answer : Answer}
    {w w' : World} {p : Point} (h : resumeSettle cfg st c answer w = some (w', .waits p)) :
    ∃ c', p = .settle st c' := by
  cases resumeSettle_turn h <;> exact ⟨_, rfl⟩

/-- A settlement keeps what it has found to its end. -/
theorem resumePoint_settle {cfg : AgentConfig} {p : Point} {answer : Answer} {w w' : World}
    {st : Settling} {c' : SettleAwait}
    (h : resumePoint cfg p answer w = some (w', .waits (.settle st c'))) :
    ∃ c, p = .settle st c ∧ resumeSettle cfg st c answer w = some (w', .waits (.settle st c')) := by
  cases p with
  | create a closesAt c =>
    cases resumeCreate_turn h with
    | noBlockhash e f hf => exact absurd hf.symm (createFailed_ne_waits cfg a e _)
    | unconfirmed e f hf => exact absurd hf.symm (createFailed_ne_waits cfg a e _)
  | settle st₀ c =>
    obtain ⟨c'', hpoint⟩ := resumeSettle_waits h
    cases hpoint
    exact ⟨c, rfl, h⟩
  | void market c =>
    cases resumeVoid_turn h
  | quote marketPda snapshot c =>
    cases resumeQuote_turn h
  | returned a r => cases h
  | sleep wakeAt r => cases h

theorem resumeAction_settle {cfg : AgentConfig} {p : Point} {answer : Answer} {w w' : World}
    {st : Settling} {c' : SettleAwait}
    (h : resumeAction cfg p answer w = some (w', .settle st c')) :
    ∃ c, p = .settle st c ∧ resumeSettle cfg st c answer w = some (w', .waits (.settle st c')) := by
  unfold resumeAction at h
  split at h
  · cases h
  · obtain ⟨⟨v, f⟩, hpoint, hfinish⟩ := Option.map_eq_some_iff.mp h
    have hv := finishAction_shared p.settling v f
    have hf := finishAction_eq_settle (congrArg Prod.snd hfinish)
    rw [hfinish] at hv
    cases hv
    subst hf
    exact resumePoint_settle hpoint

theorem executeAction_settle {cfg : AgentConfig} {a : AgentAction} {w : World} {st : Settling}
    {c : SettleAwait} (h : (executeAction cfg a w).2 = .settle st c) :
    a = .settleMarket st.action ∧ c = .proof ∧ st.Located w := by
  have hstart := finishAction_eq_settle h
  cases a with
  | createMarket a =>
    simp only [createMarket] at hstart
    split at hstart <;> cases hstart
  | settleMarket a =>
    obtain ⟨st', hpoint, rfl, hlocated⟩ := settleMarket_waits hstart
    cases hpoint
    exact ⟨rfl, rfl, hlocated⟩
  | voidMarket a =>
    simp only [voidMarket] at hstart
    split at hstart
    · cases hstart
    · split at hstart <;> cases hstart
  | quoteMarket a =>
    simp only [quoteMarket] at hstart
    split at hstart
    · cases hstart
    · split at hstart <;> cases hstart

/-! ### A loop itself never waits inside an action -/

section Loops
variable {caller : Caller} {p : Point}

theorem runActions_ne_acting (as : List AgentAction) :
    runActions as ≠ .waits (.acting caller p) := by
  intro h
  cases as <;> cases h

theorem retryFrom_ne_acting (now : ℕ) (rows : List (Pubkey × PendingSettlement)) (w : World) :
    (retryFrom now rows w).2 ≠ .waits (.acting caller p) := by
  intro h
  rcases retryFrom_cases now rows w with hr | ⟨key, pending, rest, -, -, hr⟩
  · rw [hr] at h
    cases h
  · rw [hr] at h
    cases h

theorem giveUpFrom_ne_acting (now : ℕ) (rows : List (Pubkey × PendingSettlement)) (w : World) :
    (giveUpFrom now rows w).2 ≠ .waits (.acting caller p) := by
  intro h
  rcases giveUpFrom_cases now rows w with hr | ⟨key, pending, rest, -, -, -, hr⟩
  · rw [hr] at h
    cases h
  · rw [hr] at h
    cases h

theorem continueCaller_ne_acting (back : Caller) (r : ActionResult) (w : World) :
    (continueCaller back r w).2 ≠ .waits (.acting caller p) := by
  cases back with
  | handleEvent rest => exact runActions_ne_acting rest
  | processPending now rest => exact retryFrom_ne_acting now rest w
  | finalAttempt now key pending rest =>
    unfold continueCaller
    dsimp only
    split
    · exact giveUpFrom_ne_acting now rest _
    · intro h
      cases h
  | giveUpVoid now key pending rest => exact giveUpFrom_ne_acting now rest _

theorem handleEvent_ne_acting (cfg : AgentConfig) (e : NormalizedEvent) (w : World) :
    (handleEvent cfg e w).2 ≠ .waits (.acting caller p) := by
  simp only [handleEvent]
  split
  · split
    · intro h
      cases h
    · exact runActions_ne_acting _
  · intro h
    cases h

end Loops

theorem Turn.of_acting {cfg : AgentConfig} {s : System} {mv : Move} {r : World × Next}
    {caller : Caller} {p' : Point} (h : Turn cfg s mv r) (hr : r.2 = .waits (.acting caller p')) :
    ∃ i answer p, mv = .resume i answer ∧ s.tasks[i]? = some (.acting caller p) ∧
      resumeAction cfg p answer s.shared = some (r.1, p') := by
  cases h with
  | event e => exact absurd hr (handleEvent_ne_acting cfg e s.shared)
  | retry =>
    unfold processPendingSettlements at hr
    split at hr
    · exact absurd hr (retryFrom_ne_acting _ _ _)
    · cases hr
  | housekeep =>
    unfold housekeepPass at hr
    split at hr
    · exact absurd hr (giveUpFrom_ne_acting _ _ _)
    · cases hr
  | advised i e templates htask => exact absurd hr (runActions_ne_acting _)
  | acts i answer back p p'' w htask hact =>
    cases hr
    exact ⟨i, answer, p, rfl, htask, hact⟩
  | returns i back wakeAt result htask hwake => exact absurd hr (continueCaller_ne_acting _ _ _)

/-- The point at which a turn leaves an action: it went on from an earlier one, or the action has
begun in this turn. -/
theorem Turn.point {cfg : AgentConfig} {s : System} {mv : Move} {r : World × Next}
    {caller : Caller} {p' : Point} (h : Turn cfg s mv r)
    (hp' : (dispatch cfg r).2 = some (.acting caller p')) :
    (∃ i answer p, mv = .resume i answer ∧ s.tasks[i]? = some (.acting caller p) ∧
        r = (r.1, .waits (.acting caller p')) ∧
        resumeAction cfg p answer s.shared = some (r.1, p')) ∨
      ∃ a, r.2 = .calls caller a ∧ executeAction cfg a r.1 = ((dispatch cfg r).1, p') := by
  obtain ⟨w, n⟩ := r
  cases n with
  | finished => cases hp'
  | waits t =>
    cases hp'
    obtain ⟨i, answer, p, hmv, htask, hact⟩ := h.of_acting rfl
    exact .inl ⟨i, answer, p, hmv, htask, rfl, hact⟩
  | calls back a =>
    cases hp'
    exact .inr ⟨a, rfl, rfl⟩

end Stoppage.Agent
