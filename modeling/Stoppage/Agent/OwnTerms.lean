import Stoppage.Agent.Terms
import Stoppage.Agent.Tracking

/-! # Settlements by the market's own terms

The market that an action settles is looked up again, by kind and match only. The terms are the
market's own as long as that lookup finds the action's own market (`settlement_terms`).
-/

namespace Stoppage.Agent
open TransitionSystem
set_option autoImplicit false

/-! ## The lookup -/

/-- The call of `settleMarket` that ends a turn. -/
def Next.settles : Next → Option SettleAction
  | .calls _ (.settleMarket a) => some a
  | _ => none

/-- Where `settleMarket` is called, the first tracked market of the action's kind and match, if any,
is the market of its predicate. -/
def OwnLine (cfg : AgentConfig) (s : System) (mv : Move) : Prop :=
  ∀ r ∈ mv.next cfg s, ∀ a ∈ r.2.settles, ∀ m ∈ r.1.openMarkets.find? (sameLine a.predicate),
    m.marketPda = cfg.marketPda a.predicate

instance (cfg : AgentConfig) (s : System) (mv : Move) : Decidable (OwnLine cfg s mv) :=
  Option.decidableForallMem (mv.next cfg s)

/-! ## The loops -/

section Loops
variable {cfg : AgentConfig} {es : List Move} {w : World}

theorem decideActions_sound (h : w.Sound cfg es) {e : NormalizedEvent} (he : Move.event e ∈ es)
    (templates : MatchTemplates) :
    ∀ a ∈ (decideActions e w.openMarkets templates).actions, a.Sound es := by
  intro a ha
  cases e with
  | matchStarted fixtureId matchId home away competitionId ts =>
    obtain ⟨c, hc, rfl⟩ := List.mem_map.mp ha
    rcases List.mem_append.mp hc with hgoals | hcorners
    · obtain ⟨threshold, -, rfl⟩ := Option.map_eq_some_iff.mp (Option.mem_toList.mp hgoals)
      exact .totalGoals matchId threshold _
    · obtain ⟨threshold, -, rfl⟩ := Option.map_eq_some_iff.mp (Option.mem_toList.mp hcorners)
      exact .corners matchId threshold
  | matchEnded fixtureId matchId finalScore finalStats ts seq minute =>
    obtain ⟨b, hb, rfl⟩ := List.mem_map.mp ha
    obtain ⟨m, hm, hsettle⟩ := List.mem_filterMap.mp hb
    obtain ⟨htracked, hmatch⟩ := List.mem_filter.mp hm
    cases of_decide_eq_true hmatch
    exact ⟨fixtureId, finalScore, finalStats, ts, seq, minute, m, h.openMarkets m htracked, he,
      hsettle⟩
  | _ => exact absurd ha List.not_mem_nil

theorem runActions_sound {as : List AgentAction} (h : ∀ a ∈ as, a.Sound es) :
    (runActions as).Sound cfg es := by
  cases as with
  | nil => trivial
  | cons a rest =>
    exact ⟨fun b hb => h b (List.mem_cons_of_mem a hb), h a List.mem_cons_self⟩

theorem handleDecision_sound (h : w.Sound cfg es) {e : NormalizedEvent} (he : Move.event e ∈ es)
    (templates : MatchTemplates) : (handleDecision cfg e templates w).2.Sound cfg es := by
  refine runActions_sound fun a ha => ?_
  rcases List.mem_append.mp ha with hquote | hdecided
  · unfold quotesFor at hquote
    split at hquote
    · exact absurd hquote List.not_mem_nil
    · split at hquote
      · exact absurd hquote List.not_mem_nil
      · split at hquote
        · obtain ⟨q, -, rfl⟩ := List.mem_map.mp hquote
          trivial
        · exact absurd hquote List.not_mem_nil
  · exact decideActions_sound h he _ a hdecided

theorem retryFrom_sound (h : w.Sound cfg es) (now : ℕ) {rows : List (Pubkey × PendingSettlement)}
    (hrows : ∀ row ∈ rows, Decided es row.2.action) :
    (retryFrom now rows w).1.Sound cfg es ∧ (retryFrom now rows w).2.Sound cfg es := by
  rcases retryFrom_cases now rows w with hr | ⟨key, p, rest, hmem, hrest, hr⟩
  · rw [hr]
    exact ⟨h, trivial⟩
  · rw [hr]
    exact ⟨h.track key (hrows _ hmem), fun row hrow => hrows row (hrest row hrow), hrows _ hmem⟩

theorem giveUpFrom_sound (h : w.Sound cfg es) (now : ℕ) {rows : List (Pubkey × PendingSettlement)}
    (hrows : ∀ row ∈ rows, Decided es row.2.action) :
    (giveUpFrom now rows w).1.Sound cfg es ∧ (giveUpFrom now rows w).2.Sound cfg es := by
  rcases giveUpFrom_cases now rows w with hr | ⟨key, p, rest, hmem, hrest, -, hr⟩
  · rw [hr]
    exact ⟨h, trivial⟩
  · rw [hr]
    exact ⟨h, ⟨hrows _ hmem, fun row hrow => hrows row (hrest row hrow)⟩, hrows _ hmem⟩

theorem entries_sound (h : w.Sound cfg es) :
    ∀ row ∈ w.pendingSettlements.entries, Decided es row.2.action :=
  fun row hrow => h.pending row.1 row.2 (OrderedMap.get_eq_some_iff.mpr hrow)

theorem continueCaller_sound (h : w.Sound cfg es) {caller : Caller} (hcaller : caller.Sound es)
    (r : ActionResult) :
    (continueCaller caller r w).1.Sound cfg es ∧ (continueCaller caller r w).2.Sound cfg es := by
  cases caller with
  | handleEvent rest => exact ⟨h, runActions_sound hcaller⟩
  | processPending now rest => exact retryFrom_sound h now hcaller
  | finalAttempt now key pending rest =>
    unfold continueCaller
    dsimp only
    split
    · exact giveUpFrom_sound (h.deletePending key) now hcaller.2
    · exact ⟨h, hcaller, trivial⟩
  | giveUpVoid now key pending rest => exact giveUpFrom_sound (h.deletePending key) now hcaller.2

theorem handleEvent_sound (h : w.Sound cfg es) {e : NormalizedEvent} (he : Move.event e ∈ es) :
    (handleEvent cfg e w).1.Sound cfg es ∧ (handleEvent cfg e w).2.Sound cfg es := by
  simp only [handleEvent]
  split
  · split
    · exact ⟨h.updateMatchState e, he⟩
    · exact ⟨h.updateMatchState e, handleDecision_sound (h.updateMatchState e) he _⟩
  · exact ⟨h, trivial⟩

end Loops

/-! ## The actions -/

section Actions
variable {cfg : AgentConfig} {es : List Move} {w w' : World}

theorem resumeSettle_sound {st : Settling} {c : SettleAwait} {answer : Answer} {f : Flow}
    (h : w.Sound cfg es) (hp : (Point.settle st c).Sound cfg es)
    (hrun : resumeSettle cfg st c answer w = some (w', f)) :
    w'.Sound cfg es ∧ ∀ p, f = .waits p → p.Sound cfg es := by
  obtain ⟨hdecided, hterms, hsends⟩ := hp
  have hturn := resumeSettle_turn hrun
  have hown {v : World} (hv : v.Sound cfg es) {tx : Tx} (htx : tx.settlement = some st.args) :
      (v.submit tx).Sound cfg es := by
    refine hv.submit fun args hargs => ?_
    rw [htx] at hargs
    cases hargs
    exact hterms
  constructor
  · cases hturn with
    | dryRun => exact h.splice st.idx
    | bundle => exact hown h rfl
    | resolve => exact hown h rfl
    | resume => exact hown h rfl
    | next tx next rest signature =>
      exact hown (h.confirm tx) (hsends next (List.mem_cons_of_mem _ List.mem_cons_self))
    | last tx signature => exact (h.confirm tx).splice st.idx
    | _ => exact h
  · rintro p rfl
    obtain ⟨c', rfl⟩ := resumeSettle_waits hrun
    exact ⟨hdecided, hterms, hturn.sends hsends⟩

theorem resumeCreate_sound {a : CreateAction} {closesAt : ℕ} {c : CreateAwait} {answer : Answer}
    {f : Flow} (h : w.Sound cfg es) (ha : Template a.predicate)
    (hrun : resumeCreate cfg a closesAt c answer w = some (w', f)) :
    w'.Sound cfg es ∧ ∀ p, f = .waits p → p.Sound cfg es := by
  have hfailed : ∀ e p, createFailed cfg a e = .waits p → p.Sound cfg es :=
    fun e p hp => absurd hp (createFailed_ne_waits cfg a e p)
  have hwaits : ∀ c' p, Flow.waits (.create a closesAt c') = .waits p → p.Sound cfg es := by
    intro c' p hp
    cases hp
    exact ha
  cases resumeCreate_turn hrun with
  | found => exact ⟨h.push ha, fun p hp => by cases hp⟩
  | missing answer hnot => exact ⟨h.push ha, hwaits _⟩
  | sends => exact ⟨h.submit_other rfl, hwaits _⟩
  | noBlockhash e f hf =>
    subst hf
    exact ⟨h, hfailed e⟩
  | confirms signature => exact ⟨h.confirm _, fun p hp => by cases hp⟩
  | unconfirmed e f hf =>
    subst hf
    exact ⟨h, hfailed e⟩

theorem resumeVoid_sound {market : OpenMarket} {c : VoidAwait} {answer : Answer} {f : Flow}
    (h : w.Sound cfg es) (hrun : resumeVoid market c answer w = some (w', f)) :
    w'.Sound cfg es ∧ ∀ p, f = .waits p → p.Sound cfg es := by
  cases resumeVoid_turn hrun with
  | sends =>
    refine ⟨h.submit_other rfl, fun p hp => ?_⟩
    cases hp
    trivial
  | noBlockhash e => exact ⟨h, fun p hp => by cases hp⟩
  | confirms signature => exact ⟨h.confirm _, fun p hp => by cases hp⟩
  | unconfirmed e => exact ⟨h, fun p hp => by cases hp⟩

theorem resumeQuote_sound {marketPda : Pubkey} {snapshot : PricingSnapshot} {c : QuoteAwait}
    {answer : Answer} {f : Flow} (h : w.Sound cfg es)
    (hrun : resumeQuote marketPda snapshot c answer w = some (w', f)) :
    w'.Sound cfg es ∧ ∀ p, f = .waits p → p.Sound cfg es := by
  cases resumeQuote_turn hrun with
  | sends =>
    refine ⟨h.submit_other rfl, fun p hp => ?_⟩
    cases hp
    trivial
  | noBlockhash e => exact ⟨h, fun p hp => by cases hp⟩
  | confirms signature => exact ⟨h.confirm _, fun p hp => by cases hp⟩
  | unconfirmed e => exact ⟨h, fun p hp => by cases hp⟩

theorem resumePoint_sound {p : Point} {answer : Answer} {f : Flow} (h : w.Sound cfg es)
    (hp : p.Sound cfg es) (hrun : resumePoint cfg p answer w = some (w', f)) :
    w'.Sound cfg es ∧ ∀ q, f = .waits q → q.Sound cfg es := by
  cases p with
  | create a closesAt c => exact resumeCreate_sound h hp hrun
  | settle st c => exact resumeSettle_sound h hp hrun
  | void market c => exact resumeVoid_sound h hrun
  | quote marketPda snapshot c => exact resumeQuote_sound h hrun
  | returned a r => cases hrun
  | sleep wakeAt r => cases hrun

theorem finishAction_sound {settling : Option SettleAction} {f : Flow}
    (hsettling : ∀ a, settling = some a → Decided es a)
    (hf : ∀ p, f = .waits p → p.Sound cfg es) : (finishAction settling (w, f)).2.Sound cfg es := by
  cases f with
  | waits p => exact hf p rfl
  | returned r =>
    cases settling with
    | none => trivial
    | some a => exact hsettling a rfl
  | thrown e => trivial

theorem resumeAction_sound {p p' : Point} {answer : Answer} (h : w.Sound cfg es)
    (hp : p.Sound cfg es) (hrun : resumeAction cfg p answer w = some (w', p')) :
    w'.Sound cfg es ∧ p'.Sound cfg es := by
  unfold resumeAction at hrun
  split at hrun
  · cases hrun
    exact ⟨h.record hp _, trivial⟩
  · obtain ⟨⟨v, f⟩, hpoint, hfinish⟩ := Option.map_eq_some_iff.mp hrun
    obtain ⟨hv, hf⟩ := resumePoint_sound h hp hpoint
    have hworld := finishAction_shared p.settling v f
    rw [hfinish] at hworld
    cases hworld
    have hsettling : ∀ a, p.settling = some a → Decided es a := by
      intro a ha
      cases p with
      | settle st c =>
        cases ha
        exact hp.1
      | _ => cases ha
    have hpoint' := finishAction_sound (w := w') hsettling hf
    rw [hfinish] at hpoint'
    exact ⟨hv, hpoint'⟩

theorem startAction_sound {a : AgentAction} (h : w.Sound cfg es) (ha : a.Sound es)
    (hown : ∀ b, a = .settleMarket b → ∀ m ∈ w.openMarkets.find? (sameLine b.predicate),
      m.marketPda = cfg.marketPda b.predicate) :
    (startAction cfg a w).1.Sound cfg es ∧
      ∀ p, (startAction cfg a w).2 = .waits p → p.Sound cfg es := by
  cases a with
  | createMarket a =>
    simp only [startAction, createMarket]
    split
    · exact ⟨h.push ha, fun p hp => by cases hp⟩
    · refine ⟨h, fun p hp => ?_⟩
      cases hp
      exact ha
  | settleMarket a =>
    refine ⟨h, fun p hp => ?_⟩
    obtain ⟨st, rfl, rfl, hlocated⟩ := settleMarket_waits hp
    obtain ⟨fixtureId, hargs⟩ := hlocated.args
    have hm := hown _ rfl st.market (findOpen_eq_some hlocated.found).2
    refine ⟨ha, ?_, fun tx htx => absurd htx List.not_mem_nil⟩
    rw [hargs]
    exact Decided.ownTerms ha hm fixtureId
  | voidMarket a =>
    simp only [startAction, voidMarket]
    split
    · exact ⟨h, fun p hp => by cases hp⟩
    · split
      · exact ⟨h.splice _, fun p hp => by cases hp⟩
      · refine ⟨h.splice _, fun p hp => ?_⟩
        cases hp
        trivial
  | quoteMarket a =>
    refine ⟨h, fun p hp => ?_⟩
    simp only [startAction, quoteMarket] at hp
    split at hp
    · cases hp
    · split at hp
      · cases hp
      · cases hp
        trivial

end Actions

/-! ## Runs -/

section Runs
variable {cfg : AgentConfig} {es : List Move} {s t : System} {mv : Move}

theorem Turn.sound {r : World × Next} (h : Turn cfg s mv r)
    (hs : Pool.Holds (World.Sound cfg es) (fun _ => Task.Sound cfg es) s)
    (hmv : ∀ e, mv = .event e → Move.event e ∈ es) : r.1.Sound cfg es ∧ r.2.Sound cfg es := by
  cases h with
  | event e => exact handleEvent_sound hs.shared (hmv e rfl)
  | retry =>
    unfold processPendingSettlements
    split
    · exact retryFrom_sound hs.shared _ (entries_sound hs.shared)
    · exact ⟨hs.shared, trivial⟩
  | housekeep =>
    unfold housekeepPass
    split
    · exact giveUpFrom_sound hs.shared _ (entries_sound hs.shared)
    · exact ⟨hs.shared, trivial⟩
  | advised i e templates htask =>
    exact ⟨hs.shared, handleDecision_sound hs.shared (hs.task _ (List.mem_of_getElem? htask)) _⟩
  | acts i answer caller p p' w htask hact =>
    obtain ⟨hcaller, hp⟩ := hs.task _ (List.mem_of_getElem? htask)
    obtain ⟨hw, hp'⟩ := resumeAction_sound hs.shared hp hact
    exact ⟨hw, hcaller, hp'⟩
  | returns i caller wakeAt r htask hwake =>
    exact continueCaller_sound hs.shared (hs.task _ (List.mem_of_getElem? htask)).1 r

theorem dispatch_sound {r : World × Next} (h : r.1.Sound cfg es ∧ r.2.Sound cfg es)
    (hown : ∀ a ∈ r.2.settles, ∀ m ∈ r.1.openMarkets.find? (sameLine a.predicate),
      m.marketPda = cfg.marketPda a.predicate) :
    (dispatch cfg r).1.Sound cfg es ∧ ∀ u, (dispatch cfg r).2 = some u → u.Sound cfg es := by
  obtain ⟨w, n⟩ := r
  cases n with
  | finished => exact ⟨h.1, fun u hu => by cases hu⟩
  | waits t =>
    refine ⟨h.1, fun u hu => ?_⟩
    cases hu
    exact h.2
  | calls caller a =>
    obtain ⟨hw, hcaller, ha⟩ := h
    have hstart := startAction_sound hw ha fun b hb m hm => hown b (by rw [hb]; rfl) m hm
    refine ⟨?_, fun u hu => ?_⟩
    · rw [dispatch, executeAction, finishAction_shared]
      exact hstart.1
    · cases hu
      refine ⟨hcaller, finishAction_sound (fun b hb => ?_) hstart.2⟩
      cases a with
      | settleMarket a =>
        cases hb
        exact ha
      | _ => cases hb

theorem Step.sound (h : Step cfg s mv t) (hown : OwnLine cfg s mv)
    (hs : Pool.Holds (World.Sound cfg es) (fun _ => Task.Sound cfg es) s) :
    Pool.Holds (World.Sound cfg (es ++ [mv])) (fun _ => Task.Sound cfg (es ++ [mv])) t := by
  have hsub : es ⊆ es ++ [mv] := List.subset_append_left es [mv]
  have hs' : Pool.Holds (World.Sound cfg (es ++ [mv])) (fun _ => Task.Sound cfg (es ++ [mv])) s :=
    ⟨hs.shared.mono hsub, fun u hu => (hs.task u hu).mono hsub⟩
  rcases h.cases with ⟨r, hnext, rfl⟩ | ⟨w, -, -, hstill, rfl⟩ | ⟨-, rfl⟩
  · have hturn := (Turn.of_next hnext).sound hs' fun e he => by simp [he]
    obtain ⟨hw, htask⟩ := dispatch_sound hturn (hown r hnext)
    exact hs'.turn (fun u hu => Move.mem_of_mem_rest hu) hw (fun u _ hu => hu) htask
  · refine ⟨⟨fun m hm => ?_, fun key p hp => ?_, fun rows hrows => ?_, fun e he => ?_⟩, hs'.task⟩
    · exact hs'.shared.openMarkets m (hstill.openMarkets ▸ hm)
    · exact hs'.shared.pending key p (hstill.pending ▸ hp)
    · rcases hstill.file with hsame | hnew
      · exact hs'.shared.file rows (hsame ▸ hrows)
      · rw [hnew] at hrows
        cases hrows
        exact entries_sound hs'.shared
    · exact hs'.shared.submitted e (hstill.submitted ▸ he)
  · exact ⟨hs'.shared.restart, fun u hu => absurd hu List.not_mem_nil⟩

theorem boot_sound (cfg : AgentConfig) (now : ℕ) :
    Pool.Holds (World.Sound cfg []) (fun _ => Task.Sound cfg []) (boot now) := by
  refine ⟨⟨fun m hm => ?_, fun key p hp => ?_, fun rows hrows => ?_, fun e he => ?_⟩,
    fun u hu => ?_⟩
  · exact absurd hm List.not_mem_nil
  · cases hp
  · cases hrows
  · exact absurd he List.not_mem_nil
  · exact absurd hu List.not_mem_nil

/-- **Settlement uses the market's own terms.** In every run in which `settleMarket` finds the
market of its own action, a settlement that is sent for a market carries the threshold and the
outcome of a predicate with that market's address. -/
theorem settlement_terms {now : ℕ} {as : List Move}
    (h : Steps (guarded (Step cfg) (OwnLine cfg)) (boot now) as s) :
    ∀ e ∈ s.shared.submitted, ∀ args, e.2.settlement = some args → OwnTerms cfg as args := by
  have hinv : Pool.Holds (World.Sound cfg as) (fun _ => Task.Sound cfg as) s := by
    refine h.history (P := fun es u =>
      Pool.Holds (World.Sound cfg es) (fun _ => Task.Sound cfg es) u) (boot_sound cfg now) ?_
    intro es mv u v _ _ hu hstep
    exact hstep.1.sound hstep.2 hu
  exact hinv.shared.submitted

end Runs

namespace Sample

/-- A match with a line of goals and a line of corners. -/
def oneLine : List Move :=
  begins 18041422 pac ⟨some 3, some 9, none⟩ ++ creates (start + 2000) ++ creates (start + 4000) ++
    [ends 18041422 pac]

/-- A match that is announced twice, with different lines of goals. -/
def twoLines : List Move :=
  begins 18041422 pac ⟨some 3, none, none⟩ ++ creates (start + 2000) ++
    begins 18041422 pac ⟨some 2, none, none⟩ ++ creates (start + 4000) ++ [ends 18041422 pac]

/-- The only task has no proof for its settlement, and goes on. -/
def unproved : List Move :=
  [.resume 0 (.proof (.error "")), .resume 0 .awake, .clock (start + 6000), .resume 0 .awake]

/-- The only task sends its settlement. -/
def settled : List Move := [.resume 0 (.proof (.ok ())), .resume 0 (.built (.ok false))]

theorem pacGoals_ne_two {p : MarketPredicate} (h : Template p) (htwo : p.threshold = 2) :
    config.marketPda p ≠ pacGoals := by
  show (if p.seeds.matchId = Escrow.matchIdToBuffer (Utf16.ofString pac) then
      if p.seeds.kind = PredicateKind.totalGoalsOver.code then
        if p.seeds.paramU64 = 3 then pacGoals else pacTwoGoals
      else pacCorners
    else if p.seeds.kind = PredicateKind.totalGoalsOver.code then citGoals else citCorners) ≠
      pacGoals
  cases h with
  | totalGoals matchId threshold scoreUnit =>
    have hparam :
        (createTotalGoalsMarket matchId threshold scoreUnit).predicate.seeds.paramU64 = 2 :=
      congrArg UInt64.ofInt htwo
    rw [hparam, if_neg (by decide : (2 : UInt64) ≠ 3)]
    split_ifs <;> decide
  | corners matchId threshold =>
    have hkind : (createCornersMarket matchId threshold).predicate.seeds.kind ≠
        PredicateKind.totalGoalsOver.code := by
      show (1 : UInt8) ≠ 3
      decide
    rw [if_neg hkind, if_neg hkind]
    split_ifs <;> decide

end Sample

/-- A match with two lines of different kinds, and the settlement of the first. -/
theorem settlement_terms_sample : ∃ s, ∃ e ∈ s.shared.submitted, ∃ args,
    Steps (guarded (Step Sample.config) (OwnLine Sample.config)) (boot Sample.start)
      (Sample.oneLine ++ Sample.settled) s ∧
    e.2.settlement = some args ∧ args.marketPda = Sample.pacGoals ∧
    OwnTerms Sample.config (Sample.oneLine ++ Sample.settled) args := by
  have hrun : reaches (Move.apply Sample.config) (OwnLine Sample.config) (fun s =>
      ∃ e ∈ s.shared.submitted, ∃ args ∈ e.2.settlement, args.marketPda = Sample.pacGoals)
      (Sample.oneLine ++ Sample.settled) (boot Sample.start) = true := by
    decide +kernel
  obtain ⟨s, hsteps, e, he, args, hargs, hkey⟩ := steps_of_reaches hrun
  exact ⟨s, e, he, args, hsteps, hargs, hkey, settlement_terms hsteps e he args hargs⟩

/-- **The terms of another line.** A match has two lines of goals. When the first one's proof is not
there yet, the second one's settlement goes out for the first market. -/
theorem terms_of_another_line : ¬ ∀ cfg now as s, Steps (Step cfg) (boot now) as s →
    ∀ e ∈ s.shared.submitted, ∀ args, e.2.settlement = some args → OwnTerms cfg as args := by
  intro hall
  have hrun : reaches (Move.apply Sample.config) (fun _ _ => True) (fun s =>
      ∃ e ∈ s.shared.submitted, ∃ args ∈ e.2.settlement,
        args.marketPda = Sample.pacGoals ∧ args.threshold = 2)
      (Sample.twoLines ++ Sample.unproved ++ Sample.settled) (boot Sample.start) = true := by
    decide +kernel
  obtain ⟨s, hsteps, e, he, args, hargs, hkey, htwo⟩ := steps_of_reaches hrun
  obtain ⟨p, htemplate, hpda, hthreshold, -⟩ := hall _ _ _ s hsteps.of_guarded e he args hargs
  exact Sample.pacGoals_ne_two htemplate (hthreshold.symm.trans htwo) (hpda.trans hkey)

end Stoppage.Agent
