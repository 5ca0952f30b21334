import Stoppage.Agent.Tracked
import Stoppage.Chain.Execution

/-! # What the agent keeps tracked

`settleMarket` finds a market by its index, waits, and later takes out whatever has that index.
The tracked markets are kept as long as nothing is taken out in front of an index in flight
(`tracking_kept`).
-/

namespace Stoppage.Agent
open TransitionSystem
set_option autoImplicit false

/-! ## Two matches

The markets of two matches, with the addresses their predicates really derive.
-/

namespace Sample

def pacGoals : Pubkey :=
  ⟨[184, 145, 55, 127, 225, 41, 93, 40, 189, 117, 127, 141, 189, 177, 164, 173,
    51, 26, 26, 120, 53, 144, 216, 164, 37, 22, 101, 219, 190, 87, 200, 197], rfl⟩

/-- The line of two goals. -/
def pacTwoGoals : Pubkey :=
  ⟨[66, 183, 67, 7, 112, 65, 227, 230, 210, 0, 230, 100, 138, 60, 182, 111,
    193, 218, 109, 31, 90, 187, 58, 163, 101, 191, 34, 115, 141, 244, 166, 198], rfl⟩

def pacCorners : Pubkey :=
  ⟨[8, 173, 193, 22, 35, 100, 99, 224, 43, 254, 85, 102, 73, 209, 150, 87,
    175, 226, 178, 30, 166, 63, 147, 125, 56, 39, 87, 247, 250, 131, 181, 243], rfl⟩

def citGoals : Pubkey :=
  ⟨[88, 175, 217, 177, 145, 163, 196, 215, 0, 211, 193, 129, 219, 241, 30, 156,
    46, 88, 160, 46, 227, 116, 41, 247, 226, 220, 20, 57, 37, 155, 186, 49], rfl⟩

def citCorners : Pubkey :=
  ⟨[216, 62, 125, 121, 239, 93, 7, 175, 87, 206, 182, 222, 54, 111, 58, 214,
    228, 148, 114, 66, 100, 100, 125, 224, 126, 167, 81, 216, 199, 145, 222, 69], rfl⟩

def pac : String := "PAC-FAL-18041422"
def cit : String := "CIT-CIN-17615188"

def runtime : Runtime :=
  { Stoppage.Sample.runtime with
    marketAddress := fun seeds =>
      if seeds.matchId = Escrow.matchIdToBuffer (Utf16.ofString pac) then
        if seeds.kind = PredicateKind.totalGoalsOver.code then
          if seeds.paramU64 = 3 then pacGoals else pacTwoGoals
        else pacCorners
      else if seeds.kind = PredicateKind.totalGoalsOver.code then citGoals
      else citCorners }

def config : AgentConfig where
  runtime := runtime
  dryRun := false
  txlineCreds := true
  quoteTracker := false
  usepodAdvisoryEnabled := true
  positiveNumber s :=
    if s = "18041422" then some 18041422 else if s = "17615188" then some 17615188 else none

def start : ℕ := 1700000000000

def begins (fixtureId : ℕ) (matchId : String) (lines : MatchTemplates) : List Move :=
  [.event (.matchStarted fixtureId matchId "home" "away" none start),
    .resume 0 (.advice (some lines))]

def ends (fixtureId : ℕ) (matchId : String) : Move :=
  .event (.matchEnded fixtureId matchId ⟨2, 1⟩ (fun _ => some 5) start 900 none)

def creates (t : ℕ) : List Move :=
  [.resume 0 (.account (.ok false)), .resume 0 (.blockhash (.ok ())), .resume 0 (.sent (.ok "")),
    .clock t, .resume 0 .awake]

def both : List Move :=
  begins 18041422 pac ⟨some 3, none, none⟩ ++ creates (start + 2000) ++
    begins 17615188 cit ⟨some 3, some 9, none⟩ ++ creates (start + 4000) ++ creates (start + 6000) ++
    [ends 18041422 pac, ends 17615188 cit]

def settles (i : ℕ) : List Move := [.resume i (.proof (.ok ())), .resume 1 (.built (.ok false))]

def landed : Move := .resume 1 (.sent (.ok ""))

end Sample

/-! ## Indices in flight -/

/-- The settlement of a task whose index is still to be used. -/
def Task.flight : Task → Option Settling
  | .acting _ (.settle _ (.attest _)) => none
  | .acting _ (.settle st _) => some st
  | _ => none

/-- A move takes out an entry only behind the indices that the other settlements in flight
remember. -/
def Undisturbed (cfg : AgentConfig) (s : System) (mv : Move) : Prop :=
  ∀ r ∈ mv.removes cfg s, ∀ t ∈ mv.rest s, ∀ st ∈ t.flight, st.idx < r.1

instance (cfg : AgentConfig) (s : System) (mv : Move) : Decidable (Undisturbed cfg s mv) :=
  Option.decidableForallMem (mv.removes cfg s)

/-- The index still points at the market it was found for. -/
def OnTarget (w : World) (t : Task) : Prop :=
  ∀ st ∈ t.flight, w.openMarkets[st.idx]? = some st.market

/-- What a move may do to the tracked markets. A successful settlement and a void take out one entry
of their market; any other move, short of a new process, leaves every entry in place. -/
def KeepsTracking (cfg : AgentConfig) (s : System) (mv : Move) (t : System) : Prop :=
  match mv.removes cfg s with
  | some (_, key) => ∃ before m after, m.marketPda = key ∧
      s.shared.openMarkets = before ++ m :: after ∧ t.shared.openMarkets = before ++ after
  | none => mv = .restart ∨ s.shared.openMarkets <+: t.shared.openMarkets

theorem Touches.of_removes {before after : List OpenMarket} {c : Option Pubkey} {idx : ℕ}
    {key : Pubkey} (h : Touches before c (some (idx, key)) after) :
    after = before.eraseIdx idx := by
  cases h
  rfl

theorem Touches.prefix_of_keeps {before after : List OpenMarket} {c : Option Pubkey}
    (h : Touches before c none after) : before <+: after := by
  cases h with
  | same => exact List.prefix_rfl
  | create m => exact List.prefix_append before [m]
  | track m _ => exact List.prefix_append before [m]

theorem Touches.getElem? {before after : List OpenMarket} {c : Option Pubkey}
    {r : Option (ℕ × Pubkey)} {i : ℕ} {m : OpenMarket} (h : Touches before c r after)
    (hi : ∀ q ∈ r, i < q.1) (hm : before[i]? = some m) : after[i]? = some m := by
  have hlt : i < before.length := (List.getElem?_eq_some_iff.mp hm).1
  cases h with
  | same => exact hm
  | create m' => rw [List.getElem?_append_left hlt, hm]
  | track m' _ => rw [List.getElem?_append_left hlt, hm]
  | remove idx key => rw [List.getElem?_eraseIdx_of_lt (hi _ rfl), hm]

theorem resumeSettle_flight {cfg : AgentConfig} {st : Settling} {c c' : SettleAwait}
    {answer : Answer} {w w' : World}
    (h : resumeSettle cfg st c answer w = some (w', .waits (.settle st c'))) :
    (∃ signature, c' = .attest signature) ∨
      (∀ caller, (Task.acting caller (.settle st c)).flight = some st) ∧
        w'.openMarkets = w.openMarkets := by
  cases resumeSettle_turn h with
  | last tx signature => exact .inl ⟨signature, rfl⟩
  | _ => exact .inr ⟨fun _ => rfl, rfl⟩

theorem Task.flight_eq_some {t : Task} {st : Settling} (h : t.flight = some st) :
    ∃ caller c, t = .acting caller (.settle st c) ∧ ∀ signature, c ≠ .attest signature := by
  cases t with
  | advising e => cases h
  | acting caller p =>
    cases p with
    | settle st' c =>
      cases c <;> cases h
      all_goals exact ⟨caller, _, rfl, fun _ => SettleAwait.noConfusion⟩
    | _ => cases h

theorem Turn.onTarget {cfg : AgentConfig} {s : System} {mv : Move} {r : World × Next} {t : Task}
    (h : Turn cfg s mv r) (hold : ∀ u ∈ s.tasks, OnTarget s.shared u)
    (ht : (dispatch cfg r).2 = some t) : OnTarget (dispatch cfg r).1 t := by
  intro st hst
  obtain ⟨caller, c', rfl, hflight⟩ := Task.flight_eq_some hst
  rcases h.point ht with ⟨i, answer, p, rfl, htask, hr, hact⟩ | ⟨a, hcall, hexec⟩
  · obtain ⟨c, rfl, hresume⟩ := resumeAction_settle hact
    rcases resumeSettle_flight hresume with ⟨signature, rfl⟩ | ⟨hearlier, hsame⟩
    · exact absurd rfl (hflight signature)
    · rw [hr]
      show r.1.openMarkets[st.idx]? = _
      rw [hsame]
      exact hold _ (List.mem_of_getElem? htask) st (hearlier caller)
  · have hpoint := congrArg Prod.snd hexec
    obtain ⟨rfl, -, hlocated⟩ := executeAction_settle hpoint
    have hworld := congrArg Prod.fst hexec
    rw [executeAction, finishAction_shared] at hworld
    rw [← hworld]
    exact (findOpen_eq_some hlocated.found).1

theorem Step.onTarget {cfg : AgentConfig} {s t : System} {mv : Move} (h : Step cfg s mv t)
    (hguard : Undisturbed cfg s mv) (hold : Pool.Holds (fun _ => True) OnTarget s) :
    Pool.Holds (fun _ => True) OnTarget t := by
  rcases h.cases with ⟨r, hnext, rfl⟩ | ⟨w, -, -, hstill, rfl⟩ | ⟨-, rfl⟩
  · have htouch := Turn.touches hnext
    refine hold.turn (fun u hu => Move.mem_of_mem_rest hu) trivial (fun u hu hon st hst => ?_) ?_
    · refine htouch.getElem? (fun q hq => ?_) (hon st hst)
      exact hguard q hq u hu st hst
    · intro u hu
      exact (Turn.of_next hnext).onTarget hold.task hu
  · refine ⟨trivial, fun u hu st hst => ?_⟩
    rw [hstill.openMarkets]
    exact hold.task u hu st hst
  · exact ⟨trivial, fun u hu => absurd hu List.not_mem_nil⟩

theorem onTarget {cfg : AgentConfig} {now : ℕ} {as : List Move} {s : System}
    (h : Steps (guarded (Step cfg) (Undisturbed cfg)) (boot now) as s) :
    Pool.Holds (fun _ => True) OnTarget s := by
  refine h.invariant (fun u mv v _ hstep hu => hstep.1.onTarget hstep.2 hu) ?_
  exact ⟨trivial, fun u hu => absurd hu List.not_mem_nil⟩

/-! ## Taking out the right entry -/

/-- The entry that a move takes out is the one that a settlement in flight remembers, or the one
that `voidMarket` has just found. -/
theorem Move.removes_cases {cfg : AgentConfig} {s : System} {mv : Move} {idx : ℕ} {key : Pubkey}
    (h : mv.removes cfg s = some (idx, key)) :
    (∃ t ∈ s.tasks, ∃ st ∈ t.flight, (idx, key) = (st.idx, st.market.marketPda)) ∨
      ∃ m, s.shared.openMarkets[idx]? = some m ∧ m.marketPda = key := by
  rcases Option.or_eq_some_iff.mp h with hpoint | ⟨-, hnext⟩
  · obtain ⟨⟨p, answer⟩, hmv, hremoves⟩ := Option.bind_eq_some_iff.mp hpoint
    obtain ⟨caller, hmem⟩ := Move.mem_of_point hmv
    change p.removes cfg answer = _ at hremoves
    unfold Point.removes at hremoves
    split at hremoves
    · cases hremoves
      exact .inl ⟨_, hmem, _, rfl, rfl⟩
    · split at hremoves
      · cases hremoves
        exact .inl ⟨_, hmem, _, rfl, rfl⟩
      · cases hremoves
    · cases hremoves
  · obtain ⟨⟨w, n⟩, -, hremoves⟩ := Option.bind_eq_some_iff.mp hnext
    unfold Next.removes at hremoves
    split at hremoves
    · obtain ⟨⟨i, m⟩, hfound, hpair⟩ := Option.map_eq_some_iff.mp hremoves
      cases hpair
      exact .inr ⟨m, (findOpen_eq_some hfound).1, rfl⟩
    · cases hremoves

theorem eraseIdx_eq_of_getElem? {l : List OpenMarket} {i : ℕ} {m : OpenMarket}
    (h : l[i]? = some m) : ∃ before after, l = before ++ m :: after ∧
      l.eraseIdx i = before ++ after := by
  obtain ⟨hlt, hget⟩ := List.getElem?_eq_some_iff.mp h
  refine ⟨l.take i, l.drop (i + 1), ?_, List.eraseIdx_eq_take_drop_succ l i⟩
  rw [← hget, List.getElem_cons_drop hlt, List.take_append_drop]

/-- **No lost tracking.** In every interleaving that takes out entries only behind the indices in
flight, a successful settlement and a void take out one entry of their own market, and nothing else
is lost. -/
theorem tracking_kept {cfg : AgentConfig} {now : ℕ} {as : List Move} {s t : System} {mv : Move}
    (h : Steps (guarded (Step cfg) (Undisturbed cfg)) (boot now) as s) (hstep : Step cfg s mv t) :
    KeepsTracking cfg s mv t := by
  by_cases hmv : mv = .restart
  · subst hmv
    exact .inl rfl
  have htouch := hstep.touches hmv
  unfold KeepsTracking
  split
  · rename_i idx key hremoves
    have hentry : ∃ m, s.shared.openMarkets[idx]? = some m ∧ m.marketPda = key := by
      rcases Move.removes_cases hremoves with ⟨u, hu, st, hst, hpair⟩ | hfound
      · cases hpair
        exact ⟨st.market, (onTarget h).task u hu st hst, rfl⟩
      · exact hfound
    obtain ⟨m, hm, hkey⟩ := hentry
    obtain ⟨before, after, hsplit, herase⟩ := eraseIdx_eq_of_getElem? hm
    rw [hremoves] at htouch
    refine ⟨before, m, after, hkey, hsplit, ?_⟩
    rw [← herase]
    exact htouch.of_removes
  · rename_i hremoves
    rw [hremoves] at htouch
    exact .inr htouch.prefix_of_keeps

/-- Two settlements under way, and the one behind lands first. -/
theorem tracking_kept_sample : ∃ s t, Steps (guarded (Step Sample.config) (Undisturbed Sample.config))
      (boot Sample.start) (Sample.both ++ Sample.settles 1 ++ [Sample.landed] ++ Sample.settles 0) s ∧
    Sample.landed.removes Sample.config s = some (0, Sample.pacGoals) ∧
    Step Sample.config s Sample.landed t ∧ KeepsTracking Sample.config s Sample.landed t := by
  have hrun : reaches (Move.apply Sample.config) (Undisturbed Sample.config) (fun s =>
      Sample.landed.removes Sample.config s = some (0, Sample.pacGoals) ∧
        (Sample.landed.apply Sample.config s).isSome)
      (Sample.both ++ Sample.settles 1 ++ [Sample.landed] ++ Sample.settles 0)
      (boot Sample.start) = true := by
    decide +kernel
  obtain ⟨s, hsteps, hremoves, hsome⟩ := steps_of_reaches hrun
  obtain ⟨t, ht⟩ := Option.isSome_iff_exists.mp hsome
  exact ⟨s, t, hsteps, hremoves, ht, tracking_kept hsteps ht⟩

theorem KeepsTracking.count {cfg : AgentConfig} {s t : System} {mv : Move} {idx : ℕ} {key : Pubkey}
    (h : KeepsTracking cfg s mv t) (hremoves : mv.removes cfg s = some (idx, key)) :
    s.shared.tracked.count key = t.shared.tracked.count key + 1 := by
  unfold KeepsTracking at h
  rw [hremoves] at h
  obtain ⟨before, m, after, hkey, hs, ht⟩ := h
  simp [World.tracked, hs, ht, hkey]
  omega

/-- **A stale index.** The settlement of the first match lands while that of the second is under
way. When the second lands, its index is behind its market, and another market is taken out. -/
theorem stale_index : ¬ ∀ cfg now as s mv t, Steps (Step cfg) (boot now) as s → Step cfg s mv t →
    KeepsTracking cfg s mv t := by
  intro hall
  have hrun : reaches (Move.apply Sample.config) (fun _ _ => True) (fun s =>
      s.shared.tracked = [Sample.citGoals, Sample.citCorners] ∧
        Sample.landed.removes Sample.config s = some (1, Sample.citGoals) ∧
        (Sample.landed.apply Sample.config s).map (fun t => t.shared.tracked) =
          some [Sample.citGoals])
      (Sample.both ++ Sample.settles 0 ++ [Sample.landed] ++ Sample.settles 0)
      (boot Sample.start) = true := by
    decide +kernel
  obtain ⟨s, hsteps, hs, hremoves, hnext⟩ := steps_of_reaches hrun
  obtain ⟨t, ht, htracked⟩ := Option.map_eq_some_iff.mp hnext
  have hcount := (hall _ _ _ s Sample.landed t hsteps.of_guarded ht).count hremoves
  rw [hs, htracked] at hcount
  exact absurd hcount (by decide +kernel)

end Stoppage.Agent
