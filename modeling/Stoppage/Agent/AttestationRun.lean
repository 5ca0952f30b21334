import Stoppage.Oracle.Lockstep
import Stoppage.Agent.SportsDb
import Stoppage.Lib.Polling

/-! # `apps/agent/src/attestationKeeper.ts`: one run

A run makes sure of the market of an event, polls until the match is finished, and signs what it
has observed. `signs_iff` says when a run signs, and what, by the responses and the clock alone.
-/

namespace Stoppage.Agent
open Fallible Sdk
open Escrow (JsString)
set_option autoImplicit false

/-! ## Configuration -/

structure AttestConfig extends AttestationKeeperConfig where
  runtime : Runtime
  dryRun : Bool
  eventId : ℕ
  line : ℕ

def referenceOffsetSeconds : ℤ := 6300

def windowSeconds : ℤ := 14400

namespace AttestConfig

/-- `tsdb:${cfg.eventId}` -/
def matchId (cfg : AttestConfig) : String := "tsdb:" ++ String.ofList (Decimal.ofNat cfg.eventId)

def statement (cfg : AttestConfig) : String :=
  "total_goals_over:" ++ String.ofList (Decimal.ofNat cfg.line) ++ ":" ++ cfg.matchId

def predicate (cfg : AttestConfig) : Escrow.MarketPredicate where
  kind := .totalGoalsOver
  matchId := Utf16.ofString cfg.matchId
  params := ⟨some [], some cfg.line, none⟩

/-- `sha256("tsdb:<eventId>")[..16]` -/
def fixtureRef (sha256 : Sha256) (cfg : AttestConfig) : Bytes :=
  (sha256 (utf8 cfg.matchId)).1.take 16

end AttestConfig

/-- `ATTEST_STAT_KEYS.total_goals` -/
def totalGoalsKey : ℤ := 1

/-! ## What the run is given -/

structure Poll where
  /-- The clock at the check of the deadline. -/
  now : TimeValue
  /-- What the request after it comes to. -/
  response : Response

/-- What the calls of a run come to, `.error` where they throw, and its readings of the clock. -/
structure Surroundings where
  ensureAttestationConfig : Except SdkError Unit
  fetched : Response
  getAccountInfo : Pubkey → Except SdkError (Option Bytes)
  createdAt : TimeValue
  sendAndConfirm : TransactionInstruction → Except SdkError Unit
  polls : List Poll
  signedAt : TimeValue

/-! ## The run -/

/-- The market and the event at the start of the polling, `none` where there is nothing to do. The
texts of the errors are without the date and the keys. -/
def prepare (cfg : AttestConfig) (dateParse : DateParse) (w : Surroundings) :
    Except SdkError (Option (Pubkey × ObservedMatch)) := do
  w.ensureAttestationConfig
  let event ← fetchEvent dateParse cfg.eventId w.fetched
  let marketPda ← Escrow.findMarketPdaFromPredicate cfg.runtime cfg.predicate
  let existing ← w.getAccountInfo marketPda
  match existing with
  | some data => do
    let m ← Escrow.parseMarket data marketPda
    if m.status = .settled ∨ m.status = .void then pure none
    else do
      require (m.oracle = attestationValidatorId) (.error "market exists with foreign oracle")
      pure (some (marketPda, event))
  | none => do
    require (w.createdAt.seconds < event.kickoffTs) (.error
      "kickoff already passed; create markets before kickoff (closes_at must be in the future).")
    if cfg.dryRun then pure (some (marketPda, event))
    else do
      let ix ← Escrow.buildCreateMarketIx cfg.runtime cfg.wallet.publicKey cfg.predicate
        event.kickoffTs attestationValidatorId
      w.sendAndConfirm ix
      pure (some (marketPda, event))

/-- The end of the window by the first event, which later ones do not move. -/
def ObservedMatch.deadline (event : ObservedMatch) : ℤ :=
  event.kickoffTs + referenceOffsetSeconds + windowSeconds

inductive Watch
  | finished (event : ObservedMatch)
  | dryRun
  /-- The process exits with the code 2. -/
  | expired
  | polling

/-- The polling loop. An event that cannot be fetched is kept as it was. -/
def watch (cfg : AttestConfig) (dateParse : DateParse) (deadline : ℤ) :
    ObservedMatch → List Poll → Watch
  | event, polls =>
    if event.finished then .finished event
    else if cfg.dryRun then .dryRun
    else match polls with
      | [] => .polling
      | p :: ps =>
        if deadline < p.now.seconds then .expired
        else match fetchEvent dateParse cfg.eventId p.response with
          | .ok event => watch cfg dateParse deadline event ps
          | .error _ => watch cfg dateParse deadline event ps

/-- `(event.homeGoals ?? 0) + (event.awayGoals ?? 0)`, `none` where it is not finite. -/
def ObservedMatch.totalGoals (event : ObservedMatch) : Option ℚ := do
  let home ← event.homeGoals.getD (some 0)
  let away ← event.awayGoals.getD (some 0)
  NumberText.toDouble (home + away)

/-- `BigInt(totalGoals)` -/
def bigIntOf : Option ℚ → Except SdkError ℤ
  | some q => Escrow.toBigInt q
  | none => .error .rangeError

def AttestConfig.observation (cfg : AttestConfig) (js : Packages) (value : ℤ) (obsTs : ℤ) :
    AttestationObservation where
  fixtureRef := cfg.fixtureRef js.sha256
  statKey := totalGoalsKey
  value
  obsTs

def AttestConfig.claim (cfg : AttestConfig) (event : ObservedMatch) : AttestationClaim where
  op := .gte
  threshold := cfg.line + 1
  referenceTs := event.kickoffTs + referenceOffsetSeconds
  windowSeconds := windowSeconds

inductive Ending
  /-- The market is settled or void. -/
  | nothingToDo
  | dryRun
  | expired
  | polling
  /-- The attestor signs, and the bundle is sent if it can be built. -/
  | signs (o : AttestationObservation) (c : AttestationClaim) (message : Bytes) (outcome : ℤ)
      (bundle : Except SdkError (List TransactionInstruction))

def signAndSettle (js : Packages) (cfg : AttestConfig) (marketPda : Pubkey) (event : ObservedMatch)
    (signedAt : TimeValue) : Except SdkError Ending := do
  let value ← bigIntOf event.totalGoals
  let o := cfg.observation js value signedAt.seconds
  let message ← buildAttestationMessage o
  let outcome := if (cfg.line : ℤ) < value then 0 else 1
  if cfg.dryRun then pure .dryRun
  else
    pure (.signs o (cfg.claim event) message outcome
      (buildSettlementBundle js cfg.toAttestationKeeperConfig marketPda cfg.statement outcome o
        (cfg.claim event) message))

def runAttestationKeeper (js : Packages) (cfg : AttestConfig) (dateParse : DateParse)
    (w : Surroundings) : Except SdkError Ending := do
  let prepared ← prepare cfg dateParse w
  match prepared with
  | none => pure .nothingToDo
  | some (marketPda, event) =>
    match watch cfg dateParse event.deadline event w.polls with
    | .finished event => signAndSettle js cfg marketPda event w.signedAt
    | .dryRun => pure .dryRun
    | .expired => pure .expired
    | .polling => pure .polling

/-! ## When it signs -/

/-- The event of the first response that has the match finished, where that is the first response of
all or the clock was not behind the deadline at any check until then. -/
def Surroundings.Sees (dateParse : DateParse) (w : Surroundings) (e : SportsDbEvent)
    (m : ObservedMatch) : Prop :=
  w.fetched.final dateParse = some (e, m) ∨
    ∃ e₀ first, w.fetched.Reports dateParse e₀ first ∧ first.finished = false ∧
      Polling.Finds (fun p : Poll => decide (first.deadline < p.now.seconds))
        (fun p => p.response.final dateParse) w.polls (e, m)

/-- A live run on an open market sees the event, and its goals add up to a number that can be
signed. -/
structure Surroundings.Settles (cfg : AttestConfig) (dateParse : DateParse) (w : Surroundings)
    (e : SportsDbEvent) (m : ObservedMatch) (value : ℤ) : Prop where
  live : cfg.dryRun = false
  prepared : ∃ marketPda first, prepare cfg dateParse w = .ok (some (marketPda, first))
  sees : w.Sees dateParse e m
  total : m.totalGoals = some (value : ℚ)
  fits : FitsI64 value

section Run
variable {js : Packages} {cfg : AttestConfig} {dateParse : DateParse} {w : Surroundings}
  {event m : ObservedMatch} {deadline : ℤ} {ps : List Poll} {marketPda : Pubkey}
  {o : AttestationObservation} {c : AttestationClaim} {message : Bytes} {outcome : ℤ}
  {bundle : Except SdkError (List TransactionInstruction)}

theorem watch_of_finished (hfinished : event.finished = true) :
    watch cfg dateParse deadline event ps = .finished event := by
  cases ps <;> simp [watch, hfinished]

/-- While no response has a finished match, the loop is a poll until the deadline. -/
theorem watch_running (hrunning : event.finished = false) (hlive : cfg.dryRun = false) :
    watch cfg dateParse deadline event ps =
      match Polling.poll (fun p : Poll => decide (deadline < p.now.seconds))
          (fun p => p.response.final dateParse) ps with
      | .found (_, m) => .finished m
      | .expired => .expired
      | .waiting => .polling := by
  induction ps generalizing event with
  | nil =>
    rw [watch, if_neg (by simp [hrunning]), if_neg (by simp [hlive])]
    rfl
  | cons p ps ih =>
    rw [watch, if_neg (by simp [hrunning]), if_neg (by simp [hlive])]
    simp only [Polling.poll, decide_eq_true_iff]
    by_cases hlate : deadline < p.now.seconds
    · rw [if_pos hlate, if_pos hlate]
    · rw [if_neg hlate, if_neg hlate]
      cases hfetch : fetchEvent dateParse cfg.eventId p.response with
      | error error =>
        rw [final_of_error hfetch]
        exact ih hrunning
      | ok m =>
        obtain ⟨e, hreports⟩ := fetchEvent_eq_ok.mp hfetch
        cases hfinished : m.finished with
        | false =>
          rw [(final_eq_none hreports).mpr hfinished]
          exact ih hfinished
        | true =>
          rw [final_eq_some.mpr ⟨hreports, hfinished⟩]
          exact watch_of_finished hfinished

theorem prepare_event (h : prepare cfg dateParse w = .ok (some (marketPda, event))) :
    fetchEvent dateParse cfg.eventId w.fetched = .ok event := by
  simp only [prepare, bind_eq_ok] at h
  obtain ⟨-, -, m, hfetch, address, -, existing, -, h⟩ := h
  have heq : m = event := by
    cases existing with
    | some data =>
      obtain ⟨market, -, h⟩ := bind_eq_ok.mp h
      split at h
      · cases h
      · obtain ⟨-, -, h⟩ := bind_eq_ok.mp h
        cases h
        rfl
    | none =>
      obtain ⟨-, -, h⟩ := bind_eq_ok.mp h
      split at h
      · cases h
        rfl
      · obtain ⟨ix, -, h⟩ := bind_eq_ok.mp h
        obtain ⟨-, -, h⟩ := bind_eq_ok.mp h
        cases h
        rfl
  rw [hfetch, heq]

theorem watch_finished (hfetch : fetchEvent dateParse cfg.eventId w.fetched = .ok event)
    (hlive : cfg.dryRun = false) :
    watch cfg dateParse event.deadline event w.polls = .finished m ↔
      ∃ e, w.Sees dateParse e m := by
  obtain ⟨e₀, hreports⟩ := fetchEvent_eq_ok.mp hfetch
  have hfirst {e' : SportsDbEvent} {first : ObservedMatch}
      (h : w.fetched.Reports dateParse e' first) : first = event :=
    Except.ok.inj ((fetchEvent_eq_ok.mpr ⟨e', h⟩).symm.trans hfetch)
  cases hfinished : event.finished with
  | true =>
    rw [watch_of_finished hfinished]
    constructor
    · intro h
      cases h
      exact ⟨e₀, .inl (final_eq_some.mpr ⟨hreports, hfinished⟩)⟩
    · rintro ⟨e, hfinal | ⟨e', first, hseen, hrunning, -⟩⟩
      · rw [hfirst (final_eq_some.mp hfinal).1]
      · rw [hfirst hseen, hfinished] at hrunning
        cases hrunning
  | false =>
    have hnone : w.fetched.final dateParse = none := (final_eq_none hreports).mpr hfinished
    rw [watch_running hfinished hlive]
    constructor
    · intro h
      split at h
      · rename_i e m' hpoll
        cases h
        exact ⟨e, .inr ⟨e₀, event, hreports, hfinished, Polling.poll_eq_found.mp hpoll⟩⟩
      · cases h
      · cases h
    · rintro ⟨e, hfinal | ⟨e', first, hseen, -, hfinds⟩⟩
      · cases hnone.symm.trans hfinal
      · rw [hfirst hseen] at hfinds
        rw [Polling.poll_eq_found.mpr hfinds]

theorem Surroundings.Sees.reports {e : SportsDbEvent} (h : w.Sees dateParse e m) :
    observe dateParse e = .ok m ∧ m.finished = true := by
  rcases h with h | ⟨_, _, -, -, hfinds⟩
  · obtain ⟨⟨-, hm⟩, hfinished⟩ := final_eq_some.mp h
    exact ⟨hm, hfinished⟩
  · obtain ⟨_, p, _, -, -, -, h⟩ := hfinds
    obtain ⟨⟨-, hm⟩, hfinished⟩ := final_eq_some.mp h
    exact ⟨hm, hfinished⟩

theorem Surroundings.Sees.unique {e e' : SportsDbEvent} {m' : ObservedMatch}
    (h : w.Sees dateParse e m) (h' : w.Sees dateParse e' m') : e = e' ∧ m = m' := by
  have hone {f : SportsDbEvent} {x : ObservedMatch} (h : w.fetched.final dateParse = some (f, x))
      {f₀ : SportsDbEvent} {first : ObservedMatch} (hseen : w.fetched.Reports dateParse f₀ first) :
      first.finished = true := by
    obtain ⟨⟨hf, hx⟩, hfinished⟩ := final_eq_some.mp h
    cases hf.symm.trans hseen.1
    cases hx.symm.trans hseen.2
    exact hfinished
  rcases h with h | ⟨e₀, first, hseen, hrunning, hfinds⟩
  · rcases h' with h' | ⟨e₀, first, hseen, hrunning, -⟩
    · exact Prod.mk.inj (Option.some.inj (h.symm.trans h'))
    · cases hrunning.symm.trans (hone h hseen)
  · rcases h' with h' | ⟨e₁, first', hseen', -, hfinds'⟩
    · cases hrunning.symm.trans (hone h' hseen)
    · cases hseen.1.symm.trans hseen'.1
      cases hseen.2.symm.trans hseen'.2
      exact Prod.mk.inj (hfinds.unique hfinds')

theorem bigIntOf_eq_ok {total : Option ℚ} {value : ℤ} :
    bigIntOf total = .ok value ↔ total = some (value : ℚ) := by
  cases total with
  | none => exact iff_of_false (by simp [bigIntOf]) (by simp)
  | some q => rw [bigIntOf, Escrow.toBigInt_eq_ok, Option.some.injEq]

theorem observation_fits {value : ℤ} (hfits : FitsI64 value) :
    (cfg.observation js value w.signedAt.seconds).Fits := by
  have hlength : (cfg.fixtureRef js.sha256).length = 16 := by
    rw [AttestConfig.fixtureRef, List.length_take, List.Vector.length_val]
    rfl
  have hkey : FitsU32 totalGoalsKey := ⟨by decide, by decide⟩
  have hclock : FitsI64 w.signedAt.seconds := by
    have := w.signedAt.natAbs_seconds
    constructor
    · omega
    · omega
  exact ⟨hlength, hkey, hfits, hclock⟩

/-- What the run signs, and when. -/
theorem signs_iff : runAttestationKeeper js cfg dateParse w =
      .ok (.signs o c message outcome bundle) ↔
    ∃ marketPda first e m value, prepare cfg dateParse w = .ok (some (marketPda, first)) ∧
      w.Settles cfg dateParse e m value ∧
      o = cfg.observation js value w.signedAt.seconds ∧ c = cfg.claim m ∧
      buildAttestationMessage o = .ok message ∧
      outcome = (if (cfg.line : ℤ) < value then 0 else 1) ∧
      bundle = buildSettlementBundle js cfg.toAttestationKeeperConfig marketPda cfg.statement outcome
        o c message := by
  constructor
  · intro h
    obtain ⟨prepared, hprepared, h⟩ := bind_eq_ok.mp h
    match prepared with
    | none => cases h
    | some (marketPda, first) =>
      have hfetch := prepare_event hprepared
      simp only at h
      split at h
      · rename_i m hwatch
        simp only [signAndSettle, bind_eq_ok] at h
        obtain ⟨value, hvalue, built, hmessage, h⟩ := h
        split at h
        · cases h
        · rename_i hlive
          cases h
          have hlive : cfg.dryRun = false := Bool.eq_false_iff.mpr hlive
          obtain ⟨e, hsees⟩ := (watch_finished hfetch hlive).mp hwatch
          exact ⟨marketPda, first, e, m, value, hprepared,
            ⟨hlive, ⟨marketPda, first, hprepared⟩, hsees, bigIntOf_eq_ok.mp hvalue,
              (AttestationObservation.fits_of_message hmessage).value⟩, rfl, rfl, hmessage, rfl, rfl⟩
      · cases h
      · cases h
      · cases h
  · rintro ⟨marketPda, first, e, m, value, hprepared, hsettles, rfl, rfl, hmessage, rfl, rfl⟩
    have hwatch := (watch_finished (prepare_event hprepared) hsettles.live).mpr ⟨e, hsettles.sees⟩
    rw [runAttestationKeeper, hprepared, ok_bind]
    simp only [hwatch]
    rw [signAndSettle, bigIntOf_eq_ok.mpr hsettles.total, ok_bind]
    show (buildAttestationMessage _ >>= _) = _
    rw [hmessage, ok_bind, if_neg (by simp [hsettles.live])]
    rfl

theorem Surroundings.Settles.signs (js : Packages) {e : SportsDbEvent} {value : ℤ}
    (h : w.Settles cfg dateParse e m value) : ∃ message outcome bundle,
      runAttestationKeeper js cfg dateParse w =
        .ok (.signs (cfg.observation js value w.signedAt.seconds) (cfg.claim m) message outcome
          bundle) := by
  obtain ⟨marketPda, first, hprepared⟩ := h.prepared
  have hfits : (cfg.observation js value w.signedAt.seconds).Fits := observation_fits h.fits
  obtain ⟨a, hmessage⟩ := hfits.message
  exact ⟨_, _, _, signs_iff.mpr ⟨marketPda, first, e, m, value, hprepared, h, rfl, rfl, hmessage,
    rfl, rfl⟩⟩

end Run

namespace Sample

/-- Two goals are the line of a match that kicks off at 1786836600. -/
def attestConfig : AttestConfig :=
  { Stoppage.Sample.keeper with
    runtime := Stoppage.Sample.runtime
    dryRun := false
    eventId := 2406978
    line := 2 }

def kickoffString : JsString := Utf16.ofString "2026-08-15T23:30:00Z"

def dateParse : DateParse := fun s =>
  if s = kickoffString then some (.ofSeconds 1786836600) else none

def sportsEvent (status : String) (home away : Option JsString) : SportsDbEvent where
  idEvent := Utf16.ofString "2406978"
  strTimestamp := some (Utf16.ofString "2026-08-15T23:30:00")
  dateEvent := none
  strTime := none
  strStatus := Utf16.ofString status
  intHomeScore := home
  intAwayScore := away

def responseOf (e : SportsDbEvent) : Response := .events (some [e])

/-- The check before the request of a minute, counted from ten minutes before the kickoff. -/
def pollAt (e : SportsDbEvent) (minute : ℕ) : Poll where
  now := .ofSeconds (1786836000 + 60 * Fin.ofNat _ minute)
  response := responseOf e

/-- The match is running for a number of minutes, and then finished. -/
def surroundings (minutes : ℕ) (home away : Option JsString) : Surroundings where
  ensureAttestationConfig := .ok ()
  fetched := responseOf (sportsEvent "Not Started" none none)
  getAccountInfo _ := .ok none
  createdAt := .ofSeconds 1786836000
  sendAndConfirm _ := .ok ()
  polls := (List.range minutes).map (pollAt (sportsEvent "1H" none none)) ++
    [pollAt (sportsEvent "Match Finished" home away) minutes]
  signedAt := .ofSeconds (1786836060 + 60 * Fin.ofNat _ minutes)

theorem observe_sportsEvent (status : String) (home away : Option JsString) :
    observe dateParse (sportsEvent status home away) = .ok
      ⟨1786836600, decide (Utf16.ofString status = matchFinished),
        if decide (Utf16.ofString status = matchFinished) then home.map NumberText.number else none,
        if decide (Utf16.ofString status = matchFinished) then away.map NumberText.number
          else none⟩ := by
  have htext : kickoffText (sportsEvent status home away) = kickoffString := by
    show kickoffText (sportsEvent "" none none) = kickoffString
    decide +kernel
  refine observe_eq_ok.mpr ⟨.ofSeconds 1786836600, ?_, ?_, decide_eq_true_iff, rfl, rfl⟩
  · rw [dateParse, if_pos htext]
  · rw [TimeValue.seconds_ofSeconds]
    rfl

/-- What is observed of the match at its end. -/
def observedEnd (home away : Option JsString) : ObservedMatch where
  kickoffTs := 1786836600
  finished := true
  homeGoals := home.map NumberText.number
  awayGoals := away.map NumberText.number

theorem final_end (home away : Option JsString) :
    (responseOf (sportsEvent "Match Finished" home away)).final dateParse =
      some (sportsEvent "Match Finished" home away, observedEnd home away) := by
  have hstatus : Utf16.ofString "Match Finished" = matchFinished := rfl
  have hobserve := observe_sportsEvent "Match Finished" home away
  rw [hstatus, decide_eq_true rfl] at hobserve
  exact final_eq_some.mpr ⟨⟨rfl, hobserve⟩, rfl⟩

theorem reports_unfinished (status : String) (hstatus : Utf16.ofString status ≠ matchFinished) :
    (responseOf (sportsEvent status none none)).Reports dateParse (sportsEvent status none none)
      ⟨1786836600, false, none, none⟩ := by
  have hobserve := observe_sportsEvent status none none
  rw [decide_eq_false hstatus] at hobserve
  exact ⟨rfl, hobserve⟩

theorem seconds_pollAt (e : SportsDbEvent) {minute : ℕ} (h : minute ≤ 355) :
    (pollAt e minute).now.seconds = 1786836000 + 60 * minute := by
  rw [pollAt, TimeValue.seconds_ofSeconds]
  have hval : ((1786836000 + 60 * Fin.ofNat _ minute : Fin 8640000000000) : ℕ) =
      1786836000 + 60 * minute := by
    simp only [Fin.val_add, Fin.val_mul, Fin.val_ofNat]
    omega
  omega

theorem prepare_surroundings (minutes : ℕ) (home away : Option JsString) :
    ∃ marketPda, prepare attestConfig dateParse (surroundings minutes home away) =
      .ok (some (marketPda, ⟨1786836600, false, none, none⟩)) := by
  have hfetch : fetchEvent dateParse attestConfig.eventId
      (surroundings minutes home away).fetched = .ok ⟨1786836600, false, none, none⟩ :=
    fetchEvent_eq_ok.mpr ⟨_, reports_unfinished "Not Started" (by decide)⟩
  have haddress : ∃ m, Escrow.findMarketPdaFromPredicate attestConfig.runtime
      attestConfig.predicate = .ok m := exists_of_isOk (by decide +kernel)
  have hbuilt : ∃ ix, Escrow.buildCreateMarketIx attestConfig.runtime attestConfig.wallet.publicKey
      attestConfig.predicate ((1786836600 : ℤ) : ℚ) attestationValidatorId = .ok ix :=
    exists_of_isOk (by decide +kernel)
  have hearly : (surroundings minutes home away).createdAt.seconds < 1786836600 := by
    rw [surroundings, TimeValue.seconds_ofSeconds]
    decide
  obtain ⟨m, hm⟩ := haddress
  obtain ⟨ix, hix⟩ := hbuilt
  refine ⟨m, ?_⟩
  have hconfig : (surroundings minutes home away).ensureAttestationConfig = .ok () := rfl
  have hinfo : (surroundings minutes home away).getAccountInfo m = .ok none := rfl
  rw [prepare, hconfig, ok_bind, hfetch, ok_bind, hm, ok_bind, hinfo, ok_bind]
  simp only
  rw [require_of hearly, ok_bind, if_neg (by decide), hix]
  rfl

/-- The end is seen at the poll behind the last minute, up to 345 minutes after the kickoff. -/
theorem sees_surroundings {minutes : ℕ} (h : minutes ≤ 355) (home away : Option JsString) :
    (surroundings minutes home away).Sees dateParse (sportsEvent "Match Finished" home away)
      (observedEnd home away) := by
  have hdeadline : (⟨1786836600, false, none, none⟩ : ObservedMatch).deadline = 1786857300 := by
    decide
  refine .inr ⟨_, _, reports_unfinished "Not Started" (by decide), rfl, ?_⟩
  refine ⟨_, _, [], rfl, ?_, ?_, final_end home away⟩
  · intro p hp
    obtain ⟨minute, hminute, rfl⟩ := List.mem_map.mp hp
    have hlt := List.mem_range.mp hminute
    have hreports := reports_unfinished "1H" (by decide)
    refine ⟨decide_eq_false ?_, ?_⟩
    · rw [seconds_pollAt _ (by omega), hdeadline]
      omega
    · exact (final_eq_none hreports).mpr rfl
  · refine decide_eq_false ?_
    rw [seconds_pollAt _ h, hdeadline]
    omega

theorem settles_surroundings {minutes : ℕ} (h : minutes ≤ 355) {home away : Option JsString}
    {value : ℤ} (htotal : (observedEnd home away).totalGoals = some (value : ℚ))
    (hfits : FitsI64 value) : (surroundings minutes home away).Settles attestConfig dateParse
      (sportsEvent "Match Finished" home away) (observedEnd home away) value := by
  obtain ⟨marketPda, hprepared⟩ := prepare_surroundings minutes home away
  exact ⟨rfl, ⟨marketPda, _, hprepared⟩, sees_surroundings h home away, htotal, hfits⟩

end Sample

end Stoppage.Agent
