import Stoppage.Lib.Decimal
import Stoppage.Lib.NumberText
import Stoppage.Sdk.ParseMarket

/-! # `apps/agent/src/attest/theSportsDB.ts`

The events of TheSportsDB as the attestation keeper observes them. `Date.parse` is a parameter: what
it makes of a text that is not in the format of the language is left to the engine.
-/

namespace Stoppage.Agent
open Fallible Sdk NumberText
open Escrow (JsString maxTime)
set_option autoImplicit false

/-! ## Times -/

/-- A time value of `Date`, in milliseconds. -/
structure TimeValue where
  ms : ℤ
  low : -maxTime ≤ ms
  high : ms ≤ maxTime

namespace TimeValue

/-- `Math.floor(t / 1000)` -/
def seconds (t : TimeValue) : ℤ := t.ms / 1000

theorem natAbs_seconds (t : TimeValue) : t.seconds.natAbs ≤ 8640000000000 := by
  have hlow := t.low
  have hhigh := t.high
  rw [maxTime] at hlow hhigh
  rw [seconds]
  omega

def ofSeconds (s : Fin 8640000000000) : TimeValue where
  ms := s * 1000
  low := by
    rw [maxTime]
    omega
  high := by
    rw [maxTime]
    omega

theorem seconds_ofSeconds (s : Fin 8640000000000) : (ofSeconds s).seconds = s :=
  Int.mul_ediv_cancel _ (by decide)

end TimeValue

/-- `Date.parse`, `none` where it is not a number. -/
abbrev DateParse := JsString → Option TimeValue

/-! ## Events -/

/-- An event, by the fields that are read; `none` where one is null or not there. -/
structure SportsDbEvent where
  idEvent : JsString
  strTimestamp : Option JsString
  dateEvent : Option JsString
  strTime : Option JsString
  strStatus : JsString
  intHomeScore : Option JsString
  intAwayScore : Option JsString

/-- The goals are `Number(text)`, and `some none` where that is not finite. -/
structure ObservedMatch where
  /-- Kickoff, unix seconds. -/
  kickoffTs : ℤ
  finished : Bool
  homeGoals : Option (Option ℚ)
  awayGoals : Option (Option ℚ)

/-- `s.replace(pattern, replacement)` -/
def replaceFirst (pattern : UInt16) (replacement : JsString) : JsString → JsString
  | [] => []
  | u :: us => if u = pattern then replacement ++ us else u :: replaceFirst pattern replacement us

/-- `/[zZ]$|[+-]\d{2}:?\d{2}$/` on the text backwards. -/
def endsWithZone : JsString → Bool
  | 90 :: _ | 122 :: _ => true
  | m₂ :: m₁ :: 58 :: h₂ :: h₁ :: sign :: _ =>
    [m₂, m₁, h₂, h₁].all isDigit && decide (sign = 43 ∨ sign = 45)
  | m₂ :: m₁ :: h₂ :: h₁ :: sign :: _ =>
    [m₂, m₁, h₂, h₁].all isDigit && decide (sign = 43 ∨ sign = 45)
  | _ => false

/-- The text of the kickoff that `Date.parse` gets. -/
def kickoffText (e : SportsDbEvent) : JsString :=
  let raw := e.strTimestamp.getD (e.dateEvent.getD [] ++ Utf16.ofString "T" ++
    replaceFirst 32 [] (e.strTime.getD (Utf16.ofString "00:00:00")))
  let raw := replaceFirst 32 (Utf16.ofString "T") (trim raw)
  if endsWithZone raw.reverse then raw else raw ++ Utf16.ofString "Z"

/-- A text of the language as a string. -/
def text (s : JsString) : String := String.ofList (Utf16.toChars s)

def parseKickoff (dateParse : DateParse) (e : SportsDbEvent) : Except SdkError ℤ :=
  match dateParse (kickoffText e) with
  | none => .error (.error
      ("Unparseable kickoff time for event " ++ text e.idEvent ++ ": " ++ text (kickoffText e)))
  | some ts => .ok ts.seconds

def matchFinished : JsString := Utf16.ofString "Match Finished"

/-- What `fetchEvent` returns for an event. -/
def observe (dateParse : DateParse) (e : SportsDbEvent) : Except SdkError ObservedMatch := do
  let finished := decide (e.strStatus = matchFinished)
  let kickoffTs ← parseKickoff dateParse e
  pure
    { kickoffTs
      finished
      homeGoals := if finished then e.intHomeScore.map number else none
      awayGoals := if finished then e.intAwayScore.map number else none }

/-! ## Fetching -/

inductive Response
  /-- The request throws, or the body is not to be read. -/
  | failed (error : SdkError)
  /-- A status that is not ok, with its text. -/
  | status (code : ℕ) (body : String)
  | events (events : Option (List SportsDbEvent))

/-- The event that is looked at: the first one. -/
def Response.event : Response → Option SportsDbEvent
  | .events (some (e :: _)) => some e
  | _ => none

def fetchEvent (dateParse : DateParse) (eventId : ℕ) : Response → Except SdkError ObservedMatch
  | .failed e => .error e
  | .status code body => .error (.error
      ("TheSportsDB " ++ String.ofList (Decimal.ofNat code) ++ ": " ++ body))
  | .events (some (e :: _)) => observe dateParse e
  | .events _ => .error (.error
      ("TheSportsDB: no event with id " ++ String.ofList (Decimal.ofNat eventId)))

/-- The response has the event, and this is what is observed of it. -/
def Response.Reports (dateParse : DateParse) (r : Response) (e : SportsDbEvent)
    (m : ObservedMatch) : Prop := r.event = some e ∧ observe dateParse e = .ok m

/-- The event of the response, if its match is finished. -/
def Response.final (dateParse : DateParse) (r : Response) :
    Option (SportsDbEvent × ObservedMatch) := do
  let e ← r.event
  let m ← (observe dateParse e).toOption
  if m.finished then some (e, m) else none

section Fetched
variable {dateParse : DateParse} {eventId : ℕ} {r : Response} {e : SportsDbEvent}
  {m : ObservedMatch}

theorem fetchEvent_eq_ok : fetchEvent dateParse eventId r = .ok m ↔
    ∃ e, r.Reports dateParse e m := by
  simp only [Response.Reports]
  cases r with
  | failed e => simp [fetchEvent, Response.event]
  | status code body => simp [fetchEvent, Response.event]
  | events events =>
    cases events with
    | none => simp [fetchEvent, Response.event]
    | some events =>
      cases events with
      | nil => simp [fetchEvent, Response.event]
      | cons e es => simp [fetchEvent, Response.event]

theorem observe_eq_ok : observe dateParse e = .ok m ↔ ∃ ts,
    dateParse (kickoffText e) = some ts ∧ m.kickoffTs = ts.seconds ∧
      (m.finished = true ↔ e.strStatus = matchFinished) ∧
      m.homeGoals = (if m.finished then e.intHomeScore.map number else none) ∧
      m.awayGoals = (if m.finished then e.intAwayScore.map number else none) := by
  rw [observe, bind_eq_ok]
  simp only [parseKickoff, pure_eq_ok]
  obtain ⟨kickoffTs, finished, homeGoals, awayGoals⟩ := m
  cases hparse : dateParse (kickoffText e) with
  | none => simp
  | some ts =>
    constructor
    · rintro ⟨_, ⟨⟩, ⟨⟩⟩
      exact ⟨ts, rfl, rfl, decide_eq_true_iff, rfl, rfl⟩
    · rintro ⟨t, ht, hkickoff, hfinished, hhome, haway⟩
      cases ht
      simp only at hkickoff hfinished hhome haway
      obtain rfl : finished = decide (e.strStatus = matchFinished) := by
        rw [Bool.eq_iff_iff, decide_eq_true_iff]
        exact hfinished
      rw [hkickoff, hhome, haway]
      exact ⟨ts.seconds, rfl, rfl⟩

theorem toOption_eq_some {x : Except SdkError ObservedMatch} :
    x.toOption = some m ↔ x = .ok m := by
  cases x with
  | error e => exact iff_of_false (by simp [Except.toOption]) (by simp)
  | ok m' => simp [Except.toOption]

theorem final_eq_some : r.final dateParse = some (e, m) ↔
    r.Reports dateParse e m ∧ m.finished = true := by
  rw [Response.final, Response.Reports, Option.bind_eq_bind, Option.bind_eq_some_iff]
  constructor
  · rintro ⟨e', he, h⟩
    obtain ⟨m', hm, h⟩ := Option.bind_eq_some_iff.mp h
    obtain ⟨hfinished, heq⟩ := Option.ite_none_right_eq_some.mp h
    cases heq
    exact ⟨⟨he, toOption_eq_some.mp hm⟩, hfinished⟩
  · rintro ⟨⟨he, hm⟩, hfinished⟩
    refine ⟨e, he, Option.bind_eq_some_iff.mpr ⟨m, toOption_eq_some.mpr hm, ?_⟩⟩
    rw [if_pos hfinished]

theorem final_eq_none (h : r.Reports dateParse e m) :
    r.final dateParse = none ↔ m.finished = false := by
  obtain ⟨he, hm⟩ := h
  rw [Response.final, he, Option.bind_eq_bind, Option.bind_some, hm]
  cases hfinished : m.finished <;> simp [Except.toOption, hfinished]

theorem final_of_error {error : SdkError} (h : fetchEvent dateParse eventId r = .error error) :
    r.final dateParse = none := by
  cases hfinal : r.final dateParse with
  | none => rfl
  | some x =>
    obtain ⟨e, m⟩ := x
    have hok : fetchEvent dateParse eventId r = .ok m :=
      fetchEvent_eq_ok.mpr ⟨e, (final_eq_some.mp hfinal).1⟩
    cases h.symm.trans hok

end Fetched

end Stoppage.Agent
