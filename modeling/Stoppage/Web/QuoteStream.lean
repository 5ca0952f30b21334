import Stoppage.Agent.QuoteTracker
import Stoppage.Lib.Transition

/-! # Live quotes: from the tracker to the page

`httpServer.ts` (`/quotes`, `/quotes/stream`) and `broadcast` of `quoteTracker.ts` on the one side,
`apps/web/lib/quotes` (`quoteStream.ts`, `useAllQuotes.ts`) on the other, and between them a stream
that keeps its order but may be lost at any time with all that is on its way, and one answer to the
`fetch` of the page, which may come before or after anything that the stream brings. Left out are
the badge that shows whether the stream is open, the error message that a stream without an agent
sends (no page reads it), and messages that do not parse.
-/

namespace Stoppage.Quotes
open Escrow LastWrite TransitionSystem
set_option autoImplicit false

/-! ## The two sides -/

inductive Message
  | init (quotes : List MarketQuote)
  | quote (quote : MarketQuote)
deriving DecidableEq

def Message.quotes : Message → List MarketQuote
  | .init qs => qs
  | .quote q => [q]

/-- What a connection is sent first. -/
def QuoteTracker.opening (t : QuoteTracker) : List Message :=
  if t.getAllLatest = [] then [] else [.init t.getAllLatest]

def applyQuote (prev : List MarketQuote) (quote : MarketQuote) : List MarketQuote :=
  byTime (prev.filter (fun q => q.marketId ≠ quote.marketId) ++ [quote])

/-- The listener that `useAllQuotes` adds to the stream. -/
def receive (prev : List MarketQuote) : Message → List MarketQuote
  | .init qs => qs.foldl applyQuote prev
  | .quote q => applyQuote prev q

/-- The `fetch` of a page. -/
inductive Fetch
  | asked
  | answered (quotes : List MarketQuote)
  | over
deriving DecidableEq

structure Site where
  tracker : QuoteTracker
  /-- The messages on their way, while the stream is open. -/
  stream : Option (List Message)
  /-- What the page shows. -/
  quotes : List MarketQuote
  fetch : Fetch

namespace Site

/-- No market has been priced, and no page is open. -/
def start : Site where
  tracker := .empty
  stream := none
  quotes := []
  fetch := .over

inductive Act
  /-- The agent prices a market. -/
  | record (quote : MarketQuote)
  /-- The browser opens the stream, for the first time or again. -/
  | connect
  | deliver
  /-- The connection breaks, or the last listener is released. -/
  | lose
  /-- A page is mounted; what an earlier page asked for is ignored from now on. -/
  | mount
  /-- The server answers the `fetch`. -/
  | answer
  /-- The proxy answers it, without an agent. -/
  | refuse
  | arrive
  /-- The `fetch` throws. -/
  | fail
deriving DecidableEq

def next (s : Site) : Act → Option Site
  | .record quote => some { s with
      tracker := s.tracker.record quote
      stream := s.stream.map (· ++ [.quote quote]) }
  | .connect =>
    match s.stream with
    | none => some { s with stream := some s.tracker.opening }
    | some _ => none
  | .deliver =>
    match s.stream with
    | some (message :: rest) => some { s with
        quotes := receive s.quotes message
        stream := some rest }
    | _ => none
  | .lose => some { s with stream := none }
  | .mount => some { s with quotes := [], fetch := .asked }
  | .answer =>
    match s.fetch with
    | .asked => some { s with fetch := .answered s.tracker.getAllLatest }
    | _ => none
  | .refuse =>
    match s.fetch with
    | .asked => some { s with fetch := .answered [] }
    | _ => none
  | .arrive =>
    match s.fetch with
    | .answered quotes => some { s with quotes, fetch := .over }
    | _ => none
  | .fail => some { s with fetch := .over }

def Step (s : Site) (a : Act) (t : Site) : Prop := s.next a = some t

end Site

/-! ## Single messages -/

theorem applyQuote_perm (prev : List MarketQuote) (quote : MarketQuote) :
    (applyQuote prev quote).Perm (put MarketQuote.marketId prev quote) := byTime_perm _

theorem falling_foldl {quotes prev : List MarketQuote} (h : Falling prev) :
    Falling (quotes.foldl applyQuote prev) := by
  induction quotes generalizing prev with
  | nil => exact h
  | cons quote quotes ih => exact ih (falling_byTime _)

theorem receive_eq (prev : List MarketQuote) (message : Message) :
    receive prev message = message.quotes.foldl applyQuote prev := by
  cases message with
  | init qs => rfl
  | quote q => rfl

theorem mem_foldl {quotes prev : List MarketQuote} {q : MarketQuote}
    (h : q ∈ quotes.foldl applyQuote prev) : q ∈ prev ∨ q ∈ quotes := by
  induction quotes generalizing prev with
  | nil => exact .inl h
  | cons quote quotes ih =>
    rcases ih h with hprev | hquotes
    · rcases List.mem_append.mp ((applyQuote_perm prev quote).mem_iff.mp hprev) with hold | hnew
      · exact .inl (List.mem_of_mem_filter hold)
      · exact .inr (List.mem_singleton.mp hnew ▸ List.mem_cons_self)
    · exact .inr (List.mem_cons_of_mem _ hquotes)

theorem quotes_opening (t : QuoteTracker) : t.opening.flatMap Message.quotes = t.getAllLatest := by
  rw [QuoteTracker.opening]
  split_ifs with hnone
  · exact hnone.symm
  · rw [List.flatMap_singleton, Message.quotes]

namespace Site

/-! ## What holds of every site -/

/-- The quotes on their way. -/
def inFlight (queue : List Message) : List MarketQuote := queue.flatMap Message.quotes

structure Sound (s : Site) : Prop where
  table : IsTable MarketQuote.marketId s.quotes
  falling : Falling s.quotes
  answer : ∀ quotes, s.fetch = .answered quotes →
    IsTable MarketQuote.marketId quotes ∧ Falling quotes
  flight : ∀ queue, s.stream = some queue → ∀ m q,
    last MarketQuote.marketId m (inFlight queue) = some q → s.tracker.getLatest m = some q

theorem sound_start : start.Sound where
  table := isTable_nil _
  falling := List.Pairwise.nil
  answer := by
    intro quotes h
    cases h
  flight := by
    intro queue h
    cases h

variable {s t u : Site} {a : Act} {acts : List Act} {m : JsString}

section Inversion

theorem step_connect (h : Step s .connect t) :
    s.stream = none ∧ t = { s with stream := some s.tracker.opening } := by
  simp only [Step, next] at h
  split at h
  · exact ⟨‹_›, (Option.some.inj h).symm⟩
  · cases h

theorem step_deliver (h : Step s .deliver t) : ∃ message rest,
    s.stream = some (message :: rest) ∧
      t = { s with quotes := receive s.quotes message, stream := some rest } := by
  simp only [Step, next] at h
  split at h
  · exact ⟨_, _, ‹_›, (Option.some.inj h).symm⟩
  · cases h

theorem step_answer (h : Step s .answer t) :
    s.fetch = .asked ∧ t = { s with fetch := .answered s.tracker.getAllLatest } := by
  simp only [Step, next] at h
  split at h
  · exact ⟨‹_›, (Option.some.inj h).symm⟩
  · cases h

theorem step_refuse (h : Step s .refuse t) :
    s.fetch = .asked ∧ t = { s with fetch := .answered [] } := by
  simp only [Step, next] at h
  split at h
  · exact ⟨‹_›, (Option.some.inj h).symm⟩
  · cases h

theorem step_arrive (h : Step s .arrive t) :
    ∃ quotes, s.fetch = .answered quotes ∧ t = { s with quotes, fetch := .over } := by
  simp only [Step, next] at h
  split at h
  · exact ⟨_, ‹_›, (Option.some.inj h).symm⟩
  · cases h

end Inversion

theorem inFlight_append (queue rest : List Message) :
    inFlight (queue ++ rest) = inFlight queue ++ inFlight rest := List.flatMap_append

theorem inFlight_quote (q : MarketQuote) : inFlight [.quote q] = [q] := rfl

theorem inFlight_cons (message : Message) (queue : List Message) :
    inFlight (message :: queue) = message.quotes ++ inFlight queue := List.flatMap_cons

theorem Sound.flight_record (h : s.Sound) (q : MarketQuote) {queue : List Message}
    (hqueue : s.stream = some queue) {m : JsString} {w : MarketQuote}
    (hlast : last MarketQuote.marketId m (inFlight (queue ++ [.quote q])) = some w) :
    (s.tracker.record q).getLatest m = some w := by
  rw [inFlight_append, inFlight_quote, last_append, last_singleton] at hlast
  rw [QuoteTracker.getLatest_record]
  split_ifs at hlast ⊢ with hm
  · exact hlast
  · rw [Option.none_or] at hlast
    exact h.flight _ hqueue _ _ hlast

theorem Sound.step (h : s.Sound) (hstep : Step s a t) : t.Sound := by
  cases a with
  | record q =>
    cases hstep
    refine ⟨h.table, h.falling, h.answer, ?_⟩
    intro queue hqueue m w hlast
    obtain ⟨old, hold, rfl⟩ := Option.map_eq_some_iff.mp hqueue
    exact h.flight_record q hold hlast
  | connect =>
    obtain ⟨-, rfl⟩ := step_connect hstep
    refine ⟨h.table, h.falling, h.answer, ?_⟩
    intro queue hqueue m w hlast
    cases hqueue
    rw [inFlight, quotes_opening] at hlast
    obtain ⟨hmem, rfl⟩ := of_last hlast
    exact QuoteTracker.getLatest_of_mem hmem
  | deliver =>
    obtain ⟨message, rest, hstream, rfl⟩ := step_deliver hstep
    refine ⟨?_, ?_, h.answer, ?_⟩
    · rw [receive_eq]
      exact (h.table.foldl applyQuote_perm _).1
    · rw [receive_eq]
      exact falling_foldl h.falling
    · intro queue hqueue m w hlast
      cases hqueue
      refine h.flight _ hstream m w ?_
      rw [inFlight_cons, last_append, hlast, Option.some_or]
  | lose =>
    cases hstep
    refine ⟨h.table, h.falling, h.answer, ?_⟩
    intro queue hqueue
    cases hqueue
  | mount =>
    cases hstep
    refine ⟨isTable_nil _, List.Pairwise.nil, ?_, h.flight⟩
    intro quotes hquotes
    cases hquotes
  | answer =>
    obtain ⟨-, rfl⟩ := step_answer hstep
    refine ⟨h.table, h.falling, ?_, h.flight⟩
    intro quotes hquotes
    cases hquotes
    exact ⟨s.tracker.isTable_getAllLatest, s.tracker.falling_getAllLatest⟩
  | refuse =>
    obtain ⟨-, rfl⟩ := step_refuse hstep
    refine ⟨h.table, h.falling, ?_, h.flight⟩
    intro quotes hquotes
    cases hquotes
    exact ⟨isTable_nil _, List.Pairwise.nil⟩
  | arrive =>
    obtain ⟨quotes, hfetch, rfl⟩ := step_arrive hstep
    obtain ⟨htable, hfalling⟩ := h.answer quotes hfetch
    refine ⟨htable, hfalling, ?_, h.flight⟩
    intro quotes hquotes
    cases hquotes
  | fail =>
    cases hstep
    refine ⟨h.table, h.falling, ?_, h.flight⟩
    intro quotes hquotes
    cases hquotes

theorem Sound.steps (h : s.Sound) (hrun : Steps Step s acts t) : t.Sound :=
  hrun.invariant (fun _ _ _ _ hstep hs => hs.step hstep) h

/-! ## Nothing is made up -/

/-- Every quote there is, at the tracker, on its way or shown, is one of `R`. -/
structure Known (R : MarketQuote → Prop) (s : Site) : Prop where
  shown : ∀ q ∈ s.quotes, R q
  flight : ∀ queue, s.stream = some queue → ∀ q ∈ inFlight queue, R q
  answer : ∀ quotes, s.fetch = .answered quotes → ∀ q ∈ quotes, R q
  latest : ∀ m q, s.tracker.getLatest m = some q → R q

variable {R : MarketQuote → Prop}

theorem known_start : start.Known R where
  shown := by
    intro q hq
    cases hq
  flight := by
    intro queue h
    cases h
  answer := by
    intro quotes h
    cases h
  latest := by
    intro m q h
    cases h

theorem Known.getAllLatest (h : s.Known R) : ∀ q ∈ s.tracker.getAllLatest, R q :=
  fun _ hq => h.latest _ _ (QuoteTracker.getLatest_of_mem hq)

theorem Known.step (h : s.Known R) (hR : ∀ q, a = .record q → R q) (hstep : Step s a t) :
    t.Known R := by
  cases a with
  | record q =>
    cases hstep
    refine ⟨h.shown, ?_, h.answer, ?_⟩
    · intro queue hqueue w hw
      obtain ⟨old, hold, rfl⟩ := Option.map_eq_some_iff.mp hqueue
      rw [inFlight_append, inFlight_quote] at hw
      rcases List.mem_append.mp hw with hw | hw
      · exact h.flight old hold w hw
      · exact List.mem_singleton.mp hw ▸ hR q rfl
    · intro m w hw
      rw [QuoteTracker.getLatest_record] at hw
      split_ifs at hw with hm
      · exact Option.some.inj hw ▸ hR q rfl
      · exact h.latest m w hw
  | connect =>
    obtain ⟨-, rfl⟩ := step_connect hstep
    refine ⟨h.shown, ?_, h.answer, h.latest⟩
    intro queue hqueue q hq
    cases hqueue
    rw [inFlight, quotes_opening] at hq
    exact h.getAllLatest q hq
  | deliver =>
    obtain ⟨message, rest, hstream, rfl⟩ := step_deliver hstep
    have hall := h.flight _ hstream
    rw [inFlight_cons] at hall
    refine ⟨?_, ?_, h.answer, h.latest⟩
    · intro q hq
      rw [receive_eq] at hq
      rcases mem_foldl hq with hold | hnew
      · exact h.shown q hold
      · exact hall q (List.mem_append_left _ hnew)
    · intro queue hqueue q hq
      cases hqueue
      exact hall q (List.mem_append_right _ hq)
  | lose =>
    cases hstep
    refine ⟨h.shown, ?_, h.answer, h.latest⟩
    intro queue hqueue
    cases hqueue
  | mount =>
    cases hstep
    refine ⟨?_, h.flight, ?_, h.latest⟩
    · intro q hq
      cases hq
    · intro quotes hquotes
      cases hquotes
  | answer =>
    obtain ⟨-, rfl⟩ := step_answer hstep
    refine ⟨h.shown, h.flight, ?_, h.latest⟩
    intro quotes hquotes
    cases hquotes
    exact h.getAllLatest
  | refuse =>
    obtain ⟨-, rfl⟩ := step_refuse hstep
    refine ⟨h.shown, h.flight, ?_, h.latest⟩
    intro quotes hquotes q hq
    cases hquotes
    cases hq
  | arrive =>
    obtain ⟨quotes, hfetch, rfl⟩ := step_arrive hstep
    refine ⟨h.answer quotes hfetch, h.flight, ?_, h.latest⟩
    intro quotes hquotes
    cases hquotes
  | fail =>
    cases hstep
    refine ⟨h.shown, h.flight, ?_, h.latest⟩
    intro quotes hquotes
    cases hquotes

/-- What a page shows was recorded. -/
theorem recorded_of_shown (hrun : Steps Step start acts t) :
    ∀ q ∈ t.quotes, Act.record q ∈ acts := by
  refine (hrun.invariant (I := Known fun q => Act.record q ∈ acts) ?_ known_start).shown
  rintro s a u ha hstep hs
  exact hs.step (fun q hq => hq ▸ ha) hstep

/-! ## Up to date -/

/-- When all that is on its way has come in, the page shows the latest quote of a market. -/
def UpToDate (m : JsString) (s : Site) : Prop :=
  ∃ queue, s.stream = some queue ∧
    (last MarketQuote.marketId m (inFlight queue)).or (held MarketQuote.marketId m s.quotes) =
      s.tracker.getLatest m

/-- An answer that is about to come in has not the latest quote of a market, and the stream has
brought it already: the answer was overtaken by that quote, or made when forty other markets had
newer ones and cut before it. -/
def Stale (m : JsString) (s : Site) : Prop :=
  ∃ queue quotes, s.stream = some queue ∧ s.fetch = .answered quotes ∧
    last MarketQuote.marketId m (inFlight queue) = none ∧
    held MarketQuote.marketId m quotes ≠ s.tracker.getLatest m

/-- What brings a market up to date. -/
def Brings (m : JsString) (s : Site) : Act → Prop
  | .record q => s.stream.isSome ∧ q.marketId = m
  | .connect => ∃ q ∈ s.tracker.getAllLatest, q.marketId = m
  | .arrive => s.stream.isSome ∧ ¬ s.Stale m
  | _ => False

theorem upToDate_iff_drained (h : s.stream = some []) :
    s.UpToDate m ↔ held MarketQuote.marketId m s.quotes = s.tracker.getLatest m := by
  constructor
  · rintro ⟨queue, hqueue, hshown⟩
    rw [h, Option.some_inj] at hqueue
    subst hqueue
    exact hshown
  · intro hshown
    exact ⟨[], h, hshown⟩

theorem upToDate_record {q : MarketQuote} (hstep : Step s (.record q) t)
    (hopen : s.stream.isSome) (hm : q.marketId = m) : t.UpToDate m := by
  cases hstep
  obtain ⟨queue, hqueue⟩ := Option.isSome_iff_exists.mp hopen
  refine ⟨queue ++ [.quote q], by rw [hqueue, Option.map_some], ?_⟩
  rw [inFlight_append, inFlight_quote, last_append, last_singleton, if_pos hm,
    QuoteTracker.getLatest_record, if_pos hm]
  rfl

theorem upToDate_connect (hstep : Step s .connect t)
    (hm : ∃ q ∈ s.tracker.getAllLatest, q.marketId = m) : t.UpToDate m := by
  obtain ⟨-, rfl⟩ := step_connect hstep
  refine ⟨s.tracker.opening, rfl, ?_⟩
  rw [inFlight, quotes_opening]
  cases hlast : last MarketQuote.marketId m s.tracker.getAllLatest with
  | none =>
    obtain ⟨q, hq, hqm⟩ := hm
    exact absurd hqm (last_eq_none_iff.mp hlast q hq)
  | some q =>
    obtain ⟨hq, rfl⟩ := of_last hlast
    exact (QuoteTracker.getLatest_of_mem hq).symm

theorem Sound.upToDate_arrive (h : s.Sound) (hstep : Step s .arrive t) (hopen : s.stream.isSome) :
    t.UpToDate m ↔ ¬ s.Stale m := by
  obtain ⟨quotes, hfetch, rfl⟩ := step_arrive hstep
  obtain ⟨queue, hqueue⟩ := Option.isSome_iff_exists.mp hopen
  have hflight := h.flight queue hqueue m
  cases hlast : last MarketQuote.marketId m (inFlight queue) with
  | none =>
    constructor
    · rintro ⟨queue', hqueue', hshown⟩ ⟨_, quotes', _, hfetch', -, hne⟩
      cases hqueue.symm.trans hqueue'
      cases hfetch.symm.trans hfetch'
      rw [hlast] at hshown
      exact hne hshown
    · intro hfresh
      refine ⟨queue, hqueue, ?_⟩
      rw [hlast, Option.none_or]
      by_contra hne
      exact hfresh ⟨queue, quotes, hqueue, hfetch, hlast, hne⟩
  | some q =>
    refine iff_of_true ⟨queue, hqueue, ?_⟩ ?_
    · rw [hlast, Option.some_or]
      exact (hflight q hlast).symm
    · rintro ⟨queue', _, hqueue', -, hnone, -⟩
      cases hqueue.symm.trans hqueue'
      rw [hlast] at hnone
      cases hnone

/-- **What brings a market up to date does so.** -/
theorem Sound.brings (h : s.Sound) (hstep : Step s a t) (hbrings : s.Brings m a) :
    t.UpToDate m := by
  cases a with
  | record q => exact upToDate_record hstep hbrings.1 hbrings.2
  | connect => exact upToDate_connect hstep hbrings
  | arrive => exact (h.upToDate_arrive hstep hbrings.1).mpr hbrings.2
  | deliver => exact hbrings.elim
  | lose => exact hbrings.elim
  | mount => exact hbrings.elim
  | answer => exact hbrings.elim
  | refuse => exact hbrings.elim
  | fail => exact hbrings.elim

theorem Sound.upToDate_deliver (h : s.Sound) (hstep : Step s .deliver t) :
    t.UpToDate m ↔ s.UpToDate m := by
  obtain ⟨message, rest, hstream, rfl⟩ := step_deliver hstep
  have hshown : (last MarketQuote.marketId m (inFlight rest)).or
        (held MarketQuote.marketId m (receive s.quotes message)) =
      (last MarketQuote.marketId m (inFlight (message :: rest))).or
        (held MarketQuote.marketId m s.quotes) := by
    rw [receive_eq, (h.table.foldl applyQuote_perm _).2, inFlight_cons, last_append,
      Option.or_assoc]
  constructor
  · rintro ⟨queue, hqueue, hup⟩
    cases hqueue
    exact ⟨_, hstream, hshown ▸ hup⟩
  · rintro ⟨queue, hqueue, hup⟩
    cases hstream.symm.trans hqueue
    exact ⟨rest, rfl, hshown.trans hup⟩

theorem upToDate_record_of_ne {q : MarketQuote} (hstep : Step s (.record q) t)
    (hm : q.marketId ≠ m) : t.UpToDate m ↔ s.UpToDate m := by
  cases hstep
  have hlast (queue : List Message) :
      last MarketQuote.marketId m (inFlight (queue ++ [.quote q])) =
        last MarketQuote.marketId m (inFlight queue) := by
    rw [inFlight_append, inFlight_quote, last_append, last_singleton, if_neg hm, Option.none_or]
  constructor
  · rintro ⟨queue, hqueue, hup⟩
    obtain ⟨old, hold, rfl⟩ := Option.map_eq_some_iff.mp hqueue
    rw [hlast, QuoteTracker.getLatest_record, if_neg hm] at hup
    exact ⟨old, hold, hup⟩
  · rintro ⟨queue, hqueue, hup⟩
    refine ⟨queue ++ [.quote q], by rw [hqueue, Option.map_some], ?_⟩
    rw [hlast, QuoteTracker.getLatest_record, if_neg hm]
    exact hup

/-- The other steps change nothing, while the stream is open and the page stays. -/
theorem Sound.kept (h : s.Sound) (hstep : Step s a t) (hopen : s.stream.isSome)
    (hstay : a ≠ .lose ∧ a ≠ .mount) (harrive : a ≠ .arrive)
    (hrecord : ∀ q, a = .record q → q.marketId ≠ m) : t.UpToDate m ↔ s.UpToDate m := by
  cases a with
  | record q => exact upToDate_record_of_ne hstep (hrecord q rfl)
  | connect =>
    rw [(step_connect hstep).1] at hopen
    cases hopen
  | deliver => exact h.upToDate_deliver hstep
  | lose => exact absurd rfl hstay.1
  | mount => exact absurd rfl hstay.2
  | answer =>
    obtain ⟨-, rfl⟩ := step_answer hstep
    exact Iff.rfl
  | refuse =>
    obtain ⟨-, rfl⟩ := step_refuse hstep
    exact Iff.rfl
  | arrive => exact absurd rfl harrive
  | fail =>
    cases hstep
    exact Iff.rfl

theorem stays_open (hstep : Step s a t) (hopen : s.stream.isSome) (hstay : a ≠ .lose) :
    t.stream.isSome := by
  cases a with
  | record q =>
    cases hstep
    rw [Option.isSome_map]
    exact hopen
  | connect =>
    obtain ⟨-, rfl⟩ := step_connect hstep
    rfl
  | deliver =>
    obtain ⟨_, _, -, rfl⟩ := step_deliver hstep
    rfl
  | lose => exact absurd rfl hstay
  | mount =>
    cases hstep
    exact hopen
  | answer =>
    obtain ⟨-, rfl⟩ := step_answer hstep
    exact hopen
  | refuse =>
    obtain ⟨-, rfl⟩ := step_refuse hstep
    exact hopen
  | arrive =>
    obtain ⟨_, -, rfl⟩ := step_arrive hstep
    exact hopen
  | fail =>
    cases hstep
    exact hopen

theorem stays_over (hstep : Step s a t) (hover : s.fetch = .over) (hstay : a ≠ .mount) :
    t.fetch = .over := by
  cases a with
  | record q =>
    cases hstep
    exact hover
  | connect =>
    obtain ⟨-, rfl⟩ := step_connect hstep
    exact hover
  | deliver =>
    obtain ⟨_, _, -, rfl⟩ := step_deliver hstep
    exact hover
  | lose =>
    cases hstep
    exact hover
  | mount => exact absurd rfl hstay
  | answer =>
    rw [(step_answer hstep).1] at hover
    cases hover
  | refuse =>
    rw [(step_refuse hstep).1] at hover
    cases hover
  | arrive =>
    obtain ⟨_, -, rfl⟩ := step_arrive hstep
    rfl
  | fail =>
    cases hstep
    rfl

theorem over_of_arrived (hrun : Steps Step s acts t) (harrive : .arrive ∈ acts)
    (hstay : ∀ b ∈ acts, b ≠ .mount) : t.fetch = .over := by
  obtain ⟨pre, post, v, w, rfl, -, hstep, hpost⟩ := hrun.exists_of_mem harrive
  refine hpost.invariant (I := fun s => s.fetch = .over) ?_ ?_
  · intro s b u hb hs hover
    exact stays_over hs hover (hstay b (List.mem_append_right _ (List.mem_cons_of_mem _ hb)))
  · obtain ⟨_, -, rfl⟩ := step_arrive hstep
    rfl

/-! ## Whole runs -/

/-- After each answer that lacked the latest quote, the market was priced again. -/
def Recovers (m : JsString) (s : Site) (acts : List Act) : Prop :=
  ∀ pre post w, acts = pre ++ .arrive :: post → Steps Step s pre w → w.Stale m →
    ∃ q, .record q ∈ post ∧ q.marketId = m

/-- The places of an action in a list that is one longer. -/
theorem split_concat {α : Type} {xs pre post : List α} {x y : α}
    (h : xs ++ [x] = pre ++ y :: post) :
    (post = [] ∧ x = y ∧ xs = pre) ∨ ∃ post', post = post' ++ [x] ∧ xs = pre ++ y :: post' := by
  rcases List.eq_nil_or_concat' post with rfl | ⟨post', z, rfl⟩
  · obtain ⟨hpre, hx⟩ := List.append_inj' h rfl
    exact .inl ⟨rfl, List.singleton_inj.mp hx, hpre⟩
  · rw [← List.cons_append, ← List.append_assoc] at h
    obtain ⟨hpre, hx⟩ := List.append_inj' h rfl
    rw [List.singleton_inj.mp hx]
    exact .inr ⟨post', rfl, hpre⟩

theorem recovers_concat (harrive : a ≠ .arrive) (hrecord : ∀ q, a = .record q → q.marketId ≠ m) :
    s.Recovers m (acts ++ [a]) ↔ s.Recovers m acts := by
  constructor
  · intro h pre post w hsplit hpre hstale
    have hlonger : acts ++ [a] = pre ++ .arrive :: (post ++ [a]) := by
      rw [hsplit, List.append_assoc, List.cons_append]
    obtain ⟨q, hq, hm⟩ := h pre (post ++ [a]) w hlonger hpre hstale
    rcases List.mem_append.mp hq with hq | hq
    · exact ⟨q, hq, hm⟩
    · exact absurd hm (hrecord q (List.mem_singleton.mp hq).symm)
  · intro h pre post w hsplit hpre hstale
    rcases split_concat hsplit with ⟨-, ha, -⟩ | ⟨post', rfl, hacts⟩
    · exact absurd ha harrive
    · obtain ⟨q, hq, hm⟩ := h pre post' w hacts hpre hstale
      exact ⟨q, List.mem_append_left _ hq, hm⟩

theorem recovers_record {q : MarketQuote} (hm : q.marketId = m) :
    s.Recovers m (acts ++ [.record q]) := by
  intro pre post w hsplit _ _
  rcases split_concat hsplit with ⟨-, ha, -⟩ | ⟨post', rfl, -⟩
  · cases ha
  · exact ⟨q, List.mem_append_right _ List.mem_cons_self, hm⟩

theorem recovers_arrive (hrun : Steps Step s acts t) (hstep : Step t .arrive u)
    (hstay : ∀ b ∈ acts, b ≠ .mount) : s.Recovers m (acts ++ [.arrive]) ↔ ¬ t.Stale m := by
  constructor
  · intro h hstale
    obtain ⟨q, hq, -⟩ := h acts [] t rfl hrun hstale
    cases hq
  · intro hfresh pre post w hsplit hpre hstale
    rcases split_concat hsplit with ⟨-, -, rfl⟩ | ⟨post', -, rfl⟩
    · have hsame := hpre.unique (fun _ _ _ _ h h' => Option.some.inj (h.symm.trans h')) hrun
      exact absurd (hsame ▸ hstale) hfresh
    -- there is one answer only
    · have hover := over_of_arrived hrun (List.mem_append_right _ List.mem_cons_self) hstay
      obtain ⟨_, hanswered, -⟩ := step_arrive hstep
      rw [hover] at hanswered
      cases hanswered

/-- Once up to date, a market stays so, but for an answer that lacks its latest quote. -/
theorem Sound.upToDate_iff (h : s.Sound) (hup : s.UpToDate m) (hrun : Steps Step s acts t)
    (hstay : ∀ b ∈ acts, b ≠ .lose ∧ b ≠ .mount) : t.UpToDate m ↔ s.Recovers m acts := by
  have hopen : s.stream.isSome := by
    obtain ⟨queue, hqueue, -⟩ := hup
    rw [hqueue]
    rfl
  refine hrun.history (P := fun as t => t.UpToDate m ↔ s.Recovers m as) ?_ ?_
  · refine iff_of_true hup ?_
    intro pre post w hsplit
    exact absurd hsplit (by simp)
  · intro pre a u v hprefix hpre ih hstep
    have hin (b) (hb : b ∈ pre ++ [a]) : b ≠ .lose ∧ b ≠ .mount := hstay b (List.IsPrefix.mem hb hprefix)
    have hpreStay (b) (hb : b ∈ pre) := hin b (List.mem_append_left _ hb)
    have hlast := hin a (List.mem_append_right _ List.mem_cons_self)
    have hu := h.steps hpre
    have huOpen : u.stream.isSome := hpre.invariant (I := fun s => s.stream.isSome)
      (fun _ b _ hb hs hopen => stays_open hs hopen (hpreStay b hb).1) hopen
    by_cases harrive : a = .arrive
    · subst harrive
      rw [hu.upToDate_arrive hstep huOpen,
        recovers_arrive hpre hstep fun b hb => (hpreStay b hb).2]
    · by_cases hrecord : ∃ q, a = .record q ∧ q.marketId = m
      · obtain ⟨q, rfl, hm⟩ := hrecord
        exact iff_of_true (upToDate_record hstep huOpen hm) (recovers_record hm)
      · have hother : ∀ q, a = .record q → q.marketId ≠ m := fun q hq hm => hrecord ⟨q, hq, hm⟩
        rw [hu.kept hstep huOpen hlast harrive hother, ih, recovers_concat harrive hother]

/-- **What the page shows.** At any time: quotes that the agent made, one for a market at most, the
newest first. And from the time when a market is brought up to date, as long as the stream stays
open and the page mounted, once nothing is on its way: the latest quote of the market, unless the
answer to the `fetch` came in without it and the market was not priced again. An answer lacks the
quote that was made after it, and the one that forty newer quotes of other markets leave out. -/
theorem shows_latest_iff {before after : List Act} (hbefore : Steps Step start before s)
    (hstep : Step s a u) (hbrings : s.Brings m a) (hafter : Steps Step u after t)
    (hstay : ∀ b ∈ after, b ≠ .lose ∧ b ≠ .mount) (hdrained : t.stream = some []) :
    (∀ q ∈ t.quotes, Act.record q ∈ before ++ a :: after) ∧
      IsTable MarketQuote.marketId t.quotes ∧ Falling t.quotes ∧
      (held MarketQuote.marketId m t.quotes = t.tracker.getLatest m ↔ u.Recovers m after) := by
  have hs := sound_start.steps hbefore
  have hu := hs.step hstep
  have ht := hu.steps hafter
  have hrun : Steps Step start (before ++ a :: after) t := hbefore.append (.cons hstep hafter)
  refine ⟨recorded_of_shown hrun, ht.table, ht.falling, ?_⟩
  rw [← upToDate_iff_drained hdrained]
  exact hu.upToDate_iff (hs.brings hstep hbrings) hafter hstay

namespace Sample

def quote (ts : ℤ) : MarketQuote where
  marketId := [49]
  label := [103]
  predicateKind := Quant.kindText .totalGoalsOver
  snapshot :=
    { matchId := [109], fixtureId := 1, minute := 10, score := ⟨0, 0⟩, corners := ⟨0, 0⟩
      cards := ⟨0, 0, 0, 0⟩, seq := 1, ts := 0 }
  result :=
    { fairValue := 1 / 2, bid := 2 / 5, ask := 3 / 5, ci := (2 / 5, 3 / 5), sims := 10000
      modelVersion := [118], seed := [115] }
  inventorySkew := 0
  ts

end Sample

theorem getAllLatest_empty : QuoteTracker.empty.getAllLatest = [] := by
  change (byTime []).take maxQuotes = []
  rw [byTime, List.mergeSort_nil, List.take_nil]

theorem opening_empty : QuoteTracker.empty.opening = [] := by
  rw [QuoteTracker.opening, if_pos getAllLatest_empty]

/-- The stream opens before a market is priced, and brings the quote. -/
theorem exists_first_quote (q : MarketQuote) (acts : List Act)
    (hacts : acts = [.mount, .connect] ∨ acts = [.mount, .answer, .connect]) :
    ∃ s t u, Steps Step start acts s ∧ s.stream = some [] ∧ Step s (.record q) t ∧
      Steps Step t [.deliver] u ∧ u.stream = some [] ∧ u.tracker = s.tracker.record q ∧
      s.tracker = .empty ∧ (acts = [.mount, .answer, .connect] → u.fetch = .answered []) := by
  rcases hacts with rfl | rfl
  · refine ⟨⟨.empty, some [], [], .asked⟩, _, _, .cons rfl (.single ?_), rfl, rfl, .single rfl, rfl,
      rfl, rfl, ?_⟩
    · rw [Step, next, ← opening_empty]
      rfl
    · intro h
      cases h
  · refine ⟨⟨.empty, some [], [], .answered []⟩, _, _, .cons rfl (.cons rfl (.single ?_)), rfl, rfl,
      .single rfl, rfl, rfl, rfl, fun _ => rfl⟩
    rw [Step, next, ← opening_empty, ← getAllLatest_empty]
    rfl

theorem shows_latest_sample : ∃ t : Site, Steps Step start
      ([.mount, .connect] ++ .record (Sample.quote 7) :: [.deliver]) t ∧
    (∀ q ∈ t.quotes, q = Sample.quote 7) ∧ Falling t.quotes := by
  obtain ⟨s, u, t, hs, hopen, hstep, ht, hdrained, -⟩ :=
    exists_first_quote (Sample.quote 7) _ (.inl rfl)
  have hbrings : s.Brings [49] (.record (Sample.quote 7)) := ⟨by rw [hopen]; rfl, rfl⟩
  have hstay : ∀ b ∈ [Act.deliver], b ≠ .lose ∧ b ≠ .mount := by decide
  obtain ⟨hknown, -, hfalling, -⟩ := shows_latest_iff hs hstep hbrings ht hstay hdrained
  refine ⟨t, hs.append (.cons hstep ht), ?_, hfalling⟩
  intro q hq
  simpa using hknown q hq

/-- A quote that the stream brought is gone when an older answer comes in behind it. -/
theorem overtaken (q : MarketQuote) : ∃ t,
    Steps Step start [.mount, .answer, .connect, .record q, .deliver, .arrive] t ∧
      t.stream = some [] ∧ t.tracker.getLatest q.marketId = some q ∧ t.quotes = [] := by
  obtain ⟨s, u, v, hs, -, hstep, hv, hdrained, htracker, -, hfetch⟩ :=
    exists_first_quote q _ (.inr rfl)
  have harrive : Step v .arrive { v with quotes := [], fetch := .over } := by
    rw [Step, next, hfetch rfl]
  refine ⟨_, hs.append (.cons hstep (hv.append (.single harrive))), hdrained, ?_, rfl⟩
  dsimp only
  rw [htracker, QuoteTracker.getLatest_record, if_pos rfl]

/-! ## All markets -/

theorem tracker_step (hstep : Step s a t) :
    (∃ q, a = .record q ∧ t.tracker = s.tracker.record q) ∨
      (∀ q, a ≠ .record q) ∧ t.tracker = s.tracker := by
  cases a with
  | record q =>
    cases hstep
    exact .inl ⟨q, rfl, rfl⟩
  | connect =>
    obtain ⟨-, rfl⟩ := step_connect hstep
    exact .inr ⟨fun _ h => (by cases h), rfl⟩
  | deliver =>
    obtain ⟨_, _, -, rfl⟩ := step_deliver hstep
    exact .inr ⟨fun _ h => (by cases h), rfl⟩
  | lose =>
    cases hstep
    exact .inr ⟨fun _ h => (by cases h), rfl⟩
  | mount =>
    cases hstep
    exact .inr ⟨fun _ h => (by cases h), rfl⟩
  | answer =>
    obtain ⟨-, rfl⟩ := step_answer hstep
    exact .inr ⟨fun _ h => (by cases h), rfl⟩
  | refuse =>
    obtain ⟨-, rfl⟩ := step_refuse hstep
    exact .inr ⟨fun _ h => (by cases h), rfl⟩
  | arrive =>
    obtain ⟨_, -, rfl⟩ := step_arrive hstep
    exact .inr ⟨fun _ h => (by cases h), rfl⟩
  | fail =>
    cases hstep
    exact .inr ⟨fun _ h => (by cases h), rfl⟩

theorem tracked_of_recorded (hrun : Steps Step start acts t) :
    ∀ q, Act.record q ∈ acts → t.tracker.getLatest q.marketId ≠ none := by
  refine hrun.history (P := fun as t => ∀ q, Act.record q ∈ as →
    t.tracker.getLatest q.marketId ≠ none) ?_ ?_
  · intro q hq
    cases hq
  · intro pre a u v _ _ ih hstep q hq
    rcases tracker_step hstep with ⟨w, rfl, htracker⟩ | ⟨hother, htracker⟩
    · rw [htracker, QuoteTracker.getLatest_record]
      split_ifs with hw
      · exact Option.some_ne_none w
      · refine ih q ?_
        rcases List.mem_append.mp hq with hq | hq
        · exact hq
        · cases List.mem_singleton.mp hq
          exact absurd rfl hw
    · rw [htracker]
      refine ih q ?_
      rcases List.mem_append.mp hq with hq | hq
      · exact hq
      · exact absurd (List.mem_singleton.mp hq).symm (hother q)

/-- A market that the tracker does not know is up to date as soon as the stream is open. -/
theorem upToDate_of_untracked {before : List Act} (hbefore : Steps Step start before s)
    (hstep : Step s .connect u) (hm : s.tracker.getLatest m = none) : u.UpToDate m := by
  have hu : u.Sound := (sound_start.steps hbefore).step hstep
  obtain ⟨-, rfl⟩ := step_connect hstep
  refine ⟨_, rfl, ?_⟩
  have hflight : last MarketQuote.marketId m (inFlight s.tracker.opening) = none := by
    by_contra hsome
    obtain ⟨q, hq⟩ := Option.ne_none_iff_exists'.mp hsome
    exact absurd ((hu.flight _ rfl m q hq).symm.trans hm) (Option.some_ne_none q)
  have hshown : held MarketQuote.marketId m s.quotes = none := by
    refine held_eq_none_iff.mpr fun q hq hqm => ?_
    exact tracked_of_recorded hbefore q (recorded_of_shown hbefore q hq) (hqm ▸ hm)
  rw [hflight, hshown]
  exact hm.symm

/-- **Up to forty markets**, a page that saw the stream open shows all that the tracker has. -/
theorem shows_all {before after : List Act} (hbefore : Steps Step start before s)
    (hstep : Step s .connect u) (hfew : s.tracker.latest.entries.length ≤ maxQuotes)
    (hafter : Steps Step u after t) (hstay : ∀ b ∈ after, b ≠ .lose ∧ b ≠ .mount)
    (hrecovers : ∀ m, u.Recovers m after) (hdrained : t.stream = some []) :
    t.quotes.Perm (t.tracker.latest.entries.map Prod.snd) := by
  have hu : u.Sound := (sound_start.steps hbefore).step hstep
  have hup (m : JsString) : u.UpToDate m := by
    cases hm : s.tracker.getLatest m with
    | none => exact upToDate_of_untracked hbefore hstep hm
    | some q =>
      obtain ⟨hq, hqm⟩ := QuoteTracker.getLatest_eq_some_iff.mp hm
      exact upToDate_connect hstep
        ⟨q, (QuoteTracker.getAllLatest_perm hfew).mem_iff.mpr hq, hqm⟩
  have ht := (hu.steps hafter).table
  have hheld (m : JsString) : held MarketQuote.marketId m t.quotes = t.tracker.getLatest m :=
    (upToDate_iff_drained hdrained).mp ((hu.upToDate_iff (hup m) hafter hstay).mpr (hrecovers m))
  refine (List.perm_ext_iff_of_nodup ht.of_map t.tracker.isTable_latest.of_map).mpr fun q => ?_
  have hiff := ht.held_eq_some_iff (k := q.marketId) (v := q)
  rw [hheld, QuoteTracker.getLatest_eq_some_iff] at hiff
  simpa using hiff.symm

end Site

end Stoppage.Quotes
