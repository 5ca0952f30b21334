import Stoppage.Agent.Actions
import Stoppage.Lib.Pool
import Stoppage.Lib.Transition

/-! # `apps/agent/src/loop.ts`: the three loops

`handleEvent`, `processPendingSettlements` and `housekeepPass` run as tasks that take turns at
their awaits, in one process after another. The claim sweep that ends a housekeeping pass touches
none of the agent's state and is left out.
-/

namespace Stoppage.Agent
open TransitionSystem
set_option autoImplicit false

/-! ## The callers of `executeAction` -/

/-- The loop that called `executeAction`, with what it still has to do. -/
inductive Caller where
  | handleEvent (rest : List AgentAction)
  | processPending (now : ℕ) (rest : List (Pubkey × PendingSettlement))
  | finalAttempt (now : ℕ) (key : Pubkey) (pending : PendingSettlement)
      (rest : List (Pubkey × PendingSettlement))
  | giveUpVoid (now : ℕ) (key : Pubkey) (pending : PendingSettlement)
      (rest : List (Pubkey × PendingSettlement))

inductive Task where
  /-- `handleEvent`, awaiting the advisory. -/
  | advising (event : NormalizedEvent)
  | acting (caller : Caller) (point : Point)

/-- Where a loop goes from here: to its end, to an await of its own, or into `executeAction`. -/
inductive Next where
  | finished
  | waits (t : Task)
  | calls (caller : Caller) (a : AgentAction)

/-! ## `handleEvent` -/

def runActions : List AgentAction → Next
  | [] => .finished
  | a :: rest => .calls (.handleEvent rest) a

/-- The quotes of an event, when the state of its match is known. -/
def quotesFor (cfg : AgentConfig) (event : NormalizedEvent) (w : World) : List AgentAction :=
  match event.matchId? with
  | none => []
  | some matchId =>
    match w.matchState matchId with
    | none => []
    | some s =>
      if matchId ≠ "" ∧ cfg.quoteTracker then
        (quoteOpenMarkets matchId s.fixtureId s.minute s.score s.corners s.cards s.seq event.ts
          w.openMarkets).map .quoteMarket
      else []

/-- `handleEvent` from the decision on: the quotes first, then the actions. -/
def handleDecision (cfg : AgentConfig) (event : NormalizedEvent) (templates : MatchTemplates)
    (w : World) : World × Next :=
  (w, runActions (quotesFor cfg event w ++ (decideActions event w.openMarkets templates).actions))

def templatesFor : NormalizedEvent → MatchTemplates
  | .matchStarted _ _ _ _ competitionId _ => templatesForCompetition competitionId
  | _ => defaultTemplates

/-- Whether the advisory is asked for the event. -/
def asksAdvice (cfg : AgentConfig) : NormalizedEvent → Bool
  | .matchStarted _ _ _ _ competitionId _ =>
    decide (competitionId ≠ some competitionNfl) && cfg.usepodAdvisoryEnabled
  | _ => false

def handleEvent (cfg : AgentConfig) (event : NormalizedEvent) (w : World) : World × Next :=
  if w.running then
    let w := w.updateMatchState event
    if asksAdvice cfg event then (w, .waits (.advising event))
    else handleDecision cfg event (templatesFor event) w
  else (w, .finished)

/-! ## `processPendingSettlements` and `housekeepPass` -/

def retryFrom (now : ℕ) : List (Pubkey × PendingSettlement) → World → World × Next
  | [], w => (w, .finished)
  | (key, pending) :: rest, w =>
    if now < pending.nextAttemptAt then retryFrom now rest w
    else (w.track key pending, .calls (.processPending now rest) (.settleMarket pending.action))

def processPendingSettlements (w : World) : World × Next :=
  if w.running then retryFrom w.now w.pendingSettlements.entries w else (w, .finished)

def giveUpFrom (now : ℕ) : List (Pubkey × PendingSettlement) → World → World × Next
  | [], w => (w, .finished)
  | (key, pending) :: rest, w =>
    if now ≤ pending.enqueuedAt + settleRetryGiveUpMs then giveUpFrom now rest w
    else (w, .calls (.finalAttempt now key pending rest) (.settleMarket pending.action))

def housekeepPass (w : World) : World × Next :=
  if w.running then giveUpFrom w.now w.pendingSettlements.entries w else (w, .finished)

/-! ## Back from `executeAction` -/

def giveUpAction (pending : PendingSettlement) : AgentAction :=
  .voidMarket ⟨pending.action.predicate, pending.action.label⟩

def continueCaller (caller : Caller) (r : ActionResult) (w : World) : World × Next :=
  match caller with
  | .handleEvent rest => (w, runActions rest)
  | .processPending now rest => retryFrom now rest w
  | .finalAttempt now key pending rest =>
    if r.success ∧ r.marketPda.isSome then giveUpFrom now rest (w.deletePending key)
    else (w, .calls (.giveUpVoid now key pending rest) (giveUpAction pending))
  | .giveUpVoid now key _ rest => giveUpFrom now rest (w.deletePending key)

/-- The code of a task after one of its awaits. -/
def resumeTask (cfg : AgentConfig) (answer : Answer) (t : Task) (w : World) :
    Option (World × Next) :=
  match t, answer with
  | .advising event, .advice templates =>
    some (handleDecision cfg event (templates.getD (templatesFor event)) w)
  | .acting caller (.sleep wakeAt r), .awake =>
    if wakeAt ≤ w.now then some (continueCaller caller r w) else none
  | .acting caller p, answer =>
    (resumeAction cfg p answer w).map fun r => (r.1, .waits (.acting caller r.2))
  | _, _ => none

/-- Carrying on until the task waits. -/
def dispatch (cfg : AgentConfig) : World × Next → World × Option Task
  | (w, .finished) => (w, none)
  | (w, .waits t) => (w, some t)
  | (w, .calls caller a) =>
    ((executeAction cfg a w).1, some (.acting caller (executeAction cfg a w).2))

/-! ## Runs -/

abbrev System : Type := Pool World Task

inductive Move where
  | event (e : NormalizedEvent)
  | retryTick
  | housekeepTick
  /-- The await of the `i`-th task is over. -/
  | resume (i : ℕ) (answer : Answer)
  | clock (now : ℕ)
  | disk (writable : Bool)
  | registerFixture (matchId : String) (fixtureId : ℕ)
  | registerTeams (matchId home away : String)
  | stop
  /-- The process ends, with all its tasks, and a new one starts. -/
  | restart

/-- The part of the agent that runs in a move, up to the call of `executeAction`. -/
def Move.next (cfg : AgentConfig) (s : System) : Move → Option (World × Next)
  | .event e => some (handleEvent cfg e s.shared)
  | .retryTick => some (processPendingSettlements s.shared)
  | .housekeepTick => some (housekeepPass s.shared)
  | .resume i answer => s.tasks[i]?.bind fun t => resumeTask cfg answer t s.shared
  | _ => none

def Move.apply (cfg : AgentConfig) (s : System) : Move → Option System
  | .event e => some (s.spawn fun w => dispatch cfg (handleEvent cfg e w))
  | .retryTick => some (s.spawn fun w => dispatch cfg (processPendingSettlements w))
  | .housekeepTick => some (s.spawn fun w => dispatch cfg (housekeepPass w))
  | .resume i answer =>
    s.resume (fun t w => (resumeTask cfg answer t w).map (dispatch cfg)) i
  | .clock now =>
    if s.shared.now ≤ now then some ⟨{ s.shared with now }, s.tasks⟩ else none
  | .disk writable => some ⟨{ s.shared with writable }, s.tasks⟩
  | .registerFixture matchId fixtureId =>
    some ⟨{ s.shared with
      matchToFixture := Function.update s.shared.matchToFixture matchId (some fixtureId) }, s.tasks⟩
  | .registerTeams matchId home away =>
    some ⟨{ s.shared with
      teamNames := Function.update s.shared.teamNames matchId (some (home, away)) }, s.tasks⟩
  | .stop => some ⟨s.shared.stop, s.tasks⟩
  | .restart => some ⟨s.shared.reset.start, []⟩

def Step (cfg : AgentConfig) (s : System) (mv : Move) (t : System) : Prop := mv.apply cfg s = some t

/-- The first process, with no file. -/
def boot (now : ℕ) : System where
  shared :=
    { now
      running := true
      openMarkets := []
      matchToFixture := fun _ => none
      matchState := fun _ => none
      teamNames := fun _ => none
      pendingSettlements := .empty
      file := none
      writable := true
      submitted := []
      confirmed := [] }
  tasks := []

end Stoppage.Agent
