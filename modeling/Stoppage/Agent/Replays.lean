import Stoppage.Agent.Writes

/-! # `apps/agent/src/replayManager.ts`: replays beside the live agent

A process has one live agent and the agents of the replays it has launched. They take turns on one
event loop, each with a memory of its own, and share the clock and the file of pending settlements,
into which each of them writes the whole of its own map.
-/

namespace Stoppage.Agent
open TransitionSystem
set_option autoImplicit false

/-! ## What the agents of a process share -/

structure Disk where
  now : ℕ
  file : Option (List (Pubkey × PendingSettlement))
  writable : Bool

def World.disk (w : World) : Disk := ⟨w.now, w.file, w.writable⟩

def World.on (w : World) (d : Disk) : World :=
  { w with now := d.now, file := d.file, writable := d.writable }

/-- An agent before its turn: the disk is as the others have left it. -/
def onDisk (d : Disk) (s : System) : System := ⟨s.shared.on d, s.tasks⟩

/-! ## The manager -/

structure Process where
  live : System
  /-- The live agent has been started. The manager is there before it is. -/
  up : Bool
  /-- The agents of all launches. What a stopped one has under way goes on. -/
  replays : List System
  current : Option ℕ
  /-- The calls of `launch` that wait for the scores of their fixture. -/
  launching : ℕ

inductive ProcessMove where
  | live (mv : Move)
  | start
  | replay (i : ℕ) (mv : Move)
  /-- `launch`, up to its await. -/
  | launch
  | launched (matchId : String) (fixtureId : ℕ)
  | launchFailed
  | stop
  /-- The process ends, and a new one is there. -/
  | restart

/-- The moves of the live agent in a process. -/
def Move.isLive (up : Bool) : Move → Bool
  | .restart => false
  | .clock _ | .disk _ | .registerFixture .. | .registerTeams .. => true
  | _ => up

/-- The moves of a replay's agent that its manager does not make. -/
def Move.isReplay : Move → Bool
  | .event _ | .retryTick | .housekeepTick | .resume .. | .registerTeams .. => true
  | _ => false

/-- `new Agent`, `registerFixture` and `start` of `launch`. -/
def replayAgent (d : Disk) (matchId : String) (fixtureId : ℕ) : System where
  shared :=
    { (boot d.now).shared.reset.on d with
      matchToFixture := Function.update (fun _ => none) matchId (some fixtureId) }.start
  tasks := []

namespace Process

def boot (now : ℕ) : Process where
  live := ⟨(Agent.boot now).shared.reset, []⟩
  up := false
  replays := []
  current := none
  launching := 0

/-- A move of the `i`-th replay's agent. -/
def turn (cfg : AgentConfig) (i : ℕ) (mv : Move) (p : Process) : Option Process :=
  p.replays[i]?.bind fun s => (mv.apply cfg (onDisk p.live.shared.disk s)).map fun t =>
    { p with live := onDisk t.shared.disk p.live, replays := p.replays.set i t }

/-- `stop` of the manager. -/
def stopCurrent (cfg : AgentConfig) (p : Process) : Option Process :=
  match p.current with
  | none => some p
  | some i => (p.turn cfg i .stop).map fun q => { q with current := none }

def apply (cfg : AgentConfig) (p : Process) : ProcessMove → Option Process
  | .live mv => if mv.isLive p.up then (mv.apply cfg p.live).map fun t => { p with live := t } else none
  | .start =>
    if p.up then none else some { p with live := ⟨p.live.shared.start, p.live.tasks⟩, up := true }
  | .replay i mv => if mv.isReplay then p.turn cfg i mv else none
  | .launch => (p.stopCurrent cfg).map fun q => { q with launching := q.launching + 1 }
  | .launched matchId fixtureId =>
    if p.launching = 0 then none
    else some { p with
      replays := p.replays ++ [replayAgent p.live.shared.disk matchId fixtureId]
      current := some p.replays.length
      launching := p.launching - 1 }
  | .launchFailed => if p.launching = 0 then none else some { p with launching := p.launching - 1 }
  | .stop => p.stopCurrent cfg
  | .restart =>
    some
      { live := ⟨p.live.shared.reset, []⟩
        up := false
        replays := []
        current := none
        launching := 0 }

def Step (cfg : AgentConfig) (p : Process) (mv : ProcessMove) (q : Process) : Prop :=
  p.apply cfg mv = some q

end Process

/-! ## What the live agent has enqueued -/

def World.pendingAction (w : World) (key : Pubkey) : Option SettleAction :=
  (w.pendingSettlements.get key).map PendingSettlement.action

def World.filedAction (w : World) (key : Pubkey) : Option SettleAction :=
  w.file.bind fun rows => (rows.find? fun row => row.1 = key).map fun row => row.2.action

/-- The row of the market, if it is one that `loadPendingSettlements` takes. -/
def World.keptAction (w : World) (key : Pubkey) : Option SettleAction :=
  (w.filedAction key).filter fun a => decide (a.predicate.matchId ≠ "")

/-- The settlement of the market that the live agent has enqueued and not resolved. Before it is
started, these are the ones that its file keeps for it. -/
def Process.owed (p : Process) (key : Pubkey) : Option SettleAction :=
  if p.up then p.live.shared.pendingAction key else p.live.shared.keptAction key

/-- What is owed is in the file, and a new process that starts its agent has it pending. -/
structure Process.Survives (p : Process) : Prop where
  filed : ∀ key a, p.owed key = some a → p.live.shared.filedAction key = some a
  crash : ∀ key a, p.owed key = some a → p.live.shared.reset.start.pendingAction key = some a

def ProcessMove.isLive : ProcessMove → Bool
  | .live _ => true
  | _ => false

/-- Nothing that is owed is lost. -/
def Process.Keeps (p q : Process) : Prop := ∀ key a, p.owed key = some a → q.owed key = some a

/-- A row that is new in the file, for a market that the live agent has settled. -/
def Process.BringsBack (p q : Process) : Prop :=
  ∃ key, Settled p.live.shared key ∧ p.owed key = none ∧ p.live.shared.filedAction key = none ∧
    q.live.shared.filedAction key ≠ none

/-! ## Harmless moves -/

/-- The settlement of the market that is pending after the change. -/
def Change.action (c : Change) (m : OrderedMap Pubkey PendingSettlement) (key : Pubkey) :
    Option SettleAction :=
  match c with
  | .rewrite => (m.get key).map PendingSettlement.action
  | .drop k => if key = k then none else (m.get key).map PendingSettlement.action
  | .renew k a => if key = k then some a else (m.get key).map PendingSettlement.action

def Change.renewed : Change → Option SettleAction
  | .renew _ a => some a
  | _ => none

/-- The markets that may have a settlement pending after the change. -/
def Change.keys (c : Change) (m : OrderedMap Pubkey PendingSettlement) : List Pubkey :=
  match c with
  | .renew k _ => k :: m.entries.map Prod.fst
  | _ => m.entries.map Prod.fst

/-- The markets that the live agent may owe a settlement. -/
def Process.owedKeys (p : Process) : List Pubkey :=
  if p.up then p.live.shared.pendingSettlements.entries.map Prod.fst
  else (p.live.shared.file.getD []).map Prod.fst

namespace Process

def change (p : Process) : ProcessMove → Option Change
  | .live mv => mv.change p.live
  | _ => none

/-- The replay's agent that makes a change, and the change. -/
def rewrites (p : Process) : ProcessMove → Option (World × Change)
  | .replay i mv =>
    p.replays[i]?.bind fun s =>
      (mv.change (onDisk p.live.shared.disk s)).map fun c => (s.shared, c)
  | .launch | .stop =>
    p.current.bind fun i => p.replays[i]?.map fun s => (s.shared, .rewrite)
  | _ => none

/-- With the change, the replay's agent has pending what the live agent owes, and nothing that the
live agent has settled. -/
structure Covered (p : Process) (c : Change) (m : OrderedMap Pubkey PendingSettlement) : Prop where
  owed : ∀ key ∈ p.owedKeys, ∀ a ∈ p.owed key, c.action m key = some a
  settled : ∀ key ∈ c.keys m, c.action m key ≠ none → Settled p.live.shared key →
    p.owed key ≠ none ∨ p.live.shared.filedAction key ≠ none

/-- The live agent enqueues a settlement of a match only when the disk lets it, and the agent of a
replay writes only what covers the live agent. -/
structure Harmless (p : Process) (mv : ProcessMove) : Prop where
  renews : ∀ c ∈ p.change mv, ∀ a ∈ c.renewed,
    p.live.shared.writable = true ∧ a.predicate.matchId ≠ ""
  covered : ∀ r ∈ p.rewrites mv, p.live.shared.writable = true →
    p.Covered r.2 r.1.pendingSettlements

end Process

section Decidable

instance (w : World) (key : Pubkey) : Decidable (Settled w key) := by
  unfold Settled
  infer_instance

instance (p : Process) (c : Change) (m : OrderedMap Pubkey PendingSettlement) (key : Pubkey) :
    Decidable (∀ a ∈ p.owed key, c.action m key = some a) := Option.decidableForallMem _

instance (p : Process) (c : Change) (m : OrderedMap Pubkey PendingSettlement) :
    Decidable (∀ key ∈ p.owedKeys, ∀ a ∈ p.owed key, c.action m key = some a) :=
  List.decidableBAll _ _

instance (p : Process) (c : Change) (m : OrderedMap Pubkey PendingSettlement) :
    Decidable (∀ key ∈ c.keys m, c.action m key ≠ none → Settled p.live.shared key →
      p.owed key ≠ none ∨ p.live.shared.filedAction key ≠ none) := List.decidableBAll _ _

instance (p : Process) (c : Change) (m : OrderedMap Pubkey PendingSettlement) :
    Decidable (p.Covered c m) :=
  decidable_of_iff ((∀ key ∈ p.owedKeys, ∀ a ∈ p.owed key, c.action m key = some a) ∧
      ∀ key ∈ c.keys m, c.action m key ≠ none → Settled p.live.shared key →
        p.owed key ≠ none ∨ p.live.shared.filedAction key ≠ none)
    ⟨fun ⟨h1, h2⟩ => ⟨h1, h2⟩, fun ⟨h1, h2⟩ => ⟨h1, h2⟩⟩

instance (c : Change) (p : Process) :
    Decidable (∀ a ∈ c.renewed, p.live.shared.writable = true ∧ a.predicate.matchId ≠ "") :=
  Option.decidableForallMem _

instance (p : Process) (o : Option Change) : Decidable (∀ c ∈ o, ∀ a ∈ c.renewed,
    p.live.shared.writable = true ∧ a.predicate.matchId ≠ "") := Option.decidableForallMem o

instance (p : Process) (o : Option (World × Change)) : Decidable (∀ r ∈ o,
    p.live.shared.writable = true → p.Covered r.2 r.1.pendingSettlements) :=
  Option.decidableForallMem o

instance (p : Process) (mv : ProcessMove) : Decidable (p.Harmless mv) :=
  decidable_of_iff ((∀ c ∈ p.change mv, ∀ a ∈ c.renewed,
        p.live.shared.writable = true ∧ a.predicate.matchId ≠ "") ∧
      ∀ r ∈ p.rewrites mv, p.live.shared.writable = true →
        p.Covered r.2 r.1.pendingSettlements)
    ⟨fun ⟨h1, h2⟩ => ⟨h1, h2⟩, fun ⟨h1, h2⟩ => ⟨h1, h2⟩⟩

end Decidable

/-! ## Loading the file -/

section Load
variable {w w' : World} {key : Pubkey} {a : SettleAction}

theorem keptAction_eq_some :
    w.keptAction key = some a ↔ w.filedAction key = some a ∧ a.predicate.matchId ≠ "" := by
  rw [World.keptAction, Option.filter_eq_some_iff, decide_eq_true_eq]

theorem filedAction_of_entries {m : OrderedMap Pubkey PendingSettlement}
    (h : w.file = some m.entries) (key : Pubkey) :
    w.filedAction key = (m.get key).map PendingSettlement.action := by
  rw [World.filedAction, h, Option.bind_some, OrderedMap.get, Option.map_map]
  rfl

theorem filedAction_congr (h : w'.file = w.file) : w'.filedAction key = w.filedAction key := by
  rw [World.filedAction, h, World.filedAction]

theorem keptAction_congr (h : w'.file = w.file) : w'.keptAction key = w.keptAction key := by
  rw [World.keptAction, filedAction_congr h, World.keptAction]

theorem pendingAction_congr (h : w'.pendingSettlements = w.pendingSettlements) :
    w'.pendingAction key = w.pendingAction key := by
  rw [World.pendingAction, h, World.pendingAction]

theorem loadRow_pendingAction (w : World) (row : Pubkey × PendingSettlement) (key : Pubkey) :
    (w.loadRow row).pendingAction key =
      if row.1 = key ∧ row.2.action.predicate.matchId ≠ "" then some row.2.action
      else w.pendingAction key := by
  unfold World.loadRow
  by_cases hmatch : row.2.action.predicate.matchId = ""
  · rw [if_pos hmatch, if_neg fun h => h.2 hmatch]
  · rw [if_neg hmatch, pendingAction_congr (quiet_track _ _ _).pending, World.pendingAction]
    by_cases hkey : row.1 = key
    · subst hkey
      simp only [OrderedMap.get_set_self, ne_eq, hmatch, not_false_eq_true, and_self, if_true,
        Option.map_some]
    · simp only [OrderedMap.get_set_of_ne (Ne.symm hkey), hkey, false_and, if_false,
        World.pendingAction]

theorem loadRows_pendingAction (key : Pubkey) (rows : List (Pubkey × PendingSettlement)) (w : World)
    (hrows : (rows.map Prod.fst).Nodup) :
    (rows.foldl World.loadRow w).pendingAction key =
      (((rows.find? fun row => row.1 = key).map fun row => row.2.action).filter
        fun a => decide (a.predicate.matchId ≠ "")).or (w.pendingAction key) := by
  induction rows generalizing w with
  | nil => rfl
  | cons row rows ih =>
    obtain ⟨hnew, hrest⟩ := List.nodup_cons.mp hrows
    rw [List.foldl_cons, ih _ hrest, loadRow_pendingAction]
    by_cases hkey : row.1 = key
    · subst hkey
      have hnone : rows.find? (fun r => r.1 = row.1) = none := by
        rw [List.find?_eq_none]
        intro r hr heq
        exact hnew (List.mem_map.mpr ⟨r, hr, of_decide_eq_true heq⟩)
      rw [hnone, List.find?_cons_of_pos (by simp)]
      by_cases hmatch : row.2.action.predicate.matchId = ""
      · simp [hmatch, Option.filter_some]
      · simp [hmatch, Option.filter_some]
    · rw [List.find?_cons_of_neg (by simpa using hkey), if_neg (fun h => hkey h.1)]

theorem start_pendingAction (hrows : ∀ rows ∈ w.file, (rows.map Prod.fst).Nodup)
    (hidle : w.file = none → w.pendingAction key = none) :
    w.start.pendingAction key = w.keptAction key := by
  unfold World.start World.loadPendingSettlements
  dsimp only
  split
  · rename_i hfile
    rw [World.keptAction, World.filedAction, hfile]
    exact hidle hfile
  · rename_i rows hfile
    rw [loadRows_pendingAction key rows _ (hrows rows hfile), World.keptAction, World.filedAction,
      hfile]
    exact Option.or_none

theorem reset_start_pendingAction (hrows : ∀ rows ∈ w.file, (rows.map Prod.fst).Nodup) :
    w.reset.start.pendingAction key = w.keptAction key :=
  start_pendingAction (w := w.reset) hrows fun _ => rfl

end Load

/-! ## What a change leaves -/

section Changes
variable {c : Change} {m m' : OrderedMap Pubkey PendingSettlement} {key : Pubkey}

theorem get_delete_self (m : OrderedMap Pubkey PendingSettlement) (key : Pubkey) :
    (m.delete key).get key = none := by
  rw [Option.eq_none_iff_forall_ne_some]
  intro p hp
  exact (OrderedMap.get_delete_eq_some_iff.mp hp).1 rfl

theorem Change.Makes.action (h : c.Makes m m') (key : Pubkey) :
    (m'.get key).map PendingSettlement.action = c.action m key := by
  cases c with
  | rewrite =>
    cases h
    rfl
  | drop k =>
    cases h
    rw [Change.action]
    by_cases hkey : key = k
    · rw [hkey, get_delete_self, if_pos rfl]
      rfl
    · rw [OrderedMap.get_delete_of_ne hkey, if_neg hkey]
  | renew k a =>
    obtain ⟨p, rfl, rfl⟩ := h
    rw [Change.action]
    by_cases hkey : key = k
    · rw [hkey, OrderedMap.get_set_self, if_pos rfl]
      rfl
    · rw [OrderedMap.get_set_of_ne hkey, if_neg hkey]

theorem mem_keys_of_get_ne_none (h : m.get key ≠ none) : key ∈ m.entries.map Prod.fst := by
  obtain ⟨p, hp⟩ := Option.ne_none_iff_exists'.mp h
  exact List.mem_map.mpr ⟨_, OrderedMap.get_eq_some_iff.mp hp, rfl⟩

theorem Change.mem_keys (h : c.action m key ≠ none) : key ∈ c.keys m := by
  cases c with
  | rewrite => exact mem_keys_of_get_ne_none fun hnone => h (by rw [Change.action, hnone]; rfl)
  | drop k =>
    rw [Change.action] at h
    by_cases hkey : key = k
    · exact absurd (if_pos hkey) h
    · rw [if_neg hkey] at h
      exact mem_keys_of_get_ne_none fun hnone => h (by rw [hnone]; rfl)
  | renew k a =>
    rw [Change.action] at h
    by_cases hkey : key = k
    · rw [hkey]
      exact List.mem_cons_self
    · rw [if_neg hkey] at h
      refine List.mem_cons_of_mem _ (mem_keys_of_get_ne_none fun hnone => h ?_)
      rw [hnone]
      rfl

end Changes

/-! ## Moves -/

section Moves
variable {cfg : AgentConfig} {p q : Process} {mv : ProcessMove}

/-- A move in which the live agent does not run: the file is as it was, or as a replay's agent has
it. -/
structure Rewrites (r : Option (World × Change)) (p q : Process) : Prop where
  up : q.up = p.up
  pending : q.live.shared.pendingSettlements = p.live.shared.pendingSettlements
  file : q.live.shared.file = p.live.shared.file ∨ ∃ w c, r = some (w, c) ∧
    p.live.shared.writable = true ∧ ∃ m : OrderedMap Pubkey PendingSettlement,
      c.Makes w.pendingSettlements m ∧ q.live.shared.file = some m.entries

theorem Process.turn_rewrites {i : ℕ} {m : Move} (hm : m ≠ .restart) (h : p.turn cfg i m = some q) :
    Rewrites (p.replays[i]?.bind fun s =>
      (m.change (onDisk p.live.shared.disk s)).map fun c => (s.shared, c)) p q := by
  obtain ⟨s, hs, hturn⟩ := Option.bind_eq_some_iff.mp h
  obtain ⟨t, ht, rfl⟩ := Option.map_eq_some_iff.mp hturn
  refine ⟨rfl, rfl, ?_⟩
  have hwrites := Agent.Step.writes ht hm
  rw [hs, Option.bind_some]
  cases hchange : m.change (onDisk p.live.shared.disk s) with
  | none =>
    rw [hchange] at hwrites
    exact .inl hwrites.2
  | some c =>
    rw [hchange] at hwrites
    obtain ⟨hmakes, hfile⟩ := hwrites
    by_cases hwritable : p.live.shared.writable = true
    · exact .inr ⟨_, c, rfl, hwritable, _, hmakes, hfile.trans (if_pos hwritable)⟩
    · exact .inl (hfile.trans (if_neg hwritable))

theorem Process.stopCurrent_rewrites (h : p.stopCurrent cfg = some q) :
    Rewrites (p.current.bind fun i => p.replays[i]?.map fun s => (s.shared, .rewrite)) p q := by
  unfold Process.stopCurrent at h
  split at h
  · cases h
    exact ⟨rfl, rfl, .inl rfl⟩
  · rename_i i hcurrent
    obtain ⟨v, hv, rfl⟩ := Option.map_eq_some_iff.mp h
    obtain ⟨hup, hpending, hfile⟩ := Process.turn_rewrites Move.noConfusion hv
    refine ⟨hup, hpending, ?_⟩
    rw [hcurrent, Option.bind_some]
    rwa [Option.map_eq_bind]

/-- A move of the live agent in its process. -/
structure Lives (p : Process) (c : Option Change) (q : Process) : Prop where
  up : q.up = p.up
  idle : p.up = false → c = none
  writes : Writes c p.live.shared q.live.shared

theorem Process.Step.cases (h : p.Step cfg mv q) :
    (mv.isLive = true ∧ Lives p (p.change mv) q) ∨
      (mv.isLive = false ∧ Rewrites (p.rewrites mv) p q) ∨
      (mv = .start ∧ p.up = false ∧
        q = { p with live := ⟨p.live.shared.start, p.live.tasks⟩, up := true }) ∨
      (mv = .restart ∧ q.up = false ∧ q.live.shared = p.live.shared.reset) := by
  cases mv with
  | live m =>
    simp only [Process.Step, Process.apply, Option.ite_none_right_eq_some] at h
    obtain ⟨hlive, h⟩ := h
    obtain ⟨t, ht, rfl⟩ := Option.map_eq_some_iff.mp h
    refine .inl ⟨rfl, rfl, fun hidle => ?_, Agent.Step.writes ht ?_⟩
    · rw [hidle] at hlive
      cases m with
      | clock now => rfl
      | disk writable => rfl
      | registerFixture matchId fixtureId => rfl
      | registerTeams matchId home away => rfl
      | _ => cases hlive
    · rintro rfl
      cases hlive
  | start =>
    simp only [Process.Step, Process.apply] at h
    split at h
    · cases h
    · rename_i hup
      cases h
      exact .inr (.inr (.inl ⟨rfl, Bool.not_eq_true _ ▸ hup, rfl⟩))
  | replay i m =>
    simp only [Process.Step, Process.apply, Option.ite_none_right_eq_some] at h
    refine .inr (.inl ⟨rfl, Process.turn_rewrites ?_ h.2⟩)
    rintro rfl
    exact Bool.noConfusion h.1
  | launch =>
    obtain ⟨v, hv, rfl⟩ := Option.map_eq_some_iff.mp h
    obtain ⟨hup, hpending, hfile⟩ := Process.stopCurrent_rewrites hv
    exact .inr (.inl ⟨rfl, hup, hpending, hfile⟩)
  | launched matchId fixtureId =>
    simp only [Process.Step, Process.apply] at h
    split at h
    · cases h
    · cases h
      exact .inr (.inl ⟨rfl, rfl, rfl, .inl rfl⟩)
  | launchFailed =>
    simp only [Process.Step, Process.apply] at h
    split at h
    · cases h
    · cases h
      exact .inr (.inl ⟨rfl, rfl, rfl, .inl rfl⟩)
  | stop => exact .inr (.inl ⟨rfl, Process.stopCurrent_rewrites h⟩)
  | restart =>
    cases Option.some.inj h
    exact .inr (.inr (.inr ⟨rfl, rfl, rfl⟩))

end Moves

/-! ## Runs -/

section Runs
variable {cfg : AgentConfig} {p q : Process} {mv : ProcessMove}

/-- What is owed is in the file, under one row a market. -/
structure Process.Sound (p : Process) : Prop where
  rows : ∀ rows ∈ p.live.shared.file, (rows.map Prod.fst).Nodup
  idle : p.up = false → ∀ key, p.live.shared.pendingSettlements.get key = none
  filed : ∀ key a, p.owed key = some a →
    p.live.shared.filedAction key = some a ∧ a.predicate.matchId ≠ ""

theorem Process.owed_up (hup : p.up = true) (key : Pubkey) :
    p.owed key = p.live.shared.pendingAction key := if_pos hup

theorem Process.owed_idle (hup : p.up = false) (key : Pubkey) :
    p.owed key = p.live.shared.keptAction key := by
  rw [Process.owed, hup]
  exact if_neg Bool.false_ne_true

theorem Process.Sound.survives (h : p.Sound) : p.Survives where
  filed key a ha := (h.filed key a ha).1
  crash key a ha := by
    rw [reset_start_pendingAction h.rows]
    exact keptAction_eq_some.mpr (h.filed key a ha)

theorem Process.boot_sound (now : ℕ) : (Process.boot now).Sound where
  rows rows hrows := by cases hrows
  idle _ _ := rfl
  filed key a ha := by cases ha

theorem nodup_of_entries {m : OrderedMap Pubkey PendingSettlement} {w : World}
    (h : w.file = some m.entries) : ∀ rows ∈ w.file, (rows.map Prod.fst).Nodup := by
  rw [h]
  rintro rows hrows
  cases hrows
  exact m.nodup

theorem mem_owedKeys {key : Pubkey} (h : p.owed key ≠ none) : key ∈ p.owedKeys := by
  unfold Process.owedKeys
  cases hup : p.up with
  | true =>
    rw [Process.owed_up hup] at h
    refine mem_keys_of_get_ne_none fun hnone => h ?_
    rw [World.pendingAction, hnone]
    rfl
  | false =>
    rw [Process.owed_idle hup] at h
    obtain ⟨a, ha⟩ := Option.ne_none_iff_exists'.mp h
    obtain ⟨rows, hrows, hrow⟩ := Option.bind_eq_some_iff.mp (keptAction_eq_some.mp ha).1
    obtain ⟨row, hfind, -⟩ := Option.map_eq_some_iff.mp hrow
    rw [hrows]
    refine List.mem_map.mpr ⟨row, List.mem_of_find?_eq_some hfind, ?_⟩
    simpa using List.find?_some hfind

/-- The moves of the live agent, and of an agent that is about to be live, change the file with
what is owed. -/
theorem Lives.sound {c : Option Change} (h : Lives p c q) (hp : p.Sound)
    (hc : ∀ d ∈ c, ∀ a ∈ d.renewed, p.live.shared.writable = true ∧ a.predicate.matchId ≠ "") :
    q.Sound := by
  have hwrites := h.writes
  cases c with
  | none =>
    obtain ⟨hpending, hfile⟩ := hwrites
    refine ⟨?_, ?_, ?_⟩
    · rw [hfile]
      exact hp.rows
    · rw [h.up, hpending]
      exact hp.idle
    · intro key a ha
      rw [filedAction_congr hfile]
      rw [Process.owed, h.up, pendingAction_congr hpending, keptAction_congr hfile] at ha
      exact hp.filed key a ha
  | some c =>
    have hup : p.up = true := by
      by_contra hidle
      cases h.idle (Bool.not_eq_true _ ▸ hidle)
    have hqup := h.up.trans hup
    obtain ⟨hmakes, hfile⟩ := hwrites
    have howed : ∀ key, q.owed key = c.action p.live.shared.pendingSettlements key := fun key => by
      rw [Process.owed_up hqup, World.pendingAction, hmakes.action]
    -- An action that was not pending is one that is renewed.
    have hbefore : ∀ key a, q.owed key = some a → p.owed key = some a ∨ a ∈ c.renewed := by
      intro key a ha
      rw [howed] at ha
      rw [Process.owed_up hup]
      cases c with
      | rewrite => exact .inl ha
      | drop k =>
        rw [Change.action] at ha
        split at ha
        · cases ha
        · exact .inl ha
      | renew k b =>
        rw [Change.action] at ha
        split at ha
        · exact .inr ha
        · exact .inl ha
    refine ⟨?_, fun hidle => ?_, fun key a ha => ?_⟩
    · by_cases hwritable : p.live.shared.writable = true
      · exact nodup_of_entries (hfile.trans (if_pos hwritable))
      · rw [hfile, if_neg hwritable]
        exact hp.rows
    · rw [hqup] at hidle
      cases hidle
    · by_cases hwritable : p.live.shared.writable = true
      · rw [filedAction_of_entries (hfile.trans (if_pos hwritable))]
        refine ⟨(Process.owed_up hqup key).symm.trans ha, ?_⟩
        rcases hbefore key a ha with hold | hnew
        · exact (hp.filed key a hold).2
        · exact (hc c rfl a hnew).2
      · rw [filedAction_congr (hfile.trans (if_neg hwritable))]
        rcases hbefore key a ha with hold | hnew
        · exact hp.filed key a hold
        · exact absurd (hc c rfl a hnew).1 hwritable

/-- After a write of a replay's agent, the file has what that agent has pending. -/
theorem Rewrites.file_cases {r : Option (World × Change)} (h : Rewrites r p q) :
    q.live.shared.file = p.live.shared.file ∨ ∃ w c, r = some (w, c) ∧
      p.live.shared.writable = true ∧ (∀ rows ∈ q.live.shared.file, (rows.map Prod.fst).Nodup) ∧
      ∀ key, q.live.shared.filedAction key = c.action w.pendingSettlements key := by
  rcases h.file with hfile | ⟨w, c, hr, hwritable, m, hmakes, hfile⟩
  · exact .inl hfile
  · refine .inr ⟨w, c, hr, hwritable, nodup_of_entries hfile, fun key => ?_⟩
    rw [filedAction_of_entries hfile, hmakes.action]

theorem Rewrites.keeps {r : Option (World × Change)} (h : Rewrites r p q) (hp : p.Sound)
    (hc : ∀ e ∈ r, p.live.shared.writable = true → p.Covered e.2 e.1.pendingSettlements) :
    q.Sound ∧ p.Keeps q := by
  have hkept : ∀ key a, p.owed key = some a →
      q.live.shared.filedAction key = some a ∧ a.predicate.matchId ≠ "" := by
    intro key a ha
    rcases h.file_cases with hfile | ⟨w, c, hr, hwritable, -, hfiled⟩
    · rw [filedAction_congr hfile]
      exact hp.filed key a ha
    · rw [hfiled]
      refine ⟨?_, (hp.filed key a ha).2⟩
      refine (hc _ hr hwritable).owed key (mem_owedKeys fun hnone => ?_) a ha
      rw [hnone] at ha
      cases ha
  have hkeeps : p.Keeps q := by
    intro key a ha
    cases hup : p.up with
    | true =>
      rw [Process.owed_up (h.up.trans hup), pendingAction_congr h.pending, ← Process.owed_up hup]
      exact ha
    | false =>
      rw [Process.owed_idle (h.up.trans hup)]
      exact keptAction_eq_some.mpr (hkept key a ha)
  refine ⟨⟨?_, ?_, fun key a ha => ?_⟩, hkeeps⟩
  · rcases h.file_cases with hfile | ⟨w, c, -, -, hnodup, -⟩
    · rw [hfile]
      exact hp.rows
    · exact hnodup
  · rw [h.up, h.pending]
    exact hp.idle
  · cases hup : p.up with
    | true =>
      rw [Process.owed_up (h.up.trans hup), pendingAction_congr h.pending,
        ← Process.owed_up hup] at ha
      exact hkept key a ha
    | false =>
      rw [Process.owed_idle (h.up.trans hup)] at ha
      exact keptAction_eq_some.mp ha

theorem Rewrites.not_bringsBack {r : Option (World × Change)} (h : Rewrites r p q)
    (hc : ∀ e ∈ r, p.live.shared.writable = true → p.Covered e.2 e.1.pendingSettlements) :
    ¬ p.BringsBack q := by
  rintro ⟨key, hsettled, howed, hfiled, hback⟩
  rcases h.file_cases with hfile | ⟨w, c, hr, hwritable, -, hrows⟩
  · rw [filedAction_congr hfile] at hback
    exact hback hfiled
  · rw [hrows] at hback
    rcases (hc _ hr hwritable).settled key (Change.mem_keys hback) hback hsettled with h | h
    · exact h howed
    · exact h hfiled

/-- A process that ends leaves its file, and an agent that starts reads it. -/
theorem keeps_of_file (hp : p.Sound) (hfile : q.live.shared.file = p.live.shared.file)
    (howed : ∀ key, q.owed key = p.live.shared.keptAction key)
    (hidle : q.up = false → ∀ key, q.live.shared.pendingSettlements.get key = none) :
    q.Sound ∧ p.Keeps q ∧ ¬ p.BringsBack q := by
  refine ⟨⟨?_, hidle, fun key a ha => ?_⟩, fun key a ha => ?_, ?_⟩
  · rw [hfile]
    exact hp.rows
  · rw [howed] at ha
    rw [filedAction_congr hfile]
    exact keptAction_eq_some.mp ha
  · rw [howed]
    exact keptAction_eq_some.mpr (hp.filed key a ha)
  · rintro ⟨key, -, -, hnone, hback⟩
    rw [filedAction_congr hfile] at hback
    exact hback hnone

theorem start_file (w : World) : w.start.file = w.file := by
  unfold World.start World.loadPendingSettlements
  dsimp only
  split
  · rfl
  · rename_i rows hfile
    have hrow : ∀ (v : World) (row : Pubkey × PendingSettlement), (v.loadRow row).file = v.file := by
      intro v row
      unfold World.loadRow
      split
      · rfl
      · exact (quiet_track _ _ _).file
    have hrows : ∀ v : World, (rows.foldl World.loadRow v).file = v.file := by
      clear hfile
      induction rows with
      | nil => exact fun v => rfl
      | cons row rows ih => exact fun v => (ih _).trans (hrow v row)
    exact hrows _

theorem Process.Step.keeps (h : p.Step cfg mv q) (hharmless : p.Harmless mv) (hp : p.Sound) :
    q.Sound ∧ (mv.isLive = false → p.Keeps q ∧ ¬ p.BringsBack q) := by
  rcases h.cases with ⟨hlive, hmove⟩ | ⟨-, hmove⟩ | ⟨-, hup, rfl⟩ | ⟨-, hup, hworld⟩
  · refine ⟨hmove.sound hp hharmless.renews, fun hreplay => ?_⟩
    rw [hlive] at hreplay
    cases hreplay
  · obtain ⟨hsound, hkeeps⟩ := hmove.keeps hp hharmless.covered
    exact ⟨hsound, fun _ => ⟨hkeeps, hmove.not_bringsBack hharmless.covered⟩⟩
  · have howed : ∀ key, p.live.shared.start.pendingAction key = p.live.shared.keptAction key := by
      intro key
      refine start_pendingAction hp.rows fun _ => ?_
      rw [World.pendingAction, hp.idle hup]
      rfl
    obtain ⟨hsound, hkeeps⟩ := keeps_of_file
      (q := { p with live := ⟨p.live.shared.start, p.live.tasks⟩, up := true }) hp (start_file _)
      (fun key => (Process.owed_up rfl key).trans (howed key)) Bool.noConfusion
    exact ⟨hsound, fun _ => hkeeps⟩
  · have hfile : q.live.shared.file = p.live.shared.file := by
      rw [hworld]
      rfl
    obtain ⟨hsound, hkeeps⟩ := keeps_of_file hp hfile
      (fun key => (Process.owed_idle hup key).trans (keptAction_congr hfile))
      (fun _ key => by
        rw [hworld]
        rfl)
    exact ⟨hsound, fun _ => hkeeps⟩

end Runs

namespace Sample

/-- The live agent has a market open on a match that ends. -/
def played : List Move :=
  begins 18041422 pac ⟨some 3, none, none⟩ ++ creates (start + 2000) ++ [ends 18041422 pac]

/-- The settlement finds no proof yet and is enqueued. -/
def waits : List Move := [.resume 0 (.proof (.error "")), .resume 0 .awake]

/-- Its retry lands. -/
def proved : List Move :=
  [.clock (start + 4000), .resume 0 .awake, .clock (start + 400000), .retryTick,
    .resume 0 (.proof (.ok ())), .resume 0 (.built (.ok false)), .resume 0 (.sent (.ok "")),
    .resume 0 (.attested none), .resume 0 .awake]

def replays : List ProcessMove := [.launch, .launched cit 17615188]

/-- A replay that was launched first stops after the live agent has enqueued a settlement. -/
def lost : List ProcessMove :=
  [.start] ++ played.map .live ++ replays ++ waits.map .live ++ [.stop]

/-- A replay that was launched then stops after the settlement has landed. -/
def settledMeanwhile : List ProcessMove :=
  [.start] ++ (played ++ waits).map .live ++ replays ++ proved.map .live

/-- A replay that is launched and stopped while a settlement waits. -/
def beside : List ProcessMove :=
  [.start] ++ (played ++ waits).map .live ++ replays ++ [.stop]

end Sample

end Stoppage.Agent
