import Stoppage.Keeper.Adoption
import Stoppage.Keeper.Week

/-! # Tracking after a failed action

Each void drops its market before the first call that can fail, and the agent tracks a market before
the transaction that creates it is sent. `failed_actions_iff`: what is tracked stays consistent only
where no call fails, where the agent has a second entry of the market, or where the market is on the
chain after all.
-/

namespace Stoppage.Keeper
open Fallible Sdk
set_option autoImplicit false

/-! ## The keepers -/

/-- All calls for a transaction come through, and the transaction has no error. -/
structure Calls.Succeed (calls : Calls) : Prop where
  blockhash : calls.getLatestBlockhash = .ok ()
  sent : ∃ sig, calls.sendRawTransaction = .ok sig
  confirmed : calls.confirmTransaction = .ok ()
  status : calls.getSignatureStatuses = .ok none

theorem Calls.exists_send_eq_ok_iff {calls : Calls} {message : String} :
    (∃ sig, calls.send message = .ok sig) ↔ calls.Succeed := by
  constructor
  · rintro ⟨sig, h⟩
    obtain ⟨⟨⟩, hblockhash, h⟩ := bind_eq_ok.mp h
    obtain ⟨sig', hsent, h⟩ := bind_eq_ok.mp h
    obtain ⟨⟨⟩, hconfirmed, h⟩ := bind_eq_ok.mp h
    obtain ⟨err, hstatus, h⟩ := bind_eq_ok.mp h
    cases err with
    | some err => cases h
    | none => exact ⟨hblockhash, ⟨sig', hsent⟩, hconfirmed, hstatus⟩
  · rintro ⟨hblockhash, ⟨sig, hsent⟩, hconfirmed, hstatus⟩
    refine ⟨sig, ?_⟩
    rw [Calls.send, hblockhash, hsent, hconfirmed, hstatus]
    rfl

/-- A `voidPriceMarket` that throws leaves its market tracked. -/
def PriceVoidKeeps (cfg : PriceConfig) (calls : Calls) (m : TrackedPriceMarket)
    (tracked : OrderedMap Pubkey TrackedPriceMarket) : Prop :=
  ∀ e, (voidPriceMarket cfg calls m tracked).2 = .error e →
    ((voidPriceMarket cfg calls m tracked).1.get m.marketPda).isSome = true

/-- A `voidStale` whose transaction fails leaves its market tracked. -/
def StaleVoidKeeps (dryRun : Bool) (calls : Calls) (onChain : Except SdkError Escrow.Market)
    (m : TrackedPriceMarket) (w : WeekState) : Prop :=
  dryRun = false → ∀ e, calls.send "tx failed on-chain" = .error e →
    ((voidStale dryRun calls onChain m w).tracked.get m.marketPda).isSome = true

theorem get_delete_self {m : OrderedMap Pubkey TrackedPriceMarket} {k : Pubkey} :
    (m.delete k).get k = none := by
  cases h : (m.delete k).get k with
  | none => rfl
  | some v => exact absurd rfl (OrderedMap.get_delete_eq_some_iff.mp h).1

/-- What has been dropped before a call is tracked after every failure only if there is none. -/
theorem keeps_iff {α : Type} {x : Except SdkError α} {k : Pubkey}
    {tracked : OrderedMap Pubkey TrackedPriceMarket} (hdropped : tracked.get k = none) :
    (∀ e, x = .error e → (tracked.get k).isSome = true) ↔ ∃ a, x = .ok a := by
  rw [hdropped]
  cases x with
  | ok a =>
    refine iff_of_true (fun e he => ?_) ⟨a, rfl⟩
    cases he
  | error e =>
    refine iff_of_false (fun h => Bool.false_ne_true (h e rfl)) ?_
    rintro ⟨a, ha⟩
    cases ha

section Keepers
variable {calls : Calls} {m : TrackedPriceMarket}

/-- No failed void of the interval keeper leaves its market. -/
theorem priceVoidKeeps_iff {cfg : PriceConfig} {tracked : OrderedMap Pubkey TrackedPriceMarket} :
    PriceVoidKeeps cfg calls m tracked ↔ cfg.dryRun = true ∨ calls.Succeed := by
  rw [PriceVoidKeeps, voidPriceMarket,
    ← @Calls.exists_send_eq_ok_iff calls "void tx failed on-chain"]
  cases hmode : cfg.dryRun with
  | true =>
    refine iff_of_true (fun e he => ?_) (.inl rfl)
    cases he
  | false =>
    simp only [Bool.false_eq_true, if_false, false_or, keeps_iff get_delete_self, map_eq_ok]
    simp

/-- No failed void of the week keeper leaves its market. -/
theorem staleVoidKeeps_iff {dryRun : Bool} {onChain : Except SdkError Escrow.Market}
    {w : WeekState} :
    StaleVoidKeeps dryRun calls onChain m w ↔ dryRun = true ∨ calls.Succeed := by
  rw [StaleVoidKeeps, ← @Calls.exists_send_eq_ok_iff calls "tx failed on-chain"]
  cases dryRun with
  | true => exact iff_of_true (fun h => by cases h) (.inl rfl)
  | false =>
    have hdropped : ∀ e, calls.send "tx failed on-chain" = .error e →
        (voidStale false calls onChain m w).tracked = w.tracked.delete m.marketPda := by
      intro e he
      rw [voidStale, if_neg Bool.false_ne_true, he]
    simp only [Bool.false_eq_true, false_or, true_imp_iff]
    rw [← keeps_iff (@get_delete_self w.tracked m.marketPda)]
    exact forall₂_congr fun e he => by rw [hdropped e he]

end Keepers

/-! ## The agent -/

open Agent

/-- What the calls of an action come to. -/
structure Replies where
  accountInfo : Except String Bool
  blockhash : Except String Unit
  sent : Except String String

/-- The answer to the await of a point. -/
def Replies.answer (r : Replies) : Point → Answer
  | .create _ _ .accountInfo => .account r.accountInfo
  | .create _ _ .blockhash | .void _ .blockhash => .blockhash r.blockhash
  | .create _ _ .submit | .void _ .submit => .sent r.sent
  | _ => .awake

def Replies.error? (r : Replies) : Option String :=
  match r.blockhash, r.sent with
  | .error e, _ => some e
  | .ok _, .error e => some e
  | .ok _, .ok _ => none

/-- Going on through the next `n` awaits. -/
def follow (cfg : AgentConfig) (r : Replies) : ℕ → Agent.World × Flow → Agent.World × Flow
  | n + 1, (w, .waits p) =>
    match resumePoint cfg p (r.answer p) w with
    | some next => follow cfg r n next
    | none => (w, .waits p)
  | _, state => state

/-- An action in which no other task takes a turn. -/
def attempt (cfg : AgentConfig) (r : Replies) (a : AgentAction) (w : Agent.World) :
    Agent.World × Flow :=
  follow cfg r 3 (startAction cfg a w)

def Failed : Flow → Prop
  | .waits _ => False
  | .returned r => r.success = false
  | .thrown _ => True

/-- A void of a tracked market that fails leaves the market tracked. -/
def AgentVoidKeeps (cfg : AgentConfig) (r : Replies) (a : VoidAction) (w : Agent.World) : Prop :=
  ∀ idx market, findOpen a.predicate w.openMarkets = some (idx, market) →
    Failed (attempt cfg r (.voidMarket a) w).2 →
      market.marketPda ∈ (attempt cfg r (.voidMarket a) w).1.tracked

/-- A creation that fails leaves no entry for a market that is not on the chain `s`. -/
def CreateLeavesNothing (cfg : AgentConfig) (r : Replies) (a : CreateAction) (w : Agent.World)
    (s : Chain) : Prop :=
  Failed (attempt cfg r (.createMarket a) w).2 → s.market (cfg.marketPda a.predicate) = none →
    cfg.marketPda a.predicate ∉ (attempt cfg r (.createMarket a) w).1.tracked

section Agent
variable {cfg : AgentConfig} {r : Replies} {w : Agent.World}

/-- An entry is dropped before the calls, whatever they come to. -/
theorem attempt_void {a : VoidAction} {idx : ℕ} {market : OpenMarket} (hdry : cfg.dryRun = false)
    (hfind : findOpen a.predicate w.openMarkets = some (idx, market)) :
    (attempt cfg r (.voidMarket a) w).1.tracked = (w.splice idx).tracked ∧
      (Failed (attempt cfg r (.voidMarket a) w).2 ↔ r.error? ≠ none) := by
  have hstart : startAction cfg (.voidMarket a) w =
      (w.splice idx, .waits (.void market .blockhash)) := by
    rw [startAction, voidMarket, hfind]
    simp [hdry]
  rw [attempt, hstart]
  obtain ⟨found, blockhash, sent⟩ := r
  cases blockhash with
  | error e => exact ⟨rfl, iff_of_true trivial (by simp [Replies.error?])⟩
  | ok u =>
    cases sent with
    | error e => exact ⟨rfl, iff_of_true trivial (by simp [Replies.error?])⟩
    | ok sig => exact ⟨rfl, iff_of_false Bool.noConfusion (by simp [Replies.error?])⟩

/-- A failed void leaves its market only where another entry tracks it. -/
theorem agentVoidKeeps_iff {a : VoidAction} : AgentVoidKeeps cfg r a w ↔
    ∀ idx market, findOpen a.predicate w.openMarkets = some (idx, market) →
      cfg.dryRun = true ∨ r.error? = none ∨ market.marketPda ∈ (w.splice idx).tracked := by
  rw [AgentVoidKeeps]
  refine forall₃_congr fun idx market hfind => ?_
  cases hmode : cfg.dryRun with
  | true =>
    refine iff_of_true (fun hfailed => ?_) (.inl rfl)
    rw [attempt, startAction, voidMarket, hfind] at hfailed
    simp [hmode, follow, Failed, succeeded] at hfailed
  | false =>
    obtain ⟨htracked, hfailed⟩ := attempt_void (r := r) hmode hfind
    rw [htracked, hfailed]
    by_cases herror : r.error? = none
    · simp [herror]
    · simp [herror]

/-- An error that is taken for an account that is there. -/
def TakenForExisting (error : String) : Prop :=
  includes error "already in use" ∨ includes error "0x0"

theorem failed_createFailed {a : CreateAction} {e : String} :
    Failed (createFailed cfg a e) ↔ ¬ TakenForExisting e := by
  rw [createFailed, TakenForExisting]
  split
  · rename_i htaken
    exact iff_of_false Bool.noConfusion (not_not.mpr htaken)
  · rename_i hother
    exact iff_of_true trivial hother

theorem follow_createFailed (a : CreateAction) (e : String) (n : ℕ) :
    follow cfg r n (w, createFailed cfg a e) = (w, createFailed cfg a e) := by
  rw [createFailed]
  split
  · cases n <;> rfl
  · cases n <;> rfl

/-- The entry is made before the calls, and stays whatever they come to. -/
theorem attempt_create {a : CreateAction} (hdry : cfg.dryRun = false)
    (hnew : r.accountInfo ≠ .ok true) :
    cfg.marketPda a.predicate ∈ (attempt cfg r (.createMarket a) w).1.tracked ∧
      (Failed (attempt cfg r (.createMarket a) w).2 ↔
        ∃ e ∈ r.error?, ¬ TakenForExisting e) := by
  have hstart : startAction cfg (.createMarket a) w =
      (w, .waits (.create a (w.now / 1000 + a.closesInSeconds) .accountInfo)) := by
    rw [startAction, createMarket]
    simp [hdry]
  have hpushed : follow cfg r 3 (w, .waits (.create a (w.now / 1000 + a.closesInSeconds)
      .accountInfo)) = follow cfg r 2 (w.push (opened cfg w a),
        .waits (.create a (w.now / 1000 + a.closesInSeconds) .blockhash)) := by
    obtain ⟨found, blockhash, sent⟩ := r
    cases found with
    | error e => rfl
    | ok found =>
      cases found with
      | false => rfl
      | true => exact absurd rfl hnew
  rw [attempt, hstart, hpushed]
  obtain ⟨found, blockhash, sent⟩ := r
  have hentry : cfg.marketPda a.predicate ∈ (w.push (opened cfg w a)).tracked :=
    mem_tracked_opened w
  cases blockhash with
  | error e =>
    have hend : follow cfg ⟨found, .error e, sent⟩ 2 (w.push (opened cfg w a),
        .waits (.create a (w.now / 1000 + a.closesInSeconds) .blockhash)) =
          (w.push (opened cfg w a), createFailed cfg a e) := follow_createFailed a e 1
    rw [hend]
    exact ⟨hentry, failed_createFailed.trans (by simp [Replies.error?])⟩
  | ok u =>
    cases sent with
    | error e =>
      have hend : follow cfg ⟨found, .ok u, .error e⟩ 2 (w.push (opened cfg w a),
          .waits (.create a (w.now / 1000 + a.closesInSeconds) .blockhash)) =
            ((w.push (opened cfg w a)).submit (.createMarket (cfg.marketPda a.predicate) a.predicate
              (w.now / 1000 + a.closesInSeconds)), createFailed cfg a e) :=
        follow_createFailed (r := ⟨found, .ok u, .error e⟩) a e 0
      rw [hend]
      exact ⟨hentry, failed_createFailed.trans (by simp [Replies.error?])⟩
    | ok sig => exact ⟨hentry, iff_of_false Bool.noConfusion (by simp [Replies.error?])⟩

/-- A failed creation leaves an entry, for a market that is on the chain or not. -/
theorem createLeavesNothing_iff {a : CreateAction} {s : Chain} :
    CreateLeavesNothing cfg r a w s ↔ cfg.dryRun = true ∨ r.accountInfo = .ok true ∨
      (∀ e ∈ r.error?, TakenForExisting e) ∨ s.market (cfg.marketPda a.predicate) ≠ none := by
  rw [CreateLeavesNothing]
  cases hmode : cfg.dryRun with
  | true =>
    refine iff_of_true (fun hfailed => ?_) (.inl rfl)
    rw [attempt, startAction, createMarket, if_pos hmode] at hfailed
    cases hfailed
  | false =>
    by_cases hfound : r.accountInfo = .ok true
    · refine iff_of_true (fun hfailed => ?_) (.inr (.inl hfound))
      obtain ⟨found, blockhash, sent⟩ := r
      cases hfound
      rw [attempt, startAction, createMarket, if_neg (by simp [hmode])] at hfailed
      cases hfailed
    · obtain ⟨hentry, hfailed⟩ := attempt_create (r := r) (w := w) (a := a) hmode hfound
      rw [hfailed, iff_false_intro (not_not.mpr hentry)]
      simp only [Bool.false_eq_true, false_or, hfound]
      constructor
      · intro h
        by_contra hnot
        push Not at hnot
        obtain ⟨⟨e, he, hother⟩, hnone⟩ := hnot
        exact h ⟨e, he, hother⟩ hnone
      · rintro (hall | hmarket) ⟨e, he, hother⟩ hnone
        · exact hother (hall e he)
        · exact hmarket hnone

end Agent

/-! ## Together -/

/-- **Failed actions and tracking**: the voids keep their markets, and a creation leaves nothing
behind, exactly when no call fails, up to second entries and markets that are there after all. -/
theorem failed_actions_iff {cfg : PriceConfig} {calls weekCalls : Calls} {m n : TrackedPriceMarket}
    {tracked : OrderedMap Pubkey TrackedPriceMarket} {onChain : Except SdkError Escrow.Market}
    {week : WeekState} {acfg : AgentConfig} {r q : Replies} {v : VoidAction} {c : CreateAction}
    {w u : Agent.World} {s : Chain} :
    (PriceVoidKeeps cfg calls m tracked ∧ StaleVoidKeeps cfg.dryRun weekCalls onChain n week ∧
      AgentVoidKeeps acfg r v w ∧ CreateLeavesNothing acfg q c u s) ↔
    (cfg.dryRun = true ∨ calls.Succeed) ∧ (cfg.dryRun = true ∨ weekCalls.Succeed) ∧
      (∀ idx market, findOpen v.predicate w.openMarkets = some (idx, market) →
        acfg.dryRun = true ∨ r.error? = none ∨ market.marketPda ∈ (w.splice idx).tracked) ∧
      (acfg.dryRun = true ∨ q.accountInfo = .ok true ∨ (∀ e ∈ q.error?, TakenForExisting e) ∨
        s.market (acfg.marketPda c.predicate) ≠ none) :=
  and_congr priceVoidKeeps_iff <| and_congr staleVoidKeeps_iff <|
    and_congr agentVoidKeeps_iff createLeavesNothing_iff

namespace Sample

/-- The blockhash cannot be fetched. -/
def offline : Calls := ⟨.error (.error "timeout"), .ok "", .ok (), .ok none⟩

def unanswered : Replies := ⟨.ok false, .error "timeout", .ok ""⟩

def goals : CreateAction := createTotalGoalsMarket Agent.Sample.pac 3 .goals

def goalsEntry : OpenMarket := opened Agent.Sample.config (Agent.boot 0).shared goals

/-- The agent tracks the goals of one match. -/
def watching : Agent.World := (Agent.boot 0).shared.push goalsEntry

def goalsVoid : VoidAction := ⟨goals.predicate, goals.label⟩

end Sample

/-- A blockhash that cannot be fetched is enough to lose a market, or to leave one that is not
there. -/
theorem lost_on_failure :
    (¬ ∀ (cfg : PriceConfig) (calls : Calls) (m : TrackedPriceMarket)
      (tracked : OrderedMap Pubkey TrackedPriceMarket), PriceVoidKeeps cfg calls m tracked) ∧
    (¬ ∀ (dryRun : Bool) (calls : Calls) (onChain : Except SdkError Escrow.Market)
      (m : TrackedPriceMarket) (w : WeekState), StaleVoidKeeps dryRun calls onChain m w) ∧
    (¬ ∀ (cfg : AgentConfig) (r : Replies) (a : VoidAction) (w : Agent.World),
      AgentVoidKeeps cfg r a w) ∧
    ¬ ∀ (cfg : AgentConfig) (r : Replies) (a : CreateAction) (w : Agent.World) (s : Chain),
      CreateLeavesNothing cfg r a w s := by
  have hoffline : ¬ Sample.offline.Succeed := fun h => by cases h.blockhash
  refine ⟨fun hall => ?_, fun hall => ?_, fun hall => ?_, fun hall => ?_⟩
  · rcases priceVoidKeeps_iff.mp (hall Sample.config Sample.offline Sample.market
      (OrderedMap.empty.set Sample.above66 Sample.market)) with hdry | hcalls
    · cases hdry
    · exact hoffline hcalls
  · rcases staleVoidKeeps_iff.mp (hall false Sample.offline (.error (.error "")) Sample.market
      ⟨none, OrderedMap.empty.set Sample.above66 Sample.market⟩) with hdry | hcalls
    · cases hdry
    · exact hoffline hcalls
  · have hkept := agentVoidKeeps_iff.mp (hall Agent.Sample.config Sample.unanswered Sample.goalsVoid
      Sample.watching) 0 Sample.goalsEntry (by decide +kernel)
    revert hkept
    decide +kernel
  · rcases createLeavesNothing_iff.mp (hall Agent.Sample.config Sample.unanswered Sample.goals
      (Agent.boot 0).shared Stoppage.Sample.genesis) with hdry | hfound | htaken | hmarket
    · cases hdry
    · cases hfound
    · have htimeout := htaken "timeout" rfl
      rw [TakenForExisting] at htimeout
      revert htimeout
      decide +kernel
    · exact hmarket rfl

end Stoppage.Keeper
