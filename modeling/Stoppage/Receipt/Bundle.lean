import Stoppage.Instance.Lifecycle

/-! # The keeper's bundle

A keeper submits the signatures that the validator looks for, `resolve_market` and
`settle_from_proof` in one transaction. `Bundle.settles_iff` says which bundles are accepted: the
proof must hold, the market must be unsettled and bound to the validator, and the market must have
no receipt yet. The last condition is in nobody's proof, and anyone can break it for good:
`settleable_iff` says what is left of an open market then.
-/

namespace Stoppage
open Fallible TransitionSystem MarketProgram SettlementProgram
set_option autoImplicit false

structure Bundle where
  keeper : Pubkey
  market : Pubkey
  outcome : UInt8
  validator : Pubkey
  data : Bytes
  accounts : List Address
  statement : String
  merkleRoot : List.Vector UInt8 32
  signatures : List Bytes

namespace Bundle

def resolve (b : Bundle) : Instruction :=
  .resolveMarket b.keeper (.market b.market) b.statement b.merkleRoot b.outcome b.data
    (.external b.validator :: b.accounts)

def settle (b : Bundle) : Instruction :=
  .settleFromProof b.keeper b.market (.resolution b.market) b.outcome

def instructions (b : Bundle) : List Instruction :=
  b.signatures.map .ed25519 ++ [b.resolve, b.settle]

def context (b : Bundle) : TxContext := ⟨b.instructions, b.signatures.length⟩

/-- The signatures verify, and once the keeper has paid the rent of the receipt the validator
gives the verdict. -/
structure Proves (rt : Runtime) (b : Bundle) (s : Chain) : Prop where
  signed : ∀ d ∈ b.signatures, rt.ed25519Precompile b.context d = .ok ()
  answered : ∃ u, s.systemTransfer b.keeper (.resolution b.market)
    (s.rentDue rt (.resolution b.market) Resolution.space) = .ok u ∧
    Verdict rt b.context u b.validator b.data b.accounts b.outcome

def Settles (rt : Runtime) (b : Bundle) (s : Chain) : Prop :=
  ∃ t mk, execTx rt b.instructions s = .ok t ∧ t.market b.market = some mk ∧
    mk.status = statusSettled ∧ mk.outcome = b.outcome

end Bundle

/-! ## Acceptance -/

/-- `resolve_market` and then `settle_from_proof` are accepted exactly when the resolver pays the
rent of the receipt, the validator agrees, there is no receipt yet, and the market is unsettled and
bound to the validator. -/
theorem resolve_settle_iff {rt : Runtime} {ctx : TxContext} {resolver m validator : Pubkey}
    (statement : String) (root : List.Vector UInt8 32) {outcome : UInt8} {data : Bytes}
    {accounts : List Address} {s : Chain} :
    (∃ u t, resolveMarket rt ctx resolver (.market m) statement root outcome data
        (.external validator :: accounts) s = .ok u ∧
      settleFromProof m (.resolution m) outcome u = .ok t) ↔
    (∃ u, s.systemTransfer resolver (.resolution m)
        (s.rentDue rt (.resolution m) Resolution.space) = .ok u ∧
      Verdict rt ctx u validator data accounts outcome) ∧ s.resolution m = none ∧
      (outcome = sideYes ∨ outcome = sideNo) ∧
      ∃ mk, s.market m = some mk ∧ mk.oracle = validator ∧
        (mk.status = statusOpen ∨ mk.status = statusAwaiting) := by
  constructor
  · rintro ⟨u, t, hresolve, hsettle⟩
    obtain ⟨l, v, accounts, e, hnone, -, -, hrem, hpaid, hverdict, rfl⟩ := resolveMarket_ok hresolve
    cases hrem
    obtain ⟨mk, r, e', hmk, hstatus, hout, -, hr, -, -, hvalidator, -⟩ :=
      settleFromProof_receipt hsettle
    cases (Function.update_self ..).symm.trans hr
    exact ⟨⟨_, hpaid, hverdict⟩, hnone, hout, mk, hmk, hvalidator.symm, hstatus⟩
  · rintro ⟨⟨u, hpaid, hverdict⟩, hnone, hout, mk, hmk, horacle, hstatus⟩
    have hle : outcome ≤ 1 := by
      rcases hout with ho | ho <;> rw [ho] <;> decide
    obtain ⟨v, hresolve, hv, hr⟩ := resolveMarket_of statement root hnone hle hmk hpaid hverdict
    obtain ⟨t, hsettle, -⟩ := settleFromProof_of hv hstatus hout hr rfl rfl horacle.symm
    exact ⟨v, t, hresolve, hsettle⟩

theorem execFrom_ed25519 {rt : Runtime} {ixs rest : List Instruction} {s t : Chain} (i : ℕ)
    (ds : List Bytes) (n : ℕ) :
    execFrom rt ixs (ds.map .ed25519 ++ rest) n s = .ok t ↔
      (∀ d ∈ ds, rt.ed25519Precompile ⟨ixs, i⟩ d = .ok ()) ∧
        execFrom rt ixs rest (n + ds.length) s = .ok t := by
  induction ds generalizing n with
  | nil => simp only [List.map_nil, List.nil_append, List.not_mem_nil, false_imp_iff,
      implies_true, List.length_nil, Nat.add_zero, true_and]
  | cons d ds ih =>
    have hn : n + (d :: ds).length = n + 1 + ds.length := by
      rw [List.length_cons]
      omega
    simp only [List.map_cons, List.cons_append, execFrom, exec, bind_eq_ok, pure_eq_ok,
      List.forall_mem_cons, hn]
    constructor
    · rintro ⟨u, ⟨⟨⟩, hd, rfl⟩, hrest⟩
      obtain ⟨hds, hlast⟩ := (ih (n + 1)).mp hrest
      exact ⟨⟨hd, hds⟩, hlast⟩
    · rintro ⟨⟨hd, hds⟩, hlast⟩
      exact ⟨s, ⟨(), hd, rfl⟩, (ih (n + 1)).mpr ⟨hds, hlast⟩⟩

namespace Bundle
variable {rt : Runtime} {b : Bundle} {s t : Chain}

theorem exec_iff : execTx rt b.instructions s = .ok t ↔
    (∀ d ∈ b.signatures, rt.ed25519Precompile b.context d = .ok ()) ∧
      ∃ u, exec rt b.context b.resolve s = .ok u ∧
        settleFromProof b.market (.resolution b.market) b.outcome u = .ok t := by
  show execFrom rt b.instructions (b.signatures.map .ed25519 ++ [b.resolve, b.settle]) 0 s = _ ↔ _
  rw [execFrom_ed25519 b.signatures.length b.signatures 0, Nat.zero_add]
  refine and_congr_right fun _ => ?_
  simp only [execFrom, bind_eq_ok]
  constructor
  · rintro ⟨u, hresolve, v, hsettle, ht⟩
    cases ht
    exact ⟨u, hresolve, hsettle⟩
  · rintro ⟨u, hresolve, hsettle⟩
    exact ⟨u, hresolve, t, hsettle, rfl⟩

/-- **Acceptance.** A bundle settles its market exactly when its proof holds, the market is
unsettled and bound to the validator, and there is no receipt yet. -/
theorem settles_iff : b.Settles rt s ↔
    b.Proves rt s ∧ s.resolution b.market = none ∧
      (b.outcome = sideYes ∨ b.outcome = sideNo) ∧
      ∃ mk, s.market b.market = some mk ∧ mk.oracle = b.validator ∧
        (mk.status = statusOpen ∨ mk.status = statusAwaiting) := by
  constructor
  · rintro ⟨t, -, ht, -⟩
    obtain ⟨hsigned, u, hresolve, hsettle⟩ := exec_iff.mp ht
    obtain ⟨⟨v, hpaid, hverdict⟩, hrest⟩ :=
      (resolve_settle_iff b.statement b.merkleRoot).mp ⟨u, t, hresolve, hsettle⟩
    exact ⟨⟨hsigned, v, hpaid, hverdict⟩, hrest⟩
  · rintro ⟨⟨hsigned, hpaid⟩, hrest⟩
    obtain ⟨u, t, hresolve, hsettle⟩ :=
      (resolve_settle_iff b.statement b.merkleRoot).mpr ⟨hpaid, hrest⟩
    obtain ⟨mk, hmk, hset, hout⟩ := settleFromProof_settles hsettle
    exact ⟨t, mk, exec_iff.mpr ⟨hsigned, u, hresolve, hsettle⟩, hmk, hset, hout⟩

end Bundle

/-! ## Markets that can still be settled -/

/-- A run without the override, within the lifetime of the market, settles it with the outcome. -/
def Settleable (rt : Runtime) (m : Pubkey) (outcome : UInt8) (s : Chain) : Prop :=
  ∃ as t mk, Steps (Step rt) s as t ∧
    (∀ a ∈ as, a.opOn rt m ≠ .forceSettle ∧ a.opOn rt m ≠ .close) ∧
    t.market m = some mk ∧ mk.status = statusSettled ∧ mk.outcome = outcome

theorem Bundle.opOn_of_mem {b : Bundle} {ix : Instruction} (h : ix ∈ b.instructions)
    (rt : Runtime) (m : Pubkey) (ctx : TxContext) :
    (Action.call ctx ix).opOn rt m ≠ .forceSettle ∧ (Action.call ctx ix).opOn rt m ≠ .close := by
  have hop : (Action.call ctx ix).opOn rt m = .idle ∨ (Action.call ctx ix).opOn rt m = ix.op := by
    by_cases htarget : ix.target rt = some m
    · exact .inr (opOn_of_target htarget)
    · exact .inl (opOn_of_not_target htarget)
  have hix : ix.op = .idle ∨ ix.op = .settleFromProof := by
    rcases List.mem_append.mp h with hsig | hlast
    · obtain ⟨d, -, rfl⟩ := List.mem_map.mp hsig
      exact .inl rfl
    · rcases List.mem_pair.mp hlast with rfl | rfl
      · exact .inl rfl
      · exact .inr rfl
  rcases hop with hop | hop <;> rcases hix with hix | hix <;> simp [hop, hix]

theorem Bundle.Settles.settleable {rt : Runtime} {b : Bundle} {s : Chain} (h : b.Settles rt s) :
    Settleable rt b.market b.outcome s := by
  obtain ⟨t, mk, ht, hmk, hset, hout⟩ := h
  refine ⟨_, t, mk, execTx_steps ht, ?_, hmk, hset, hout⟩
  intro a ha
  obtain ⟨i, ix, hix, rfl⟩ := exists_of_mem_callsFrom _ _ ha
  exact opOn_of_mem hix rt b.market _

theorem Settleable.receipt {rt : Runtime} {m : Pubkey} {outcome : UInt8} {s : Chain} {mk : Market}
    {r : Resolution} (h : Settleable rt m outcome s) (hmk : s.market m = some mk)
    (hopen : mk.status = statusOpen) (hr : s.resolution m = some r) :
    r.outcome = outcome ∧ r.validatorProgram = mk.oracle := by
  obtain ⟨as, t, mk₁, hrun, hop, hmk₁, hset, hout⟩ := h
  have hgated : Gated m s := by
    intro mk₂ h2 hset₂
    cases market_inj hmk h2
    rw [hopen] at hset₂
    exact absurd hset₂ (by decide)
  obtain ⟨r', hr', ho, hv⟩ :=
    gated_of_run hrun (fun a ha => (hop a ha).1) hgated mk₁ hmk₁ hset
  obtain ⟨mk₂, h2, hterms⟩ := terms_of_run hrun hmk fun a ha => (hop a ha).2
  cases market_inj hmk₁ h2
  cases (receipt_kept hrun hr).symm.trans hr'
  exact ⟨ho.trans hout, hv.trans hterms.oracle⟩

theorem Reachable.receipt_market {rt : Runtime} {s : Chain} {m : Pubkey} {r : Resolution}
    (h : Reachable rt s) (hr : s.resolution m = some r) : r.market = m := by
  obtain ⟨g, as, hg, hrun⟩ := h
  exact (receipt_provenance hrun (hg.resolution m) hr).market

theorem settleable_of_receipt {rt : Runtime} {m : Pubkey} {s : Chain} {mk : Market}
    {r : Resolution} (hs : Reachable rt s) (hmk : s.market m = some mk)
    (hopen : mk.status = statusOpen) (hout : r.outcome = sideYes ∨ r.outcome = sideNo)
    (hr : s.resolution m = some r) (hvalidator : r.validatorProgram = mk.oracle) :
    Settleable rt m r.outcome s := by
  obtain ⟨t, hsettle, ht⟩ := settleFromProof_of hmk (.inl hopen) hout hr (hs.receipt_market hr) rfl
    hvalidator
  let ix := Instruction.settleFromProof r.resolver m (.resolution m) r.outcome
  have hstep : Step rt s (.call ⟨[ix], 0⟩ ix) t := hsettle
  refine ⟨_, t, _, .single hstep, ?_, ht, rfl, rfl⟩
  have hop : (Action.call ⟨[ix], 0⟩ ix).opOn rt m = .settleFromProof := opOn_of_target rfl
  simp [hop]

/-- **What griefing leaves.** An honest bundle for an open market is accepted exactly when the
market has no receipt, and the market can be settled with its outcome exactly when a receipt, if
there is one, already says so. -/
theorem settleable_iff {rt : Runtime} {b : Bundle} {s : Chain} {mk : Market}
    (hs : Reachable rt s) (hmk : s.market b.market = some mk) (hopen : mk.status = statusOpen)
    (horacle : mk.oracle = b.validator) (hout : b.outcome = sideYes ∨ b.outcome = sideNo)
    (hproves : b.Proves rt s) :
    (b.Settles rt s ↔ s.resolution b.market = none) ∧
    (Settleable rt b.market b.outcome s ↔ ∀ r, s.resolution b.market = some r →
      r.outcome = b.outcome ∧ r.validatorProgram = mk.oracle) := by
  have hsettles : b.Settles rt s ↔ s.resolution b.market = none := by
    rw [Bundle.settles_iff]
    exact ⟨fun h => h.2.1, fun hnone => ⟨hproves, hnone, hout, mk, hmk, horacle, .inl hopen⟩⟩
  refine ⟨hsettles, fun h r hr => h.receipt hmk hopen hr, ?_⟩
  intro hmatch
  cases hr : s.resolution b.market with
  | none => exact (hsettles.mpr hr).settleable
  | some r =>
    obtain ⟨ho, hv⟩ := hmatch r hr
    rw [← ho] at hout ⊢
    exact settleable_of_receipt hs hmk hopen hout hr hv

namespace Sample

def judge : Pubkey :=
  ⟨[135, 176, 106, 150, 199, 145, 199, 164, 26, 95, 183, 254, 157, 60, 151, 156,
    226, 222, 191, 215, 234, 21, 212, 4, 4, 83, 42, 79, 186, 187, 219, 16], rfl⟩

/-- The program that returns its input, and the one that always answers YES. -/
def twoPrograms : Runtime :=
  { runtime with program := fun k data accounts ctx s =>
      if k = judge then .ok (some (judge, [1])) else runtime.program k data accounts ctx s }

def bundle (validator : Pubkey) : Bundle where
  keeper := carol
  market := market
  outcome := sideYes
  validator := validator
  data := [1]
  accounts := []
  statement := ""
  merkleRoot := List.Vector.replicate 32 0
  signatures := []

/-- The market is open, bound to the oracle, has the given receipt, and carol can pay for one. -/
def Awaits (oracle : Pubkey) (receipt : Option (UInt8 × Pubkey)) (s : Chain) : Prop :=
  (s.market market).map (fun mk => (mk.status, mk.oracle)) = some (statusOpen, oracle) ∧
  (s.resolution market).map (fun r => (r.outcome, r.validatorProgram)) = receipt ∧
  (s.systemTransfer carol (.resolution market)
    (s.rentDue runtime (.resolution market) Resolution.space)).isOk = true

instance (oracle : Pubkey) (receipt : Option (UInt8 × Pubkey)) :
    DecidablePred (Awaits oracle receipt) := fun _ => inferInstanceAs (Decidable (_ ∧ _ ∧ _))

theorem Awaits.market {oracle : Pubkey} {receipt : Option (UInt8 × Pubkey)} {s : Chain}
    (h : Awaits oracle receipt s) : ∃ mk, s.market Sample.market = some mk ∧
      mk.status = statusOpen ∧ mk.oracle = oracle := by
  obtain ⟨mk, hmk, hpair⟩ := Option.map_eq_some_iff.mp h.1
  exact ⟨mk, hmk, (Prod.mk.inj hpair).1, (Prod.mk.inj hpair).2⟩

theorem Awaits.paid {oracle : Pubkey} {receipt : Option (UInt8 × Pubkey)} {s : Chain}
    (h : Awaits oracle receipt s) : ∃ u, s.systemTransfer carol (.resolution Sample.market)
      (s.rentDue runtime (.resolution Sample.market) Resolution.space) = .ok u := by
  have hpaid := h.2.2
  cases hu : s.systemTransfer carol (.resolution Sample.market)
      (s.rentDue runtime (.resolution Sample.market) Resolution.space) with
  | error e =>
    rw [hu] at hpaid
    cases hpaid
  | ok u => exact ⟨u, rfl⟩

theorem Awaits.proves {oracle : Pubkey} {receipt : Option (UInt8 × Pubkey)} {s : Chain}
    (h : Awaits oracle receipt s)
    (program : Pubkey → Bytes → List Address → TxContext → Chain →
      Except ProgramError (Option ReturnData))
    (hanswer : ∀ u, invoke { runtime with program } (bundle oracle).context u oracle [1] [] =
      .ok (some (oracle, [1]))) : (bundle oracle).Proves { runtime with program } s := by
  have hyes : (1 : UInt8) ≠ 0 ↔ sideYes = 0 := by decide
  obtain ⟨u, hu⟩ := h.paid
  exact ⟨List.forall_mem_nil _, u, hu, ⟨1, [], hanswer u, hyes⟩⟩

end Sample

theorem settleable_iff_sample :
    ∃ s, Reachable Sample.runtime s ∧ (Sample.bundle Sample.echo).Settles Sample.runtime s := by
  have hrun : Action.runsTo Sample.runtime [Sample.setUp, Sample.create 1700001000 Sample.echo]
      Sample.genesis (Sample.Awaits Sample.echo none) = true := by decide +kernel
  obtain ⟨s, hsteps, hawaits⟩ := steps_of_runsTo hrun
  obtain ⟨mk, hmk, hopen, horacle⟩ := hawaits.market
  have hreach : Reachable Sample.runtime s := ⟨_, _, Sample.genesis_ok, hsteps⟩
  have hproves := hawaits.proves Sample.runtime.program fun _ => rfl
  have hiff := settleable_iff (b := Sample.bundle Sample.echo) hreach hmk hopen horacle (.inl rfl)
    hproves
  exact ⟨s, hreach, hiff.1.mpr (Option.map_eq_none_iff.mp hawaits.2.1)⟩

/-- The oracle of the market answers YES and a keeper has the proof, but somebody has resolved the
market to NO through a program that returns its input: the market is never settled. -/
theorem griefed_market :
    ∃ s mk, Reachable Sample.twoPrograms s ∧ s.market Sample.market = some mk ∧
      mk.status = statusOpen ∧ mk.oracle = Sample.judge ∧
      (Sample.bundle Sample.judge).Proves Sample.twoPrograms s ∧
      ¬ (Sample.bundle Sample.judge).Settles Sample.twoPrograms s ∧
      ¬ Settleable Sample.twoPrograms Sample.market sideYes s := by
  have hrun : Action.runsTo Sample.twoPrograms
      [Sample.setUp, Sample.create 1700001000 Sample.judge, Sample.resolve 1 [0]] Sample.genesis
      (Sample.Awaits Sample.judge (some (sideNo, Sample.echo))) = true := by decide +kernel
  obtain ⟨s, hsteps, hawaits⟩ := steps_of_runsTo hrun
  obtain ⟨mk, hmk, hopen, horacle⟩ := hawaits.market
  obtain ⟨r, hr, hpair⟩ := Option.map_eq_some_iff.mp hawaits.2.1
  have hunsettleable : ¬ Settleable Sample.twoPrograms Sample.market sideYes s := by
    intro h
    have hout := (h.receipt hmk hopen hr).1
    rw [(Prod.mk.inj hpair).1] at hout
    exact absurd hout (by decide)
  exact ⟨s, mk, ⟨_, _, Sample.genesis_ok, hsteps⟩, hmk, hopen, horacle,
    hawaits.proves Sample.twoPrograms.program fun _ => rfl, fun h => hunsettleable h.settleable,
    hunsettleable⟩

end Stoppage
