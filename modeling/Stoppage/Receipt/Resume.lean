import Stoppage.Agent.SettlePacking
import Stoppage.Receipt.Bundle

/-! # Settling from a receipt that is there

The receipt of a market is made once, so a transaction that resolves the market again is refused.
`settles_iff_split` says which attempts of the keepers go through when an earlier attempt, or
somebody else, has left an open market with a matching receipt.
-/

namespace Stoppage
open Fallible TransitionSystem MarketProgram SettlementProgram Sdk Agent
set_option autoImplicit false

/-! ## Attempts -/

/-- The programs accept a transaction. -/
def Accepts (rt : Runtime) (s : Chain) (tx : List TransactionInstruction) (t : Chain) : Prop :=
  ∃ ixs, tx.mapM (TransactionInstruction.load rt) = some ixs ∧ execTx rt ixs s = .ok t

/-- An attempt of a keeper, with all it has found out when it makes its transactions. -/
inductive Attempt where
  | sports (packets : Packets) (alt : SettleAlt) (txline : TxlineProgram) (proof : StatValidation)
      (args : SettleProofArgs) (wallet : Pubkey)
  | price (wallet marketPda : Pubkey) (statement : String) (yes : Bool) (proof : PythProof)
  | attestation (cfg : AttestationKeeperConfig) (marketPda : Pubkey) (statement : String)
      (yes : Bool) (observation : AttestationObservation) (claim : AttestationClaim)
      (message : Bytes)

namespace Attempt

def market : Attempt → Pubkey
  | .sports _ _ _ _ args _ => args.marketPda
  | .price _ marketPda .. | .attestation _ marketPda .. => marketPda

/-- `outcome === 0`, or `"yes"` -/
def yes : Attempt → Bool
  | .sports _ _ _ _ args _ => decide (args.outcome = .yes)
  | .price _ _ _ yes _ | .attestation _ _ _ yes .. => yes

def outcome (a : Attempt) : UInt8 := if a.yes then sideYes else sideNo

/-- The transactions of the attempt, given whether the receipt of the market is there. -/
def txs (js : Packages) (alreadyResolved : Bool) :
    Attempt → Except SdkError (List (List TransactionInstruction))
  | .sports packets alt txline proof args wallet =>
    settleMarketTxs packets alt txline proof args wallet alreadyResolved
  | .price wallet marketPda statement yes proof =>
    settlePriceMarketTxs js wallet marketPda statement (if yes then 0 else 1) proof
  | .attestation cfg marketPda statement yes observation claim message =>
    attestationKeeperTxs js cfg marketPda statement (if yes then 0 else 1) observation claim message

/-- All transactions of the attempt are accepted, and then the market is settled. -/
def Settles (rt : Runtime) (js : Packages) (s : Chain) (a : Attempt) : Prop :=
  ∃ txs t mk, a.txs js (s.resolution a.market).isSome = .ok txs ∧ Steps (Accepts rt) s txs t ∧
    t.market a.market = some mk ∧ mk.status = statusSettled

/-- The instructions do not go into one transaction, and their two halves do. -/
structure Split (packets : Packets) (alt : SettleAlt) (ixs : SettleIxs) : Prop where
  whole : packets.legacy ixs.all = false
  halves : (∀ part ∈ ixs.parts, packets.legacy part = true) ∨
    alt = .ready ∧ packets.v0 ixs.all = false ∧
      ∀ part ∈ ixs.parts, packets.v0 part = true ∨ packets.legacy part = true

/-- The sports keeper has built its instructions, and they are split. -/
def Splits : Attempt → Prop
  | .sports packets alt txline proof args wallet =>
    ∃ ixs, buildSettleFromProofIxs txline proof args wallet = .ok ixs ∧ Split packets alt ixs
  | _ => False

end Attempt

/-! ## Transactions that resolve again -/

def Instruction.resolved : Instruction → Option Pubkey
  | .resolveMarket _ (.market m) .. => some m
  | _ => none

/-- Instructions of a bundle that leave the chain as it is. -/
def Instruction.isAside : Instruction → Bool
  | .setComputeUnitLimit _ | .ed25519 _ => true
  | _ => false

theorem Instruction.resolve_refused {rt : Runtime} {ctx : TxContext} {ix : Instruction} {m : Pubkey}
    {s t : Chain} {r : Resolution} (hix : ix.resolved = some m) (hr : s.resolution m = some r) :
    exec rt ctx ix s ≠ .ok t := by
  intro h
  cases ix with
  | resolveMarket resolver a statement root outcome data remaining =>
    cases a with
    | market m' =>
      cases hix
      obtain ⟨-, -, -, -, hnone, -⟩ := resolveMarket_ok h
      rw [hr] at hnone
      cases hnone
    | _ => cases hix
  | _ => cases hix

theorem Instruction.exec_aside {rt : Runtime} {ctx : TxContext} {ix : Instruction} {s t : Chain}
    (hix : ix.isAside = true) (h : exec rt ctx ix s = .ok t) : t = s := by
  cases ix with
  | setComputeUnitLimit units =>
    cases h
    rfl
  | ed25519 d =>
    obtain ⟨-, -, ht⟩ := bind_eq_ok.mp h
    cases ht
    rfl
  | _ => cases hix

theorem execFrom_refused {rt : Runtime} {ixs pre rest : List Instruction} {ix : Instruction}
    {m : Pubkey} {s t : Chain} {r : Resolution} (hpre : ∀ i ∈ pre, i.isAside = true)
    (hix : ix.resolved = some m) (hr : s.resolution m = some r) (n : ℕ) :
    execFrom rt ixs (pre ++ ix :: rest) n s ≠ .ok t := by
  induction pre generalizing n with
  | nil =>
    intro h
    obtain ⟨u, hresolve, -⟩ := bind_eq_ok.mp h
    exact ix.resolve_refused hix hr hresolve
  | cons i pre ih =>
    intro h
    obtain ⟨u, hi, hrest⟩ := bind_eq_ok.mp h
    cases i.exec_aside (hpre i List.mem_cons_self) hi
    exact ih (fun j hj => hpre j (List.mem_cons_of_mem _ hj)) (n + 1) hrest

/-! ## What the transactions are -/

section Built
variable {packets : Packets} {alt : SettleAlt} {ixs : SettleIxs}

theorem buildSettleTransactions_cases {built : SettleTransactions}
    (h : buildSettleTransactions packets alt ixs = .ok built) :
    built = ⟨[ixs.all], false⟩ ∨ built = ⟨ixs.parts, true⟩ ∧ Attempt.Split packets alt ixs := by
  rw [buildSettleTransactions_eq_ok] at h
  split at h
  · exact .inl h
  · rename_i hwhole
    have hwhole' : packets.legacy ixs.all = false := Bool.not_eq_true _ ▸ hwhole
    split at h
    · rename_i hhalves
      exact .inr ⟨h, hwhole', .inl (List.all_eq_true.mp hhalves)⟩
    · obtain ⟨hready, h⟩ := h
      split at h
      · exact .inl h
      · rename_i hv0
        exact .inr ⟨h.2, hwhole', .inr ⟨hready, Bool.not_eq_true _ ▸ hv0, h.1⟩⟩

theorem buildSettleTransactions_of_split (h : Attempt.Split packets alt ixs) :
    buildSettleTransactions packets alt ixs = .ok ⟨ixs.parts, true⟩ := by
  rw [buildSettleTransactions_eq_ok, h.whole, if_neg Bool.false_ne_true]
  by_cases hlegacy : ixs.parts.all packets.legacy = true
  · rw [if_pos hlegacy]
  · rw [if_neg hlegacy]
    rcases h.halves with hall | ⟨rfl, hv0, hparts⟩
    · exact absurd (List.all_eq_true.mpr hall) hlegacy
    · rw [hv0, if_neg Bool.false_ne_true]
      exact ⟨rfl, hparts, rfl⟩

/-- The transaction is one that resolves the market. -/
structure Bundled (tx : List TransactionInstruction) (m : Pubkey) : Prop where
  loads : ∃ pre ix rest, (∀ rt, tx.mapM (TransactionInstruction.load rt) =
    some (pre ++ ix :: rest)) ∧ (∀ i ∈ pre, i.isAside = true) ∧ ix.resolved = some m

theorem Bundled.refused {rt : Runtime} {tx : List TransactionInstruction} {m : Pubkey}
    {s t : Chain} {r : Resolution} (h : Bundled tx m) (hr : s.resolution m = some r) :
    ¬ Accepts rt s tx t := by
  rintro ⟨ixs, hload, hexec⟩
  obtain ⟨pre, ix, rest, hbundle, hpre, hix⟩ := h.loads
  cases hload.symm.trans (hbundle rt)
  exact execFrom_refused hpre hix hr 0 hexec

theorem buildSettleFromProofIxs_ok {txline : TxlineProgram} {proof : StatValidation}
    {args : SettleProofArgs} {wallet : Pubkey}
    (h : buildSettleFromProofIxs txline proof args wallet = .ok ixs) :
    Bundled ixs.all args.marketPda ∧
      ixs.settleIx = buildSettleFromProofIx wallet args.marketPda args.outcome.toSdk := by
  simp only [buildSettleFromProofIxs, bind_eq_ok, pure_eq_ok] at h
  obtain ⟨day, -, data, -, resolveIx, hresolve, rfl⟩ := h
  obtain ⟨resolve, hload, hresolved⟩ : ∃ resolve, (∀ rt, resolveIx.load rt = some resolve) ∧
      resolve.resolved = some args.marketPda := ⟨_, (buildResolveMarketIx_load hresolve).2, rfl⟩
  refine ⟨⟨[.setComputeUnitLimit 1400000], resolve,
    [.settleFromProof wallet args.marketPda (.resolution args.marketPda)
      (if args.outcome.toSdk = .yes then sideYes else sideNo)], fun rt => ?_, by decide,
        hresolved⟩, rfl⟩
  simp only [SettleIxs.all, List.mapM_cons, List.mapM_nil, load_setComputeUnitLimit, hload,
    load_buildSettleFromProofIx]
  rfl

/-- An oracle whose anchored root has 32 bytes. -/
def Rooted {Proof : Type} (oracle : SettlementOracle Proof) : Prop :=
  ∀ params spec, oracle.buildVerifySpec params = .ok spec →
    ∃ root : List.Vector UInt8 32, spec.merkleRoot = root.1

theorem rooted_pyth (sha256 : Sha256) : Rooted (pythOracle sha256) := by
  intro params spec h
  simp only [pythOracle, bind_eq_ok, pure_eq_ok] at h
  obtain ⟨staleness, -, rfl⟩ := h
  exact ⟨_, rfl⟩

theorem rooted_attestation (sha256 : Sha256) : Rooted (attestationOracle sha256) := by
  intro params spec h
  simp only [attestationOracle, bind_eq_ok, pure_eq_ok] at h
  obtain ⟨window, -, statKey, -, digest, -, rfl⟩ := h
  exact ⟨digest, rfl⟩

theorem buildResolveMarketIxFromOracle_load {Proof : Type} {oracle : SettlementOracle Proof}
    {resolver m : Pubkey} {statement : String} {outcome : ℤ} {proof : Proof}
    {ix : TransactionInstruction} (horacle : Rooted oracle)
    (h : buildResolveMarketIxFromOracle oracle resolver m statement outcome proof = .ok ix) :
    ∃ resolve, (∀ rt, ix.load rt = some resolve) ∧ resolve.resolved = some m := by
  obtain ⟨spec, hspec, hix⟩ := bind_eq_ok.mp h
  obtain ⟨root, hroot⟩ := horacle _ _ hspec
  rw [hroot] at hix
  exact ⟨_, (buildResolveMarketIx_load hix).2, rfl⟩

theorem settlePriceMarketTxs_ok {js : Packages} {wallet m : Pubkey} {statement : String}
    {outcome : ℤ} {proof : PythProof} {txs : List (List TransactionInstruction)}
    (h : settlePriceMarketTxs js wallet m statement outcome proof = .ok txs) :
    ∃ tx, txs = [tx] ∧ Bundled tx m := by
  simp only [settlePriceMarketTxs, bind_eq_ok, pure_eq_ok] at h
  obtain ⟨ix, hix, rfl⟩ := h
  obtain ⟨resolve, hload, hresolved⟩ :=
    buildResolveMarketIxFromOracle_load (rooted_pyth js.sha256) hix
  refine ⟨_, rfl, [.setComputeUnitLimit 1400000], resolve,
    [.settleFromProof wallet m (.resolution m)
      (if (if outcome = 0 then Sdk.Side.yes else .no) = .yes then sideYes else sideNo),
      .attestVerification wallet m], fun rt => ?_, by decide, hresolved⟩
  simp only [List.mapM_cons, List.mapM_nil, load_setComputeUnitLimit, hload,
    load_buildSettleFromProofIx, load_buildAttestVerificationIx]
  rfl

theorem attestationKeeperTxs_ok {js : Packages} {cfg : AttestationKeeperConfig} {m : Pubkey}
    {statement : String} {outcome : ℤ} {o : AttestationObservation} {c : AttestationClaim}
    {message : Bytes} {txs : List (List TransactionInstruction)}
    (h : attestationKeeperTxs js cfg m statement outcome o c message = .ok txs) :
    ∃ tx, txs = [tx] ∧ Bundled tx m := by
  simp only [attestationKeeperTxs, buildSettlementBundle, bind_eq_ok, pure_eq_ok] at h
  obtain ⟨bundle, ⟨ix, hix, rfl⟩, rfl⟩ := h
  obtain ⟨resolve, hload, hresolved⟩ :=
    buildResolveMarketIxFromOracle_load (rooted_attestation js.sha256) hix
  have hed (rt : Runtime) : (precompileIx js cfg.attestor message).load rt = some (.ed25519
    (js.createInstructionWithPrivateKey cfg.attestor.secretKey message)) := rfl
  have haside : ∀ i ∈ [Instruction.setComputeUnitLimit 1400000,
      .ed25519 (js.createInstructionWithPrivateKey cfg.attestor.secretKey message)],
      i.isAside = true := by
    rintro i hi
    rcases List.mem_pair.mp hi with rfl | rfl
    · rfl
    · rfl
  refine ⟨_, rfl, _, resolve,
    [.settleFromProof cfg.wallet.publicKey m (.resolution m)
      (if (if outcome = 0 then Sdk.Side.yes else .no) = .yes then sideYes else sideNo),
      .attestVerification cfg.wallet.publicKey m], fun rt => ?_, haside, hresolved⟩
  simp only [List.mapM_cons, List.mapM_nil, load_setComputeUnitLimit, hed, hload,
    load_buildSettleFromProofIx, load_buildAttestVerificationIx]
  rfl

end Built

/-! ## Attempts on a market with a receipt -/

section Resume
variable {rt : Runtime} {js : Packages} {s : Chain} {mk : Market} {r : Resolution}

theorem Bundled.not_steps {tx : List TransactionInstruction} {m : Pubkey} {t : Chain}
    (h : Bundled tx m) (hr : s.resolution m = some r) : ¬ Steps (Accepts rt) s [tx] t := by
  intro hsteps
  exact h.refused hr (Steps.single_iff.mp hsteps)

/-- The second half alone settles the market from its receipt. -/
theorem settles_of_half {m : Pubkey} (wallet : Pubkey) {side : Sdk.Side} {outcome : UInt8}
    (hside : (if side = .yes then sideYes else sideNo) = outcome) (hs : Reachable rt s)
    (hmk : s.market m = some mk) (hopen : mk.status = statusOpen)
    (hr : s.resolution m = some r) (horacle : r.validatorProgram = mk.oracle)
    (hout : r.outcome = outcome) :
    ∃ t mk', Accepts rt s [setComputeUnitLimit 1400000, buildSettleFromProofIx wallet m side] t ∧
      t.market m = some mk' ∧ mk'.status = statusSettled := by
  have hsides : outcome = sideYes ∨ outcome = sideNo := by
    rw [← hside]
    split
    · exact .inl rfl
    · exact .inr rfl
  obtain ⟨t, hsettle, ht⟩ :=
    settleFromProof_of hmk (.inl hopen) hsides hr (hs.receipt_market hr) hout horacle
  refine ⟨t, _, ⟨[.setComputeUnitLimit 1400000, .settleFromProof wallet m (.resolution m) outcome],
    ?_, ?_⟩, ht, rfl⟩
  · simp only [List.mapM_cons, List.mapM_nil, load_setComputeUnitLimit,
      load_buildSettleFromProofIx, hside]
    rfl
  · rw [execTx, execFrom, exec, ok_bind, execFrom, exec, hsettle, ok_bind]
    rfl

/-- **Resuming from a receipt.** An attempt at an open market that has a receipt of its oracle for
the outcome settles the market exactly when it is the sports keeper's and its bundle is split. -/
theorem settles_iff_splits {a : Attempt} (hs : Reachable rt s) (hmk : s.market a.market = some mk)
    (hopen : mk.status = statusOpen) (hr : s.resolution a.market = some r)
    (horacle : r.validatorProgram = mk.oracle) (hout : r.outcome = a.outcome) :
    a.Settles rt js s ↔ a.Splits := by
  have hresolved : (s.resolution a.market).isSome = true := by
    rw [hr]
    rfl
  cases a with
  | sports packets alt txline proof args wallet =>
    constructor
    · rintro ⟨txs, t, mk', htxs, hsteps, -⟩
      rw [hresolved] at htxs
      simp only [Attempt.txs, settleMarketTxs, bind_eq_ok, pure_eq_ok] at htxs
      obtain ⟨ixs, hixs, built, hbuilt, rfl⟩ := htxs
      rcases buildSettleTransactions_cases hbuilt with rfl | ⟨-, hsplit⟩
      · exact absurd hsteps ((buildSettleFromProofIxs_ok hixs).1.not_steps hr)
      · exact ⟨ixs, hixs, hsplit⟩
    · rintro ⟨ixs, hixs, hsplit⟩
      have hside : (if args.outcome.toSdk = .yes then sideYes else sideNo) =
          (Attempt.sports packets alt txline proof args wallet).outcome := by
        rw [Attempt.outcome, Attempt.yes]
        cases args.outcome <;> rfl
      obtain ⟨t, mk', haccepts, ht, hset⟩ :=
        settles_of_half wallet hside hs hmk hopen hr horacle hout
      refine ⟨[[setComputeUnitLimit 1400000, ixs.settleIx]], t, mk', ?_, .single ?_, ht, hset⟩
      · rw [hresolved, Attempt.txs, settleMarketTxs, hixs, ok_bind,
          buildSettleTransactions_of_split hsplit]
        rfl
      · rw [(buildSettleFromProofIxs_ok hixs).2]
        exact haccepts
  | price wallet m statement yes proof =>
    refine iff_of_false ?_ id
    rintro ⟨txs, t, mk', htxs, hsteps, -⟩
    obtain ⟨tx, rfl, hbundled⟩ := settlePriceMarketTxs_ok htxs
    exact hbundled.not_steps hr hsteps
  | attestation cfg m statement yes o c message =>
    refine iff_of_false ?_ id
    rintro ⟨txs, t, mk', htxs, hsteps, -⟩
    obtain ⟨tx, rfl, hbundled⟩ := attestationKeeperTxs_ok htxs
    exact hbundled.not_steps hr hsteps

end Resume

namespace Sample

/-- A validated statistic, with empty proofs. -/
def statValidation : StatValidation where
  fixtureId := 18041422
  updateStats := ⟨900, 1700000000000, 1700000000000⟩
  eventStatsSubTreeRoot := List.Vector.replicate 32 0
  subTreeProof := .empty
  mainTreeProof := .empty
  eventStatRoot := List.Vector.replicate 32 0
  statToProve := ⟨1, 4, none⟩
  statToProve2 := none
  statProof := .empty
  statProof2 := none

/-- An attempt of the sports keeper to settle the market for YES. -/
def attempt (packets : Packets) : Attempt :=
  .sports packets .unusable ⟨echo, fun _ => judge⟩ statValidation
    ⟨18041422, 900, 1, none, 3, .yes, "", market⟩ carol

/-- Two instructions fit, three do not. -/
def tight : Packets := ⟨fun tx => decide (tx.length ≤ 2), fun _ => false⟩

def loose : Packets := ⟨fun _ => true, fun _ => true⟩

theorem attempt_splits : (attempt tight).Splits := by
  have hok : (buildSettleFromProofIxs ⟨echo, fun _ => judge⟩ statValidation
      ⟨18041422, 900, 1, none, 3, .yes, "", market⟩ carol).isOk = true := by decide +kernel
  obtain ⟨ixs, hixs⟩ := exists_of_isOk hok
  exact ⟨ixs, hixs, rfl, .inl (by simp [SettleIxs.parts, tight])⟩

def blankPackages : Packages := ⟨fun _ => List.Vector.replicate 32 0, fun _ _ => []⟩

/-- An open market whose oracle has left a receipt for YES. -/
theorem exists_resolved : ∃ s mk r, Reachable runtime s ∧ s.market market = some mk ∧
    mk.status = statusOpen ∧ s.resolution market = some r ∧ r.validatorProgram = mk.oracle ∧
    r.outcome = sideYes := by
  have hrun : Action.runsTo runtime [setUp, create 1700001000 echo, resolve 0 [1]] genesis
      (Awaits echo (some (sideYes, echo))) = true := by decide +kernel
  obtain ⟨s, hsteps, hawaits⟩ := steps_of_runsTo hrun
  obtain ⟨mk, hmk, hopen, horacle⟩ := hawaits.market
  obtain ⟨r, hr, hpair⟩ := Option.map_eq_some_iff.mp hawaits.2.1
  obtain ⟨hout, hvalidator⟩ := Prod.mk.inj hpair
  exact ⟨s, mk, r, ⟨_, _, genesis_ok, hsteps⟩, hmk, hopen, hr, hvalidator.trans horacle.symm, hout⟩

end Sample

theorem settles_iff_splits_sample : ∃ s, Reachable Sample.runtime s ∧
    (Sample.attempt Sample.tight).Settles Sample.runtime Sample.blankPackages s := by
  obtain ⟨s, mk, r, hs, hmk, hopen, hr, horacle, hout⟩ := Sample.exists_resolved
  have hiff : (Sample.attempt Sample.tight).Settles Sample.runtime Sample.blankPackages s ↔
      (Sample.attempt Sample.tight).Splits :=
    settles_iff_splits hs hmk hopen hr horacle hout
  exact ⟨s, hs, hiff.mpr Sample.attempt_splits⟩

/-- The sports keeper whose bundle fits one transaction resolves again, and is refused. -/
theorem receipt_not_resumed : ¬ ∀ (rt : Runtime) (js : Packages) (s : Chain) (mk : Market)
    (r : Resolution) (a : Attempt), Reachable rt s → s.market a.market = some mk →
    mk.status = statusOpen → s.resolution a.market = some r → r.validatorProgram = mk.oracle →
    r.outcome = a.outcome → a.Settles rt js s := by
  intro hall
  obtain ⟨s, mk, r, hs, hmk, hopen, hr, horacle, hout⟩ := Sample.exists_resolved
  obtain ⟨txs, t, mk', htxs, hsteps, -⟩ := hall Sample.runtime Sample.blankPackages s mk r
    (Sample.attempt Sample.loose) hs hmk hopen hr horacle hout
  simp only [Sample.attempt, Attempt.txs, settleMarketTxs, bind_eq_ok, pure_eq_ok] at htxs
  obtain ⟨ixs, hixs, built, hbuilt, rfl⟩ := htxs
  cases hbuilt
  exact (buildSettleFromProofIxs_ok hixs).1.not_steps hr hsteps

end Stoppage
