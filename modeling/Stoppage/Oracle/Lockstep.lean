import Stoppage.Agent.AttestationKeeper

/-! # Both encodings of an attestation

The SDK writes the observation twice, into the message that is signed and into the arguments of the
validator, and the programs read both at fixed offsets. `attestation_lockstep` says that nothing is
lost on the way: the bundle of a keeper is accepted exactly when its outcome is the answer.
-/

namespace Stoppage
open Fallible SettlementProgram Agent Sdk
set_option autoImplicit false

/-- The programs accept the instructions of the transaction up to its fourth one,
`settle_from_proof`. -/
def SettlementAccepted (rt : Runtime) (bundle : List TransactionInstruction) (s : Chain) : Prop :=
  ∃ ixs t, bundle.mapM (TransactionInstruction.load rt) = some ixs ∧
    execFrom rt ixs (ixs.take 4) 0 s = .ok t

section Accepted
variable {rt : Runtime} {cfg : AttestationKeeperConfig} {m : Pubkey} {statement : String}
  {root : List.Vector UInt8 32} {outcome : UInt8} {a : AttestationValidator.Args} {d : Bytes}
  {s : Chain}

/-- Behind the compute budget and the precompile it is `resolve_market` and `settle_from_proof`
that accept the bundle. -/
theorem execFrom_settlementInstructions (ixs : List Instruction)
    (hverified : ∀ ctx, rt.ed25519Precompile ctx d = .ok ()) :
    (∃ t, execFrom rt ixs ((settlementInstructions cfg m statement root outcome a d).take 4) 0 s =
      .ok t) ↔
    ∃ u t, resolveMarket rt ⟨ixs, 2⟩ cfg.wallet.publicKey (.market m) statement root outcome
        (AttestationValidator.validateAttestationDiscriminator ++ a.encode)
        (.external attestationValidatorId ::
          [.config cfg.attestor.publicKey, .external instructionsSysvarId]) s = .ok u ∧
      MarketProgram.settleFromProof m (.resolution m) outcome u = .ok t := by
  simp only [settlementInstructions, List.take_succ_cons, List.take_zero, execFrom, exec,
    bind_eq_ok, pure_eq_ok, hverified]
  constructor
  · rintro ⟨t, _, ⟨⟩, _, ⟨-, -, rfl⟩, u, hresolve, v, hsettle, ⟨⟩⟩
    exact ⟨u, _, hresolve, hsettle⟩
  · rintro ⟨u, t, hresolve, hsettle⟩
    exact ⟨t, s, rfl, s, ⟨(), trivial, rfl⟩, u, hresolve, t, hsettle, rfl⟩

theorem settlementInstructions_verdict {u : Chain} {c : AttestationClaim}
    {o : AttestationObservation} (hcarries : Carries a o c) (hc : c.Covers o)
    (hsigned : SignedInstruction cfg.attestor.publicKey a.message d)
    (hconfig : u.config cfg.attestor.publicKey = some ⟨cfg.attestor.publicKey⟩) :
    Verdict rt ⟨settlementInstructions cfg m statement root outcome a d, 2⟩ u attestationValidatorId
        (AttestationValidator.validateAttestationDiscriminator ++ a.encode)
        [.config cfg.attestor.publicKey, .external instructionsSysvarId] outcome ↔
      (outcome = 0 ↔ c.op.holds o.value c.threshold) := by
  have hinvoke := (invoke_attestationValidator rt
    ⟨settlementInstructions cfg m statement root outcome a d, 2⟩ u _ _).trans
    (AttestationValidator.entry_of hconfig rfl rfl hsigned.checkSignature (hcarries.timely hc)
      hcarries.holds)
  rw [verdict_iff hinvoke, decide_eq_true_iff]
  exact iff_comm

theorem settlementAccepted_iff {bundle : List TransactionInstruction} {u : Chain} {mk : Market}
    {c : AttestationClaim} {o : AttestationObservation}
    (hload : bundle.mapM (TransactionInstruction.load rt) =
      some (settlementInstructions cfg m statement root outcome a d))
    (hout : outcome = sideYes ∨ outcome = sideNo) (hcarries : Carries a o c) (hc : c.Covers o)
    (hsigned : SignedInstruction cfg.attestor.publicKey a.message d)
    (hverified : ∀ ctx, rt.ed25519Precompile ctx d = .ok ()) (hmk : s.market m = some mk)
    (hopen : mk.status = statusOpen) (horacle : mk.oracle = attestationValidatorId)
    (hnone : s.resolution m = none)
    (hconfig : s.config cfg.attestor.publicKey = some ⟨cfg.attestor.publicKey⟩)
    (hpaid : s.systemTransfer cfg.wallet.publicKey (.resolution m)
      (s.rentDue rt (.resolution m) Resolution.space) = .ok u) :
    SettlementAccepted rt bundle s ↔ (outcome = 0 ↔ c.op.holds o.value c.threshold) := by
  have hu : u.config cfg.attestor.publicKey = some ⟨cfg.attestor.publicKey⟩ := by
    rw [(Aside.of_transfer hpaid).config, hconfig]
  have hruns : SettlementAccepted rt bundle s ↔ ∃ t, execFrom rt
      (settlementInstructions cfg m statement root outcome a d)
      ((settlementInstructions cfg m statement root outcome a d).take 4) 0 s = .ok t := by
    constructor
    · rintro ⟨ixs, t, hixs, ht⟩
      cases hload.symm.trans hixs
      exact ⟨t, ht⟩
    · rintro ⟨t, ht⟩
      exact ⟨_, t, hload, ht⟩
  rw [hruns, execFrom_settlementInstructions _ hverified, resolve_settle_iff,
    ← settlementInstructions_verdict hcarries hc hsigned hu]
  constructor
  · rintro ⟨⟨v, hv, hverdict⟩, -⟩
    cases hpaid.symm.trans hv
    exact hverdict
  · intro hverdict
    exact ⟨⟨u, hpaid, hverdict⟩, hnone, hout, mk, hmk, horacle, .inl hopen⟩

end Accepted

/-- **Lockstep.** The keeper's bundle for an observation that fits and lies in its window is built
exactly when the lengths of the window and of the statement fit 32 bits, and against an open market
of the validator without a receipt it is accepted exactly when its outcome is YES just in case the
claim holds of the observed value. -/
theorem attestation_lockstep {js : Packages} {rt : Runtime} {cfg : AttestationKeeperConfig}
    {s u : Chain} {m : Pubkey} {mk : Market} (statement : String) {outcome : ℤ}
    {o : AttestationObservation} {c : AttestationClaim} (ho : o.Fits) (hc : c.Covers o)
    (hout : outcome = 0 ∨ outcome = 1)
    (hsigned : ∀ message, buildAttestationMessage o = .ok message →
      SignedInstruction cfg.attestor.publicKey message (precompileIx js cfg.attestor message).data)
    (hverified : ∀ message, buildAttestationMessage o = .ok message → ∀ ctx,
      rt.ed25519Precompile ctx (precompileIx js cfg.attestor message).data = .ok ())
    (hmk : s.market m = some mk) (hopen : mk.status = statusOpen)
    (horacle : mk.oracle = attestationValidatorId) (hnone : s.resolution m = none)
    (hconfig : s.config cfg.attestor.publicKey = some ⟨cfg.attestor.publicKey⟩)
    (hpaid : s.systemTransfer cfg.wallet.publicKey (.resolution m)
      (s.rentDue rt (.resolution m) Resolution.space) = .ok u) :
    ∃ message, buildAttestationMessage o = .ok message ∧
      ((∃ bundle, buildSettlementBundle js cfg m statement outcome o c message = .ok bundle) ↔
        c.windowSeconds < 2 ^ 32 ∧ (utf8 statement).length < 2 ^ 32) ∧
      ∀ bundle, buildSettlementBundle js cfg m statement outcome o c message = .ok bundle →
        (SettlementAccepted rt bundle s ↔
          (outcome = 0 ↔ c.op.holds o.value c.threshold)) := by
  obtain ⟨a₀, hmessage⟩ := ho.message
  have hcarried (hwindow : c.windowSeconds < 2 ^ 32) :
      ∃ a, Carries a o c ∧ a.message = a₀.message := by
    obtain ⟨a, ha⟩ := exists_carries ho hc hwindow
    exact ⟨a, ha, Except.ok.inj (ha.buildAttestationMessage.symm.trans hmessage)⟩
  have hsig := hsigned _ hmessage
  have hver := hverified _ hmessage
  refine ⟨a₀.message, hmessage, ⟨?_, ?_⟩, ?_⟩
  · rintro ⟨bundle, hbundle⟩
    have hwindow := buildSettlementBundle_window hbundle
    obtain ⟨a, ha, heq⟩ := hcarried hwindow
    rw [← heq] at hsig hbundle
    exact ⟨hwindow, (buildSettlementBundle_load ha rfl hsig hout hbundle).1⟩
  · rintro ⟨hwindow, hstatement⟩
    obtain ⟨a, ha, heq⟩ := hcarried hwindow
    rw [← heq] at hsig ⊢
    exact buildSettlementBundle_isOk ha rfl hsig hstatement
  · intro bundle hbundle
    obtain ⟨a, ha, heq⟩ := hcarried (buildSettlementBundle_window hbundle)
    rw [← heq] at hsig hver hbundle
    obtain ⟨-, root, hload⟩ := buildSettlementBundle_load ha rfl hsig hout hbundle
    have hbyte : lowByte outcome = 0 ↔ outcome = 0 := by
      rcases hout with rfl | rfl <;> decide
    have hside : lowByte outcome = sideYes ∨ lowByte outcome = sideNo := by
      rcases hout with rfl | rfl
      · exact .inl rfl
      · exact .inr rfl
    rw [settlementAccepted_iff (hload rt) hside ha hc hsig hver hmk hopen horacle hnone hconfig hpaid,
      hbyte]

namespace Sample

/-- Carol pays and the first operator signs. -/
def keeper : AttestationKeeperConfig where
  wallet := ⟨carol,
    [76, 38, 217, 7, 76, 39, 216, 158, 222, 89, 39, 12, 10, 193, 75, 113,
      224, 113, 177, 82, 57, 81, 159, 117, 71, 75, 47, 59, 166, 52, 129, 245] ++ carol.bytes⟩
  attestor := ⟨operatorA,
    [14, 141, 42, 205, 169, 30, 2, 118, 54, 169, 96, 43, 54, 64, 64, 14,
      124, 126, 185, 187, 126, 71, 93, 74, 25, 246, 178, 92, 211, 38, 20, 28] ++ operatorA.bytes⟩

/-- The packages on the one observation of the operator. -/
def packages : Packages where
  sha256 _ :=
    ⟨[239, 21, 134, 66, 119, 161, 127, 126, 104, 35, 30, 49, 205, 166, 240, 233,
      224, 219, 138, 245, 135, 60, 169, 112, 33, 75, 157, 179, 6, 176, 212, 26], rfl⟩
  createInstructionWithPrivateKey _ message :=
    AttestationValidator.signatureHeader ++ (operatorA.bytes ++ (signatureA.1 ++ message))

/-- 66000 dollars, five seconds after the close. -/
def observed : AttestationObservation where
  fixtureRef := [66, 84, 67, 47, 85, 83, 68] ++ List.replicate 9 0
  statKey := 1
  value := 6600000000000
  obsTs := 1700001005

/-- At least 65000 dollars within a minute of the close. -/
def above : AttestationClaim where
  op := .gte
  threshold := 6500000000000
  referenceTs := 1700001000
  windowSeconds := 60

theorem observed_carries : Carries (observation 6600000000000) observed above :=
  ⟨rfl, by decide, rfl, by decide, by decide, by decide, by decide, by decide⟩

theorem observed_fits : observed.Fits :=
  ⟨rfl, ⟨by decide, by decide⟩, ⟨by decide, by decide⟩, ⟨by decide, by decide⟩⟩

theorem above_covers : above.Covers observed :=
  ⟨⟨by decide, by decide⟩, ⟨by decide, by decide⟩, by decide, by decide, by decide⟩

end Sample

theorem attestation_lockstep_sample :
    ∃ s message bundle, Reachable (Sample.attesting [Sample.signedA]) s ∧
      buildAttestationMessage Sample.observed = .ok message ∧
      buildSettlementBundle Sample.packages Sample.keeper Sample.market "BTC/USD" 0 Sample.observed
        Sample.above message = .ok bundle ∧
      SettlementAccepted (Sample.attesting [Sample.signedA]) bundle s := by
  obtain ⟨s, hs, hattested⟩ := Sample.exists_pinned
  obtain ⟨mk, hmk, hopen, horacle⟩ := hattested.1.market
  obtain ⟨u, hpaid⟩ := hattested.1.paid
  obtain ⟨c, hc⟩ := Option.isSome_iff_exists.mp hattested.2.1
  have hconfig : s.config Sample.operatorA = some ⟨Sample.operatorA⟩ := by
    rw [hc, ← hs.config_authority hc]
  have hnone : s.resolution Sample.market = none := Option.map_eq_none_iff.mp hattested.1.2.1
  have hmessage {message : Bytes} (h : buildAttestationMessage Sample.observed = .ok message) :
      message = (Sample.observation 6600000000000).message :=
    Except.ok.inj (h.symm.trans Sample.observed_carries.buildAttestationMessage)
  have hsigned : ∀ message, buildAttestationMessage Sample.observed = .ok message →
      SignedInstruction Sample.operatorA message
        (precompileIx Sample.packages Sample.keeper.attestor message).data := by
    intro message h
    rw [hmessage h]
    exact signedInstruction_signedData Sample.operatorA Sample.signatureA _
  have hverified : ∀ message, buildAttestationMessage Sample.observed = .ok message → ∀ ctx,
      (Sample.attesting [Sample.signedA]).ed25519Precompile ctx
        (precompileIx Sample.packages Sample.keeper.attestor message).data = .ok () := by
    intro message h ctx
    rw [hmessage h]
    exact (AttestationValidator.precompile_signedData Sample.operatorA Sample.signatureA _ _
      ctx).mpr (by decide +kernel)
  obtain ⟨message, hm, hbuilt, haccepted⟩ := attestation_lockstep "BTC/USD" Sample.observed_fits
    Sample.above_covers (.inl rfl) hsigned hverified hmk hopen horacle hnone hconfig hpaid
  obtain ⟨bundle, hbundle⟩ := hbuilt.mpr ⟨by decide, by decide +kernel⟩
  have hyes : Sample.above.op.holds Sample.observed.value Sample.above.threshold := by decide
  exact ⟨s, message, bundle, hs, hm, hbundle,
    (haccepted bundle hbundle).mpr ⟨fun _ => hyes, fun _ => rfl⟩⟩

end Stoppage
