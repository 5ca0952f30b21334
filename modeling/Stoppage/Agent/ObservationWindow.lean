import Stoppage.Agent.AttestationRun

/-! # The window of an observation

The keeper observes at the clock and claims a window that starts 105 minutes after the kickoff it
has fetched last. Nothing compares the two before the validator does: `observed_in_window_iff` says
which runs sign within their window.
-/

namespace Stoppage
open Fallible
set_option autoImplicit false

/-! ## The validator -/

namespace AttestationValidator

/-- The errors that reject an observation for its time. -/
def Untimely (e : ProgramError) : Prop :=
  e = .attestation .beforeReference ∨ e = .attestation .outsideWindow

section Timely
variable {ctx : TxContext} {s : Chain} {accounts : List Address} {config : Config}
  {instructions : Address} {k : Pubkey} {a : Args} {d : Bytes} {e : ProgramError}

theorem attestation_ne (he : Untimely e) {x : AttestationError}
    (hx : x ≠ .beforeReference ∧ x ≠ .outsideWindow) : ProgramError.attestation x ≠ e := by
  rcases he with rfl | rfl
  · exact fun h => hx.1 (ProgramError.attestation.inj h)
  · exact fun h => hx.2 (ProgramError.attestation.inj h)

theorem anchor_ne (he : Untimely e) (x : AnchorError) : ProgramError.anchor x ≠ e := by
  rcases he with rfl | rfl <;> exact ProgramError.noConfusion

theorem checkSignature_timely (he : Untimely e) : checkSignature k a d ≠ .error e := by
  have hstep {c : Prop} [Decidable c] {x : AttestationError}
      (hx : x ≠ .beforeReference ∧ x ≠ .outsideWindow) :
      require c (ProgramError.attestation x) ≠ .error e :=
    require_ne_error (.inr (attestation_ne he hx))
  unfold checkSignature
  iterate 6 refine bind_ne_error (hstep (by decide)) fun _ _ => ?_
  exact hstep (by decide)

theorem validateAttestation_timely (he : Untimely e) (h : a.Timely) :
    validateAttestation ctx config instructions a ≠ .error e := by
  refine bind_ne_error (require_ne_error (.inr (attestation_ne he (by decide)))) fun _ _ => ?_
  refine bind_ne_error (getOr_ne_error (attestation_ne he (by decide))) fun d _ => ?_
  refine bind_ne_error (checkSignature_timely he) fun _ _ => ?_
  refine bind_ne_error ?_ fun upper hupper => ?_
  · rw [checkedAddInt]
    split
    · exact ok_ne_error
    · exact fun herror => attestation_ne he (by decide) (Except.error.inj herror)
  · have hend : upper.toInt = a.referenceTs.toInt + a.windowSeconds.toNat :=
      checkedAddInt_u32_eq_ok.mp hupper
    have hstart : a.referenceTs ≤ a.obsTs := Int64.le_iff_toInt_le.mpr h.notBefore
    have hupper : a.obsTs ≤ upper := Int64.le_iff_toInt_le.mpr (hend ▸ h.notAfter)
    refine bind_ne_error (require_ne_error (.inl hstart)) fun _ _ => ?_
    refine bind_ne_error (require_ne_error (.inl hupper)) fun _ _ => ?_
    exact getOr_ne_error (attestation_ne he (by decide))

theorem entry_timely (he : Untimely e) (h : a.Timely) :
    entry ctx s (validateAttestationDiscriminator ++ a.encode) accounts ≠ .error e := by
  refine bind_ne_error (require_ne_error (.inr (anchor_ne he _))) fun _ _ => ?_
  refine bind_ne_error (getOr_ne_error (anchor_ne he _)) fun b hb => ?_
  obtain rfl : a = b := Option.some.inj (a.decode_encode.symm.trans (getOr_eq_ok.mp hb))
  refine bind_ne_error (getOr_ne_error (anchor_ne he _)) fun address _ => ?_
  refine bind_ne_error ?_ fun config _ => ?_
  · cases address with
    | config k =>
      refine bind_ne_error (getOr_ne_error (anchor_ne he _)) fun c _ => ?_
      refine bind_ne_error (require_ne_error (.inr (anchor_ne he _))) fun _ _ => ?_
      exact pure_ne_error
    | _ => exact fun herror => anchor_ne he _ (Except.error.inj herror)
  · refine bind_ne_error (getOr_ne_error (anchor_ne he _)) fun instructions _ => ?_
    refine bind_ne_error (validateAttestation_timely he h) fun _ _ => ?_
    exact pure_ne_error

end Timely

end AttestationValidator

/-! ## The bundle -/

namespace Sdk
open LittleEndian

/-- The times that the instruction data carry. -/
structure CarriesTimes (a : AttestationValidator.Args) (obsTs referenceTs windowSeconds : ℤ) :
    Prop where
  obsTs : a.obsTs = Int64.ofInt obsTs
  referenceTs : a.referenceTs = Int64.ofInt referenceTs
  windowSeconds : (a.windowSeconds.toNat : ℤ) = windowSeconds

theorem buildVerifySpec_data {sha256 : Sha256} {params : VerifyParams AttestationProof}
    {spec : OracleVerifySpec} (hfixture : params.proof.fixtureRef.length = 16)
    (h : (attestationOracle sha256).buildVerifySpec params = .ok spec) :
    ∃ (a : AttestationValidator.Args) (digest : List.Vector UInt8 32),
      spec.instructionData = AttestationValidator.validateAttestationDiscriminator ++ a.encode ∧
      spec.merkleRoot = digest.1 ∧
      CarriesTimes a params.proof.obsTs params.proof.referenceTs params.proof.windowSeconds := by
  simp only [attestationOracle, bind_eq_ok, pure_eq_ok] at h
  obtain ⟨windowBuf, hwindow, statKeyBuf, hstatKey, digest, -, rfl⟩ := h
  obtain ⟨window, hseconds, rfl⟩ := writeUInt32LE_eq_ok.mp hwindow
  obtain ⟨statKey, -, rfl⟩ := writeUInt32LE_eq_ok.mp hstatKey
  refine ⟨⟨⟨_, hfixture⟩, statKey, params.proof.op.code, Int64.ofInt params.proof.threshold,
    Int64.ofInt params.proof.value, Int64.ofInt params.proof.obsTs,
    Int64.ofInt params.proof.referenceTs, window⟩, digest, ?_, rfl, rfl, rfl, hseconds⟩
  rw [writeI64LE_eq, writeI64LE_eq, writeI64LE_eq, writeI64LE_eq]
  rfl

end Sdk

namespace Agent
open Sdk

/-- The validator rejects none of the data in the bundle for their time. -/
def NeverUntimely (ixs : List TransactionInstruction) : Prop :=
  ∀ rt, ∀ ix ∈ ixs, ∀ resolver market statement root outcome data remaining,
    ix.load rt = some (.resolveMarket resolver market statement root outcome data remaining) →
    ∀ ctx s accounts e, AttestationValidator.Untimely e →
      AttestationValidator.entry ctx s data accounts ≠ .error e

section Bundle
variable {js : Packages} {keeper : AttestationKeeperConfig} {m : Pubkey} {statement : String}
  {outcome : ℤ} {o : AttestationObservation} {c : AttestationClaim} {message : Bytes}
  {ixs : List TransactionInstruction}

/-- The one instruction of a bundle that resolves a market carries the times of the observation and
of the claim. -/
theorem buildSettlementBundle_data (hfixture : o.fixtureRef.length = 16)
    (h : buildSettlementBundle js keeper m statement outcome o c message = .ok ixs)
    {rt : Runtime} {ix : TransactionInstruction} (hix : ix ∈ ixs) {resolver : Pubkey}
    {market : Address} {st : String} {root : List.Vector UInt8 32} {side : UInt8} {data : Bytes}
    {remaining : List Address}
    (hload : ix.load rt = some (.resolveMarket resolver market st root side data remaining)) :
    ∃ a : AttestationValidator.Args,
      data = AttestationValidator.validateAttestationDiscriminator ++ a.encode ∧
      CarriesTimes a o.obsTs c.referenceTs c.windowSeconds := by
  simp only [buildSettlementBundle, buildResolveMarketIxFromOracle, bind_eq_ok, pure_eq_ok] at h
  obtain ⟨resolveIx, ⟨spec, hspec, hresolve⟩, rfl⟩ := h
  obtain ⟨a, digest, hdata, hroot, htimes⟩ := buildVerifySpec_data hfixture hspec
  rw [hroot, hdata] at hresolve
  have hbuilt := (buildResolveMarketIx_load hresolve).2 rt
  simp only [List.mem_cons, List.not_mem_nil, or_false] at hix
  rcases hix with rfl | rfl | rfl | rfl | rfl
  · cases (load_setComputeUnitLimit rt 1400000).symm.trans hload
  · cases hload
  · cases hbuilt.symm.trans hload
    exact ⟨a, rfl, htimes⟩
  · cases (load_buildSettleFromProofIx rt _ _ _).symm.trans hload
  · cases (load_buildAttestVerificationIx rt _ _).symm.trans hload

/-- A claim that ends before the 64-bit clock covers what it is about in time. -/
theorem neverUntimely_of_window
    (h : buildSettlementBundle js keeper m statement outcome o c message = .ok ixs)
    (ho : o.Fits) (hreference : FitsI64 c.referenceTs)
    (hend : c.referenceTs + c.windowSeconds < 2 ^ 63) (hstart : c.referenceTs ≤ o.obsTs)
    (hlast : o.obsTs ≤ c.referenceTs + c.windowSeconds) : NeverUntimely ixs := by
  intro rt ix hix resolver market st root side data remaining hload ctx s accounts e he
  obtain ⟨a, rfl, htimes⟩ := buildSettlementBundle_data ho.fixtureRef h hix hload
  have hobserved : a.obsTs.toInt = o.obsTs := by
    rw [htimes.obsTs, Int64.toInt_ofInt_of_le ho.obsTs.1 ho.obsTs.2]
  have hclaimed : a.referenceTs.toInt = c.referenceTs := by
    rw [htimes.referenceTs, Int64.toInt_ofInt_of_le hreference.1 hreference.2]
  have hwindow := htimes.windowSeconds
  refine AttestationValidator.entry_timely he ⟨?_, ?_, ?_⟩
  · rw [hobserved, hclaimed]
    exact hstart
  · rw [hobserved, hclaimed, hwindow]
    exact hlast
  · rw [hclaimed, hwindow]
    exact hend

end Bundle

/-! ## The keeper -/

/-- Whatever the run signs lies in the window that it claims, and the validator does not reject the
bundle for its time. -/
def ObservesInWindow (js : Packages) (cfg : AttestConfig) (dateParse : DateParse)
    (w : Surroundings) : Prop :=
  ∀ o c message outcome bundle,
    runAttestationKeeper js cfg dateParse w = .ok (.signs o c message outcome bundle) →
    (c.referenceTs ≤ o.obsTs ∧ o.obsTs ≤ c.referenceTs + c.windowSeconds) ∧
      ∀ ixs, bundle = .ok ixs → NeverUntimely ixs

section Keeper
variable {js : Packages} {cfg : AttestConfig} {dateParse : DateParse} {w : Surroundings}
  {e : SportsDbEvent} {m : ObservedMatch}

theorem Surroundings.Sees.natAbs_kickoffTs (h : w.Sees dateParse e m) :
    m.kickoffTs.natAbs ≤ 8640000000000 := by
  obtain ⟨ts, -, hkickoff, -⟩ := observe_eq_ok.mp h.reports.1
  rw [hkickoff]
  exact ts.natAbs_seconds

/-- A run that signs in its window does so from 105 to 345 minutes after the kickoff. -/
theorem Surroundings.Settles.window {value : ℤ} (hsettles : w.Settles cfg dateParse e m value)
    (h : ObservesInWindow js cfg dateParse w) :
    m.kickoffTs + 6300 ≤ w.signedAt.seconds ∧ w.signedAt.seconds ≤ m.kickoffTs + 20700 := by
  obtain ⟨message, outcome, bundle, hrun⟩ := hsettles.signs js
  obtain ⟨⟨hstart, hlast⟩, -⟩ := h _ _ _ _ _ hrun
  have hwindow : w.signedAt.seconds ≤ m.kickoffTs + 6300 + 14400 := hlast
  exact ⟨hstart, by omega⟩

end Keeper

/-- **Observations in their window.** A run signs in its window exactly when the clock at the
signing is from 105 to 345 minutes after the kickoff that the finished event has, unless it does not
get to sign. -/
theorem observed_in_window_iff {js : Packages} {cfg : AttestConfig} {dateParse : DateParse}
    {w : Surroundings} : ObservesInWindow js cfg dateParse w ↔
      ∀ e m value, w.Settles cfg dateParse e m value →
        m.kickoffTs + 6300 ≤ w.signedAt.seconds ∧ w.signedAt.seconds ≤ m.kickoffTs + 20700 := by
  constructor
  · intro h e m value hsettles
    exact hsettles.window h
  · intro h o c message outcome bundle hrun
    obtain ⟨_, _, e, m, value, -, hsettles, rfl, rfl, hmessage, -, rfl⟩ := signs_iff.mp hrun
    obtain ⟨hstart, hlast⟩ := h e m value hsettles
    have hkickoff := hsettles.sees.natAbs_kickoffTs
    have hfits := AttestationObservation.fits_of_message hmessage
    have hwindow : w.signedAt.seconds ≤ m.kickoffTs + 6300 + 14400 := by omega
    refine ⟨⟨hstart, hwindow⟩, fun ixs hixs => ?_⟩
    refine neverUntimely_of_window hixs hfits ⟨?_, ?_⟩ ?_ hstart hwindow
    · show -2 ^ 63 ≤ m.kickoffTs + 6300
      omega
    · show m.kickoffTs + 6300 < 2 ^ 63
      omega
    · show m.kickoffTs + 6300 + 14400 < 2 ^ 63
      omega

namespace Sample

/-- One goal against none. -/
def oneNil (minutes : ℕ) : Surroundings :=
  surroundings minutes (some (Utf16.ofString "1")) (some (Utf16.ofString "0"))

theorem settles_oneNil {minutes : ℕ} (h : minutes ≤ 355) :
    ∃ e m, (oneNil minutes).Settles attestConfig dateParse e m 1 ∧ m.kickoffTs = 1786836600 := by
  have hfits : FitsI64 1 := ⟨by decide, by decide⟩
  have htotal : (observedEnd (some (Utf16.ofString "1")) (some (Utf16.ofString "0"))).totalGoals =
      some ((1 : ℤ) : ℚ) := by decide +kernel
  exact ⟨_, _, settles_surroundings h htotal hfits, rfl⟩

theorem signedAt_oneNil :
    (oneNil 110).signedAt.seconds = 1786842660 ∧ (oneNil 355).signedAt.seconds = 1786857360 := by
  rw [oneNil, oneNil, surroundings, surroundings, TimeValue.seconds_ofSeconds,
    TimeValue.seconds_ofSeconds]
  decide

end Sample

/-- A match that is finished 101 minutes after its kickoff is signed too early, and one whose end is
seen behind the last check of the deadline too late. -/
theorem observed_out_of_window :
    ¬ ObservesInWindow Stoppage.Sample.packages Sample.attestConfig Sample.dateParse
      (Sample.oneNil 110) ∧
    ¬ ObservesInWindow Stoppage.Sample.packages Sample.attestConfig Sample.dateParse
      (Sample.oneNil 355) := by
  obtain ⟨hearly, hlate⟩ := Sample.signedAt_oneNil
  constructor
  · intro h
    obtain ⟨e, m, hsettles, hkickoff⟩ := Sample.settles_oneNil (by decide : 110 ≤ 355)
    have hstart := (hsettles.window h).1
    omega
  · intro h
    obtain ⟨e, m, hsettles, hkickoff⟩ := Sample.settles_oneNil (le_refl 355)
    have hlast := (hsettles.window h).2
    omega

end Agent

end Stoppage
