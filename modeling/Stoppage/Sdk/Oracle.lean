import Stoppage.Oracle.AttestationAuthority
import Stoppage.Sdk.Instructions

/-! # `packages/sdk/src/oracle.ts`: the attestation oracle

The message that an operator signs, the instruction data for the validator, the digest that goes
into the receipt, and the instruction that hands them to the settlement program. The hash is a
parameter.
-/

namespace Stoppage.Sdk
open LittleEndian Fallible
set_option autoImplicit false

/-! ## Oracles -/

structure OracleVerifySpec where
  validatorProgram : Pubkey
  anchorAccounts : List Address
  instructionData : Bytes
  merkleRoot : Bytes

structure VerifyParams (Proof : Type) where
  outcome : ℤ
  statement : String
  proof : Proof

structure SettlementOracle (Proof : Type) where
  id : String
  buildVerifySpec : VerifyParams Proof → Except SdkError OracleVerifySpec

def buildResolveMarketIxFromOracle {Proof : Type} (oracle : SettlementOracle Proof)
    (resolver market : Pubkey) (statement : String) (outcome : ℤ) (proof : Proof) :
    Except SdkError TransactionInstruction := do
  let spec ← oracle.buildVerifySpec { outcome, statement, proof }
  buildResolveMarketIx resolver market spec.validatorProgram spec.anchorAccounts statement
    spec.merkleRoot outcome spec.instructionData

/-! ## Observations -/

/-- `ATTESTATION_OPS` -/
inductive AttestationOp where
  | gte
  | lte
  | eq
deriving DecidableEq

def AttestationOp.code : AttestationOp → UInt8
  | .gte => 0
  | .lte => 1
  | .eq => 2

/-- `value op threshold` -/
def AttestationOp.holds : AttestationOp → ℤ → ℤ → Prop
  | .gte, value, threshold => value ≥ threshold
  | .lte, value, threshold => value ≤ threshold
  | .eq, value, threshold => value = threshold

instance (op : AttestationOp) (value threshold : ℤ) : Decidable (op.holds value threshold) :=
  match op with
  | .gte => inferInstanceAs (Decidable (value ≥ threshold))
  | .lte => inferInstanceAs (Decidable (value ≤ threshold))
  | .eq => inferInstanceAs (Decidable (value = threshold))

structure AttestationObservation where
  fixtureRef : Bytes
  statKey : ℤ
  value : ℤ
  obsTs : ℤ

def attestationMsgPrefix : Bytes := utf8 "stoppage/attest-observation/v1"

def attestationMsgLen : ℕ := 30 + 16 + 4 + 8 + 8

def buildAttestationMessage (o : AttestationObservation) : Except SdkError Bytes := do
  require (o.fixtureRef.length = 16) (.error "fixtureRef must be 16 bytes")
  let msg := writeAt (alloc attestationMsgLen) 0 attestationMsgPrefix
  let msg := writeAt msg 30 o.fixtureRef
  let msg := writeAt msg 46 (← writeUInt32LE o.statKey)
  let msg := writeAt msg 50 (← writeBigInt64LE o.value)
  let msg := writeAt msg 58 (← writeBigInt64LE o.obsTs)
  pure msg

/-! ## The oracle -/

/-- What is claimed of an observation. -/
structure AttestationClaim where
  op : AttestationOp
  threshold : ℤ
  referenceTs : ℤ
  windowSeconds : ℤ

structure AttestationProof extends AttestationObservation, AttestationClaim where
  authority : Pubkey
  signature : Bytes

/-- The hash function of `js-sha256`. -/
abbrev Sha256 := Bytes → List.Vector UInt8 32

def attestationObservationDigest (sha256 : Sha256) (proof : AttestationProof) :
    Except SdkError (List.Vector UInt8 32) := do
  require (proof.signature.length = 64) (.error "signature must be 64 bytes")
  let statKeyBuf ← writeUInt32LE proof.statKey
  pure (sha256 (utf8 "stoppage/attestation-observation/v1" ++ (proof.authority.bytes ++
    (proof.fixtureRef ++ (statKeyBuf ++ (writeI64LE proof.value ++ (writeI64LE proof.obsTs ++
      proof.signature)))))))

def attestationOracle (sha256 : Sha256) : SettlementOracle AttestationProof where
  id := "attestation"
  buildVerifySpec params := do
    let p := params.proof
    let windowBuf ← writeUInt32LE p.windowSeconds
    let statKeyBuf ← writeUInt32LE p.statKey
    -- the first eight bytes of `sha256("global:validate_attestation")`
    let instructionData := [250, 232, 36, 143, 149, 1, 73, 220] ++ (p.fixtureRef ++ (statKeyBuf ++
      ([p.op.code] ++ (writeI64LE p.threshold ++ (writeI64LE p.value ++ (writeI64LE p.obsTs ++
        (writeI64LE p.referenceTs ++ windowBuf)))))))
    let digest ← attestationObservationDigest sha256 p
    pure
      { validatorProgram := attestationValidatorId
        anchorAccounts := [.config p.authority, .external instructionsSysvarId]
        instructionData
        merkleRoot := digest.1 }

/-! ## Inputs that fit -/

structure AttestationObservation.Fits (o : AttestationObservation) : Prop where
  fixtureRef : o.fixtureRef.length = 16
  statKey : FitsU32 o.statKey
  value : FitsI64 o.value
  obsTs : FitsI64 o.obsTs

/-- The observation lies in the window of the claim, which ends before the 64-bit clock does. -/
structure AttestationClaim.Covers (c : AttestationClaim) (o : AttestationObservation) : Prop where
  threshold : FitsI64 c.threshold
  referenceTs : FitsI64 c.referenceTs
  notBefore : c.referenceTs ≤ o.obsTs
  notAfter : o.obsTs ≤ c.referenceTs + c.windowSeconds
  windowEnd : c.referenceTs + c.windowSeconds < 2 ^ 63

/-! ## What the validator reads -/

/-- The arguments of the validator stand for the observation and the claim. -/
structure Carries (a : AttestationValidator.Args) (o : AttestationObservation)
    (c : AttestationClaim) : Prop where
  fixtureRef : a.fixtureRef.1 = o.fixtureRef
  statKey : (a.statKey.toNat : ℤ) = o.statKey
  op : a.op = c.op.code
  threshold : a.threshold.toInt = c.threshold
  value : a.value.toInt = o.value
  obsTs : a.obsTs.toInt = o.obsTs
  referenceTs : a.referenceTs.toInt = c.referenceTs
  windowSeconds : (a.windowSeconds.toNat : ℤ) = c.windowSeconds

theorem attestationMsgPrefix_eq : attestationMsgPrefix = AttestationValidator.msgPrefix := by
  decide +kernel

theorem exists_carries {o : AttestationObservation} {c : AttestationClaim} (ho : o.Fits)
    (hc : c.Covers o) (hwindow : c.windowSeconds < 2 ^ 32) : ∃ a, Carries a o c := by
  have hnonneg : 0 ≤ c.windowSeconds := by
    have := hc.notBefore
    have := hc.notAfter
    omega
  obtain ⟨statKey, hstatKey⟩ := ho.statKey.exists_toNat
  obtain ⟨windowSeconds, hseconds⟩ := FitsU32.exists_toNat ⟨hnonneg, hwindow⟩
  obtain ⟨threshold, hthreshold⟩ := exists_toInt hc.threshold.1 hc.threshold.2
  obtain ⟨value, hvalue⟩ := exists_toInt ho.value.1 ho.value.2
  obtain ⟨obsTs, hobsTs⟩ := exists_toInt ho.obsTs.1 ho.obsTs.2
  obtain ⟨referenceTs, hreferenceTs⟩ := exists_toInt hc.referenceTs.1 hc.referenceTs.2
  exact ⟨⟨⟨o.fixtureRef, ho.fixtureRef⟩, statKey, c.op.code, threshold, value, obsTs, referenceTs,
    windowSeconds⟩, rfl, hstatKey, rfl, hthreshold, hvalue, hobsTs, hreferenceTs, hseconds⟩

/-- Each field of the message is written where the one before it ends. -/
theorem writes_message (a : AttestationValidator.Args) :
    writeAt (writeAt (writeAt (writeAt (writeAt (alloc attestationMsgLen) 0 attestationMsgPrefix) 30
      a.fixtureRef.1) 46 (encodeU32 a.statKey)) 50 (encodeI64 a.value)) 58 (encodeI64 a.obsTs) =
        a.message := by
  have h30 : attestationMsgPrefix.length = 30 := by
    rw [attestationMsgPrefix_eq]
    rfl
  have h46 : (attestationMsgPrefix ++ a.fixtureRef.1).length = 46 := by
    rw [List.length_append, h30, a.fixtureRef.2]
  have h50 : ((attestationMsgPrefix ++ a.fixtureRef.1) ++ encodeU32 a.statKey).length = 50 := by
    rw [List.length_append, h46, length_encodeU32]
  have h58 : (((attestationMsgPrefix ++ a.fixtureRef.1) ++ encodeU32 a.statKey) ++
      encodeI64 a.value).length = 58 := by
    rw [List.length_append, h50, length_encodeI64]
  have hempty : writeAt ([] ++ alloc attestationMsgLen) 0 attestationMsgPrefix =
      ([] ++ attestationMsgPrefix) ++ alloc (attestationMsgLen - attestationMsgPrefix.length) :=
    writeAt_alloc rfl
  rw [List.nil_append, List.nil_append] at hempty
  rw [hempty, writeAt_alloc h30, writeAt_alloc h46, writeAt_alloc h50, writeAt_alloc h58, h30,
    a.fixtureRef.2, length_encodeU32, length_encodeI64, length_encodeI64]
  show (_ : Bytes) ++ [] = _
  rw [List.append_nil, AttestationValidator.Args.message, attestationMsgPrefix_eq]
  simp only [List.append_assoc]

namespace Carries
variable {a : AttestationValidator.Args} {o : AttestationObservation} {c : AttestationClaim}

theorem buildAttestationMessage (h : Carries a o c) :
    buildAttestationMessage o = .ok a.message := by
  have hfixture : o.fixtureRef.length = 16 := h.fixtureRef ▸ a.fixtureRef.2
  rw [Sdk.buildAttestationMessage, require_of hfixture, ok_bind, ← h.statKey, ← h.value, ← h.obsTs,
    ← h.fixtureRef, writeUInt32LE_toNat, ok_bind, writeBigInt64LE_toInt, ok_bind,
    writeBigInt64LE_toInt, ok_bind, writes_message]
  rfl

/-- The instruction data of the oracle is the encoding of the arguments. -/
theorem buildVerifySpec (sha256 : Sha256) (params : VerifyParams AttestationProof)
    (h : Carries a params.proof.toAttestationObservation params.proof.toAttestationClaim)
    (hsignature : params.proof.signature.length = 64) :
    ∃ digest : List.Vector UInt8 32, (attestationOracle sha256).buildVerifySpec params = .ok
      { validatorProgram := attestationValidatorId
        anchorAccounts := [.config params.proof.authority, .external instructionsSysvarId]
        instructionData := AttestationValidator.validateAttestationDiscriminator ++ a.encode
        merkleRoot := digest.1 } := by
  have hdigest : ∃ digest, attestationObservationDigest sha256 params.proof = .ok digest := by
    rw [attestationObservationDigest, require_of hsignature, ok_bind, ← h.statKey,
      writeUInt32LE_toNat, ok_bind]
    exact ⟨_, rfl⟩
  obtain ⟨digest, hdigest⟩ := hdigest
  refine ⟨digest, ?_⟩
  rw [attestationOracle]
  show (writeUInt32LE params.proof.windowSeconds >>= _) = _
  rw [← h.windowSeconds, ← h.statKey, writeUInt32LE_toNat, ok_bind, writeUInt32LE_toNat, ok_bind,
    ← h.fixtureRef, ← h.op, ← h.threshold, ← h.value, ← h.obsTs, ← h.referenceTs, hdigest, ok_bind,
    writeI64LE_toInt, writeI64LE_toInt, writeI64LE_toInt, writeI64LE_toInt]
  rfl

theorem timely (h : Carries a o c) (hc : c.Covers o) : a.Timely := by
  have hbefore := hc.notBefore
  have hafter := hc.notAfter
  have hend := hc.windowEnd
  rw [← h.referenceTs, ← h.obsTs] at hbefore
  rw [← h.referenceTs, ← h.obsTs, ← h.windowSeconds] at hafter
  rw [← h.referenceTs, ← h.windowSeconds] at hend
  exact ⟨hbefore, hafter, hend⟩

theorem holds (h : Carries a o c) : a.holds = some (decide (c.op.holds o.value c.threshold)) := by
  have heq : a.value = a.threshold ↔ a.value.toInt = a.threshold.toInt := Int64.toInt_inj.symm
  rw [AttestationValidator.Args.holds, h.op, ← h.value, ← h.threshold]
  cases c.op with
  | gte => exact congrArg some (decide_eq_decide.mpr Int64.le_iff_toInt_le)
  | lte => exact congrArg some (decide_eq_decide.mpr Int64.le_iff_toInt_le)
  | eq => exact congrArg some (decide_eq_decide.mpr heq)

end Carries

/-- An observation that fits has its message, whatever is claimed of it. -/
theorem AttestationObservation.Fits.message {o : AttestationObservation} (ho : o.Fits) :
    ∃ a : AttestationValidator.Args, buildAttestationMessage o = .ok a.message := by
  have hzero : FitsI64 0 := ⟨by norm_num, by norm_num⟩
  have hnow : o.obsTs + 0 = o.obsTs := Int.add_zero _
  have hc : (⟨.eq, 0, o.obsTs, 0⟩ : AttestationClaim).Covers o :=
    ⟨hzero, ho.obsTs, le_rfl, hnow.ge, hnow.trans_lt ho.obsTs.2⟩
  have hwindow : (0 : ℤ) < 2 ^ 32 := by norm_num
  obtain ⟨a, ha⟩ := exists_carries ho hc hwindow
  exact ⟨a, ha.buildAttestationMessage⟩

theorem AttestationObservation.fits_of_message {o : AttestationObservation} {message : Bytes}
    (h : buildAttestationMessage o = .ok message) : o.Fits := by
  simp only [Sdk.buildAttestationMessage, bind_eq_ok, require_eq_ok] at h
  obtain ⟨-, hfixture, _, hstatKey, _, hvalue, _, hobsTs, -⟩ := h
  have hfits {v : ℤ} {bs : Bytes} (h : writeBigInt64LE v = .ok bs) : FitsI64 v := by
    rw [writeBigInt64LE] at h
    split at h
    · assumption
    · cases h
  refine ⟨hfixture, ?_, hfits hvalue, hfits hobsTs⟩
  rw [writeUInt32LE] at hstatKey
  split at hstatKey
  · assumption
  · cases hstatKey

end Stoppage.Sdk
