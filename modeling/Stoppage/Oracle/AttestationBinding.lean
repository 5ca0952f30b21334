import Stoppage.Lib.Access
import Stoppage.Oracle.AttestationAuthority

/-! # What an attested answer is bound to

An answer of `validate_attestation` rests on the precompile instruction right before it, read the
way the precompile reads it: the one signature of that instruction is by the pinned key and over
the 66 bytes of the argued observation. The bytes determine the observation, and no content of the
instruction makes the handler read past its end.
-/

namespace Stoppage
open Fallible LittleEndian Access
set_option autoImplicit false

/-! ## The reading of the precompile -/

/-- The precompile reads `d` as one signature by `key` over `message`, all of it within `d`. -/
structure Runtime.Designates (rt : Runtime) (ctx : TxContext) (d key message : Bytes) : Prop where
  single : (d.getD 0 0).toNat = 1
  ownSignature : u16At d 4 = thisInstruction
  ownKey : u16At d 8 = thisInstruction
  ownMessage : u16At d 14 = thisInstruction
  key : rt.dataSlice ctx d (u16At d 8) (u16At d 6) 32 = some key
  message : rt.dataSlice ctx d (u16At d 14) (u16At d 10) (u16At d 12) = some message

/-- What the precompile lets through was signed by the key it designates. -/
theorem Runtime.Designates.signed {rt : Runtime} {ctx : TxContext} {d key message : Bytes}
    (h : rt.Designates ctx d key message) (hd : rt.ed25519Precompile ctx d = .ok ()) :
    ∃ signature, signature.length = 64 ∧ rt.ed25519Verify key signature message = true := by
  have hself : SelfContained d :=
    ⟨UInt8.toNat_inj.mp h.single, h.ownSignature, h.ownKey, h.ownMessage⟩
  obtain ⟨-, hentry⟩ := (hself.precompile_iff rt ctx).mp hd
  obtain ⟨hsig, hkey, hmsg, hverify⟩ := (hself.verifyEntry_iff rt ctx).mp hentry
  have hk := h.key
  have hm := h.message
  rw [h.ownKey, dataSlice_this, if_pos hkey] at hk
  rw [h.ownMessage, dataSlice_this, if_pos hmsg] at hm
  rw [Option.some.inj hk, Option.some.inj hm] at hverify
  exact ⟨_, length_slice hsig, hverify⟩

namespace AttestationValidator

theorem designates_of_checkSignature {k : Pubkey} {a : Args} {d : Bytes}
    (h : checkSignature k a d = .ok ()) (rt : Runtime) (ctx : TxContext) :
    rt.Designates ctx d k.bytes a.message := by
  obtain ⟨-, hself, -, ⟨hkeyFits, hmsgFits⟩, hkey, hmsg⟩ := checkSignature_iff.mp h
  refine ⟨congrArg UInt8.toNat hself.one, hself.signature, hself.key, hself.message, ?_, ?_⟩
  · rw [hself.key, dataSlice_this, if_pos hkeyFits, hkey]
  · rw [hself.message, dataSlice_this, if_pos hmsgFits, hmsg]

theorem precedingEd25519_eq_some {ctx : TxContext} {d : Bytes} :
    precedingEd25519 ctx = some d ↔
      ∃ i, ctx.index = i + 1 ∧ ctx.instructions[i]? = some (.ed25519 d) := by
  unfold precedingEd25519
  constructor
  · intro h
    split at h
    · rename_i hpos
      split at h
      · rename_i d' hget
        cases h
        exact ⟨ctx.index - 1, by omega, hget⟩
      · cases h
    · cases h
  · rintro ⟨i, hindex, hget⟩
    rw [hindex, if_pos (Nat.succ_pos i), Nat.add_sub_cancel, hget]

theorem validateAttestation_signature {ctx : TxContext} {config : Config} {instructions : Address}
    {a : Args} {holds : Bool} (h : validateAttestation ctx config instructions a = .ok holds) :
    ∃ d, precedingEd25519 ctx = some d ∧ checkSignature config.authority a d = .ok () := by
  simp only [validateAttestation, bind_eq_ok, require_eq_ok, getOr_eq_ok] at h
  obtain ⟨-, -, d, hd, ⟨⟩, hsig, -⟩ := h
  exact ⟨d, hd, hsig⟩

/-! ## The observation -/

/-- The part of the arguments that the operator signs. -/
def Args.observed (a : Args) : List.Vector UInt8 16 × UInt32 × Int64 × Int64 :=
  (a.fixtureRef, a.statKey, a.value, a.obsTs)

theorem Args.message_fields (a : Args) :
    slice a.message 30 16 = a.fixtureRef.1 ∧ slice a.message 46 4 = encodeU32 a.statKey ∧
      slice a.message 50 8 = encodeI64 a.value ∧ slice a.message 58 8 = encodeI64 a.obsTs := by
  obtain ⟨-, h30⟩ := read_field (n := 30) (List.drop_zero (l := a.message)) rfl
  obtain ⟨hfixture, h46⟩ := read_field h30 a.fixtureRef.2
  obtain ⟨hkey, h50⟩ := read_field h46 (length_encodeU32 _)
  obtain ⟨hvalue, h58⟩ := read_field h50 (length_encodeI64 _)
  obtain ⟨hobs, -⟩ := read_field (h58.trans (List.append_nil _).symm) (length_encodeI64 _)
  exact ⟨hfixture, hkey, hvalue, hobs⟩

theorem Args.observed_of_message {a b : Args} (h : a.message = b.message) :
    a.observed = b.observed := by
  obtain ⟨hfixture, hkey, hvalue, hobs⟩ := a.message_fields
  obtain ⟨hfixture', hkey', hvalue', hobs'⟩ := b.message_fields
  rw [h] at hfixture hkey hvalue hobs
  have hf : a.fixtureRef = b.fixtureRef := Subtype.ext (hfixture.symm.trans hfixture')
  have hk : a.statKey = b.statKey := by
    rw [← decodeU32_encodeU32 a.statKey, ← hkey, hkey', decodeU32_encodeU32]
  have hv : a.value = b.value := by
    rw [← decodeI64_encodeI64 a.value, ← hvalue, hvalue', decodeI64_encodeI64]
  have ho : a.obsTs = b.obsTs := by
    rw [← decodeI64_encodeI64 a.obsTs, ← hobs, hobs', decodeI64_encodeI64]
  rw [observed, observed, hf, hk, hv, ho]

/-- One precompile instruction vouches for one key and one message. -/
theorem checkSignature_unique {k k' : Pubkey} {a b : Args} {d : Bytes}
    (h : checkSignature k a d = .ok ()) (h' : checkSignature k' b d = .ok ()) :
    k.bytes = k'.bytes ∧ a.message = b.message := by
  obtain ⟨-, -, -, -, hkey, hmsg⟩ := checkSignature_iff.mp h
  obtain ⟨-, -, -, -, hkey', hmsg'⟩ := checkSignature_iff.mp h'
  exact ⟨hkey.symm.trans hkey', hmsg.symm.trans hmsg'⟩

/-! ## Every access of the handler -/

section Checked
variable {ε : Type}

/-- `u16::from_le_bytes([d[i], d[i + 1]])`, with its two accesses. -/
def u16Checked (d : Bytes) (i : ℕ) : Except (Fault ε) ℕ := do
  let low ← index d i
  let high ← index d (i + 1)
  pure (low.toNat + 256 * high.toNat)

theorem u16Checked_of {d : Bytes} {i : ℕ} (h : i + 1 < d.length) :
    (u16Checked d i : Except (Fault ε) ℕ) = .ok (u16At d i) := by
  rw [u16Checked, index_of (Nat.lt_of_succ_lt h), ok_bind, index_of h]
  rfl

end Checked

/-- `checkSignature` with each access to the data where the handler makes it. -/
def checkSignatureChecked (authority : Pubkey) (a : Args) (d : Bytes) :
    Except (Fault ProgramError) Unit := do
  require (16 ≤ d.length) (.error (.attestation .malformedSigIx))
  let signatures ← index d 0
  require (signatures = 1) (.error (.attestation .malformedSigIx))
  let sigIx ← u16Checked d 4
  let pkOff ← u16Checked d 6
  let pkIx ← u16Checked d 8
  let msgOff ← u16Checked d 10
  let msgSize ← u16Checked d 12
  let msgIx ← u16Checked d 14
  require (sigIx = thisInstruction ∧ pkIx = thisInstruction ∧ msgIx = thisInstruction)
    (.error (.attestation .crossInstructionReference))
  require (msgSize = msgLen) (.error (.attestation .messageMismatch))
  require (pkOff + 32 ≤ d.length ∧ msgOff + msgSize ≤ d.length)
    (.error (.attestation .malformedSigIx))
  let key ← range d pkOff (pkOff + 32)
  require (key = authority.bytes) (.error (.attestation .signerMismatch))
  let message ← range d msgOff (msgOff + msgSize)
  require (message = a.message) (.error (.attestation .messageMismatch))

def validateAttestationChecked (ctx : TxContext) (config : Config) (instructions : Address)
    (a : Args) : Except (Fault ProgramError) Bool := do
  require (instructions = .external instructionsSysvarId)
    (.error (.attestation .missingInstructionsSysvar))
  let d ← getOr (.error (.attestation .missingEd25519Instruction)) (precedingEd25519 ctx)
  checkSignatureChecked config.authority a d
  let upper ← lift (checkedAddInt (.attestation .overflow) a.referenceTs
    (Int64.ofNat a.windowSeconds.toNat))
  require (a.referenceTs ≤ a.obsTs) (.error (.attestation .beforeReference))
  require (a.obsTs ≤ upper) (.error (.attestation .outsideWindow))
  getOr (.error (.attestation .invalidOp)) a.holds

theorem checkSignatureChecked_eq (k : Pubkey) (a : Args) (d : Bytes) :
    checkSignatureChecked k a d = lift (checkSignature k a d) := by
  rw [checkSignatureChecked, checkSignature]
  simp only [lift_bind, lift_require]
  -- The first guard carries every access to the header, the last but two the ranges.
  refine require_bind_congr fun hlong => ?_
  rw [index_of (by omega), ok_bind]
  refine require_bind_congr fun _ => ?_
  rw [u16Checked_of (by omega), ok_bind, u16Checked_of (by omega), ok_bind,
    u16Checked_of (by omega), ok_bind, u16Checked_of (by omega), ok_bind,
    u16Checked_of (by omega), ok_bind, u16Checked_of (by omega), ok_bind]
  refine require_bind_congr fun _ => require_bind_congr fun _ => require_bind_congr fun hfits => ?_
  rw [range_of hfits.1, ok_bind]
  refine require_bind_congr fun _ => ?_
  rw [range_of hfits.2, ok_bind]

theorem validateAttestationChecked_eq (ctx : TxContext) (config : Config) (instructions : Address)
    (a : Args) : validateAttestationChecked ctx config instructions a =
      lift (validateAttestation ctx config instructions a) := by
  rw [validateAttestationChecked, validateAttestation]
  simp only [lift_bind, lift_require, lift_getOr, checkSignatureChecked_eq]

/-- **Attestation binding.** An answer rests on the precompile instruction right before the call,
whose one signature the precompile reads, within the instruction's own data, as one of the pinned
key over the argued observation; the 66 bytes determine the observation, one precompile
instruction answers for one observation, and no access of the handler is out of bounds. -/
theorem attestation_binding (rt : Runtime) (ctx : TxContext) (config : Config)
    (instructions : Address) (a : Args) :
    (∀ holds, validateAttestation ctx config instructions a = .ok holds →
      ∃ i d, ctx.index = i + 1 ∧ ctx.instructions[i]? = some (.ed25519 d) ∧
        rt.Designates ctx d config.authority.bytes a.message ∧ a.message.length = 66) ∧
    (∀ b : Args, a.message = b.message → a.observed = b.observed) ∧
    (∀ (ctx' : TxContext) (config' : Config) (instructions' : Address) (b : Args) (r r' : Bool),
      precedingEd25519 ctx = precedingEd25519 ctx' →
      validateAttestation ctx config instructions a = .ok r →
      validateAttestation ctx' config' instructions' b = .ok r' → a.observed = b.observed) ∧
    validateAttestationChecked ctx config instructions a ≠ .error .outOfBounds := by
  refine ⟨?_, fun b => Args.observed_of_message, ?_, ?_⟩
  · intro holds h
    obtain ⟨d, hd, hsig⟩ := validateAttestation_signature h
    obtain ⟨i, hindex, hget⟩ := precedingEd25519_eq_some.mp hd
    exact ⟨i, d, hindex, hget, designates_of_checkSignature hsig rt ctx, a.length_message⟩
  · intro ctx' config' instructions' b r r' hsame h h'
    obtain ⟨d, hd, hsig⟩ := validateAttestation_signature h
    obtain ⟨d', hd', hsig'⟩ := validateAttestation_signature h'
    cases (hd.symm.trans hsame).trans hd'
    exact Args.observed_of_message (checkSignature_unique hsig hsig').2
  · rw [validateAttestationChecked_eq]
    exact lift_ne_outOfBounds _

theorem attestation_binding_sample :
    ∃ (ctx : TxContext) (config : Config) (a : Args),
      validateAttestation ctx config (.external instructionsSysvarId) a = .ok true ∧
      (∃ i d, ctx.index = i + 1 ∧ ctx.instructions[i]? = some (.ed25519 d) ∧
        (Sample.attesting [Sample.signedA]).Designates ctx d config.authority.bytes a.message) ∧
      validateAttestationChecked ctx config (.external instructionsSysvarId) a ≠
        .error .outOfBounds := by
  let a := Sample.observation 6600000000000
  let ctx : TxContext := ⟨[.ed25519 (signedData Sample.operatorA Sample.signatureA a)], 1⟩
  have hvalid : validateAttestation ctx ⟨Sample.operatorA⟩ (.external instructionsSysvarId) a =
      .ok true :=
    validateAttestation_of rfl (checkSignature_signedData ..) ⟨by decide, by decide, by decide⟩
      (by decide)
  obtain ⟨hbound, -, -, hsafe⟩ := attestation_binding (Sample.attesting [Sample.signedA]) ctx
    ⟨Sample.operatorA⟩ (.external instructionsSysvarId) a
  obtain ⟨i, d, hindex, hget, hread, -⟩ := hbound true hvalid
  exact ⟨ctx, ⟨Sample.operatorA⟩, a, hvalid, ⟨i, d, hindex, hget, hread⟩, hsafe⟩

end AttestationValidator

end Stoppage
