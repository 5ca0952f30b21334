import Stoppage.Sdk.Oracle

/-! # `apps/agent/src/attestationKeeper.ts`: the settlement bundle

One transaction that signs an observation, resolves the market with it, settles the market and
attests the verification. The packages of which the repository has no source are a parameter, and
`SignedInstruction` is what is relied on of the builder of the precompile instruction.
-/

namespace Stoppage.Agent
open LittleEndian Fallible Sdk
set_option autoImplicit false

/-- `js-sha256`, and `Ed25519Program.createInstructionWithPrivateKey` of `@solana/web3.js`: the
data of the instruction by secret key and message. -/
structure Packages where
  sha256 : Sha256
  createInstructionWithPrivateKey : Bytes → Bytes → Bytes

structure Keypair where
  publicKey : Pubkey
  secretKey : Bytes

/-- The part of the configuration that the bundle depends on. -/
structure AttestationKeeperConfig where
  wallet : Keypair
  attestor : Keypair

/-- The precompile instruction with the signature of the attestor. -/
def precompileIx (js : Packages) (attestor : Keypair) (message : Bytes) :
    TransactionInstruction where
  programId := ed25519ProgramId
  keys := []
  data := js.createInstructionWithPrivateKey attestor.secretKey message

def buildSettlementBundle (js : Packages) (cfg : AttestationKeeperConfig) (marketPda : Pubkey)
    (statement : String) (outcome : ℤ) (observation : AttestationObservation)
    (claim : AttestationClaim) (message : Bytes) :
    Except SdkError (List TransactionInstruction) := do
  let precompile := precompileIx js cfg.attestor message
  -- `data.subarray(16, 80)`
  let signature := slice precompile.data 16 64
  let resolveIx ← buildResolveMarketIxFromOracle (attestationOracle js.sha256) cfg.wallet.publicKey
    marketPda statement outcome
    { observation, claim with authority := cfg.attestor.publicKey, signature }
  let settleIx := buildSettleFromProofIx cfg.wallet.publicKey marketPda
    (if outcome = 0 then .yes else .no)
  let attestIx := buildAttestVerificationIx cfg.wallet.publicKey marketPda
  pure [setComputeUnitLimit 1400000, precompile, resolveIx, settleIx, attestIx]

/-- The data of a precompile instruction with one signature entry, of the key over the message,
which refers to the instruction itself and lies within it, the message behind the header. -/
structure SignedInstruction (k : Pubkey) (message d : Bytes) : Prop where
  selfContained : SelfContained d
  signatureEnd : u16At d 2 + 64 ≤ d.length
  keyEnd : u16At d 6 + 32 ≤ d.length
  key : slice d (u16At d 6) 32 = k.bytes
  messageStart : 16 ≤ u16At d 10
  messageSize : u16At d 12 = message.length
  messageEnd : u16At d 10 + message.length ≤ d.length
  message : slice d (u16At d 10) message.length = message

theorem SignedInstruction.checkSignature {k : Pubkey} {a : AttestationValidator.Args} {d : Bytes}
    (h : SignedInstruction k a.message d) :
    AttestationValidator.checkSignature k a d = .ok () := by
  have hstart := h.messageStart
  have hend := h.messageEnd
  refine AttestationValidator.checkSignature_iff.mpr ⟨by omega, h.selfContained, ?_, ?_, h.key, ?_⟩
  · rw [h.messageSize, a.length_message]
  · rw [h.messageSize]
    exact ⟨h.keyEnd, h.messageEnd⟩
  · rw [h.messageSize, h.message]

/-- The layout that the package really has: key, signature and message in this order. -/
theorem signedInstruction_signedData (k : Pubkey) (signature : List.Vector UInt8 64)
    (a : AttestationValidator.Args) :
    SignedInstruction k a.message (AttestationValidator.signedData k signature a) := by
  obtain ⟨h2, h6, h10, h12⟩ := AttestationValidator.offsets_signedData k signature a
  obtain ⟨hkey, -, hmessage⟩ := AttestationValidator.slices_signedData k signature a
  have hlength := AttestationValidator.length_signedData k signature a
  have hsize : a.message.length = 66 := a.length_message
  refine ⟨AttestationValidator.selfContained_signedData k signature a, ?_, ?_, ?_, ?_, ?_, ?_, ?_⟩
  · rw [h2, hlength]
    decide
  · rw [h6, hlength]
    decide
  · rw [h6, hkey]
  · rw [h10]
    decide
  · rw [h12, hsize]
  · rw [h10, hlength, hsize]
  · rw [h10, hsize, hmessage]

/-! ## The bundle as the programs read it -/

/-- The instructions of a bundle for the receipt and the outcome of a market. -/
def settlementInstructions (cfg : AttestationKeeperConfig) (marketPda : Pubkey) (statement : String)
    (root : List.Vector UInt8 32) (outcome : UInt8) (a : AttestationValidator.Args) (d : Bytes) :
    List Instruction :=
  [.setComputeUnitLimit 1400000, .ed25519 d,
    .resolveMarket cfg.wallet.publicKey (.market marketPda) statement root outcome
      (AttestationValidator.validateAttestationDiscriminator ++ a.encode)
      [.external attestationValidatorId, .config cfg.attestor.publicKey,
        .external instructionsSysvarId],
    .settleFromProof cfg.wallet.publicKey marketPda (.resolution marketPda) outcome,
    .attestVerification cfg.wallet.publicKey marketPda]

section Built
variable {js : Packages} {cfg : AttestationKeeperConfig} {m : Pubkey} {statement : String}
  {outcome : ℤ} {o : AttestationObservation} {c : AttestationClaim}

theorem length_signature {a : AttestationValidator.Args} {k : Pubkey} {d : Bytes}
    (h : SignedInstruction k a.message d) : (slice d 16 64).length = 64 := by
  have hstart := h.messageStart
  have hend := h.messageEnd
  rw [a.length_message, AttestationValidator.msgLen] at hend
  exact length_slice (by omega)

theorem buildSettlementBundle_window {message : Bytes} {bundle : List TransactionInstruction}
    (h : buildSettlementBundle js cfg m statement outcome o c message = .ok bundle) :
    c.windowSeconds < 2 ^ 32 := by
  simp only [buildSettlementBundle, buildResolveMarketIxFromOracle, attestationOracle,
    bind_eq_ok] at h
  obtain ⟨-, ⟨-, ⟨windowBuf, hwindow, -⟩, -⟩, -⟩ := h
  obtain ⟨x, hx, -⟩ := writeUInt32LE_eq_ok.mp hwindow
  have hlt := x.toNat_lt
  have hseconds : (x.toNat : ℤ) = c.windowSeconds := hx
  omega

section Carried
variable {a : AttestationValidator.Args} {d : Bytes}

/-- What a bundle consists of, if the settlement instruction is built. -/
theorem buildSettlementBundle_eq_ok (hcarries : Carries a o c)
    (hd : js.createInstructionWithPrivateKey cfg.attestor.secretKey a.message = d)
    (hsigned : SignedInstruction cfg.attestor.publicKey a.message d) :
    ∃ root : List.Vector UInt8 32, ∀ bundle,
      buildSettlementBundle js cfg m statement outcome o c a.message = .ok bundle ↔
      ∃ ix, buildResolveMarketIx cfg.wallet.publicKey m attestationValidatorId
          [.config cfg.attestor.publicKey, .external instructionsSysvarId] statement root.1 outcome
          (AttestationValidator.validateAttestationDiscriminator ++ a.encode) = .ok ix ∧
        [setComputeUnitLimit 1400000, ⟨ed25519ProgramId, [], d⟩, ix,
          buildSettleFromProofIx cfg.wallet.publicKey m (if outcome = 0 then .yes else .no),
          buildAttestVerificationIx cfg.wallet.publicKey m] = bundle := by
  subst hd
  let proof : AttestationProof := { o, c with
    authority := cfg.attestor.publicKey
    signature := slice (js.createInstructionWithPrivateKey cfg.attestor.secretKey a.message) 16 64 }
  obtain ⟨root, hspec⟩ := Carries.buildVerifySpec js.sha256 ⟨outcome, statement, proof⟩ hcarries
    (length_signature hsigned)
  refine ⟨root, fun bundle => ?_⟩
  have hresolve : buildResolveMarketIxFromOracle (attestationOracle js.sha256)
      cfg.wallet.publicKey m statement outcome proof =
        buildResolveMarketIx cfg.wallet.publicKey m attestationValidatorId
          [.config cfg.attestor.publicKey, .external instructionsSysvarId] statement root.1 outcome
          (AttestationValidator.validateAttestationDiscriminator ++ a.encode) := by
    rw [buildResolveMarketIxFromOracle, hspec, ok_bind]
  show (buildResolveMarketIxFromOracle (attestationOracle js.sha256) cfg.wallet.publicKey m
    statement outcome proof >>= _) = _ ↔ _
  rw [hresolve, bind_eq_ok]
  simp only [pure_eq_ok]
  rfl

theorem buildSettlementBundle_load (hcarries : Carries a o c)
    (hd : js.createInstructionWithPrivateKey cfg.attestor.secretKey a.message = d)
    (hsigned : SignedInstruction cfg.attestor.publicKey a.message d)
    (hout : outcome = 0 ∨ outcome = 1) {bundle : List TransactionInstruction}
    (h : buildSettlementBundle js cfg m statement outcome o c a.message = .ok bundle) :
    (utf8 statement).length < 2 ^ 32 ∧ ∃ root, ∀ rt,
      bundle.mapM (TransactionInstruction.load rt) =
        some (settlementInstructions cfg m statement root (lowByte outcome) a d) := by
  obtain ⟨root, hbuilt⟩ := buildSettlementBundle_eq_ok hcarries hd hsigned
  obtain ⟨ix, hix, rfl⟩ := (hbuilt bundle).mp h
  obtain ⟨hstatement, hload⟩ := buildResolveMarketIx_load hix
  have hside : (if (if outcome = 0 then Sdk.Side.yes else .no) = .yes then sideYes else sideNo) =
      lowByte outcome := by
    rcases hout with rfl | rfl <;> rfl
  refine ⟨hstatement, root, fun rt => ?_⟩
  have hed : (⟨ed25519ProgramId, [], d⟩ : TransactionInstruction).load rt = some (.ed25519 d) := rfl
  have hsettle := load_buildSettleFromProofIx rt cfg.wallet.publicKey m
    (if outcome = 0 then .yes else .no)
  rw [hside] at hsettle
  simp only [List.mapM_cons, List.mapM_nil, load_setComputeUnitLimit, hed, hload, hsettle,
    load_buildAttestVerificationIx]
  rfl

theorem buildSettlementBundle_isOk (hcarries : Carries a o c)
    (hd : js.createInstructionWithPrivateKey cfg.attestor.secretKey a.message = d)
    (hsigned : SignedInstruction cfg.attestor.publicKey a.message d)
    (hstatement : (utf8 statement).length < 2 ^ 32) :
    ∃ bundle, buildSettlementBundle js cfg m statement outcome o c a.message = .ok bundle := by
  obtain ⟨root, hbuilt⟩ := buildSettlementBundle_eq_ok hcarries hd hsigned
  have hlength : (AttestationValidator.validateAttestationDiscriminator ++ a.encode).length <
      2 ^ 32 := by
    rw [List.length_append, a.length_encode]
    decide
  obtain ⟨ix, hix⟩ := buildResolveMarketIx_isOk hstatement hlength cfg.wallet.publicKey m
    attestationValidatorId [.config cfg.attestor.publicKey, .external instructionsSysvarId] root.1
    outcome
  exact ⟨_, (hbuilt _).mpr ⟨ix, hix, rfl⟩⟩

end Carried

end Built

end Stoppage.Agent
