import Stoppage.Oracle.Lockstep

/-! # The digest in an attestation receipt

The bundle of a keeper cuts the signature out of the data of the precompile instruction, where the
public key comes first. `receipt_digest_iff` says when the digest is that of the signature all the
same.
-/

namespace Stoppage
open LittleEndian Fallible Agent Sdk
set_option autoImplicit false

/-! ## What a digest is taken of -/

def observationBytes (proof : AttestationProof) : Bytes :=
  utf8 "stoppage/attestation-observation/v1" ++ (proof.authority.bytes ++ (proof.fixtureRef ++
    (encode 4 proof.statKey.toNat ++ (writeI64LE proof.value ++ (writeI64LE proof.obsTs ++
      proof.signature)))))

theorem attestationObservationDigest_eq_ok {sha256 : Sha256} {proof : AttestationProof}
    {digest : List.Vector UInt8 32} :
    attestationObservationDigest sha256 proof = .ok digest ↔
      proof.signature.length = 64 ∧ FitsU32 proof.statKey ∧
        sha256 (observationBytes proof) = digest := by
  simp only [attestationObservationDigest, bind_eq_ok, require_eq_ok, pure_eq_ok,
    writeUInt32LE_eq_ok]
  constructor
  · rintro ⟨-, hlength, _, ⟨x, hx, rfl⟩, hdigest⟩
    have hnat : proof.statKey.toNat = x.toNat := by omega
    have hlt := x.toNat_lt
    refine ⟨hlength, ⟨by omega, by omega⟩, ?_⟩
    rw [observationBytes, hnat]
    exact hdigest
  · rintro ⟨hlength, hfits, hdigest⟩
    obtain ⟨x, hx⟩ := hfits.exists_toNat
    have hnat : proof.statKey.toNat = x.toNat := by omega
    refine ⟨(), hlength, _, ⟨x, hx, rfl⟩, ?_⟩
    rw [observationBytes, hnat] at hdigest
    exact hdigest

/-- The proof over an observation with a signature of the attestor. -/
def attestationProof (cfg : AttestationKeeperConfig) (o : AttestationObservation)
    (c : AttestationClaim) (signature : Bytes) : AttestationProof :=
  { o, c with authority := cfg.attestor.publicKey, signature }

/-- With the same authority and observation, equal bytes have equal signatures. -/
theorem observationBytes_inj {cfg : AttestationKeeperConfig} {o : AttestationObservation}
    {c : AttestationClaim} {s t : Bytes} : observationBytes (attestationProof cfg o c s) =
      observationBytes (attestationProof cfg o c t) ↔ s = t := by
  simp only [observationBytes, attestationProof, List.append_cancel_left_eq]

/-! ## What the bundle anchors -/

/-- The root in the `resolve_market` instruction of a transaction. -/
def anchoredRoot (rt : Runtime) (bundle : List TransactionInstruction) :
    Option (List.Vector UInt8 32) :=
  bundle.findSome? fun ix =>
    match ix.load rt with
    | some (.resolveMarket _ _ _ root _ _ _) => some root
    | _ => none

section Built
variable {rt : Runtime} {js : Packages} {cfg : AttestationKeeperConfig} {m : Pubkey}
  {statement : String} {outcome : ℤ} {o : AttestationObservation} {c : AttestationClaim}
  {message : Bytes} {bundle : List TransactionInstruction}

/-- The anchored root is the digest with the bytes 16 to 79 of the precompile data. -/
theorem anchoredRoot_buildSettlementBundle
    (h : buildSettlementBundle js cfg m statement outcome o c message = .ok bundle) :
    ∃ root, anchoredRoot rt bundle = some root ∧
      attestationObservationDigest js.sha256 (attestationProof cfg o c
        (slice (precompileIx js cfg.attestor message).data 16 64)) = .ok root := by
  simp only [buildSettlementBundle, buildResolveMarketIxFromOracle, attestationOracle, bind_eq_ok,
    pure_eq_ok] at h
  obtain ⟨ix, ⟨_, ⟨windowBuf, -, statKeyBuf, -, root, hroot, rfl⟩, hix⟩, rfl⟩ := h
  obtain ⟨-, hload⟩ := buildResolveMarketIx_load hix
  refine ⟨root, ?_, hroot⟩
  have hed : (precompileIx js cfg.attestor message).load rt =
      some (.ed25519 (precompileIx js cfg.attestor message).data) := rfl
  simp only [anchoredRoot, List.findSome?_cons, load_setComputeUnitLimit, hed, hload]

end Built

/-- The layout of the package: behind a header of 16 bytes, which refers to them, the public key,
the signature and the message. -/
structure KeyFirst (k : Pubkey) (signature : List.Vector UInt8 64) (message d : Bytes) : Prop where
  signed : SignedInstruction k message d
  signatureOffset : u16At d 2 = 48
  keyOffset : u16At d 6 = 16
  messageOffset : u16At d 10 = 112
  layout : d.drop 16 = k.bytes ++ (signature.1 ++ message)

/-- What the bundle takes for the signature. -/
theorem KeyFirst.slice_eq {k : Pubkey} {signature : List.Vector UInt8 64} {message d : Bytes}
    (h : KeyFirst k signature message d) :
    slice d 16 64 = k.bytes ++ signature.1.take 32 := by
  have hsignature : 32 ≤ signature.1.length := by
    rw [signature.2]
    decide
  have htake := @List.take_length_add_append _ k.bytes (signature.1 ++ message) 32
  rw [k.size, List.take_append_of_le_length hsignature] at htake
  rw [slice, h.layout]
  exact htake

/-- A text of 64 bytes that starts with a key and goes on with its own first half. -/
theorem append_take_eq_iff {k s : Bytes} (hk : k.length = 32) (hs : s.length = 64) :
    k ++ s.take 32 = s ↔ s = k ++ k := by
  constructor
  · intro h
    have hhalf : s.take 32 = k := by
      rw [← h]
      exact List.take_left' hk
    rw [hhalf] at h
    exact h.symm
  · rintro rfl
    rw [List.take_left' hk]

/-- **What the receipt commits to.** With key, signature and message in the order of the package,
the anchored root is the digest of the attestor's signature exactly when that signature is the
public key twice. -/
theorem receipt_digest_iff {rt : Runtime} {js : Packages} {cfg : AttestationKeeperConfig} {m : Pubkey}
    {statement : String} {outcome : ℤ} {o : AttestationObservation} {c : AttestationClaim}
    {message : Bytes} {signature : List.Vector UInt8 64} {bundle : List TransactionInstruction}
    (hlayout : KeyFirst cfg.attestor.publicKey signature message
      (precompileIx js cfg.attestor message).data)
    (hcollision :
      let anchored := observationBytes (attestationProof cfg o c
        (slice (precompileIx js cfg.attestor message).data 16 64))
      let signed := observationBytes (attestationProof cfg o c signature.1)
      js.sha256 anchored = js.sha256 signed → anchored = signed)
    (h : buildSettlementBundle js cfg m statement outcome o c message = .ok bundle) :
    (∃ root, anchoredRoot rt bundle = some root ∧
      attestationObservationDigest js.sha256 (attestationProof cfg o c signature.1) = .ok root) ↔
    signature.1 = cfg.attestor.publicKey.bytes ++ cfg.attestor.publicKey.bytes := by
  obtain ⟨root, hroot, hdigest⟩ := anchoredRoot_buildSettlementBundle h
  obtain ⟨-, hstatKey, hanchored⟩ := attestationObservationDigest_eq_ok.mp hdigest
  have hcut := append_take_eq_iff cfg.attestor.publicKey.size signature.2
  rw [← hlayout.slice_eq] at hcut
  rw [← hcut, hroot]
  constructor
  · rintro ⟨_, ⟨⟩, hsigned⟩
    obtain ⟨-, -, hsigned⟩ := attestationObservationDigest_eq_ok.mp hsigned
    exact observationBytes_inj.mp (hcollision (hanchored.trans hsigned.symm))
  · intro hsame
    rw [hsame] at hdigest
    exact ⟨root, rfl, hdigest⟩

namespace Sample

/-- The digests with the cut and with the whole signature. -/
def auditing : Packages where
  sha256 bytes :=
    if bytes.drop 103 = operatorA.bytes ++ signatureA.1.take 32 then packages.sha256 bytes
    else ⟨[204, 132, 134, 136, 123, 178, 109, 68, 165, 202, 92, 118, 29, 171, 219, 250,
      93, 90, 115, 225, 128, 148, 192, 232, 153, 153, 227, 79, 109, 36, 168, 27], rfl⟩
  createInstructionWithPrivateKey := packages.createInstructionWithPrivateKey

def message : Bytes := (observation 6600000000000).message

theorem keyFirst : KeyFirst operatorA signatureA message
    (precompileIx auditing keeper.attestor message).data := by
  obtain ⟨h2, h6, h10, -⟩ := AttestationValidator.offsets_signedData operatorA signatureA
    (observation 6600000000000)
  exact ⟨signedInstruction_signedData operatorA signatureA _, h2, h6, h10, rfl⟩

theorem exists_bundle : ∃ bundle, buildSettlementBundle auditing keeper market "BTC/USD" 0 observed
    above message = .ok bundle :=
  buildSettlementBundle_isOk observed_carries rfl keyFirst.signed (by decide +kernel)

theorem sha256_cut_ne : auditing.sha256 (observationBytes (attestationProof keeper observed above
      (slice (precompileIx auditing keeper.attestor message).data 16 64))) ≠
    auditing.sha256 (observationBytes (attestationProof keeper observed above signatureA.1)) := by
  decide +kernel

end Sample

theorem receipt_digest_iff_sample : ∃ bundle,
    buildSettlementBundle Sample.auditing Sample.keeper Sample.market "BTC/USD" 0 Sample.observed
      Sample.above Sample.message = .ok bundle ∧
    ¬∃ root, anchoredRoot Sample.runtime bundle = some root ∧
      attestationObservationDigest Sample.auditing.sha256 (attestationProof Sample.keeper
        Sample.observed Sample.above Sample.signatureA.1) = .ok root := by
  obtain ⟨bundle, h⟩ := Sample.exists_bundle
  have hne : Sample.signatureA.1 ≠ Sample.operatorA.bytes ++ Sample.operatorA.bytes := by decide
  refine ⟨bundle, h, fun hroot => hne ?_⟩
  exact (receipt_digest_iff Sample.keyFirst (fun heq => absurd heq Sample.sha256_cut_ne) h).mp hroot

/-- The root behind a settlement for the first operator is not the digest of its signature. -/
theorem receipt_digest_of_half : ∃ bundle root,
    buildAttestationMessage Sample.observed = .ok Sample.message ∧
    buildSettlementBundle Sample.auditing Sample.keeper Sample.market "BTC/USD" 0 Sample.observed
      Sample.above Sample.message = .ok bundle ∧
    anchoredRoot Sample.runtime bundle = some root ∧
    attestationObservationDigest Sample.auditing.sha256 (attestationProof Sample.keeper
      Sample.observed Sample.above Sample.signatureA.1) ≠ .ok root := by
  obtain ⟨bundle, h⟩ := Sample.exists_bundle
  obtain ⟨root, hroot, hdigest⟩ := anchoredRoot_buildSettlementBundle h
  refine ⟨bundle, root, Sample.observed_carries.buildAttestationMessage, h, hroot, fun hsigned => ?_⟩
  obtain ⟨-, -, hcut⟩ := attestationObservationDigest_eq_ok.mp hdigest
  obtain ⟨-, -, hwhole⟩ := attestationObservationDigest_eq_ok.mp hsigned
  exact Sample.sha256_cut_ne (hcut.trans hwhole.symm)

end Stoppage
