import Stoppage.Programs.Dispatch
import Stoppage.Sdk.Quote
import Stoppage.Sdk.Instructions

/-! # `packages/sdk`: every instruction of the market program

The builders of `escrow.ts` and `sessionKey.ts` that the other modules do not have, and all of them
together as `Call`. What the program reads out of what a builder returns is the instruction that the
caller meant, and a builder throws on exactly the arguments that mean none. The builders of numbers
throw on a number that is no integer and wrap one that is out of range. `Call` says which arguments
are left out.
-/

namespace Stoppage.Escrow
open Fallible Sdk
open LittleEndian (encode)
set_option autoImplicit false

/-! ## Encoding helpers -/

namespace Numbers

/-- `buf.writeUInt16LE(n, 0)`, which drops the fraction of a number. -/
def encodeU16 (n : ℚ) : Except SdkError Bytes :=
  if 0 ≤ n ∧ n ≤ 65535 then .ok (encode 2 ⌊n⌋.toNat) else .error .rangeError

def encodeU64 (n : ℚ) : Except SdkError Bytes := do
  let value ← toBigInt n
  pure (writeU64LE value)

def encodeI64 (n : ℚ) : Except SdkError Bytes := do
  let value ← toBigInt n
  pure (writeI64LE value)

end Numbers
open Numbers

/-- `side === "yes" ? 0 : 1` -/
def sideByte (side : Side) : UInt8 := if side = .yes then 0 else 1

def encodeVecPubkey (pubkeys : List Pubkey) : Except SdkError Bytes := do
  let length ← writeUInt32LE pubkeys.length
  pure (length ++ (pubkeys.map Pubkey.bytes).flatten)

/-! ## Builders of `escrow.ts` -/

def buildInitializeProtocolIx (authority : Pubkey) (feeBps : ℚ) :
    Except SdkError TransactionInstruction := do
  let fee ← encodeU16 feeBps
  pure
    { programId := marketProgramId
      keys :=
        [⟨.external authority, true, true⟩, ⟨.protocolConfig, false, true⟩,
          ⟨.agentAuthority, false, true⟩, ⟨.treasury, false, true⟩,
          ⟨.external systemProgramId, false, false⟩]
      data := [188, 233, 252, 106, 134, 146, 202, 91] ++ fee }

def buildJoinViaWalletIx (wallet market : Pubkey) (side : Side) (amountLamports : ℚ) :
    Except SdkError TransactionInstruction := do
  let amount ← encodeU64 amountLamports
  pure
    { programId := marketProgramId
      keys :=
        [⟨.external wallet, true, true⟩, ⟨.market market, false, true⟩,
          ⟨.position market wallet, false, true⟩, ⟨.external systemProgramId, false, false⟩]
      data := [150, 139, 26, 211, 175, 22, 217, 200] ++ ([sideByte side] ++ amount) }

def buildJoinViaSessionKeyIx (sessionKey owner market : Pubkey) (side : Side)
    (amountLamports : ℚ) : Except SdkError TransactionInstruction := do
  let amount ← encodeU64 amountLamports
  pure
    { programId := marketProgramId
      keys :=
        [⟨.external sessionKey, true, true⟩, ⟨.external owner, false, false⟩,
          ⟨.sessionGrant owner sessionKey, false, true⟩, ⟨.market market, false, true⟩,
          ⟨.position market owner, false, true⟩, ⟨.external systemProgramId, false, false⟩]
      data := [231, 53, 200, 135, 252, 45, 34, 17] ++ ([sideByte side] ++ amount) }

def buildVoidMarketIx (caller market : Pubkey) : TransactionInstruction where
  programId := marketProgramId
  keys := [⟨.external caller, true, true⟩, ⟨.market market, false, true⟩]
  data := [243, 175, 46, 124, 95, 101, 39, 69]

def buildClaimIx (claimant market : Pubkey) : TransactionInstruction where
  programId := marketProgramId
  keys :=
    [⟨.external claimant, true, true⟩, ⟨.market market, false, true⟩,
      ⟨.position market claimant, false, true⟩, ⟨.treasury, false, true⟩]
  data := [62, 198, 214, 193, 213, 159, 108, 210]

def buildClaimBondIx (creator market : Pubkey) : TransactionInstruction where
  programId := marketProgramId
  keys := [⟨.external creator, true, true⟩, ⟨.market market, false, true⟩]
  data := [173, 34, 157, 61, 45, 120, 246, 11]

def buildCloseMarketIx (creator market : Pubkey) : TransactionInstruction where
  programId := marketProgramId
  keys := [⟨.external creator, true, true⟩, ⟨.market market, false, true⟩]
  data := [88, 154, 248, 186, 48, 14, 123, 244]

def buildSetAgentAuthorityIx (authority agentAuthority : Pubkey) : TransactionInstruction where
  programId := marketProgramId
  keys :=
    [⟨.external authority, true, true⟩, ⟨.protocolConfig, false, false⟩,
      ⟨.agentAuthority, false, true⟩, ⟨.external systemProgramId, false, false⟩]
  data := [250, 203, 192, 81, 102, 63, 241, 120] ++ agentAuthority.bytes

/-! ## Builders of `sessionKey.ts` -/

structure DelegateSessionKeyParams where
  owner : Pubkey
  sessionPubkey : Pubkey
  allowedPrograms : List Pubkey
  maxStakePerMarket : ℚ
  maxTotalStake : ℚ
  expiresAt : ℚ
  fundLamports : ℚ

def buildDelegateSessionKeyIx (params : DelegateSessionKeyParams) :
    Except SdkError TransactionInstruction := do
  let programs ← encodeVecPubkey params.allowedPrograms
  let perMarket ← encodeU64 params.maxStakePerMarket
  let total ← encodeU64 params.maxTotalStake
  let expires ← encodeI64 params.expiresAt
  let fund ← encodeU64 params.fundLamports
  pure
    { programId := marketProgramId
      keys :=
        [⟨.external params.owner, true, true⟩, ⟨.external params.sessionPubkey, false, true⟩,
          ⟨.sessionGrant params.owner params.sessionPubkey, false, true⟩,
          ⟨.external systemProgramId, false, false⟩]
      data := [49, 17, 156, 96, 82, 135, 9, 67] ++ (programs ++ (perMarket ++ (total ++
        (expires ++ fund)))) }

def buildRevokeSessionKeyIx (owner sessionPubkey : Pubkey) : TransactionInstruction where
  programId := marketProgramId
  keys :=
    [⟨.external owner, true, true⟩, ⟨.external sessionPubkey, false, false⟩,
      ⟨.sessionGrant owner sessionPubkey, false, true⟩]
  data := [81, 192, 32, 110, 104, 116, 144, 151]

def buildSessionPingIx (sessionPubkey owner : Pubkey) : TransactionInstruction where
  programId := marketProgramId
  keys :=
    [⟨.external sessionPubkey, true, true⟩, ⟨.external owner, false, false⟩,
      ⟨.sessionGrant owner sessionPubkey, false, false⟩]
  data := [109, 151, 199, 217, 151, 127, 137, 108]

/-! ## Calls -/

/-- A call of one of the builders, with arguments from these domains: a number is finite, and the
`ts` of a quote an integer; a hash has 32 bytes and a signature 64; and no public key, but that of a
market, is an address that one of the programs derives. -/
inductive Call
  | initializeProtocol (authority : Pubkey) (feeBps : ℚ)
  | setAgentAuthority (authority agentAuthority : Pubkey)
  | delegateSessionKey (params : DelegateSessionKeyParams)
  | revokeSessionKey (owner sessionPubkey : Pubkey)
  | sessionPing (sessionPubkey owner : Pubkey)
  | createMarket (creator : Pubkey) (predicate : MarketPredicate) (closesAt : ℚ) (oracle : Pubkey)
  | joinViaWallet (wallet market : Pubkey) (side : Side) (amountLamports : ℚ)
  | joinViaSessionKey (sessionKey owner market : Pubkey) (side : Side) (amountLamports : ℚ)
  | settleFromProof (resolver market : Pubkey) (outcome : Side)
  | voidMarket (caller market : Pubkey)
  | claim (claimant market : Pubkey)
  | claimBond (creator market : Pubkey)
  | closeMarket (creator market : Pubkey)
  | attestVerification (verifier market : Pubkey)
  | attestPricing (quote : Quote) (agentAuthority : Pubkey)
      (agentSignature : List.Vector UInt8 64)
  | verifyPricing (market : Pubkey) (snapshotBytes : Bytes)

def Call.build (rt : Runtime) : Call → Except SdkError TransactionInstruction
  | .initializeProtocol authority feeBps => buildInitializeProtocolIx authority feeBps
  | .setAgentAuthority authority agentAuthority =>
    pure (buildSetAgentAuthorityIx authority agentAuthority)
  | .delegateSessionKey params => buildDelegateSessionKeyIx params
  | .revokeSessionKey owner sessionPubkey => pure (buildRevokeSessionKeyIx owner sessionPubkey)
  | .sessionPing sessionPubkey owner => pure (buildSessionPingIx sessionPubkey owner)
  | .createMarket creator predicate closesAt oracle =>
    buildCreateMarketIx rt creator predicate closesAt oracle
  | .joinViaWallet wallet market side amount => buildJoinViaWalletIx wallet market side amount
  | .joinViaSessionKey sessionKey owner market side amount =>
    buildJoinViaSessionKeyIx sessionKey owner market side amount
  | .settleFromProof resolver market outcome =>
    pure (Sdk.buildSettleFromProofIx resolver market outcome)
  | .voidMarket caller market => pure (buildVoidMarketIx caller market)
  | .claim claimant market => pure (buildClaimIx claimant market)
  | .claimBond creator market => pure (buildClaimBondIx creator market)
  | .closeMarket creator market => pure (buildCloseMarketIx creator market)
  | .attestVerification verifier market => pure (Sdk.buildAttestVerificationIx verifier market)
  | .attestPricing quote agentAuthority agentSignature =>
    buildAttestPricingIx (quote.params agentAuthority agentSignature)
  | .verifyPricing market snapshotBytes => buildVerifyPricingIx market snapshotBytes

/-! ## What a call means -/

/-- The instruction that the caller asks for. A number stands for its value modulo the width of the
field, the basis points of the fee for their integer part. -/
def Call.Means : Call → Instruction → Prop
  | .initializeProtocol authority feeBps, i =>
    (0 ≤ feeBps ∧ feeBps ≤ 65535) ∧
      i = .initializeProtocol authority (UInt16.ofNat ⌊feeBps⌋.toNat)
  | .setAgentAuthority authority agentAuthority, i =>
    i = .setAgentAuthority authority agentAuthority
  | .delegateSessionKey p, i => p.allowedPrograms.length < 2 ^ 32 ∧
    ∃ perMarket total expires fund : ℤ, p.maxStakePerMarket = perMarket ∧ p.maxTotalStake = total ∧
      p.expiresAt = expires ∧ p.fundLamports = fund ∧
        i = .delegateSessionKey p.owner (.external p.sessionPubkey) p.allowedPrograms
          (UInt64.ofInt perMarket) (UInt64.ofInt total) (Int64.ofInt expires) (UInt64.ofInt fund)
  | .revokeSessionKey owner sessionPubkey, i => i = .revokeSessionKey owner (.external sessionPubkey)
  | .sessionPing sessionPubkey owner, i => i = .sessionPing sessionPubkey (.external owner)
  | .createMarket creator predicate closesAt oracle, i => ∃ seeds, ∃ closes : ℤ,
    predicate.seeds = .ok seeds ∧ closesAt = closes ∧
      i = .createMarket creator seeds (Int64.ofInt closes) oracle
  | .joinViaWallet wallet market side amount, i => ∃ lamports : ℤ, amount = lamports ∧
    i = .joinViaWallet wallet market (sideByte side) (UInt64.ofInt lamports)
  | .joinViaSessionKey sessionKey owner market side amount, i => ∃ lamports : ℤ,
    amount = lamports ∧
      i = .joinViaSessionKey sessionKey (.external owner) market (sideByte side) (UInt64.ofInt lamports)
  | .settleFromProof resolver market outcome, i =>
    i = .settleFromProof resolver market (.resolution market) (sideByte outcome)
  | .voidMarket caller market, i => i = .voidMarket caller market
  | .claim claimant market, i => i = .claim claimant market
  | .claimBond creator market, i => i = .claimBond creator market
  | .closeMarket creator market, i => i = .closeMarket creator market
  | .attestVerification verifier market, i => i = .attestVerification verifier market
  | .attestPricing q agentAuthority agentSignature, i =>
    (Utf16.encode q.modelVersion).length < 2 ^ 32 ∧ ∃ fairValue bid ask,
      scaleProbability q.fairValue = .ok fairValue ∧ scaleProbability q.bid = .ok bid ∧
        scaleProbability q.ask = .ok ask ∧
          i = .attestPricing agentAuthority q.market q.snapshotHash
            (String.ofList (Utf16.toChars q.modelVersion)) (UInt64.ofInt fairValue)
            (UInt64.ofInt bid) (UInt64.ofInt ask) agentSignature (Int64.ofInt q.ts)
  | .verifyPricing market snapshotBytes, i =>
    snapshotBytes.length < 2 ^ 32 ∧ i = .verifyPricing market snapshotBytes

/-- The transaction instruction that is laid out as its account struct says, and carries nothing
else. -/
def Carries (rt : Runtime) (i : Instruction) (ix : TransactionInstruction) : Prop :=
  ∃ l, i.layout rt = some l ∧ ix = ⟨marketProgramId, l.accounts, l.data⟩

theorem covers_refl (needs : List AccountMeta) : Covers needs needs := by
  induction needs with
  | nil => trivial
  | cons need needs ih => exact ⟨need, needs, rfl, ⟨rfl, id, id⟩, ih⟩

theorem Carries.laid {rt : Runtime} {i : Instruction} {ix : TransactionInstruction}
    (h : Carries rt i ix) : i.Laid rt ix := by
  obtain ⟨l, hl, rfl⟩ := h
  exact ⟨l, hl, List.prefix_rfl, covers_refl _⟩

/-! ## Numbers -/

theorem Numbers.encodeU16_eq_ok {n : ℚ} {bs : Bytes} : encodeU16 n = .ok bs ↔
    (0 ≤ n ∧ n ≤ 65535) ∧ bs = LittleEndian.encodeU16 (UInt16.ofNat ⌊n⌋.toNat) := by
  have hword (hn : 0 ≤ n ∧ n ≤ 65535) :
      LittleEndian.encodeU16 (UInt16.ofNat ⌊n⌋.toNat) = encode 2 ⌊n⌋.toNat := by
    have hfloor : ⌊n⌋ ≤ 65535 := by exact_mod_cast (Int.floor_le n).trans hn.2
    rw [LittleEndian.encodeU16, UInt16.toNat_ofNat_of_lt' (by show _ < 65536; omega)]
  unfold encodeU16
  constructor
  · intro h
    split at h
    · rename_i hn
      cases h
      exact ⟨hn, (hword hn).symm⟩
    · cases h
  · rintro ⟨hn, rfl⟩
    rw [if_pos hn, hword hn]

theorem Numbers.encodeU64_eq_ok {n : ℚ} {bs : Bytes} : encodeU64 n = .ok bs ↔
    ∃ value : ℤ, n = value ∧ bs = LittleEndian.encodeU64 (UInt64.ofInt value) := by
  simp only [encodeU64, bind_eq_ok, pure_eq_ok, toBigInt_eq_ok, writeU64LE_eq]
  exact exists_congr fun value => and_congr_right fun _ => eq_comm

theorem Numbers.encodeI64_eq_ok {n : ℚ} {bs : Bytes} : encodeI64 n = .ok bs ↔
    ∃ value : ℤ, n = value ∧ bs = LittleEndian.encodeI64 (Int64.ofInt value) := by
  simp only [encodeI64, bind_eq_ok, pure_eq_ok, toBigInt_eq_ok, writeI64LE_eq]
  exact exists_congr fun value => and_congr_right fun _ => eq_comm

theorem encodeVecPubkey_eq_ok {pubkeys : List Pubkey} {bs : Bytes} :
    encodeVecPubkey pubkeys = .ok bs ↔ pubkeys.length < 2 ^ 32 ∧
      bs = encode 4 pubkeys.length ++ (pubkeys.map Pubkey.bytes).flatten := by
  simp only [encodeVecPubkey, bind_eq_ok, pure_eq_ok, writeUInt32LE_natCast]
  constructor
  · rintro ⟨_, ⟨hlength, rfl⟩, rfl⟩
    exact ⟨hlength, rfl⟩
  · rintro ⟨hlength, rfl⟩
    exact ⟨_, ⟨hlength, rfl⟩, rfl⟩

/-! ## What is built is what was meant -/

theorem pure_iff_carries {rt : Runtime} {i : Instruction} {ix ix' : TransactionInstruction}
    (h : Carries rt i ix') : (pure ix' : Except SdkError _) = .ok ix ↔
      ∃ j, j = i ∧ Carries rt j ix := by
  obtain ⟨l, hl, rfl⟩ := h
  rw [pure_eq_ok]
  constructor
  · rintro rfl
    exact ⟨i, rfl, l, hl, rfl⟩
  · rintro ⟨_, rfl, l', hl', rfl⟩
    rw [Option.some_inj.mp (hl.symm.trans hl')]

/-- **What is built is what was meant.** A builder returns the layout of the instruction that the
call means, and throws when it means none. -/
theorem build_eq_ok {rt : Runtime} {c : Call} {ix : TransactionInstruction} :
    c.build rt = .ok ix ↔ ∃ i, c.Means i ∧ Carries rt i ix := by
  cases c with
  | initializeProtocol authority feeBps =>
    simp only [Call.build, buildInitializeProtocolIx, bind_eq_ok, pure_eq_ok, encodeU16_eq_ok,
      Call.Means]
    constructor
    · rintro ⟨_, ⟨hn, rfl⟩, rfl⟩
      exact ⟨_, ⟨hn, rfl⟩, _, rfl, rfl⟩
    · rintro ⟨_, ⟨hn, rfl⟩, l, hl, rfl⟩
      cases hl
      exact ⟨_, ⟨hn, rfl⟩, rfl⟩
  | delegateSessionKey p =>
    simp only [Call.build, buildDelegateSessionKeyIx, bind_eq_ok, pure_eq_ok, encodeVecPubkey_eq_ok,
      encodeU64_eq_ok, encodeI64_eq_ok, Call.Means]
    constructor
    · rintro ⟨_, ⟨hlength, rfl⟩, _, ⟨a, ha, rfl⟩, _, ⟨b, hb, rfl⟩, _, ⟨c, hc, rfl⟩, _,
        ⟨d, hd, rfl⟩, rfl⟩
      exact ⟨_, ⟨hlength, a, b, c, d, ha, hb, hc, hd, rfl⟩, _, if_pos hlength, rfl⟩
    · rintro ⟨_, ⟨hlength, a, b, c, d, ha, hb, hc, hd, rfl⟩, l, hl, rfl⟩
      cases (if_pos hlength).symm.trans hl
      exact ⟨_, ⟨hlength, rfl⟩, _, ⟨a, ha, rfl⟩, _, ⟨b, hb, rfl⟩, _, ⟨c, hc, rfl⟩, _,
        ⟨d, hd, rfl⟩, rfl⟩
  | createMarket creator p closesAt oracle =>
    simp only [Call.build, buildCreateMarketIx, MarketPredicate.seeds, bind_eq_ok, pure_eq_ok,
      toBigInt_eq_ok, writeU64LE_eq, writeI64LE_eq, Call.Means]
    constructor
    · rintro ⟨n, hn, closes, hcloses, rfl⟩
      exact ⟨_, ⟨_, closes, ⟨n, hn, rfl⟩, hcloses, rfl⟩, _, rfl, rfl⟩
    · rintro ⟨_, ⟨_, closes, ⟨n, hn, rfl⟩, hcloses, rfl⟩, l, hl, rfl⟩
      cases hl
      exact ⟨n, hn, closes, hcloses, rfl⟩
  | joinViaWallet wallet m side amount =>
    simp only [Call.build, buildJoinViaWalletIx, bind_eq_ok, pure_eq_ok, encodeU64_eq_ok,
      Call.Means]
    constructor
    · rintro ⟨_, ⟨n, rfl, rfl⟩, rfl⟩
      exact ⟨_, ⟨n, rfl, rfl⟩, _, rfl, rfl⟩
    · rintro ⟨_, ⟨n, rfl, rfl⟩, l, hl, rfl⟩
      cases hl
      exact ⟨_, ⟨n, rfl, rfl⟩, rfl⟩
  | joinViaSessionKey k owner m side amount =>
    simp only [Call.build, buildJoinViaSessionKeyIx, bind_eq_ok, pure_eq_ok, encodeU64_eq_ok,
      Call.Means]
    constructor
    · rintro ⟨_, ⟨n, rfl, rfl⟩, rfl⟩
      exact ⟨_, ⟨n, rfl, rfl⟩, _, rfl, rfl⟩
    · rintro ⟨_, ⟨n, rfl, rfl⟩, l, hl, rfl⟩
      cases hl
      exact ⟨_, ⟨n, rfl, rfl⟩, rfl⟩
  | attestPricing q k signature =>
    simp only [Call.build, buildAttestPricingIx, Quote.params, bind_eq_ok, pure_eq_ok,
      writeUInt32LE_natCast, writeU64LE_eq, writeI64LE_eq, Call.Means]
    have hversion : utf8 (String.ofList (Utf16.toChars q.modelVersion)) =
        Utf16.encode q.modelVersion := utf8_ofList _
    constructor
    · rintro ⟨_, ⟨hlength, rfl⟩, fair, hfair, bid, hbid, ask, hask, rfl⟩
      refine ⟨_, ⟨hlength, fair, bid, ask, hfair, hbid, hask, rfl⟩, _, if_pos ?_, ?_⟩
      · exact hversion ▸ hlength
      · rw [← hversion]
        rfl
    · rintro ⟨_, ⟨hlength, fair, bid, ask, hfair, hbid, hask, rfl⟩, l, hl, rfl⟩
      cases (if_pos (hversion ▸ hlength)).symm.trans hl
      refine ⟨_, ⟨hlength, rfl⟩, fair, hfair, bid, hbid, ask, hask, ?_⟩
      rw [← hversion]
      rfl
  | verifyPricing m bytes =>
    simp only [Call.build, buildVerifyPricingIx, bind_eq_ok, pure_eq_ok, writeUInt32LE_natCast,
      Call.Means]
    constructor
    · rintro ⟨_, ⟨hlength, rfl⟩, rfl⟩
      exact ⟨_, ⟨hlength, rfl⟩, _, if_pos hlength, rfl⟩
    · rintro ⟨_, ⟨hlength, rfl⟩, l, hl, rfl⟩
      cases (if_pos hlength).symm.trans hl
      exact ⟨_, ⟨hlength, rfl⟩, rfl⟩
  | _ => exact pure_iff_carries ⟨_, rfl, rfl⟩

/-- A call that means something fits the layout. -/
theorem Call.Means.exists_carries (rt : Runtime) {c : Call} {i : Instruction} (h : c.Means i) :
    ∃ ix, Carries rt i ix := by
  cases c with
  | initializeProtocol authority feeBps =>
    obtain ⟨-, rfl⟩ := h
    exact ⟨_, _, rfl, rfl⟩
  | delegateSessionKey p =>
    obtain ⟨hlength, _, _, _, _, -, -, -, -, rfl⟩ := h
    exact ⟨_, _, if_pos hlength, rfl⟩
  | createMarket creator p closesAt oracle =>
    obtain ⟨_, _, -, -, rfl⟩ := h
    exact ⟨_, _, rfl, rfl⟩
  | joinViaWallet wallet m side amount =>
    obtain ⟨_, -, rfl⟩ := h
    exact ⟨_, _, rfl, rfl⟩
  | joinViaSessionKey k owner m side amount =>
    obtain ⟨_, -, rfl⟩ := h
    exact ⟨_, _, rfl, rfl⟩
  | attestPricing q k signature =>
    obtain ⟨hlength, _, _, _, -, -, -, rfl⟩ := h
    have hversion : (utf8 (String.ofList (Utf16.toChars q.modelVersion))).length < 2 ^ 32 := by
      rw [utf8_ofList]
      exact hlength
    exact ⟨_, _, if_pos hversion, rfl⟩
  | verifyPricing m bytes =>
    obtain ⟨hlength, rfl⟩ := h
    exact ⟨_, _, if_pos hlength, rfl⟩
  | _ =>
    cases h
    exact ⟨_, _, rfl, rfl⟩

/-- **What is sent is what was meant.** The program reads out of what a builder returns an
instruction that the call means, and every instruction that a call means is so built and read. -/
theorem sent_as_meant (rt : Runtime) (c : Call) :
    (∀ ix, c.build rt = .ok ix → ∃ i, c.Means i ∧ MarketProgram.dispatch rt ix = some i) ∧
      ∀ i, c.Means i → ∃ ix, c.build rt = .ok ix ∧ MarketProgram.dispatch rt ix = some i := by
  constructor
  · intro ix hbuild
    obtain ⟨i, hmeans, hcarries⟩ := build_eq_ok.mp hbuild
    exact ⟨i, hmeans, MarketProgram.dispatch_of_laid hcarries.laid⟩
  · intro i hmeans
    obtain ⟨ix, hcarries⟩ := hmeans.exists_carries rt
    exact ⟨ix, build_eq_ok.mpr ⟨i, hmeans, hcarries⟩,
      MarketProgram.dispatch_of_laid hcarries.laid⟩

end Stoppage.Escrow
