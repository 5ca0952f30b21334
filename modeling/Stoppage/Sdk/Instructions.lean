import Stoppage.Programs.Entrypoint
import Stoppage.Sdk.Buffers

/-! # `packages/sdk`: instruction builders of a settlement

`settlement.ts` and `escrow.ts`, and next to each builder the instruction that the program reads out
of what it builds.
-/

namespace Stoppage.Sdk
open LittleEndian Fallible
set_option autoImplicit false

inductive Side where
  | yes
  | no
deriving DecidableEq

/-! ## Compute budget -/

/-- `ComputeBudgetProgram.setComputeUnitLimit({ units })` -/
def setComputeUnitLimit (units : UInt32) : TransactionInstruction where
  programId := computeBudgetProgramId
  keys := []
  data := 2 :: encodeU32 units

theorem load_setComputeUnitLimit (rt : Runtime) (units : UInt32) :
    (setComputeUnitLimit units).load rt = some (.setComputeUnitLimit units) := by
  have hread := (Borsh.reads_u32 units).run
  show Instruction.setComputeUnitLimit <$> Borsh.run Borsh.u32 (encodeU32 units) = _
  rw [hread]
  rfl

/-! ## `resolve_market` -/

def buildResolveMarketIx (resolver market validatorProgram : Pubkey)
    (validatorAccounts : List Address) (statement : String) (merkleRoot : Bytes) (outcome : ℤ)
    (validatorIxData : Bytes) : Except SdkError TransactionInstruction := do
  let statementBuf := utf8 statement
  let statementLength ← writeUInt32LE statementBuf.length
  let validatorDataLength ← writeUInt32LE validatorIxData.length
  pure
    { programId := settlementProgramId
      data := [155, 23, 80, 173, 46, 74, 23, 239] ++ ((statementLength ++ statementBuf) ++
        (merkleRoot ++ ([lowByte outcome] ++ (validatorDataLength ++ validatorIxData))))
      keys :=
        [⟨.external resolver, true, true⟩, ⟨.market market, false, true⟩,
          ⟨.resolution market, false, true⟩, ⟨.external systemProgramId, false, false⟩,
          ⟨.external validatorProgram, false, false⟩] ++
        validatorAccounts.map fun account => ⟨account, false, false⟩ }

/-! ## `settle_from_proof` -/

def buildSettleFromProofIx (resolver market : Pubkey) (outcome : Side) :
    TransactionInstruction where
  programId := marketProgramId
  keys :=
    [⟨.external resolver, true, false⟩, ⟨.market market, false, true⟩,
      ⟨.resolution market, false, false⟩]
  data := [232, 8, 28, 31, 83, 231, 83, 105] ++ [if outcome = .yes then 0 else 1]

theorem load_buildSettleFromProofIx (rt : Runtime) (resolver market : Pubkey) (outcome : Side) :
    (buildSettleFromProofIx resolver market outcome).load rt =
      some (.settleFromProof resolver market (.resolution market)
        (if outcome = .yes then sideYes else sideNo)) := rfl

/-! ## `attest_verification` -/

def buildAttestVerificationIx (verifier market : Pubkey) : TransactionInstruction where
  programId := marketProgramId
  keys := [⟨.external verifier, true, false⟩, ⟨.market market, false, true⟩]
  data := [174, 250, 164, 34, 215, 158, 186, 134]

theorem load_buildAttestVerificationIx (rt : Runtime) (verifier market : Pubkey) :
    (buildAttestVerificationIx verifier market).load rt =
      some (.attestVerification verifier market) := rfl

/-! ## What the settlement program reads -/

theorem reads_resolveMarketArgs (a : SettlementProgram.ResolveMarketArgs)
    (hstatement : (utf8 a.statement).length < 2 ^ 32) (hdata : a.validatorIxData.length < 2 ^ 32) :
    Borsh.Reads SettlementProgram.ResolveMarketArgs.read
      ((encode 4 (utf8 a.statement).length ++ utf8 a.statement) ++ (a.merkleRoot.1 ++
        ([a.outcome] ++ (encode 4 a.validatorIxData.length ++ a.validatorIxData)))) a := by
  have hvec := Borsh.reads_vec hdata
  refine (Borsh.reads_string (utf8_toByteArray _) hstatement).bind ?_
  refine (Borsh.reads_array a.merkleRoot).bind ?_
  refine (Borsh.reads_byte a.outcome).bind ?_
  exact hvec.map fun data => { a with validatorIxData := data }

theorem buildResolveMarketIx_load {resolver market validator : Pubkey} {accounts : List Address}
    {statement : String} {root : List.Vector UInt8 32} {outcome : ℤ} {data : Bytes}
    {ix : TransactionInstruction}
    (h : buildResolveMarketIx resolver market validator accounts statement root.1 outcome data =
      .ok ix) :
    (utf8 statement).length < 2 ^ 32 ∧ ∀ rt, ix.load rt =
      some (.resolveMarket resolver (.market market) statement root (lowByte outcome) data
        (.external validator :: accounts)) := by
  simp only [buildResolveMarketIx, bind_eq_ok, pure_eq_ok, writeUInt32LE_natCast] at h
  obtain ⟨_, ⟨hstatement, rfl⟩, _, ⟨hdata, rfl⟩, rfl⟩ := h
  have hread := (reads_resolveMarketArgs ⟨statement, root, lowByte outcome, data⟩ hstatement
    hdata).run
  have hremaining : (accounts.map fun account => (⟨account, false, false⟩ : AccountMeta)).map
      (·.pubkey) = accounts := by
    rw [List.map_map]
    exact List.map_id _
  have hkeys (rt : Runtime) (metas : List AccountMeta) : SettlementProgram.ResolveMarket.tryAccounts rt
      ([⟨.external resolver, true, true⟩, ⟨.market market, false, true⟩,
        ⟨.resolution market, false, true⟩, ⟨.external systemProgramId, false, false⟩,
        ⟨.external validator, false, false⟩] ++ metas) =
      some ⟨resolver, .market market, .external validator :: metas.map (·.pubkey)⟩ := by
    show (if _ then _ else _) = _
    rw [if_pos ⟨rfl, rfl, rfl, rfl⟩]
    rfl
  refine ⟨hstatement, fun rt => ?_⟩
  have hentry := SettlementProgram.entrypoint_of hread
    (hkeys rt (accounts.map fun account => ⟨account, false, false⟩)) settlementProgramId
  rw [hremaining] at hentry
  exact hentry

theorem buildResolveMarketIx_isOk {statement : String} {data : Bytes}
    (hstatement : (utf8 statement).length < 2 ^ 32) (hdata : data.length < 2 ^ 32)
    (resolver market validator : Pubkey) (accounts : List Address) (root : Bytes) (outcome : ℤ) :
    ∃ ix, buildResolveMarketIx resolver market validator accounts statement root outcome data =
      .ok ix := by
  rw [buildResolveMarketIx, writeUInt32LE_natCast.mpr ⟨hstatement, rfl⟩, ok_bind,
    writeUInt32LE_natCast.mpr ⟨hdata, rfl⟩]
  exact ⟨_, rfl⟩

end Stoppage.Sdk
