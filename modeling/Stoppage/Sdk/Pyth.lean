import Stoppage.Lib.Hex
import Stoppage.Sdk.Oracle

/-! # `packages/sdk/src/oracle.ts`: the Pyth oracle -/

namespace Stoppage.Sdk
open LittleEndian Fallible
set_option autoImplicit false

/-- `Buffer.from(s, "hex")` -/
def fromHex (s : String) : Bytes := Hex.decode s.toList

structure PythProof where
  priceUpdateAccount : Pubkey
  feedId : String
  threshold : ℤ
  referenceTs : ℤ
  maxStalenessSeconds : ℤ
  observedPrice : ℤ
  observedConf : ℤ
  observedPublishTime : ℤ

def pythObservationDigest (sha256 : Sha256) (proof : PythProof) : List.Vector UInt8 32 :=
  sha256 (utf8 "stoppage/pyth-observation/v1" ++ (proof.priceUpdateAccount.bytes ++
    (fromHex proof.feedId ++ (writeI64LE proof.observedPrice ++ (writeU64LE proof.observedConf ++
      writeI64LE proof.observedPublishTime)))))

def pythOracle (sha256 : Sha256) : SettlementOracle PythProof where
  id := "pyth"
  buildVerifySpec params := do
    let p := params.proof
    let staleness ← writeUInt32LE p.maxStalenessSeconds
    pure
      { validatorProgram := pythValidatorId
        anchorAccounts := [.external p.priceUpdateAccount]
        instructionData := [179, 145, 207, 177, 245, 253, 59, 19] ++ (fromHex p.feedId ++
          (writeI64LE p.threshold ++ (writeI64LE p.referenceTs ++ staleness)))
        merkleRoot := (pythObservationDigest sha256 p).1 }

end Stoppage.Sdk
