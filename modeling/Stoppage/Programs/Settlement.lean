import Stoppage.Programs.PythValidator
import Stoppage.Programs.AttestationValidator

/-! # `programs/settlement`

`resolve_market`: the call into a validator chosen by the caller, and the one receipt per market
it leaves behind. What it takes for a market is any account of the market program: the account is
never read as one.
-/

namespace Stoppage.SettlementProgram
open Fallible
set_option autoImplicit false

/-- The call into another program with read-only, unsigned accounts. -/
def invoke (rt : Runtime) (ctx : TxContext) (s : Chain) (program : Pubkey) (data : Bytes)
    (accounts : List Address) : Except ProgramError (Option ReturnData) :=
  if program = pythValidatorId then PythValidator.entry s data accounts
  else if program = attestationValidatorId then AttestationValidator.entry ctx s data accounts
  else rt.program program data accounts ctx s

/-- `get_return_data`: empty return data counts as none. -/
def getReturnData (ret : Option ReturnData) : Option ReturnData :=
  ret.filter fun r => !r.2.isEmpty

/-- The validator program is the first remaining account. Only accounts outside the four programs
can be programs. -/
def validatorKey : List Address → Except ProgramError Pubkey
  | [] => .error (.settlement .missingValidatorProgram)
  | .external k :: _ => .ok k
  | _ :: _ => .error .notAProgram

/-- The first byte of the return data is the validator's verdict. -/
def validated (ret : ReturnData) : Bool := ret.2.headD 0 ≠ 0

def hashProof (root : List.Vector UInt8 32) : List.Vector UInt8 32 := root

def resolveMarket (rt : Runtime) (ctx : TxContext) (resolver : Pubkey) (market : Address)
    (statement : String) (merkleRoot : List.Vector UInt8 32) (outcome : UInt8)
    (validatorIxData : Bytes) (remaining : List Address) (s : Chain) :
    Except ProgramError Chain := do
  let s ← s.initAccount rt resolver (rt.receipt market) Resolution.space
  require (outcome ≤ 1) (.settlement .invalidOutcome)
  require (s.owner market = marketProgramId) (.settlement .invalidMarketOwner)
  let validatorProgram ← validatorKey remaining
  let ret ← invoke rt ctx s validatorProgram validatorIxData remaining.tail
  let returnData ← getOr (.settlement .noReturnData) (getReturnData ret)
  require (returnData.1 = validatorProgram) (.settlement .invalidReturnSource)
  require (validated returnData = decide (outcome = 0)) (.settlement .proofOutcomeMismatch)
  let s := s.setReceipt rt market
    { market := rt.key market, outcome, validatorProgram, merkleRoot, resolver,
      resolvedAt := s.now, bump := rt.bump (rt.receipt market) }
  pure (s.emit (.marketResolved (rt.key market) (rt.receipt market) statement validatorProgram
    merkleRoot outcome (hashProof merkleRoot) resolver s.now true))

end Stoppage.SettlementProgram
