import Stoppage.Chain.State

/-! # `programs/attestation_validator`

The ed25519 precompile of the runtime, `initialize_config`, `validate_attestation`, and the entry
point through which another program reaches the latter.
-/

namespace Stoppage
open Fallible LittleEndian
set_option autoImplicit false

/-! ## The ed25519 precompile -/

/-- `u16::from_le_bytes([d[i], d[i + 1]])` -/
def u16At (d : Bytes) (i : ℕ) : ℕ := (d.getD i 0).toNat + 256 * (d.getD (i + 1) 0).toNat

/-- `u16::MAX`, which stands for the precompile instruction itself. -/
def thisInstruction : ℕ := 65535

def Runtime.wireData (rt : Runtime) : Instruction → Bytes
  | .ed25519 d => d
  | ix => rt.instructionData ix

/-- The bytes an offset triple of the precompile designates. -/
def Runtime.dataSlice (rt : Runtime) (ctx : TxContext) (own : Bytes) (index offset size : ℕ) :
    Option Bytes := do
  let d ← if index = thisInstruction then some own
    else (ctx.instructions[index]?).map rt.wireData
  if offset + size ≤ d.length then some (slice d offset size) else none

/-- The check of one signature entry, whose seven `u16` offsets start at `start`. -/
def Runtime.verifyEntry (rt : Runtime) (ctx : TxContext) (d : Bytes) (start : ℕ) : Bool :=
  match rt.dataSlice ctx d (u16At d (start + 2)) (u16At d start) 64,
      rt.dataSlice ctx d (u16At d (start + 6)) (u16At d (start + 4)) 32,
      rt.dataSlice ctx d (u16At d (start + 12)) (u16At d (start + 8)) (u16At d (start + 10)) with
  | some signature, some key, some message => rt.ed25519Verify key signature message
  | _, _, _ => false

def Runtime.ed25519Precompile (rt : Runtime) (ctx : TxContext) (d : Bytes) :
    Except ProgramError Unit := do
  let n := (d.getD 0 0).toNat
  require (2 ≤ d.length) .precompileFailed
  require (n = 0 → d.length = 2) .precompileFailed
  require (2 + 14 * n ≤ d.length) .precompileFailed
  require ((List.range n).all fun i => rt.verifyEntry ctx d (2 + 14 * i)) .precompileFailed

namespace AttestationValidator

/-! ## Pinning a key -/

def initializeConfig (rt : Runtime) (payer authority : Pubkey) (s : Chain) :
    Except ProgramError Chain := do
  let s ← s.initAccount rt payer (.config authority) Config.space
  pure { s with config := Function.update s.config authority (some { authority }) }

/-! ## Validating an observation -/

/-- `b"stoppage/attest-observation/v1"` -/
def msgPrefix : Bytes :=
  [115, 116, 111, 112, 112, 97, 103, 101, 47, 97, 116, 116, 101, 115, 116, 45, 111, 98, 115, 101,
    114, 118, 97, 116, 105, 111, 110, 47, 118, 49]

def msgLen : ℕ := 30 + 16 + 4 + 8 + 8

structure Args where
  fixtureRef : List.Vector UInt8 16
  statKey : UInt32
  op : UInt8
  threshold : Int64
  value : Int64
  obsTs : Int64
  referenceTs : Int64
  windowSeconds : UInt32

/-- The observation message the operator signs. -/
def Args.message (a : Args) : Bytes :=
  msgPrefix ++ (a.fixtureRef.1 ++ (encodeU32 a.statKey ++ (encodeI64 a.value ++
    encodeI64 a.obsTs)))

theorem Args.length_message (a : Args) : a.message.length = msgLen := by
  simp only [Args.message, List.length_append, a.fixtureRef.2, length_encodeU32, length_encodeI64,
    msgPrefix, List.length_cons, List.length_nil, msgLen]

/-- The predicate `op` compares by: `>=`, `<=` or `==`. -/
def Args.holds (a : Args) : Option Bool :=
  if a.op = 0 then some (decide (a.threshold ≤ a.value))
  else if a.op = 1 then some (decide (a.value ≤ a.threshold))
  else if a.op = 2 then some (decide (a.value = a.threshold))
  else none

/-- The data of the top-level instruction before the executing one, if that is the precompile. -/
def precedingEd25519 (ctx : TxContext) : Option Bytes :=
  if 0 < ctx.index then
    match ctx.instructions[ctx.index - 1]? with
    | some (.ed25519 d) => some d
    | _ => none
  else none

/-- The binding of the precompile instruction `d` to the pinned key and the claimed message. -/
def checkSignature (authority : Pubkey) (a : Args) (d : Bytes) : Except ProgramError Unit := do
  require (16 ≤ d.length) (.attestation .malformedSigIx)
  require (d.getD 0 0 = 1) (.attestation .malformedSigIx)
  require (u16At d 4 = thisInstruction ∧ u16At d 8 = thisInstruction ∧
    u16At d 14 = thisInstruction) (.attestation .crossInstructionReference)
  require (u16At d 12 = msgLen) (.attestation .messageMismatch)
  require (u16At d 6 + 32 ≤ d.length ∧ u16At d 10 + u16At d 12 ≤ d.length)
    (.attestation .malformedSigIx)
  require (slice d (u16At d 6) 32 = authority.bytes) (.attestation .signerMismatch)
  require (slice d (u16At d 10) (u16At d 12) = a.message) (.attestation .messageMismatch)

def validateAttestation (ctx : TxContext) (config : Config) (instructions : Address) (a : Args) :
    Except ProgramError Bool := do
  require (instructions = .external instructionsSysvarId) (.attestation .missingInstructionsSysvar)
  let d ← getOr (.attestation .missingEd25519Instruction) (precedingEd25519 ctx)
  checkSignature config.authority a d
  let upper ← checkedAddInt (.attestation .overflow) a.referenceTs
    (Int64.ofNat a.windowSeconds.toNat)
  require (a.referenceTs ≤ a.obsTs) (.attestation .beforeReference)
  require (a.obsTs ≤ upper) (.attestation .outsideWindow)
  getOr (.attestation .invalidOp) a.holds

/-- The config account with its seeds constraint: it sits at the address of the key it stores. -/
def loadConfig (s : Chain) : Address → Except ProgramError Config
  | .config k => do
    let c ← getOr (.anchor .accountNotInitialized) (s.config k)
    require (c.authority = k) (.anchor .constraintSeeds)
    pure c
  | _ => .error (.anchor .accountNotInitialized)

/-- The first eight bytes of `sha256("global:validate_attestation")`. -/
def validateAttestationDiscriminator : Bytes := [250, 232, 36, 143, 149, 1, 73, 220]

def Args.encode (a : Args) : Bytes :=
  a.fixtureRef.1 ++ (encodeU32 a.statKey ++ ([a.op] ++ (encodeI64 a.threshold ++
    (encodeI64 a.value ++ (encodeI64 a.obsTs ++ (encodeI64 a.referenceTs ++
      encodeU32 a.windowSeconds))))))

/-- Borsh decoding of the arguments; trailing bytes are ignored. -/
def Args.decode (bs : Bytes) : Option Args :=
  if h : 16 + 4 + 1 + 8 + 8 + 8 + 8 + 4 ≤ bs.length then
    some
      { fixtureRef := ⟨bs.take 16, by rw [List.length_take]; omega⟩
        statKey := decodeU32 (slice bs 16 4)
        op := bs.getD 20 0
        threshold := decodeI64 (slice bs 21 8)
        value := decodeI64 (slice bs 29 8)
        obsTs := decodeI64 (slice bs 37 8)
        referenceTs := decodeI64 (slice bs 45 8)
        windowSeconds := decodeU32 (slice bs 53 4) }
  else none

def entry (ctx : TxContext) (s : Chain) (data : Bytes) (accounts : List Address) :
    Except ProgramError (Option ReturnData) := do
  require (data.take 8 = validateAttestationDiscriminator) (.anchor .instructionFallbackNotFound)
  let a ← getOr (.anchor .instructionDidNotDeserialize) (Args.decode (data.drop 8))
  let configAddress ← getOr (.anchor .accountNotEnoughKeys) accounts[0]?
  let config ← loadConfig s configAddress
  let instructions ← getOr (.anchor .accountNotEnoughKeys) accounts[1]?
  let holds ← validateAttestation ctx config instructions a
  pure (some (attestationValidatorId, [if holds then 1 else 0]))

end AttestationValidator

end Stoppage
