import Stoppage.Lib.Base64
import Stoppage.Lib.Hex
import Stoppage.Lib.HashChain
import Stoppage.Sdk.Normalizer
import Stoppage.Sdk.Oracle
import Stoppage.Sdk.Txline

/-! # `packages/sdk/src/proofs.ts`: local verification of a proof

The roots of a proof are decoded twice, by `toBytes32` of `packages/txline` for the program and by
`hexToBytes` here, and so is the leaf written twice. `verifyProofLocally_iff` says where both ways
agree.
-/

namespace Stoppage.Sdk
open LittleEndian HashChain
set_option autoImplicit false

/-! ## Roots -/

/-- `string | number[] | Uint8Array` -/
inductive RootValue where
  | text (s : List UInt16)
  | numbers (xs : List ℤ)
  | bytes (bs : Bytes)

def hexDigits : List UInt16 → List ℕ
  | [] => []
  | u :: us =>
    match Hex.value (Char.ofNat u.toNat) with
    | some n => n :: hexDigits us
    | none => []

/-- `parseInt(s, 16)`, where `none` is `NaN`. -/
def parseInt16 (s : List UInt16) : Option ℤ :=
  let s := s.dropWhile Normalizer.isSpace
  let negative := s.head? = some 45
  let s := if s.head? = some 45 ∨ s.head? = some 43 then s.tail else s
  let s := if s.take 2 = [48, 120] ∨ s.take 2 = [48, 88] then s.drop 2 else s
  match hexDigits s with
  | [] => none
  | ds =>
    let n : ℤ := (ds.foldl (fun acc d => 16 * acc + d) 0 : ℕ)
    some (if negative then -n else n)

/-- The number as an element of a `Uint8Array`. -/
def toUint8 (x : Option ℤ) : UInt8 := (x.map lowByte).getD 0

/-- The loop over the pairs of characters; an odd one at the end has no place in the array. -/
def bytesOfPairs : List UInt16 → Bytes
  | a :: b :: s => toUint8 (parseInt16 [a, b]) :: bytesOfPairs s
  | _ => []

/-- `"0x"` -/
def hexPrefix : List UInt16 := [48, 120]

/-- `packages/txline/src/validation.ts` -/
def toBytes32 (value : RootValue) : Option Bytes :=
  let bytes :=
    match value with
    | .numbers xs => xs.map lowByte
    | .bytes bs => bs
    | .text s =>
      if hexPrefix <+: s then bytesOfPairs (s.drop 2)
      else Base64.decode (s.map fun u => Char.ofNat u.toNat)
  if bytes.length = 32 then some bytes else none

/-- `hexToBytes` of `proofs.ts`. It calls a method of strings, which a `Uint8Array` lacks. -/
def hexToBytes (value : RootValue) : Option Bytes :=
  match value with
  | .numbers xs => some (xs.map lowByte)
  | .text s => some (bytesOfPairs (if hexPrefix <+: s then s.drop 2 else s))
  | .bytes _ => none

/-! ## Paths and leaves -/

def combine (current : Bytes) (node : ProofNode) : Bytes :=
  if node.isRightSibling then current ++ node.hash else node.hash ++ current

/-- `sha256.array` -/
def Sha256.bytes (sha256 : Sha256) (bs : Bytes) : Bytes := (sha256 bs).1

def verifyMerklePath (sha256 : Sha256) (leafHash : Bytes) (proof : List ProofNode)
    (expectedRoot : Bytes) : Bool :=
  decide (walk sha256.bytes combine leafHash proof = expectedRoot)

/-- `view.setUint32(0, value, true)`, and `setInt32`, which writes the same bytes. -/
def setInt32 (value : ℤ) : Bytes := encode 4 (value % 2 ^ 32).toNat

def statBytes (statKey statValue period : ℤ) : Bytes :=
  setInt32 statKey ++ (setInt32 statValue ++ setInt32 period)

def hashStatLeaf (sha256 : Sha256) (statKey statValue period : ℤ) : Bytes :=
  sha256.bytes (statBytes statKey statValue period)

/-- What a proof is verified from. -/
structure SettlementProof where
  statKey : ℤ
  statValue : ℤ
  statProof : List ProofNode
  subTreeProof : List ProofNode
  mainTreeProof : List ProofNode
  eventStatRoot : RootValue
  subTreeRoot : RootValue
  anchoredRoot : RootValue

/-- `none` is an exception. -/
def verifyProofLocally (sha256 : Sha256) (proof : SettlementProof) : Option Bool := do
  -- the default of the third parameter of `hashStatLeaf`
  let leafHash := hashStatLeaf sha256 proof.statKey proof.statValue 0
  let eventStatRoot ← hexToBytes proof.eventStatRoot
  if verifyMerklePath sha256 leafHash proof.statProof eventStatRoot then
    let subTreeRoot ← hexToBytes proof.subTreeRoot
    if verifyMerklePath sha256 eventStatRoot proof.subTreeProof subTreeRoot then
      let anchoredRoot ← hexToBytes proof.anchoredRoot
      if verifyMerklePath sha256 subTreeRoot proof.mainTreeProof anchoredRoot then pure true
      else pure false
    else pure false
  else pure false

/-! ## Responses -/

/-- A node as TxLINE sends it. -/
structure RawNode where
  hash : RootValue
  isRightSibling : Bool

def normalizeProof (nodes : List RawNode) : Option (List ProofNode) :=
  nodes.mapM fun node => (toBytes32 node.hash).map fun hash => ⟨hash, node.isRightSibling⟩

/-- What of the answer of TxLINE a proof of one statistic is made of. -/
structure StatValidationResponse where
  eventStatsSubTreeRoot : RootValue
  subTreeProof : List RawNode
  mainTreeProof : List RawNode
  eventStatRoot : RootValue
  statToProve : StatToProve
  statProof : List RawNode

/-- The fields of the answer and the anchored root, its nodes normalized. -/
def buildSettlementProof (response : StatValidationResponse) (anchoredRoot : RootValue) :
    Option SettlementProof := do
  let statProof ← normalizeProof response.statProof
  let subTreeProof ← normalizeProof response.subTreeProof
  let mainTreeProof ← normalizeProof response.mainTreeProof
  pure
    { statKey := response.statToProve.key
      statValue := response.statToProve.value
      statProof, subTreeProof, mainTreeProof
      eventStatRoot := response.eventStatRoot
      subTreeRoot := response.eventStatsSubTreeRoot
      anchoredRoot }

/-! ## What is accepted -/

theorem encodeScoreStat_eq_ok {s : ScoreStat} {bs : Bytes} : encodeScoreStat s = .ok bs ↔
    FitsU32 s.key ∧ FitsI32 s.value ∧ FitsI32 s.period ∧
      statBytes s.key s.value s.period = bs := by
  have hkey (k : Bytes) : encodeU32 s.key = .ok k ↔ FitsU32 s.key ∧ setInt32 s.key = k := by
    unfold encodeU32 writeUInt32LE
    split
    · rename_i hfits
      have hmod : s.key % 2 ^ 32 = s.key := by omega
      rw [setInt32, hmod]
      exact ⟨fun h => ⟨hfits, Except.ok.inj h⟩, fun h => congrArg Except.ok h.2⟩
    · rename_i hfits
      exact ⟨nofun, fun h => absurd h.1 hfits⟩
  have hsigned (v : ℤ) (b : Bytes) : encodeI32 v = .ok b ↔ FitsI32 v ∧ setInt32 v = b := by
    unfold encodeI32 writeInt32LE
    split
    · rename_i hfits
      exact ⟨fun h => ⟨hfits, Except.ok.inj h⟩, fun h => congrArg Except.ok h.2⟩
    · rename_i hfits
      exact ⟨nofun, fun h => absurd h.1 hfits⟩
  simp only [encodeScoreStat, Fallible.bind_eq_ok, Fallible.pure_eq_ok, hkey, hsigned]
  constructor
  · rintro ⟨_, ⟨hk, rfl⟩, _, ⟨hv, rfl⟩, _, ⟨hp, rfl⟩, rfl⟩
    exact ⟨hk, hv, hp, rfl⟩
  · rintro ⟨hk, hv, hp, rfl⟩
    exact ⟨_, ⟨hk, rfl⟩, _, ⟨hv, rfl⟩, _, ⟨hp, rfl⟩, rfl⟩

theorem statBytes_inj {k v p q : ℤ} (hp : FitsI32 p) (hq : FitsI32 q) :
    statBytes k v p = statBytes k v q ↔ p = q := by
  constructor
  · intro h
    have hbytes : setInt32 p = setInt32 q :=
      List.append_cancel_left (List.append_cancel_left h)
    have hword := congrArg decode hbytes
    obtain ⟨hplow, hphigh⟩ := hp
    obtain ⟨hqlow, hqhigh⟩ := hq
    rw [setInt32, setInt32, decode_encode 4 _ (by omega), decode_encode 4 _ (by omega)] at hword
    omega
  · rintro rfl
    rfl

theorem combine_injective (node : ProofNode) :
    Function.Injective fun current => combine current node := by
  intro x y h
  simp only [combine] at h
  split at h
  · exact List.append_cancel_right h
  · exact List.append_cancel_left h

theorem verifyProofLocally_eq_true {sha256 : Sha256} {proof : SettlementProof} :
    verifyProofLocally sha256 proof = some true ↔
      ∃ e s a, hexToBytes proof.eventStatRoot = some e ∧ hexToBytes proof.subTreeRoot = some s ∧
        hexToBytes proof.anchoredRoot = some a ∧
        walk sha256.bytes combine (hashStatLeaf sha256 proof.statKey proof.statValue 0)
          proof.statProof = e ∧
        walk sha256.bytes combine e proof.subTreeProof = s ∧
        walk sha256.bytes combine s proof.mainTreeProof = a := by
  constructor
  · intro h
    simp only [verifyProofLocally, Option.bind_eq_bind, Option.bind_eq_some_iff] at h
    obtain ⟨e, he, h⟩ := h
    split at h
    · rename_i hstat
      obtain ⟨s, hs, h⟩ := Option.bind_eq_some_iff.mp h
      split at h
      · rename_i hsub
        obtain ⟨a, ha, h⟩ := Option.bind_eq_some_iff.mp h
        split at h
        · rename_i hmain
          exact ⟨e, s, a, he, hs, ha, of_decide_eq_true hstat, of_decide_eq_true hsub,
            of_decide_eq_true hmain⟩
        · cases h
      · cases h
    · cases h
  · rintro ⟨e, s, a, he, hs, ha, hstat, hsub, hmain⟩
    simp only [verifyProofLocally, he, hs, ha, verifyMerklePath, hstat, hsub, hmain,
      decide_true, if_true, Option.bind_eq_bind, Option.bind_some, Option.pure_def]

theorem fields_of_buildSettlementProof {response : StatValidationResponse}
    {anchoredRoot : RootValue} {proof : SettlementProof}
    (h : buildSettlementProof response anchoredRoot = some proof) :
    proof.statKey = response.statToProve.key ∧ proof.statValue = response.statToProve.value ∧
      proof.eventStatRoot = response.eventStatRoot ∧
      proof.subTreeRoot = response.eventStatsSubTreeRoot ∧ proof.anchoredRoot = anchoredRoot := by
  obtain ⟨statProof, -, h⟩ := Option.bind_eq_some_iff.mp h
  obtain ⟨subTreeProof, -, h⟩ := Option.bind_eq_some_iff.mp h
  obtain ⟨mainTreeProof, -, h⟩ := Option.bind_eq_some_iff.mp h
  cases h
  exact ⟨rfl, rfl, rfl, rfl, rfl⟩

/-- Both decoders make the same of the root. -/
def ReadsAlike (root : RootValue) : Prop := hexToBytes root = toBytes32 root

/-- The answer is a proof under the anchored root as the program checks it: the leaf and the roots
`e`, `s` and `a` hash up to one another. -/
structure Proves (sha256 : Sha256) (response : StatValidationResponse) (anchoredRoot : RootValue)
    (proof : SettlementProof) (leaf e s a : Bytes) : Prop where
  built : buildSettlementProof response anchoredRoot = some proof
  encoded : encodeScoreStat ⟨response.statToProve.key, response.statToProve.value,
    response.statToProve.period.getD 0⟩ = .ok leaf
  eventStatRoot : toBytes32 response.eventStatRoot = some e
  subTreeRoot : toBytes32 response.eventStatsSubTreeRoot = some s
  anchored : toBytes32 anchoredRoot = some a
  stat : walk sha256.bytes combine (sha256.bytes leaf) proof.statProof = e
  subTree : walk sha256.bytes combine e proof.subTreeProof = s
  mainTree : walk sha256.bytes combine s proof.mainTreeProof = a

/-- What is relied on of the hash at the texts of one proof: that the leaf of the first period does
not lead to the root of another leaf, nor to what that root is misread as. -/
structure Told (sha256 : Sha256) (proof : SettlementProof) (leaf : Bytes) : Prop where
  separates :
    let first := statBytes proof.statKey proof.statValue 0
    Separates sha256.bytes
      (leaf :: texts sha256.bytes combine (sha256.bytes leaf) proof.statProof)
      (first :: texts sha256.bytes combine (sha256.bytes first) proof.statProof)
  misread : ∀ e, hexToBytes proof.eventStatRoot = some e →
    toBytes32 proof.eventStatRoot ≠ some e →
    walk sha256.bytes combine (hashStatLeaf sha256 proof.statKey proof.statValue 0)
      proof.statProof ≠ e

/-- **Local verification.** It accepts a proof of period 0 whose roots both decoders read alike,
and, as far as the hash tells texts apart, no other. -/
theorem verifyProofLocally_iff {sha256 : Sha256} {response : StatValidationResponse}
    {anchoredRoot : RootValue} {proof : SettlementProof} {leaf e s a : Bytes}
    (h : Proves sha256 response anchoredRoot proof leaf e s a) :
    (response.statToProve.period.getD 0 = 0 ∧ ReadsAlike response.eventStatRoot ∧
        ReadsAlike response.eventStatsSubTreeRoot ∧ ReadsAlike anchoredRoot →
      verifyProofLocally sha256 proof = some true) ∧
    (Told sha256 proof leaf →
      (verifyProofLocally sha256 proof = some true ↔
        response.statToProve.period.getD 0 = 0 ∧ ReadsAlike response.eventStatRoot ∧
          ReadsAlike response.eventStatsSubTreeRoot ∧ ReadsAlike anchoredRoot)) := by
  obtain ⟨hbuilt, hleaf, he, hs, ha, hstat, hsub, hmain⟩ := h
  obtain ⟨-, -, hperiod, hbytes⟩ := encodeScoreStat_eq_ok.mp hleaf
  obtain ⟨hkey, hvalue, hevent, hsubTree, hanchored⟩ := fields_of_buildSettlementProof hbuilt
  simp only [← hkey, ← hvalue] at hbytes
  rw [← hevent] at he ⊢
  rw [← hsubTree] at hs ⊢
  rw [← hanchored] at ha ⊢
  have hif : response.statToProve.period.getD 0 = 0 ∧ ReadsAlike proof.eventStatRoot ∧
      ReadsAlike proof.subTreeRoot ∧ ReadsAlike proof.anchoredRoot →
      verifyProofLocally sha256 proof = some true := by
    rintro ⟨hzero, heventAlike, hsubAlike, hanchoredAlike⟩
    rw [hzero] at hbytes
    rw [← hbytes] at hstat
    exact verifyProofLocally_eq_true.mpr ⟨e, s, a, heventAlike.trans he, hsubAlike.trans hs,
      hanchoredAlike.trans ha, hstat, hsub, hmain⟩
  refine ⟨hif, fun htold => ⟨fun hverify => ?_, hif⟩⟩
  obtain ⟨e', s', a', he', hs', ha', hstat', hsub', hmain'⟩ := verifyProofLocally_eq_true.mp hverify
  have hsame : e' = e := by
    by_contra hne
    have hother : toBytes32 proof.eventStatRoot ≠ some e' := by
      rw [he]
      exact fun heq => hne (Option.some.inj heq).symm
    exact htold.misread e' he' hother hstat'
  subst hsame
  -- From here on the walks of both leaves end at the same root.
  have hleaves := (walk_inj combine_injective fun x hx y hy =>
    htold.separates x (.tail _ hx) y (.tail _ hy)).mp (hstat.trans hstat'.symm)
  have htexts := htold.separates _ (.head _) _ (.head _) hleaves
  rw [← hbytes] at htexts
  have hzero := (statBytes_inj hperiod ⟨by norm_num, by norm_num⟩).mp htexts
  have hs'' : s' = s := hsub'.symm.trans hsub
  subst hs''
  have ha'' : a' = a := hmain'.symm.trans hmain
  subst ha''
  exact ⟨hzero, he'.trans he.symm, hs'.trans hs.symm, ha'.trans ha.symm⟩

/-! ## Which roots are read alike -/

theorem readsAlike_numbers {xs : List ℤ} (h : xs.length = 32) : ReadsAlike (.numbers xs) := by
  have hlength : (xs.map lowByte).length = 32 := by rw [List.length_map, h]
  rw [ReadsAlike, hexToBytes, toBytes32]
  simp only [hlength, if_true]

theorem length_bytesOfPairs (s : List UInt16) : (bytesOfPairs s).length = s.length / 2 := by
  induction s using bytesOfPairs.induct with
  | case1 a b s ih =>
    rw [bytesOfPairs, List.length_cons, ih, List.length_cons, List.length_cons]
    omega
  | case2 s hs =>
    cases s with
    | nil => rfl
    | cons a s =>
      cases s with
      | nil => simp [bytesOfPairs]
      | cons b s => exact absurd rfl (hs a b s)

/-- A text in hexadecimal digits with the prefix is read alike if it is accepted. -/
theorem readsAlike_hex {s : List UInt16} (hhex : hexPrefix <+: s)
    (h : s.length = 66 ∨ s.length = 67) : ReadsAlike (.text s) := by
  have hlength : (bytesOfPairs (s.drop 2)).length = 32 := by
    rw [length_bytesOfPairs, List.length_drop]
    omega
  rw [ReadsAlike, hexToBytes, toBytes32]
  simp only [if_pos hhex, hlength, if_true]

/-- Any other text is not, unless it has the length of 32 bytes in hexadecimal digits. -/
theorem not_readsAlike_base64 {s : List UInt16} (hhex : ¬ hexPrefix <+: s)
    (h : s.length ≠ 64 ∧ s.length ≠ 65) : ¬ ReadsAlike (.text s) := by
  have hlength := length_bytesOfPairs s
  intro halike
  rw [ReadsAlike, hexToBytes, toBytes32] at halike
  simp only [if_neg hhex] at halike
  split at halike
  · rename_i hbase
    rw [← Option.some.inj halike, hlength] at hbase
    omega
  · cases halike

theorem not_readsAlike_bytes {bs : Bytes} (h : bs.length = 32) : ¬ ReadsAlike (.bytes bs) := by
  intro halike
  rw [ReadsAlike, hexToBytes, toBytes32] at halike
  simp only [h, if_true] at halike
  cases halike

namespace Sample

/-- Two goals of the first participant in a period. -/
def stat (period : ℤ) : StatToProve := ⟨1, 2, some period⟩

def sibling : List ℤ := List.replicate 32 9

def leaf (period : ℤ) : Bytes := statBytes 1 2 period

/-- The digests of the two leaves, and of each before its sibling. -/
def sha256 : Sha256 := fun bs =>
  if bs = leaf 0 then
    ⟨[167, 181, 241, 133, 174, 225, 200, 226, 155, 126, 44, 43, 195, 159, 47, 131, 33, 98,
      130, 53, 78, 122, 7, 83, 250, 18, 99, 250, 57, 158, 108, 74], rfl⟩
  else if bs = leaf 1 then
    ⟨[208, 68, 104, 212, 102, 113, 248, 187, 9, 64, 143, 45, 193, 106, 74, 76, 15, 149, 98,
      190, 235, 248, 131, 93, 64, 131, 23, 173, 207, 58, 117, 40], rfl⟩
  else if bs.take 1 = [167] then
    ⟨[197, 135, 43, 32, 172, 141, 161, 84, 90, 228, 218, 162, 29, 199, 165, 250, 169, 42, 99,
      19, 215, 36, 241, 108, 48, 17, 140, 40, 14, 100, 29, 155], rfl⟩
  else
    ⟨[255, 212, 150, 57, 76, 9, 248, 87, 207, 118, 87, 184, 202, 127, 128, 13, 252, 234, 22,
      246, 20, 152, 232, 232, 76, 88, 135, 209, 50, 117, 120, 236], rfl⟩

def root (period : ℤ) : List ℤ :=
  (sha256 (sha256.bytes (leaf period) ++ sibling.map lowByte)).1.map fun b => (b.toNat : ℤ)

def response (period : ℤ) : StatValidationResponse where
  eventStatsSubTreeRoot := .numbers (root period)
  subTreeProof := []
  mainTreeProof := []
  eventStatRoot := .numbers (root period)
  statToProve := stat period
  statProof := [⟨.numbers sibling, true⟩]

def proof (period : ℤ) : SettlementProof where
  statKey := 1
  statValue := 2
  statProof := [⟨sibling.map lowByte, true⟩]
  subTreeProof := []
  mainTreeProof := []
  eventStatRoot := .numbers (root period)
  subTreeRoot := .numbers (root period)
  anchoredRoot := .numbers (root period)

theorem root_alike (period : ℤ) : ReadsAlike (.numbers (root period)) := by
  refine readsAlike_numbers ?_
  rw [root, List.length_map]
  exact List.Vector.length_val _

theorem map_root (period : ℤ) : (root period).map lowByte =
    sha256.bytes (sha256.bytes (leaf period) ++ sibling.map lowByte) := by
  have hbyte (b : UInt8) : lowByte (b.toNat : ℤ) = b := by
    have hb := b.toNat_lt
    have hlow : ((b.toNat : ℤ) % 256).toNat = b.toNat := by omega
    rw [lowByte, hlow, UInt8.ofNat_toNat]
  rw [root, List.map_map]
  simp only [Function.comp_def, hbyte, List.map_id', Sha256.bytes]

theorem proves {period : ℤ} (h : FitsI32 period) :
    Proves sha256 (response period) (.numbers (root period)) (proof period) (leaf period)
      ((root period).map lowByte) ((root period).map lowByte) ((root period).map lowByte) := by
  have hroot := (root_alike period).symm
  refine ⟨rfl, ?_, hroot, hroot, hroot, ?_, rfl, rfl⟩
  · have hkey : FitsU32 1 := by decide
    have hvalue : FitsI32 2 := by decide
    exact encodeScoreStat_eq_ok.mpr ⟨hkey, hvalue, h, rfl⟩
  · rw [map_root]
    rfl

theorem told : Told sha256 (proof 1) (leaf 1) := by
  constructor
  · show ∀ x ∈ _, ∀ y ∈ _, sha256.bytes x = sha256.bytes y → x = y
    decide +kernel
  · intro e he hne
    exact absurd ((root_alike 1).symm.trans he) hne

end Sample

/-- The proof of the whole match is accepted, that of the first half is not. -/
theorem verifyProofLocally_iff_sample :
    verifyProofLocally Sample.sha256 (Sample.proof 0) = some true ∧
      verifyProofLocally Sample.sha256 (Sample.proof 1) ≠ some true := by
  have hwhole := verifyProofLocally_iff (Sample.proves (show FitsI32 0 by decide))
  have hhalf := verifyProofLocally_iff (Sample.proves (show FitsI32 1 by decide))
  have halike := Sample.root_alike 0
  refine ⟨hwhole.1 ⟨rfl, halike, halike, halike⟩, fun h => ?_⟩
  exact absurd ((hhalf.2 Sample.told).mp h).1 (by decide)

/-- A proof of the goals of a first half, valid for the program. -/
theorem half_not_verified : ∃ leaf e,
    Proves Sample.sha256 (Sample.response 1) (.numbers (Sample.root 1)) (Sample.proof 1) leaf e e
      e ∧
    verifyProofLocally Sample.sha256 (Sample.proof 1) = some false :=
  ⟨_, _, Sample.proves ⟨by decide, by decide⟩, by decide +kernel⟩

end Stoppage.Sdk
