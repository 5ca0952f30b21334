import Stoppage.Programs.ValidateStat
import Stoppage.Sdk.Instructions

/-! # `packages/sdk/src/settlement.ts`: the TxLINE encoders

The data of `validate_stat`, written field by field, and what the program reads out of it.
-/

namespace Stoppage
open LittleEndian Fallible
set_option autoImplicit false

namespace Sdk

/-! ## Records -/

/-- An array of JavaScript, whose length is a 32-bit number. -/
abbrev JsArray (α : Type) : Type := { xs : List α // xs.length < 2 ^ 32 }

def JsArray.empty {α : Type} : JsArray α := ⟨[], Nat.two_pow_pos 32⟩

/-- The statistic in an answer of TxLINE. -/
structure StatToProve where
  key : ℤ
  value : ℤ
  period : Option ℤ

structure ScoreStat where
  key : ℤ
  value : ℤ
  period : ℤ

structure ScoresUpdateStats where
  updateCount : ℤ
  minTimestamp : ℤ
  maxTimestamp : ℤ

structure ScoresBatchSummary where
  fixtureId : ℤ
  updateStats : ScoresUpdateStats
  eventsSubTreeRoot : Bytes

structure ProofNode where
  hash : Bytes
  isRightSibling : Bool

structure StatTerm where
  statToProve : ScoreStat
  eventStatRoot : Bytes
  statProof : JsArray ProofNode

inductive Comparison where
  | greaterThan
  | lessThan
  | equalTo
deriving DecidableEq

def Comparison.code : Comparison → ℤ
  | .greaterThan => 0
  | .lessThan => 1
  | .equalTo => 2

structure TraderPredicate where
  threshold : ℤ
  comparison : Comparison

inductive BinaryExpression where
  | add
  | subtract
deriving DecidableEq

def BinaryExpression.code : BinaryExpression → ℤ
  | .add => 0
  | .subtract => 1

structure ValidateStatParams where
  ts : ℤ
  fixtureSummary : ScoresBatchSummary
  fixtureProof : JsArray ProofNode
  mainTreeProof : JsArray ProofNode
  predicate : TraderPredicate
  statA : StatTerm
  statB : Option StatTerm
  op : Option BinaryExpression

/-! ## Encoders -/

/-- `buf.writeInt32LE(value)` on a buffer of four bytes. -/
def writeInt32LE (value : ℤ) : Except SdkError Bytes :=
  if -2 ^ 31 ≤ value ∧ value < 2 ^ 31 then .ok (encode 4 (value % 2 ^ 32).toNat)
  else .error .rangeError

/-- `BigInt.asIntN(bits, value)` -/
def asIntN (bits : ℕ) (value : ℤ) : ℤ := Int.bmod value (2 ^ bits)

/-- `BigInt.asUintN(bits, value)` -/
def asUintN (bits : ℕ) (value : ℤ) : ℤ := value % 2 ^ bits

def encodeProofNode (node : ProofNode) : Except SdkError Bytes := do
  -- `buf.set` throws when the hash does not fit.
  require (node.hash.length ≤ 33) .rangeError
  let buf := writeAt (alloc 33) 0 node.hash
  pure (writeAt buf 32 [if node.isRightSibling then 1 else 0])

def encodeVec (items : List Bytes) : Except SdkError Bytes := do
  let len ← writeUInt32LE items.length
  pure (len ++ items.flatten)

def encodeI64 (val : ℤ) : Bytes :=
  let n := asUintN 64 (asIntN 64 val)
  (List.range 8).map fun i => lowByte (n / 2 ^ (i * 8))

def encodeI32 (val : ℤ) : Except SdkError Bytes := writeInt32LE val

def encodeU32 (val : ℤ) : Except SdkError Bytes := writeUInt32LE val

def encodeU8 (val : ℤ) : Bytes := [lowByte val]

def encodeOption {α : Type} (val : Option α) (encoder : α → Except SdkError Bytes) :
    Except SdkError Bytes :=
  match val with
  | none => .ok [0]
  | some v => do
    let bytes ← encoder v
    pure ([1] ++ bytes)

def encodeScoreStat (s : ScoreStat) : Except SdkError Bytes := do
  let key ← encodeU32 s.key
  let value ← encodeI32 s.value
  let period ← encodeI32 s.period
  pure (key ++ (value ++ period))

def encodeScoresUpdateStats (s : ScoresUpdateStats) : Except SdkError Bytes := do
  let updateCount ← encodeI32 s.updateCount
  pure (updateCount ++ (encodeI64 s.minTimestamp ++ encodeI64 s.maxTimestamp))

def encodeScoresBatchSummary (s : ScoresBatchSummary) : Except SdkError Bytes := do
  let updateStats ← encodeScoresUpdateStats s.updateStats
  pure (encodeI64 s.fixtureId ++ (updateStats ++ s.eventsSubTreeRoot))

/-- `encodeVec(nodes.map(encodeProofNode))` -/
def encodeProof (nodes : JsArray ProofNode) : Except SdkError Bytes := do
  let items ← nodes.1.mapM encodeProofNode
  encodeVec items

def encodeStatTerm (s : StatTerm) : Except SdkError Bytes := do
  let statToProve ← encodeScoreStat s.statToProve
  let statProof ← encodeProof s.statProof
  pure (statToProve ++ (s.eventStatRoot ++ statProof))

def encodeTraderPredicate (p : TraderPredicate) : Except SdkError Bytes := do
  let threshold ← encodeI32 p.threshold
  pure (threshold ++ encodeU8 p.comparison.code)

def encodeBinaryExpression (e : BinaryExpression) : Bytes := encodeU8 e.code

def buildValidateStatData (params : ValidateStatParams) : Except SdkError Bytes := do
  let fixtureSummary ← encodeScoresBatchSummary params.fixtureSummary
  let fixtureProof ← encodeProof params.fixtureProof
  let mainTreeProof ← encodeProof params.mainTreeProof
  let predicate ← encodeTraderPredicate params.predicate
  let statA ← encodeStatTerm params.statA
  let statB ← encodeOption params.statB encodeStatTerm
  let op ← encodeOption params.op fun e => .ok (encodeBinaryExpression e)
  pure (encodeI64 params.ts ++ (fixtureSummary ++ (fixtureProof ++ (mainTreeProof ++
    (predicate ++ (statA ++ (statB ++ op)))))))

def txlineValidateStatDiscriminator : Bytes := [107, 197, 232, 90, 191, 136, 105, 185]

def buildTxlineValidateStatData (params : ValidateStatParams) : Except SdkError Bytes := do
  let data ← buildValidateStatData params
  pure (txlineValidateStatDiscriminator ++ data)

/-! ## Integers -/

def FitsI32 (value : ℤ) : Prop := -2 ^ 31 ≤ value ∧ value < 2 ^ 31

instance (value : ℤ) : Decidable (FitsU32 value) := inferInstanceAs (Decidable (_ ∧ _))
instance (value : ℤ) : Decidable (FitsI32 value) := inferInstanceAs (Decidable (_ ∧ _))
instance (value : ℤ) : Decidable (FitsI64 value) := inferInstanceAs (Decidable (_ ∧ _))

theorem FitsI32.exists_toInt {value : ℤ} (h : FitsI32 value) : ∃ x : Int32, x.toInt = value :=
  ⟨Int32.ofInt value, Int32.toInt_ofInt_of_le h.1 h.2⟩

theorem encodeU32_toNat (x : UInt32) : encodeU32 x.toNat = .ok (LittleEndian.encodeU32 x) :=
  writeUInt32LE_toNat x

theorem encodeI32_toInt (x : Int32) : encodeI32 x.toInt = .ok (LittleEndian.encodeI32 x) := by
  have hword := BitVec.toNat_ofInt (n := 32) x.toInt
  have hx : BitVec.ofInt 32 x.toInt = x.toBitVec := BitVec.ofInt_toInt
  rw [hx] at hword
  have hword' : (x.toInt % 2 ^ 32).toNat = x.toUInt32.toNat := hword.symm
  rw [encodeI32, writeInt32LE, if_pos ⟨x.le_toInt, x.toInt_lt⟩, hword', LittleEndian.encodeI32]

theorem map_lowByte (n : ℕ) (v : ℤ) :
    ((List.range n).map fun i => lowByte (v / 2 ^ (i * 8))) = writeLowBytes n v := by
  induction n generalizing v with
  | zero => rfl
  | succ n ih =>
    have hshift : ∀ i : ℕ, v / 2 ^ ((i + 1) * 8) = v / 256 / 2 ^ (i * 8) := by
      intro i
      rw [Int.ediv_ediv_of_nonneg (by norm_num), Nat.add_mul, Nat.one_mul, pow_add, mul_comm]
      norm_num
    rw [List.range_succ_eq_map, List.map_cons, List.map_map, writeLowBytes, ← ih, Nat.zero_mul,
      pow_zero, Int.ediv_one]
    simp only [Function.comp_def, Nat.succ_eq_add_one, hshift]

theorem encodeI64_toInt (x : Int64) : encodeI64 x.toInt = LittleEndian.encodeI64 x := by
  have hwrap : asUintN 64 (asIntN 64 x.toInt) = x.toInt % 2 ^ 64 := by
    rw [asUintN, asIntN]
    push_cast
    exact Int.bmod_emod
  rw [encodeI64, hwrap, map_lowByte, toInt_emod, writeLowBytes_natCast, LittleEndian.encodeI64]

end Sdk

/-! ## What the program reads -/

namespace Txline
open Sdk

/-- The bytes are written, and the program reads the value out of them. -/
def Sends {α : Type} (written : Except SdkError Bytes) (read : Borsh.Reader α) (x : α) : Prop :=
  ∃ bs, written = .ok bs ∧ Borsh.Reads read bs x

def ScoreStat.toSdk (s : ScoreStat) : Sdk.ScoreStat where
  key := s.key.toNat
  value := s.value.toInt
  period := s.period.toInt

theorem ScoreStat.sends (s : ScoreStat) : Sends (encodeScoreStat s.toSdk) ScoreStat.read s := by
  refine ⟨LittleEndian.encodeU32 s.key ++ (LittleEndian.encodeI32 s.value ++
    LittleEndian.encodeI32 s.period), ?_, ?_⟩
  · rw [encodeScoreStat, toSdk, encodeU32_toNat, ok_bind, encodeI32_toInt, ok_bind,
      encodeI32_toInt, ok_bind]
    rfl
  · refine (Borsh.reads_u32 s.key).bind ((Borsh.reads_i32 s.value).bind ?_)
    exact (Borsh.reads_i32 s.period).map fun period => { s with period }

def ScoresUpdateStats.toSdk (s : ScoresUpdateStats) : Sdk.ScoresUpdateStats where
  updateCount := s.updateCount.toInt
  minTimestamp := s.minTimestamp.toInt
  maxTimestamp := s.maxTimestamp.toInt

theorem ScoresUpdateStats.sends (s : ScoresUpdateStats) :
    Sends (encodeScoresUpdateStats s.toSdk) ScoresUpdateStats.read s := by
  refine ⟨LittleEndian.encodeI32 s.updateCount ++ (LittleEndian.encodeI64 s.minTimestamp ++
    LittleEndian.encodeI64 s.maxTimestamp), ?_, ?_⟩
  · rw [encodeScoresUpdateStats, toSdk, encodeI32_toInt, ok_bind, encodeI64_toInt, encodeI64_toInt]
    rfl
  · refine (Borsh.reads_i32 s.updateCount).bind ((Borsh.reads_i64 s.minTimestamp).bind ?_)
    exact (Borsh.reads_i64 s.maxTimestamp).map fun maxTimestamp => { s with maxTimestamp }

def ScoresBatchSummary.toSdk (s : ScoresBatchSummary) : Sdk.ScoresBatchSummary where
  fixtureId := s.fixtureId.toInt
  updateStats := s.updateStats.toSdk
  eventsSubTreeRoot := s.eventsSubTreeRoot.1

theorem ScoresBatchSummary.sends (s : ScoresBatchSummary) :
    Sends (encodeScoresBatchSummary s.toSdk) ScoresBatchSummary.read s := by
  obtain ⟨stats, hstats, hread⟩ := s.updateStats.sends
  refine ⟨LittleEndian.encodeI64 s.fixtureId ++ (stats ++ s.eventsSubTreeRoot.1), ?_, ?_⟩
  · rw [encodeScoresBatchSummary, toSdk, hstats, ok_bind, encodeI64_toInt]
    rfl
  · refine (Borsh.reads_i64 s.fixtureId).bind (hread.bind ?_)
    exact (Borsh.reads_array s.eventsSubTreeRoot).map fun root =>
      { s with eventsSubTreeRoot := root }

def ProofNode.toSdk (n : ProofNode) : Sdk.ProofNode where
  hash := n.hash.1
  isRightSibling := n.isRightSibling

theorem ProofNode.sends (n : ProofNode) : Sends (encodeProofNode n.toSdk) ProofNode.read n := by
  have hlength : n.hash.1.length = 32 := n.hash.2
  have hle : n.toSdk.hash.length ≤ 33 := by
    show n.hash.1.length ≤ 33
    omega
  have hfirst : writeAt (alloc 33) 0 n.hash.1 = n.hash.1 ++ alloc 1 := by
    have h : writeAt ([] ++ alloc 33) 0 n.hash.1 =
        ([] ++ n.hash.1) ++ alloc (33 - n.hash.1.length) := writeAt_alloc rfl
    rwa [List.nil_append, List.nil_append, hlength] at h
  refine ⟨n.hash.1 ++ [if n.isRightSibling then 1 else 0], ?_, ?_⟩
  · rw [encodeProofNode, require_of hle, ok_bind]
    show Except.ok (writeAt (writeAt (alloc 33) 0 n.hash.1) 32 _) = _
    rw [hfirst, writeAt_alloc hlength]
    exact congrArg Except.ok (List.append_nil _)
  · refine (Borsh.reads_array n.hash).bind ?_
    exact (Borsh.reads_bool n.isRightSibling).map fun isRightSibling => { n with isRightSibling }

theorem sends_nodes (nodes : List ProofNode) :
    ∃ items, (nodes.map ProofNode.toSdk).mapM encodeProofNode = .ok items ∧
      List.Forall₂ (fun bs n => Borsh.Reads ProofNode.read bs n) items nodes := by
  induction nodes with
  | nil => exact ⟨[], rfl, .nil⟩
  | cons n nodes ih =>
    obtain ⟨bs, hbs, hread⟩ := n.sends
    obtain ⟨items, hitems, hreads⟩ := ih
    refine ⟨bs :: items, ?_, .cons hread hreads⟩
    rw [List.map_cons, List.mapM_cons, hbs, ok_bind, hitems, ok_bind]
    rfl

theorem sends_proof {nodes : List ProofNode} {p : JsArray Sdk.ProofNode}
    (h : nodes.map ProofNode.toSdk = p.1) :
    Sends (encodeProof p) (Borsh.vector ProofNode.read) nodes := by
  obtain ⟨items, hitems, hreads⟩ := sends_nodes nodes
  have hlength : items.length = nodes.length := hreads.length_eq
  have hbound : nodes.length < 2 ^ 32 := by
    have := p.2
    rwa [← h, List.length_map] at this
  refine ⟨_, ?_, Borsh.reads_vector hreads hbound⟩
  rw [encodeProof, ← h, hitems, ok_bind, encodeVec, hlength,
    writeUInt32LE_natCast.mpr ⟨hbound, rfl⟩, ok_bind]
  rfl

structure StatTerm.Is (s : StatTerm) (p : Sdk.StatTerm) : Prop where
  statToProve : s.statToProve.toSdk = p.statToProve
  eventStatRoot : s.eventStatRoot.1 = p.eventStatRoot
  statProof : s.statProof.map ProofNode.toSdk = p.statProof.1

theorem StatTerm.Is.sends {s : StatTerm} {p : Sdk.StatTerm} (h : s.Is p) :
    Sends (encodeStatTerm p) StatTerm.read s := by
  obtain ⟨stat, hstat, hread⟩ := s.statToProve.sends
  obtain ⟨proof, hproof, hnodes⟩ := sends_proof h.statProof
  refine ⟨stat ++ (s.eventStatRoot.1 ++ proof), ?_, ?_⟩
  · rw [encodeStatTerm, ← h.statToProve, hstat, ok_bind, hproof, ok_bind, h.eventStatRoot]
    rfl
  · refine hread.bind ((Borsh.reads_array s.eventStatRoot).bind ?_)
    exact hnodes.map fun statProof => { s with statProof }

def Comparison.toSdk : Comparison → Sdk.Comparison
  | .greaterThan => .greaterThan
  | .lessThan => .lessThan
  | .equalTo => .equalTo

def BinaryExpression.toSdk : BinaryExpression → Sdk.BinaryExpression
  | .add => .add
  | .subtract => .subtract

theorem Comparison.ofTag_code (c : Comparison) : ofTag (lowByte c.toSdk.code) = some c := by
  cases c <;> rfl

theorem BinaryExpression.ofTag_code (e : BinaryExpression) :
    ofTag (lowByte e.toSdk.code) = some e := by
  cases e <;> rfl

def TraderPredicate.toSdk (p : TraderPredicate) : Sdk.TraderPredicate where
  threshold := p.threshold.toInt
  comparison := p.comparison.toSdk

theorem TraderPredicate.sends (p : TraderPredicate) :
    Sends (encodeTraderPredicate p.toSdk) TraderPredicate.read p := by
  refine ⟨LittleEndian.encodeI32 p.threshold ++ [lowByte p.comparison.toSdk.code], ?_, ?_⟩
  · rw [encodeTraderPredicate, toSdk, encodeI32_toInt, ok_bind]
    rfl
  · refine (Borsh.reads_i32 p.threshold).bind ?_
    exact (Borsh.reads_tagged p.comparison.ofTag_code).map fun comparison => { p with comparison }

theorem sends_option {α β : Type} {read : Borsh.Reader β} {encoder : α → Except SdkError Bytes}
    {o : Option α} {x : Option β}
    (h : Option.Rel (fun v y => Sends (encoder v) read y) o x) :
    Sends (encodeOption o encoder) (Borsh.option read) x := by
  cases h with
  | none => exact ⟨[0], rfl, Borsh.reads_none read⟩
  | some hv =>
    obtain ⟨bs, hbs, hread⟩ := hv
    refine ⟨[1] ++ bs, ?_, Borsh.reads_some hread⟩
    rw [encodeOption, hbs]
    rfl

theorem sends_statB {x : Option StatTerm} {o : Option Sdk.StatTerm}
    (h : Option.Rel StatTerm.Is x o) :
    Sends (encodeOption o encodeStatTerm) (Borsh.option StatTerm.read) x := by
  refine sends_option ?_
  cases h with
  | none => exact .none
  | some hs => exact .some hs.sends

structure ValidateStatArgs.Is (a : ValidateStatArgs) (p : ValidateStatParams) : Prop where
  ts : a.ts.toInt = p.ts
  fixtureSummary : a.fixtureSummary.toSdk = p.fixtureSummary
  fixtureProof : a.fixtureProof.map ProofNode.toSdk = p.fixtureProof.1
  mainTreeProof : a.mainTreeProof.map ProofNode.toSdk = p.mainTreeProof.1
  predicate : a.predicate.toSdk = p.predicate
  statA : a.statA.Is p.statA
  statB : Option.Rel StatTerm.Is a.statB p.statB
  op : a.op.map BinaryExpression.toSdk = p.op

theorem ValidateStatArgs.Is.sends {a : ValidateStatArgs} {p : ValidateStatParams} (h : a.Is p) :
    Sends (buildValidateStatData p) ValidateStatArgs.read a := by
  obtain ⟨summary, hsummary, hread₁⟩ := a.fixtureSummary.sends
  obtain ⟨proof, hproof, hread₂⟩ := sends_proof h.fixtureProof
  obtain ⟨tree, htree, hread₃⟩ := sends_proof h.mainTreeProof
  obtain ⟨predicate, hpredicate, hread₄⟩ := a.predicate.sends
  obtain ⟨statA, hstatA, hread₅⟩ := h.statA.sends
  obtain ⟨statB, hstatB, hread₆⟩ := sends_statB h.statB
  have hexpr : Option.Rel (fun e y => Sends (.ok (encodeBinaryExpression e))
      (Borsh.tagged BinaryExpression.ofTag) y) p.op a.op := by
    rw [← h.op]
    cases a.op with
    | none => exact .none
    | some e => exact .some ⟨_, rfl, Borsh.reads_tagged e.ofTag_code⟩
  obtain ⟨op, hop, hread₇⟩ := sends_option hexpr
  refine ⟨LittleEndian.encodeI64 a.ts ++ (summary ++ (proof ++ (tree ++ (predicate ++ (statA ++
    (statB ++ op)))))), ?_, ?_⟩
  · rw [buildValidateStatData, ← h.fixtureSummary, hsummary, ok_bind, hproof, ok_bind, htree,
      ok_bind, ← h.predicate, hpredicate, ok_bind, hstatA, ok_bind, hstatB, ok_bind, hop, ok_bind,
      ← h.ts, encodeI64_toInt]
    rfl
  · refine (Borsh.reads_i64 a.ts).bind (hread₁.bind (hread₂.bind (hread₃.bind (hread₄.bind ?_))))
    refine hread₅.bind (hread₆.bind ?_)
    exact hread₇.map fun op => { a with op }

end Txline

namespace Sdk

/-! ## Records that fit -/

structure ScoreStat.Fits (s : ScoreStat) : Prop where
  key : FitsU32 s.key
  value : FitsI32 s.value
  period : FitsI32 s.period

structure ScoresUpdateStats.Fits (s : ScoresUpdateStats) : Prop where
  updateCount : FitsI32 s.updateCount
  minTimestamp : FitsI64 s.minTimestamp
  maxTimestamp : FitsI64 s.maxTimestamp

structure ScoresBatchSummary.Fits (s : ScoresBatchSummary) : Prop where
  fixtureId : FitsI64 s.fixtureId
  updateStats : s.updateStats.Fits
  eventsSubTreeRoot : s.eventsSubTreeRoot.length = 32

structure StatTerm.Fits (s : StatTerm) : Prop where
  statToProve : s.statToProve.Fits
  eventStatRoot : s.eventStatRoot.length = 32
  statProof : ∀ n ∈ s.statProof.1, n.hash.length = 32

/-- Hashes of 32 bytes, and integers in their declared ranges. -/
structure ValidateStatParams.Fits (p : ValidateStatParams) : Prop where
  ts : FitsI64 p.ts
  fixtureSummary : p.fixtureSummary.Fits
  fixtureProof : ∀ n ∈ p.fixtureProof.1, n.hash.length = 32
  mainTreeProof : ∀ n ∈ p.mainTreeProof.1, n.hash.length = 32
  threshold : FitsI32 p.predicate.threshold
  statA : p.statA.Fits
  statB : ∀ s ∈ p.statB, s.Fits

end Sdk

namespace Txline
open Sdk

theorem exists_scoreStat {p : Sdk.ScoreStat} (h : p.Fits) : ∃ s : ScoreStat, s.toSdk = p := by
  obtain ⟨key, hkey⟩ := h.key.exists_toNat
  obtain ⟨value, hvalue⟩ := h.value.exists_toInt
  obtain ⟨period, hperiod⟩ := h.period.exists_toInt
  refine ⟨⟨key, value, period⟩, ?_⟩
  rw [ScoreStat.toSdk, hkey, hvalue, hperiod]

theorem exists_scoresBatchSummary {p : Sdk.ScoresBatchSummary} (h : p.Fits) :
    ∃ s : ScoresBatchSummary, s.toSdk = p := by
  obtain ⟨fixtureId, hfixture⟩ := exists_toInt h.fixtureId.1 h.fixtureId.2
  obtain ⟨updateCount, hcount⟩ := h.updateStats.updateCount.exists_toInt
  obtain ⟨minTimestamp, hmin⟩ :=
    exists_toInt h.updateStats.minTimestamp.1 h.updateStats.minTimestamp.2
  obtain ⟨maxTimestamp, hmax⟩ :=
    exists_toInt h.updateStats.maxTimestamp.1 h.updateStats.maxTimestamp.2
  refine ⟨⟨fixtureId, ⟨updateCount, minTimestamp, maxTimestamp⟩,
    ⟨p.eventsSubTreeRoot, h.eventsSubTreeRoot⟩⟩, ?_⟩
  rw [ScoresBatchSummary.toSdk, ScoresUpdateStats.toSdk, hfixture, hcount, hmin, hmax]

theorem exists_nodes {ps : List Sdk.ProofNode} (h : ∀ n ∈ ps, n.hash.length = 32) :
    ∃ nodes : List ProofNode, nodes.map ProofNode.toSdk = ps := by
  induction ps with
  | nil => exact ⟨[], rfl⟩
  | cons p ps ih =>
    obtain ⟨nodes, hnodes⟩ := ih fun n hn => h n (List.mem_cons_of_mem _ hn)
    refine ⟨⟨⟨p.hash, h p List.mem_cons_self⟩, p.isRightSibling⟩ :: nodes, ?_⟩
    rw [List.map_cons, hnodes]
    rfl

theorem exists_statTerm {p : Sdk.StatTerm} (h : p.Fits) : ∃ s : StatTerm, s.Is p := by
  obtain ⟨stat, hstat⟩ := exists_scoreStat h.statToProve
  obtain ⟨nodes, hnodes⟩ := exists_nodes h.statProof
  exact ⟨⟨stat, ⟨p.eventStatRoot, h.eventStatRoot⟩, nodes⟩, hstat, rfl, hnodes⟩

theorem exists_statB {o : Option Sdk.StatTerm} (h : ∀ s ∈ o, s.Fits) :
    ∃ x : Option StatTerm, Option.Rel StatTerm.Is x o := by
  cases o with
  | none => exact ⟨none, .none⟩
  | some p =>
    obtain ⟨s, hs⟩ := exists_statTerm (h p rfl)
    exact ⟨some s, .some hs⟩

theorem exists_predicate {p : Sdk.TraderPredicate} (h : FitsI32 p.threshold) :
    ∃ q : TraderPredicate, q.toSdk = p := by
  obtain ⟨threshold, hthreshold⟩ := h.exists_toInt
  obtain ⟨t, c⟩ := p
  cases hthreshold
  cases c with
  | greaterThan => exact ⟨⟨threshold, .greaterThan⟩, rfl⟩
  | lessThan => exact ⟨⟨threshold, .lessThan⟩, rfl⟩
  | equalTo => exact ⟨⟨threshold, .equalTo⟩, rfl⟩

theorem exists_op (o : Option Sdk.BinaryExpression) :
    ∃ x : Option BinaryExpression, x.map BinaryExpression.toSdk = o := by
  cases o with
  | none => exact ⟨none, rfl⟩
  | some e =>
    cases e with
    | add => exact ⟨some .add, rfl⟩
    | subtract => exact ⟨some .subtract, rfl⟩

theorem exists_validateStatArgs {p : ValidateStatParams} (h : p.Fits) :
    ∃ a : ValidateStatArgs, a.Is p := by
  obtain ⟨ts, hts⟩ := exists_toInt h.ts.1 h.ts.2
  obtain ⟨summary, hsummary⟩ := exists_scoresBatchSummary h.fixtureSummary
  obtain ⟨fixtureProof, hfixture⟩ := exists_nodes h.fixtureProof
  obtain ⟨mainTreeProof, htree⟩ := exists_nodes h.mainTreeProof
  obtain ⟨predicate, hpredicate⟩ := exists_predicate h.threshold
  obtain ⟨statA, hstatA⟩ := exists_statTerm h.statA
  obtain ⟨statB, hstatB⟩ := exists_statB h.statB
  obtain ⟨op, hop⟩ := exists_op p.op
  exact ⟨⟨ts, summary, fixtureProof, mainTreeProof, predicate, statA, statB, op⟩, hts, hsummary,
    hfixture, htree, hpredicate, hstatA, hstatB, hop⟩

/-! ## The instruction data -/

/-- The arguments behind the discriminator, with no bytes left over. -/
def decodeValidateStat (data : Bytes) : Option ValidateStatArgs :=
  (afterDiscriminator validateStatDiscriminator data).bind (Borsh.runAll ValidateStatArgs.read)

end Txline

namespace Sdk

/-- The arguments of `resolve_market` behind the discriminator, with no bytes left over. -/
def decodeResolveMarket (data : Bytes) : Option SettlementProgram.ResolveMarketArgs :=
  (afterDiscriminator SettlementProgram.resolveMarketDiscriminator data).bind
    (Borsh.runAll SettlementProgram.ResolveMarketArgs.read)

theorem buildResolveMarketIx_decode {resolver market validator : Pubkey} {accounts : List Address}
    {statement : String} {root : List.Vector UInt8 32} {outcome : ℤ} {data : Bytes}
    {ix : TransactionInstruction}
    (h : buildResolveMarketIx resolver market validator accounts statement root.1 outcome data =
      .ok ix) :
    decodeResolveMarket ix.data = some ⟨statement, root, lowByte outcome, data⟩ := by
  simp only [buildResolveMarketIx, bind_eq_ok, pure_eq_ok, writeUInt32LE_natCast] at h
  obtain ⟨_, ⟨hstatement, rfl⟩, _, ⟨hdata, rfl⟩, rfl⟩ := h
  have hread := reads_resolveMarketArgs ⟨statement, root, lowByte outcome, data⟩ hstatement hdata
  show (afterDiscriminator _ (SettlementProgram.resolveMarketDiscriminator ++ _)).bind _ = _
  rw [afterDiscriminator_append rfl, Option.bind_some]
  exact hread.runAll

/-- **Encoder and schema agree.** The instruction data is the record of the arguments under the
declared schema, and the settlement program hands it on as it is. -/
theorem txline_faithful {p : ValidateStatParams} (h : p.Fits) :
    ∃ data a, buildTxlineValidateStatData p = .ok data ∧
      Txline.decodeValidateStat data = some a ∧ a.Is p ∧
      ∀ (resolver market validator : Pubkey) (accounts : List Address) (statement : String)
        (root : List.Vector UInt8 32) (outcome : ℤ), 0 ≤ outcome → outcome < 256 →
        (∀ ix, buildResolveMarketIx resolver market validator accounts statement root.1 outcome
            data = .ok ix →
          ∃ args, decodeResolveMarket ix.data = some args ∧ args.statement = statement ∧
            args.merkleRoot = root ∧ (args.outcome.toNat : ℤ) = outcome ∧
            args.validatorIxData = data) ∧
        ((utf8 statement).length < 2 ^ 32 → data.length < 2 ^ 32 →
          ∃ ix, buildResolveMarketIx resolver market validator accounts statement root.1 outcome
            data = .ok ix) := by
  obtain ⟨a, ha⟩ := Txline.exists_validateStatArgs h
  obtain ⟨bs, hbs, hread⟩ := ha.sends
  refine ⟨txlineValidateStatDiscriminator ++ bs, a, ?_, ?_, ha, ?_⟩
  · rw [buildTxlineValidateStatData, hbs]
    rfl
  · show (afterDiscriminator _ (Txline.validateStatDiscriminator ++ bs)).bind _ = _
    rw [afterDiscriminator_append rfl, Option.bind_some]
    exact hread.runAll
  · intro resolver market validator accounts statement root outcome hlow hhigh
    refine ⟨fun ix hix => ⟨_, buildResolveMarketIx_decode hix, rfl, rfl, ?_, rfl⟩, fun hs hd => ?_⟩
    · show ((lowByte outcome).toNat : ℤ) = outcome
      rw [lowByte, UInt8.toNat_ofNat']
      omega
    · exact buildResolveMarketIx_isOk hs hd resolver market validator accounts root.1 outcome

namespace Sample

def node (b : UInt8) (isRightSibling : Bool) : ProofNode := ⟨List.replicate 32 b, isRightSibling⟩

def term (key value : ℤ) : StatTerm where
  statToProve := ⟨key, value, -1⟩
  eventStatRoot := List.replicate 32 3
  statProof := ⟨[node 4 true, node 5 false], by decide⟩

/-- The total of two statistics, one of them negative. -/
def total : ValidateStatParams where
  ts := 1700000000000
  fixtureSummary :=
    { fixtureId := 18041422
      updateStats := ⟨900, 1700000000000, -1⟩
      eventsSubTreeRoot := List.replicate 32 1 }
  fixtureProof := ⟨[node 2 false], by decide⟩
  mainTreeProof := ⟨[], by decide⟩
  predicate := ⟨3, .greaterThan⟩
  statA := term 1 2
  statB := some (term 2 (-7))
  op := some .add

theorem nodes_fit : ∀ n ∈ [node 4 true, node 5 false], n.hash.length = 32 := by decide

theorem term_fits (key value : ℤ) (hkey : FitsU32 key) (hvalue : FitsI32 value) :
    (term key value).Fits where
  statToProve := ⟨hkey, hvalue, show FitsI32 (-1) by decide⟩
  eventStatRoot := rfl
  statProof := nodes_fit

theorem total_fits : total.Fits where
  ts := by decide
  fixtureSummary := ⟨by decide, ⟨by decide, by decide, by decide⟩, rfl⟩
  fixtureProof := by decide
  mainTreeProof := by decide
  threshold := by decide
  statA := term_fits 1 2 (by decide) (by decide)
  statB := by
    rintro s hs
    cases hs
    exact term_fits 2 (-7) (by decide) (by decide)

end Sample

theorem txline_faithful_sample : ∃ data a, buildTxlineValidateStatData Sample.total = .ok data ∧
    Txline.decodeValidateStat data = some a ∧ a.Is Sample.total := by
  obtain ⟨data, a, hdata, hdecode, ha, -⟩ := txline_faithful Sample.total_fits
  exact ⟨data, a, hdata, hdecode, ha⟩

end Sdk

end Stoppage
