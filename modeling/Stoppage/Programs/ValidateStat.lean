import Stoppage.Lib.Borsh

/-! # `packages/txline/idl`: the arguments of `validate_stat`

The types that the interface file of the TxLINE program declares, and the readers that Borsh has
for them.
-/

namespace Stoppage.Txline
set_option autoImplicit false

structure ScoreStat where
  key : UInt32
  value : Int32
  period : Int32

structure ScoresUpdateStats where
  updateCount : Int32
  minTimestamp : Int64
  maxTimestamp : Int64

structure ScoresBatchSummary where
  fixtureId : Int64
  updateStats : ScoresUpdateStats
  eventsSubTreeRoot : List.Vector UInt8 32

structure ProofNode where
  hash : List.Vector UInt8 32
  isRightSibling : Bool

structure StatTerm where
  statToProve : ScoreStat
  eventStatRoot : List.Vector UInt8 32
  statProof : List ProofNode

inductive Comparison where
  | greaterThan
  | lessThan
  | equalTo
deriving DecidableEq

structure TraderPredicate where
  threshold : Int32
  comparison : Comparison

inductive BinaryExpression where
  | add
  | subtract
deriving DecidableEq

structure ValidateStatArgs where
  ts : Int64
  fixtureSummary : ScoresBatchSummary
  fixtureProof : List ProofNode
  mainTreeProof : List ProofNode
  predicate : TraderPredicate
  statA : StatTerm
  statB : Option StatTerm
  op : Option BinaryExpression

/-! ## Readers -/

def ScoreStat.read : Borsh.Reader ScoreStat := do
  let key ← Borsh.u32
  let value ← Borsh.i32
  let period ← Borsh.i32
  pure { key, value, period }

def ScoresUpdateStats.read : Borsh.Reader ScoresUpdateStats := do
  let updateCount ← Borsh.i32
  let minTimestamp ← Borsh.i64
  let maxTimestamp ← Borsh.i64
  pure { updateCount, minTimestamp, maxTimestamp }

def ScoresBatchSummary.read : Borsh.Reader ScoresBatchSummary := do
  let fixtureId ← Borsh.i64
  let updateStats ← ScoresUpdateStats.read
  let eventsSubTreeRoot ← Borsh.array 32
  pure { fixtureId, updateStats, eventsSubTreeRoot }

def ProofNode.read : Borsh.Reader ProofNode := do
  let hash ← Borsh.array 32
  let isRightSibling ← Borsh.bool
  pure { hash, isRightSibling }

def StatTerm.read : Borsh.Reader StatTerm := do
  let statToProve ← ScoreStat.read
  let eventStatRoot ← Borsh.array 32
  let statProof ← Borsh.vector ProofNode.read
  pure { statToProve, eventStatRoot, statProof }

def Comparison.ofTag (b : UInt8) : Option Comparison :=
  if b = 0 then some .greaterThan else if b = 1 then some .lessThan
  else if b = 2 then some .equalTo else none

def BinaryExpression.ofTag (b : UInt8) : Option BinaryExpression :=
  if b = 0 then some .add else if b = 1 then some .subtract else none

def TraderPredicate.read : Borsh.Reader TraderPredicate := do
  let threshold ← Borsh.i32
  let comparison ← Borsh.tagged Comparison.ofTag
  pure { threshold, comparison }

def ValidateStatArgs.read : Borsh.Reader ValidateStatArgs := do
  let ts ← Borsh.i64
  let fixtureSummary ← ScoresBatchSummary.read
  let fixtureProof ← Borsh.vector ProofNode.read
  let mainTreeProof ← Borsh.vector ProofNode.read
  let predicate ← TraderPredicate.read
  let statA ← StatTerm.read
  let statB ← Borsh.option StatTerm.read
  let op ← Borsh.option (Borsh.tagged BinaryExpression.ofTag)
  pure { ts, fixtureSummary, fixtureProof, mainTreeProof, predicate, statA, statB, op }

/-- `discriminator` of `validate_stat` -/
def validateStatDiscriminator : List UInt8 := [107, 197, 232, 90, 191, 136, 105, 185]

end Stoppage.Txline
