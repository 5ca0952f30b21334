import Stoppage.Agent.Settle

/-! # `buildSettleTransactions` of `apps/agent/src/settle.ts`: packing a settlement

What `@solana/web3.js` makes of a transaction is a parameter: the bytes on the wire, the compiled
message, and every exception on the way. So are the two steps of the lookup table. All four ways of
packing keep the bundle. What depends only on which transactions fit, and on how far the lookup
table is, is the same function at packages that tell nothing else.
-/

namespace Stoppage.Agent.Packing
open Fallible Sdk
set_option autoImplicit false

/-! ## Transactions -/

def packetDataSize : ℕ := 1232

/-- A transaction and the instructions that it was made of; a versioned one has its message. -/
inductive BuiltTx (Message : Type) where
  | legacy (ixs : List TransactionInstruction)
  | v0 (ixs : List TransactionInstruction) (message : Message)

def BuiltTx.instructions {Message : Type} : BuiltTx Message → List TransactionInstruction
  | .legacy ixs | .v0 ixs _ => ixs

/-- The transactions of `@solana/web3.js`; `serialize` gives the number of bytes. The signatures of
a versioned transaction are zeros until it is signed, so its size is known before. -/
structure Web3 (Table Message : Type) where
  sign : BuiltTx Message → Except SdkError Unit
  serialize : BuiltTx Message → Except SdkError ℕ
  compileToV0Message : Table → List TransactionInstruction → Except SdkError Message

/-- What the steps of the lookup table come to. -/
structure LookupTables (Table : Type) where
  loadSettleAlt : Except SdkError (Option Table)
  ensureAltAddresses : Table → List Address → Except SdkError (Option Table)

/-- `.catch(() => null)` -/
def orNull {α : Type} : Except SdkError (Option α) → Option α
  | .ok x => x
  | .error _ => none

section Source
variable {Table Message : Type} (js : Web3 Table Message)

def buildLegacy (ixs : List TransactionInstruction) : Except SdkError (BuiltTx Message) := do
  js.sign (.legacy ixs)
  pure (.legacy ixs)

def fits (tx : BuiltTx Message) : Bool :=
  match js.serialize tx with
  | .ok size => size ≤ packetDataSize
  | .error _ => false

def buildV0 (ready : Table) (ixs : List TransactionInstruction) :
    Except SdkError (BuiltTx Message) := do
  let message ← js.compileToV0Message ready ixs
  pure (.v0 ixs message)

/-- The addresses that a table can take over: neither of a signer nor of a program. -/
def candidates (ixs : SettleIxs) : List Address :=
  let invoked := ixs.all.map fun ix => Address.external ix.programId
  let metas := ixs.parts.flatten.flatMap TransactionInstruction.keys
  ((metas.filter fun k => !k.isSigner && k.pubkey ∉ invoked).map AccountMeta.pubkey).eraseDups

/-- One turn of the last loop, on a part and its legacy transaction. -/
def packPart (ready : Table) (part : List TransactionInstruction) (legacy : BuiltTx Message) :
    Except SdkError (BuiltTx Message) := do
  let v0 ← buildV0 js ready part
  if fits js v0 then do
    js.sign v0
    pure v0
  else if fits js legacy then pure legacy
  else .error (.error ("settle tx exceeds the 1232-byte packet limit even split + v0/LUT — proof " ++
    "too deep; needs a proof-buffer account"))

structure Packed (Message : Type) where
  txs : List (BuiltTx Message)
  split : Bool

def buildSettleTransactions (latestBlockhash : Except SdkError Unit) (tables : LookupTables Table)
    (ixs : SettleIxs) : Except SdkError (Packed Message) := do
  latestBlockhash
  let single ← buildLegacy js ixs.all
  if fits js single then pure ⟨[single], false⟩
  else do
    let legacies ← ixs.parts.mapM (buildLegacy js)
    if legacies.all (fits js) then pure ⟨legacies, true⟩
    else do
      let lut ← getOr (.error ("settle tx exceeds the 1232-byte packet limit and the settle ALT is " ++
        "not usable yet — retry on the next tick")) (orNull tables.loadSettleAlt)
      let ready ← getOr (.error ("settle tx exceeds the 1232-byte packet limit and the settle ALT " ++
        "extension is not active yet — retry on the next tick"))
          (orNull (tables.ensureAltAddresses lut (candidates ixs)))
      let singleV0 ← buildV0 js ready ixs.all
      if fits js singleV0 then do
        js.sign singleV0
        pure ⟨[singleV0], false⟩
      else do
        let txs ← (ixs.parts.zip legacies).mapM fun p => packPart js ready p.1 p.2
        pure ⟨txs, true⟩

/-- What `settleMarket` sends: a split settlement goes on behind a receipt that is there. -/
def toSend (built : Packed Message) (alreadyResolved : Bool) : List (BuiltTx Message) :=
  if built.split && alreadyResolved then built.txs.drop 1 else built.txs

end Source

/-! ## What is built -/

section Built
variable {Table Message : Type} {js : Web3 Table Message} {tables : LookupTables Table}
  {latestBlockhash : Except SdkError Unit} {ixs : SettleIxs} {tx : BuiltTx Message}
  {part : List TransactionInstruction} {ready : Table}

theorem fits_iff : fits js tx = true ↔ ∃ size, js.serialize tx = .ok size ∧ size ≤ packetDataSize := by
  rw [fits]
  cases js.serialize tx with
  | ok size => simp
  | error e => simp

theorem buildLegacy_ok (h : buildLegacy js part = .ok tx) : tx = .legacy part := by
  simp only [buildLegacy, bind_eq_ok, pure_eq_ok] at h
  obtain ⟨_, -, rfl⟩ := h
  rfl

theorem buildV0_ok (h : buildV0 js ready part = .ok tx) :
    ∃ message, js.compileToV0Message ready part = .ok message ∧ tx = .v0 part message := by
  simp only [buildV0, bind_eq_ok, pure_eq_ok] at h
  obtain ⟨message, hmessage, rfl⟩ := h
  exact ⟨message, hmessage, rfl⟩

/-- One transaction for the part, which fits. -/
structure Packs (js : Web3 Table Message) (part : List TransactionInstruction)
    (tx : BuiltTx Message) : Prop where
  instructions : tx.instructions = part
  fits : fits js tx = true

theorem packPart_ok (h : packPart js ready part (.legacy part) = .ok tx) : Packs js part tx := by
  simp only [packPart, bind_eq_ok] at h
  obtain ⟨v0, hv0, h⟩ := h
  obtain ⟨message, -, rfl⟩ := buildV0_ok hv0
  split at h
  · rename_i hfits
    simp only [bind_eq_ok, pure_eq_ok] at h
    obtain ⟨_, -, rfl⟩ := h
    exact ⟨rfl, hfits⟩
  · split at h
    · rename_i hfits
      cases h
      exact ⟨rfl, hfits⟩
    · cases h

/-- **The shape of a settlement**: the whole bundle in one transaction, or its two parts in two. -/
theorem buildSettleTransactions_ok {built : Packed Message}
    (h : buildSettleTransactions js latestBlockhash tables ixs = .ok built) :
    (∃ tx, built = ⟨[tx], false⟩ ∧ Packs js ixs.all tx) ∨
      ∃ first second, built = ⟨[first, second], true⟩ ∧
        Packs js [ixs.budgetIx, ixs.resolveIx] first ∧
        Packs js [setComputeUnitLimit 1400000, ixs.settleIx] second := by
  simp only [buildSettleTransactions, bind_eq_ok] at h
  obtain ⟨_, -, single, hsingle, h⟩ := h
  obtain rfl := buildLegacy_ok hsingle
  split at h
  · rename_i hfits
    cases h
    exact .inl ⟨_, rfl, rfl, hfits⟩
  · simp only [bind_eq_ok, SettleIxs.parts, List.mapM_cons, List.mapM_nil, pure_eq_ok] at h
    obtain ⟨_, ⟨first, hfirst, _, ⟨second, hsecond, _, rfl, rfl⟩, rfl⟩, h⟩ := h
    obtain rfl := buildLegacy_ok hfirst
    obtain rfl := buildLegacy_ok hsecond
    split at h
    · rename_i hall
      cases h
      simp only [List.all_cons, List.all_nil, Bool.and_true, Bool.and_eq_true] at hall
      exact .inr ⟨_, _, rfl, ⟨rfl, hall.1⟩, ⟨rfl, hall.2⟩⟩
    · simp only [bind_eq_ok] at h
      obtain ⟨lut, -, ready, -, singleV0, hsingleV0, h⟩ := h
      obtain ⟨message, -, rfl⟩ := buildV0_ok hsingleV0
      split at h
      · rename_i hfits
        simp only [bind_eq_ok, pure_eq_ok] at h
        obtain ⟨_, -, rfl⟩ := h
        exact .inl ⟨_, rfl, rfl, hfits⟩
      · simp only [bind_eq_ok, List.zip_cons_cons, List.zip_nil_left, List.mapM_cons,
          List.mapM_nil, pure_eq_ok] at h
        obtain ⟨_, ⟨first, hfirst, _, ⟨second, hsecond, _, rfl, rfl⟩, rfl⟩, rfl⟩ := h
        exact .inr ⟨first, second, rfl, packPart_ok hfirst, packPart_ok hsecond⟩

/-! ## The bundle -/

def IsBudget (ix : TransactionInstruction) : Prop := ix.programId = computeBudgetProgramId

instance (ix : TransactionInstruction) : Decidable (IsBudget ix) :=
  inferInstanceAs (Decidable (_ = _))

/-- The instructions of a transaction without its compute budgets. -/
def BuiltTx.payload (tx : BuiltTx Message) : List TransactionInstruction :=
  tx.instructions.filter fun ix => ¬ IsBudget ix

/-- Instructions as `buildSettleFromProofIxs` makes them. -/
structure Bundle (ixs : SettleIxs) : Prop where
  budget : IsBudget ixs.budgetIx
  resolve : ¬ IsBudget ixs.resolveIx
  settle : ¬ IsBudget ixs.settleIx

theorem Packs.payload_all (h : Packs js ixs.all tx) (hixs : Bundle ixs) :
    tx.payload = [ixs.resolveIx, ixs.settleIx] := by
  rw [BuiltTx.payload, h.instructions, SettleIxs.all]
  simp [hixs.budget, hixs.resolve, hixs.settle]

theorem Packs.payload_pair {budget ix : TransactionInstruction} (h : Packs js [budget, ix] tx)
    (hbudget : IsBudget budget) (hix : ¬ IsBudget ix) : tx.payload = [ix] := by
  rw [BuiltTx.payload, h.instructions]
  simp [hbudget, hix]

/-- The instructions of the keeper are such a bundle. -/
theorem bundle_of_buildSettleFromProofIxs {txline : TxlineProgram} {proof : StatValidation}
    {args : SettleProofArgs} {wallet : Pubkey}
    (h : buildSettleFromProofIxs txline proof args wallet = .ok ixs) : Bundle ixs := by
  simp only [buildSettleFromProofIxs, bind_eq_ok, pure_eq_ok] at h
  obtain ⟨epochDay, -, data, -, resolveIx, hresolve, rfl⟩ := h
  simp only [buildResolveMarketIx, bind_eq_ok, pure_eq_ok] at hresolve
  obtain ⟨_, -, _, -, rfl⟩ := hresolve
  have hsettlement : settlementProgramId ≠ computeBudgetProgramId := by decide
  have hmarket : marketProgramId ≠ computeBudgetProgramId := by decide
  exact ⟨rfl, hsettlement, hmarket⟩

/-- **Packing keeps the bundle.** Whatever is returned fits the packets and carries the two
instructions in their order; they are apart exactly when the result is marked so, and then what is
left out behind a receipt is the first one. -/
theorem settle_packing {built : Packed Message} (hixs : Bundle ixs)
    (h : buildSettleTransactions js latestBlockhash tables ixs = .ok built) :
    (∀ tx ∈ built.txs, ∃ size, js.serialize tx = .ok size ∧ size ≤ packetDataSize) ∧
      built.txs.flatMap BuiltTx.payload = [ixs.resolveIx, ixs.settleIx] ∧
      (built.split = true ↔
        built.txs.map BuiltTx.payload = [[ixs.resolveIx], [ixs.settleIx]]) ∧
      (built.split = false ↔
        built.txs.map BuiltTx.payload = [[ixs.resolveIx, ixs.settleIx]]) ∧
      (toSend built true).flatMap BuiltTx.payload =
        if built.split then [ixs.settleIx] else [ixs.resolveIx, ixs.settleIx] := by
  rcases buildSettleTransactions_ok h with ⟨tx, rfl, hpacks⟩ | ⟨first, second, rfl, hfirst, hsecond⟩
  · have hpayload := hpacks.payload_all hixs
    refine ⟨List.forall_mem_singleton.mpr (fits_iff.mp hpacks.fits), ?_, ?_, ?_, ?_⟩
    · simp [hpayload]
    · simp [hpayload]
    · simp [hpayload]
    · simp [toSend, hpayload]
  · have hresolve := hfirst.payload_pair hixs.budget hixs.resolve
    have hsettle := hsecond.payload_pair rfl hixs.settle
    refine ⟨?_, ?_, ?_, ?_, ?_⟩
    · simp only [List.forall_mem_cons, List.not_mem_nil, false_imp_iff, implies_true, and_true]
      exact ⟨fits_iff.mp hfirst.fits, fits_iff.mp hsecond.fits⟩
    · simp [hresolve, hsettle]
    · simp [hresolve, hsettle]
    · simp [hresolve, hsettle]
    · simp [toSend, hsettle]

end Built

namespace Sample

/-- Five hundred bytes for an instruction, and no lookup table. -/
def js : Web3 Empty Empty where
  sign _ := .ok ()
  serialize tx := .ok (500 * tx.instructions.length)
  compileToV0Message table _ := table.elim

def tables : LookupTables Empty := ⟨.ok none, fun table _ => table.elim⟩

def ixs : SettleIxs where
  budgetIx := setComputeUnitLimit 1400000
  resolveIx := ⟨settlementProgramId, [], []⟩
  settleIx := ⟨marketProgramId, [], []⟩

theorem ixs_bundle : Bundle ixs := ⟨rfl, by decide, by decide⟩

end Sample

/-- A settlement in two transactions. -/
theorem settle_packing_halves : ∃ built,
    buildSettleTransactions Sample.js (.ok ()) Sample.tables Sample.ixs = .ok built ∧
      built.txs.flatMap BuiltTx.payload = [Sample.ixs.resolveIx, Sample.ixs.settleIx] ∧
      (toSend built true).flatMap BuiltTx.payload = [Sample.ixs.settleIx] := by
  have hbuilt : buildSettleTransactions Sample.js (.ok ()) Sample.tables Sample.ixs =
      .ok ⟨Sample.ixs.parts.map .legacy, true⟩ := rfl
  obtain ⟨-, hpayload, -, -, hsent⟩ := settle_packing Sample.ixs_bundle hbuilt
  exact ⟨_, hbuilt, hpayload, hsent⟩

end Stoppage.Agent.Packing

namespace Stoppage.Agent
open Fallible Sdk Packing

/-! ## What is known of the packages -/

/-- Which transactions, without and with the lookup table, serialize to at most
`PACKET_DATA_SIZE` bytes. -/
structure Packets where
  legacy : List TransactionInstruction → Bool
  v0 : List TransactionInstruction → Bool

/-- What `loadSettleAlt` and `ensureAltAddresses` come to. -/
inductive SettleAlt where
  | unusable
  | inactive
  | ready
deriving DecidableEq

def Packets.fits (packets : Packets) : BuiltTx Unit → Bool
  | .legacy ixs => packets.legacy ixs
  | .v0 ixs _ => packets.v0 ixs

/-- Packages with these packets that sign and compile everything. -/
def Packets.web3 (packets : Packets) : Web3 Unit Unit where
  sign _ := .ok ()
  serialize tx := .ok (if packets.fits tx then packetDataSize else packetDataSize + 1)
  compileToV0Message _ _ := .ok ()

def SettleAlt.tables : SettleAlt → LookupTables Unit
  | .unusable => ⟨.ok none, fun _ _ => .ok none⟩
  | .inactive => ⟨.ok (some ()), fun _ _ => .ok none⟩
  | .ready => ⟨.ok (some ()), fun _ _ => .ok (some ())⟩

structure SettleTransactions where
  txs : List (List TransactionInstruction)
  split : Bool

def buildSettleTransactions (packets : Packets) (alt : SettleAlt) (ixs : SettleIxs) :
    Except SdkError SettleTransactions := do
  let built ← Packing.buildSettleTransactions packets.web3 (.ok ()) alt.tables ixs
  pure ⟨built.txs.map BuiltTx.instructions, built.split⟩

/-- The transactions that `settleMarket` sends, given whether the receipt of the market is there. -/
def settleMarketTxs (packets : Packets) (alt : SettleAlt) (txline : TxlineProgram)
    (proof : StatValidation) (args : SettleProofArgs) (wallet : Pubkey) (alreadyResolved : Bool) :
    Except SdkError (List (List TransactionInstruction)) := do
  let ixs ← buildSettleFromProofIxs txline proof args wallet
  let built ← buildSettleTransactions packets alt ixs
  pure (if built.split && alreadyResolved then built.txs.drop 1 else built.txs)

section Known
variable {packets : Packets} {alt : SettleAlt} {ixs : SettleIxs}

theorem fits_web3 (tx : BuiltTx Unit) : fits packets.web3 tx = packets.fits tx := by
  show decide ((if packets.fits tx then packetDataSize else packetDataSize + 1) ≤
    packetDataSize) = packets.fits tx
  cases packets.fits tx with
  | true => exact decide_eq_true (Nat.le_refl _)
  | false => exact decide_eq_false (Nat.not_succ_le_self _)

theorem buildLegacy_web3 (part : List TransactionInstruction) :
    buildLegacy packets.web3 part = .ok (.legacy part) := rfl

theorem buildV0_web3 (part : List TransactionInstruction) :
    buildV0 packets.web3 () part = .ok (.v0 part ()) := rfl

theorem exists_packPart {part : List TransactionInstruction} :
    (∃ tx, packPart packets.web3 () part (.legacy part) = .ok tx) ↔
      packets.v0 part ∨ packets.legacy part := by
  rw [packPart, buildV0_web3, ok_bind, fits_web3, fits_web3]
  show (∃ tx, (if packets.v0 part = true then Except.ok (BuiltTx.v0 part ()) else
    if packets.legacy part = true then Except.ok (BuiltTx.legacy part) else Except.error _) =
      Except.ok tx) ↔ _
  split_ifs with hv0 hlegacy
  · exact iff_of_true ⟨_, rfl⟩ (.inl hv0)
  · exact iff_of_true ⟨_, rfl⟩ (.inr hlegacy)
  · exact iff_of_false (fun ⟨_, h⟩ => h) fun h => h.elim hv0 hlegacy

theorem mapM_buildLegacy (ixs : SettleIxs) :
    ixs.parts.mapM (buildLegacy packets.web3) = .ok (ixs.parts.map .legacy) := rfl

theorem all_fits (parts : List (List TransactionInstruction)) :
    (parts.map .legacy).all (fits packets.web3) = parts.all packets.legacy := by
  rw [List.all_map]
  exact congrArg parts.all (funext fun part => fits_web3 (.legacy part))

/-- The two parts, each in the transaction that fits. -/
theorem mapM_packPart {txs : List (List TransactionInstruction)} :
    (∃ built, ((ixs.parts.zip (ixs.parts.map .legacy)).mapM fun p =>
        packPart packets.web3 () p.1 p.2) = .ok built ∧ built.map BuiltTx.instructions = txs) ↔
      (∀ part ∈ ixs.parts, packets.v0 part ∨ packets.legacy part) ∧ txs = ixs.parts := by
  simp only [SettleIxs.parts, List.map_cons, List.map_nil, List.zip_cons_cons, List.zip_nil_left,
    List.mapM_cons, List.mapM_nil, bind_eq_ok, pure_eq_ok, List.forall_mem_cons,
    List.not_mem_nil, false_imp_iff, implies_true, and_true, ← exists_packPart]
  constructor
  · rintro ⟨_, ⟨first, hfirst, _, ⟨second, hsecond, _, rfl, rfl⟩, rfl⟩, rfl⟩
    refine ⟨⟨⟨first, hfirst⟩, second, hsecond⟩, ?_⟩
    rw [List.map_cons, List.map_cons, (packPart_ok hfirst).instructions,
      (packPart_ok hsecond).instructions, List.map_nil]
  · rintro ⟨⟨⟨first, hfirst⟩, second, hsecond⟩, rfl⟩
    refine ⟨_, ⟨first, hfirst, _, ⟨second, hsecond, _, rfl, rfl⟩, rfl⟩, ?_⟩
    rw [List.map_cons, List.map_cons, (packPart_ok hfirst).instructions,
      (packPart_ok hsecond).instructions, List.map_nil]

/-- **What is built**: the whole bundle where it fits, and else its two parts. -/
theorem buildSettleTransactions_eq_ok {built : SettleTransactions} :
    buildSettleTransactions packets alt ixs = .ok built ↔
      if packets.legacy ixs.all then built = ⟨[ixs.all], false⟩
      else if ixs.parts.all packets.legacy then built = ⟨ixs.parts, true⟩
      else alt = .ready ∧
        if packets.v0 ixs.all then built = ⟨[ixs.all], false⟩
        else (∀ part ∈ ixs.parts, packets.v0 part ∨ packets.legacy part) ∧
          built = ⟨ixs.parts, true⟩ := by
  rw [buildSettleTransactions, Packing.buildSettleTransactions, ok_bind, buildLegacy_web3, ok_bind,
    fits_web3, mapM_buildLegacy, ok_bind, all_fits]
  by_cases hwhole : packets.legacy ixs.all = true
  · rw [if_pos (show packets.fits (.legacy ixs.all) = true from hwhole), if_pos hwhole]
    exact pure_eq_ok.trans eq_comm
  rw [if_neg (show ¬ packets.fits (.legacy ixs.all) = true from hwhole), if_neg hwhole]
  by_cases hhalves : ixs.parts.all packets.legacy = true
  · rw [if_pos hhalves, if_pos hhalves]
    exact pure_eq_ok.trans eq_comm
  rw [if_neg hhalves, if_neg hhalves]
  cases alt with
  | unusable => exact iff_of_false (fun h => ok_ne_error h.symm) fun h => nomatch h.1
  | inactive => exact iff_of_false (fun h => ok_ne_error h.symm) fun h => nomatch h.1
  | ready =>
    rw [and_iff_right rfl]
    have hlut : orNull SettleAlt.ready.tables.loadSettleAlt = some () := rfl
    have hready : orNull (SettleAlt.ready.tables.ensureAltAddresses () (candidates ixs)) =
        some () := rfl
    rw [hlut, getOr_some, ok_bind, hready, getOr_some, ok_bind, buildV0_web3, ok_bind, fits_web3]
    by_cases hv0 : packets.v0 ixs.all = true
    · rw [if_pos (show packets.fits (.v0 ixs.all ()) = true from hv0), if_pos hv0]
      exact pure_eq_ok.trans eq_comm
    rw [if_neg (show ¬ packets.fits (.v0 ixs.all ()) = true from hv0), if_neg hv0]
    simp only [bind_eq_ok, pure_eq_ok]
    constructor
    · rintro ⟨_, ⟨txs, htxs, rfl⟩, rfl⟩
      obtain ⟨hparts, heq⟩ := mapM_packPart.mp ⟨txs, htxs, rfl⟩
      exact ⟨hparts, congrArg (SettleTransactions.mk · true) heq⟩
    · rintro ⟨hparts, rfl⟩
      obtain ⟨txs, htxs, heq⟩ := mapM_packPart.mpr ⟨hparts, rfl⟩
      exact ⟨_, ⟨txs, htxs, rfl⟩, congrArg (SettleTransactions.mk · true) heq⟩

end Known

end Stoppage.Agent

namespace Stoppage.Agent.Packing
open Fallible Sdk

/-! ## Every packing is a known one -/

section Built
variable {Table Message : Type} {js : Web3 Table Message} {tables : LookupTables Table}
  {latestBlockhash : Except SdkError Unit} {ixs : SettleIxs} {tx : BuiltTx Message}
  {part : List TransactionInstruction} {ready : Table}

/-- What the packages make of each transaction, as far as it fits. -/
def packetsOf (js : Web3 Table Message) (ready : Option Table) : Packets where
  legacy ixs := fits js (.legacy ixs)
  v0 ixs :=
    match ready with
    | none => false
    | some ready =>
      match js.compileToV0Message ready ixs with
      | .ok message => fits js (.v0 ixs message)
      | .error _ => false

/-- How far the lookup table is. -/
def altOf (tables : LookupTables Table) (ixs : SettleIxs) : SettleAlt × Option Table :=
  match orNull tables.loadSettleAlt with
  | none => (.unusable, none)
  | some lut =>
    match orNull (tables.ensureAltAddresses lut (candidates ixs)) with
    | none => (.inactive, none)
    | some ready => (.ready, some ready)

theorem packPart_fits (hready : altOf tables ixs = (.ready, some ready))
    (h : packPart js ready part (.legacy part) = .ok tx) :
    (packetsOf js (altOf tables ixs).2).v0 part = true ∨
      (packetsOf js (altOf tables ixs).2).legacy part = true := by
  simp only [packPart, bind_eq_ok] at h
  obtain ⟨v0, hv0, h⟩ := h
  obtain ⟨message, hmessage, rfl⟩ := buildV0_ok hv0
  by_cases hfits : fits js (.v0 part message) = true
  · left
    simp only [packetsOf, hready, hmessage]
    exact hfits
  · right
    rw [if_neg hfits] at h
    by_cases hlegacy : fits js (.legacy part) = true
    · exact hlegacy
    · rw [if_neg hlegacy] at h
      cases h

/-- **Every packing is a known one.** -/
theorem built_refines {built : Packed Message}
    (h : buildSettleTransactions js latestBlockhash tables ixs = .ok built) :
    Agent.buildSettleTransactions (packetsOf js (altOf tables ixs).2) (altOf tables ixs).1 ixs =
      .ok ⟨built.txs.map BuiltTx.instructions, built.split⟩ := by
  rw [buildSettleTransactions_eq_ok]
  simp only [buildSettleTransactions, bind_eq_ok] at h
  obtain ⟨_, -, single, hsingle, h⟩ := h
  obtain rfl := buildLegacy_ok hsingle
  by_cases hwhole : fits js (.legacy ixs.all) = true
  · rw [if_pos hwhole] at h
    cases h
    rw [if_pos (show (packetsOf js _).legacy ixs.all = true from hwhole)]
    rfl
  rw [if_neg hwhole] at h
  rw [if_neg (show ¬ (packetsOf js _).legacy ixs.all = true from hwhole)]
  simp only [bind_eq_ok, SettleIxs.parts, List.mapM_cons, List.mapM_nil, pure_eq_ok] at h
  obtain ⟨_, ⟨first, hfirst, _, ⟨second, hsecond, _, rfl, rfl⟩, rfl⟩, h⟩ := h
  obtain rfl := buildLegacy_ok hfirst
  obtain rfl := buildLegacy_ok hsecond
  have hall : [BuiltTx.legacy [ixs.budgetIx, ixs.resolveIx],
        .legacy [setComputeUnitLimit 1400000, ixs.settleIx]].all (fits js) =
      ixs.parts.all (packetsOf js (altOf tables ixs).2).legacy := rfl
  rw [hall] at h
  by_cases hhalves : ixs.parts.all (packetsOf js (altOf tables ixs).2).legacy = true
  · rw [if_pos hhalves] at h
    cases h
    rw [if_pos hhalves]
    rfl
  rw [if_neg hhalves] at h
  rw [if_neg hhalves]
  simp only [bind_eq_ok, getOr_eq_ok] at h
  obtain ⟨lut, hlut, ready, hready, singleV0, hsingleV0, h⟩ := h
  have halt : altOf tables ixs = (.ready, some ready) := by
    rw [altOf, hlut]
    simp only [hready]
  refine ⟨congrArg Prod.fst halt, ?_⟩
  obtain ⟨message, hmessage, rfl⟩ := buildV0_ok hsingleV0
  have hv0 : (packetsOf js (altOf tables ixs).2).v0 ixs.all =
      fits js (.v0 ixs.all message) := by
    simp only [packetsOf, halt, hmessage]
  rw [hv0]
  by_cases hfits : fits js (.v0 ixs.all message) = true
  · rw [if_pos hfits] at h
    simp only [bind_eq_ok, pure_eq_ok] at h
    obtain ⟨_, -, rfl⟩ := h
    rw [if_pos hfits]
    rfl
  · rw [if_neg hfits] at h
    rw [if_neg hfits]
    simp only [bind_eq_ok, List.zip_cons_cons, List.zip_nil_left, List.mapM_cons,
      List.mapM_nil, pure_eq_ok] at h
    obtain ⟨_, ⟨first, hfirst, _, ⟨second, hsecond, _, rfl, rfl⟩, rfl⟩, rfl⟩ := h
    refine ⟨?_, ?_⟩
    · simp only [SettleIxs.parts, List.forall_mem_cons, List.not_mem_nil, false_imp_iff,
        implies_true, and_true]
      exact ⟨packPart_fits halt hfirst, packPart_fits halt hsecond⟩
    · simp only [List.map_cons, List.map_nil, (packPart_ok hfirst).instructions,
        (packPart_ok hsecond).instructions]
      rfl

end Built

end Stoppage.Agent.Packing
