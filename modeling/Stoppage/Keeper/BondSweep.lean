import Stoppage.Lib.AtomicBatch
import Stoppage.Instance.Unwind
import Stoppage.Keeper.Price

/-! # `apps/agent/src/claims.ts`: the sweep of the creator bonds

The settled and void markets of the wallet are closed or have their bond claimed, eight to a
transaction. An instruction touches its own market and pays the wallet, so whether it goes through
does not depend on the others; but a transaction fails as a whole, and a market is left behind
exactly when one of the same transaction fails.
-/

namespace Stoppage.Keeper
open Fallible BalanceSheet Sdk Escrow AtomicBatch MarketProgram TransitionSystem
set_option autoImplicit false

/-! ## The scan -/

def MARKET_CLOSE_GRACE_SECONDS : ℤ := 604800

structure DeadMarket where
  marketPda : Pubkey
  market : Escrow.Market
  /-- Past the claims window: rent, bond and residue are recoverable. -/
  closable : Bool

/-- `settlesAt` is read in milliseconds, always of a whole second. -/
def isClosable (nowSec : ℤ) (m : Escrow.Market) : Bool :=
  let settledSec := (m.settlesAt.getD 0) / 1000
  decide (0 < settledSec ∧ settledSec + MARKET_CLOSE_GRACE_SECONDS < nowSec)

/-- Every settled or void market among the accounts. -/
def findDeadMarkets (nowSec : ℤ) : List (Pubkey × Bytes) → Except SdkError (List DeadMarket)
  | [] => pure []
  | (pubkey, data) :: accounts => do
    let m ← parseMarket data pubkey
    let out ← findDeadMarkets nowSec accounts
    if m.status ≠ .settled ∧ m.status ≠ .void then pure out
    else pure (⟨pubkey, m, isClosable nowSec m⟩ :: out)

/-! ## The sweep -/

/-- What the calls for one transaction come to, each `.error` where it throws. A transaction that is
sent is executed (`skipPreflight`); `getSignatureStatuses` answers with the text of its error. -/
structure SweepCalls where
  getLatestBlockhash : Except SdkError Unit
  sendRawTransaction : Except SdkError String
  confirmTransaction : Except SdkError Unit
  getSignatureStatuses : Option ProgramError → Except SdkError (Option String)

structure BondSweepResult where
  scanned : ℕ
  claimed : List (Pubkey × JsString × String)
  closed : List (Pubkey × JsString × String)
  failed : List (Pubkey × SdkError)

def DeadMarket.ix (wallet : Pubkey) (d : DeadMarket) : Instruction :=
  if d.closable then .closeMarket wallet d.marketPda else .claimBond wallet d.marketPda

def chunkTx (wallet : Pubkey) (chunk : List DeadMarket) : List Instruction :=
  .setComputeUnitLimit 400000 :: chunk.map (DeadMarket.ix wallet)

/-- The chain after the transaction of a chunk, and the signature. -/
def sendTx (rt : Runtime) (wallet : Pubkey) (calls : SweepCalls) (chunk : List DeadMarket)
    (s : Chain) : Chain × Except SdkError String :=
  match calls.getLatestBlockhash, calls.sendRawTransaction with
  | .error e, _ => (s, .error e)
  | .ok _, .error e => (s, .error e)
  | .ok _, .ok sig =>
    let executed := execTx rt (chunkTx wallet chunk) s
    let (t, err) := match executed with
      | .ok t => (t, none)
      | .error e => (s, some e)
    (t, do
      calls.confirmTransaction
      match ← calls.getSignatureStatuses err with
      | some err => .error (.error ("tx failed on-chain: " ++ err ++ " (" ++ sig ++ ")"))
      | none => pure sig)

def BondSweepResult.push (result : BondSweepResult) (chunk : List DeadMarket) :
    Except SdkError String → BondSweepResult
  | .error e => { result with failed := result.failed ++ chunk.map fun d => (d.marketPda, e) }
  | .ok sig =>
    let entry := fun d : DeadMarket => (d.marketPda, d.market.predicate.matchId, sig)
    { result with
      claimed := result.claimed ++ (chunk.filter fun d => !d.closable).map entry
      closed := result.closed ++ (chunk.filter fun d => d.closable).map entry }

/-- The batch as it is sent, chunk by chunk; `calls` are those for the transaction of a chunk. -/
def sendBatch (rt : Runtime) (wallet : Pubkey) (calls : List DeadMarket → SweepCalls)
    (chunks : List (List DeadMarket)) (state : Chain × BondSweepResult) : Chain × BondSweepResult :=
  chunks.foldl (fun (s, result) chunk =>
    let (t, sent) := sendTx rt wallet (calls chunk) chunk s
    (t, result.push chunk sent)) state

def CLAIMS_PER_TX : ℕ := 8

def closable (dead : List DeadMarket) : List DeadMarket := dead.filter fun d => d.closable

def bondOnly (dead : List DeadMarket) : List DeadMarket :=
  dead.filter fun d => !d.closable && !d.market.bondClaimed

/-- The chain after one pass, and what it reports. -/
def sweepCreatorBonds (rt : Runtime) (wallet : Pubkey) (dryRun : Bool)
    (calls : List DeadMarket → SweepCalls) (nowSec : ℤ)
    (accounts : Except SdkError (List (Pubkey × Bytes))) (s : Chain) :
    Except SdkError (Chain × BondSweepResult) := do
  let dead ← findDeadMarkets nowSec (← accounts)
  let result : BondSweepResult := ⟨dead.length, [], [], []⟩
  if dryRun then pure (s, result)
  else
    let state := sendBatch rt wallet calls (chunks CLAIMS_PER_TX (closable dead)) (s, result)
    pure (sendBatch rt wallet calls (chunks CLAIMS_PER_TX (bondOnly dead)) state)

/-! ## One market -/

/-- The instruction for a market, which does not look at its transaction. -/
def sweepOne (wallet : Pubkey) (d : DeadMarket) (s : Chain) : Except ProgramError Chain :=
  if d.closable then closeMarket wallet d.marketPda s else claimBond wallet d.marketPda s

structure Place where
  market : Option Stoppage.Market
  lamports : UInt64
  now : Int64

def place (m : Pubkey) (s : Chain) : Place := ⟨s.market m, s.lamports (.market m), s.now⟩

/-- The checks of `close_market` and of `claim_bond`. -/
def Ready (wallet : Pubkey) (d : DeadMarket) (p : Place) : Prop :=
  ∃ mk, p.market = some mk ∧ mk.creator = wallet ∧ Ended mk ∧
    if d.closable then mk.settlesAt.toInt + 604800 < p.now.toInt
    else mk.bondClaimed = false ∧ mk.bondLamports.toNat ≤ p.lamports.toNat

/-- The account is closed, or its bond is claimed. -/
def Cleared (d : DeadMarket) (p : Place) : Prop :=
  if d.closable then p.market.isNone = true else p.market.map (·.bondClaimed) = some true

instance (d : DeadMarket) (p : Place) : Decidable (Cleared d p) :=
  inferInstanceAs (Decidable (if d.closable then p.market.isNone = true
    else p.market.map (·.bondClaimed) = some true))

section One
variable {rt : Runtime} {wallet m : Pubkey} {s t : Chain} {d : DeadMarket}

theorem exec_ix (ctx : TxContext) : exec rt ctx (d.ix wallet) s = sweepOne wallet d s := by
  rw [DeadMarket.ix, sweepOne]
  split_ifs <;> rfl

theorem exists_closeMarket {mk : Stoppage.Market} (hmk : s.market m = some mk)
    (hcreator : mk.creator = wallet) (hended : Ended mk)
    (hlate : mk.settlesAt.toInt + 604800 < s.now.toInt) (hsupply : total s.lamports < 2 ^ 64) :
    ∃ t, closeMarket wallet m s = .ok t := by
  have hgrace : marketCloseGraceSeconds.toInt = 604800 := by decide
  have hlow := mk.settlesAt.le_toInt
  have hhigh := s.now.toInt_lt
  obtain ⟨deadline, hadd, hdeadline⟩ := exists_checkedAddInt
    (e := (.overflow .closeMarket : ProgramError)) (a := mk.settlesAt)
    (b := marketCloseGraceSeconds) (by omega) (by omega)
  have hlt : deadline < s.now := by
    rw [Int64.lt_iff_toInt_lt]
    omega
  have hended' : mk.status = statusSettled ∨ mk.status = statusVoid := hended
  -- The creator and the market together hold no more than the supply.
  have hsum := add_le_total s.lamports (a := .external wallet) (b := .market m)
    Address.noConfusion
  obtain ⟨l, hl⟩ := @exists_credit _ _ _ (.overflow .closeMarket : ProgramError) s.lamports
    (.external wallet) (s.lamports (.market m)) (lt_of_le_of_lt hsum hsupply)
  rw [closeMarket, Chain.loadMarket, hmk, getOr_some, ok_bind, require_of hended', ok_bind,
    require_of hcreator, ok_bind, hadd, ok_bind, require_of hlt, ok_bind]
  simp only [Chain.sweep, Chain.addLamports, Chain.emit, hl, ok_bind]
  exact ⟨_, rfl⟩

/-- **What decides an instruction.** -/
theorem sweepOne_ready (hsupply : total s.lamports < 2 ^ 64) :
    (∃ t, sweepOne wallet d s = .ok t) ↔ Ready wallet d (place d.marketPda s) := by
  rw [sweepOne, Ready]
  by_cases hclosable : d.closable = true
  · simp only [hclosable, if_true]
    constructor
    · rintro ⟨t, h⟩
      obtain ⟨mk, _, _, hmk, hended, hcreator, hlate, -⟩ := closeMarket_ok h
      exact ⟨mk, hmk, hcreator, hended, hlate⟩
    · rintro ⟨mk, hmk, hcreator, hended, hlate⟩
      exact exists_closeMarket hmk hcreator hended hlate hsupply
  · simp only [hclosable, if_false, Bool.false_eq_true]
    constructor
    · rintro ⟨t, h⟩
      obtain ⟨mk, l, _, hmk, hcreator, hended, hbond, ⟨_, hdebit, -⟩, -⟩ := claimBond_ok h
      have hcover := hdebit.entry
      refine ⟨mk, hmk, hcreator, hended, hbond, ?_⟩
      show _ ≤ (s.lamports (.market d.marketPda)).toNat
      omega
    · rintro ⟨mk, hmk, rfl, hended, hbond, hcover⟩
      exact exists_claimBond hmk hended hbond hcover hsupply

theorem sweepOne_cleared (h : sweepOne wallet d s = .ok t) :
    Cleared d (place d.marketPda t) := by
  rw [sweepOne] at h
  rw [Cleared]
  split_ifs at h ⊢
  · obtain ⟨_, _, _, -, -, -, -, -, rfl⟩ := closeMarket_ok h
    show (Function.update s.market d.marketPda none d.marketPda).isNone = true
    rw [Function.update_self]
    rfl
  · obtain ⟨mk, _, _, -, -, -, -, -, rfl⟩ := claimBond_ok h
    show (Function.update s.market d.marketPda _ d.marketPda).map _ = some true
    rw [Function.update_self]
    rfl

/-- **The frame of an instruction.** -/
theorem sweepOne_frame (h : sweepOne wallet d s = .ok t) {k : Pubkey} (hk : k ≠ d.marketPda) :
    place k t = place k s := by
  have hplace : Address.market k ≠ .market d.marketPda := fun heq => hk (Address.market.inj heq)
  rw [sweepOne] at h
  split_ifs at h
  · obtain ⟨_, l, _, -, -, -, -, hl, rfl⟩ := closeMarket_ok h
    rw [place, place, Place.mk.injEq]
    refine ⟨Function.update_of_ne hk _ _, ?_, rfl⟩
    show Function.update l (.market d.marketPda) 0 (.market k) = _
    rw [Function.update_of_ne hplace, hl.other _ Address.noConfusion]
  · obtain ⟨_, l, _, -, -, -, -, hl, rfl⟩ := claimBond_ok h
    rw [place, place, Place.mk.injEq]
    exact ⟨Function.update_of_ne hk _ _, hl.other hplace Address.noConfusion, rfl⟩

theorem ready_not_cleared {p : Place} (h : Ready wallet d p) : ¬ Cleared d p := by
  obtain ⟨mk, hmk, -, -, hcheck⟩ := h
  rw [Cleared, hmk]
  split_ifs at hcheck ⊢
  · exact Bool.false_ne_true
  · rw [Option.map_some, hcheck.1, Option.some_inj]
    exact Bool.false_ne_true

/-- **The instructions of a sweep are independent** in reachable states. -/
theorem independent_sweepOne : Independent (sweepOne wallet) DeadMarket.marketPda place
    (Reachable rt) (Ready wallet) Cleared where
  ready hs := sweepOne_ready hs.supply
  done _ h := sweepOne_cleared h
  frame _ h _ hk := sweepOne_frame h hk
  inv {d s t} hs h := by
    have hstep : Step rt s (.call ⟨[], 0⟩ (d.ix wallet)) t := (exec_ix ⟨[], 0⟩).trans h
    exact hs.steps (.single hstep)
  exclusive := ready_not_cleared

end One

/-! ## One transaction -/

section Transactions
variable {rt : Runtime} {wallet : Pubkey} {s : Chain} {calls : List DeadMarket → SweepCalls}

theorem execFrom_ix (ixs : List Instruction) (chunk : List DeadMarket) (n : ℕ) :
    execFrom rt ixs (chunk.map (DeadMarket.ix wallet)) n s = runAll (sweepOne wallet) chunk s := by
  induction chunk generalizing n s with
  | nil => rfl
  | cons d chunk ih =>
    rw [List.map_cons, execFrom, runAll, exec_ix]
    refine congrArg _ (funext fun t => ?_)
    exact ih (n + 1)

theorem execTx_chunk (chunk : List DeadMarket) :
    execTx rt (chunkTx wallet chunk) s = runAll (sweepOne wallet) chunk s := by
  rw [execTx, chunkTx, execFrom]
  exact execFrom_ix _ chunk 1

def SweepCalls.Sent (calls : SweepCalls) : Prop :=
  calls.getLatestBlockhash.toBool = true ∧ calls.sendRawTransaction.toBool = true

theorem sendTx_chain {calls : SweepCalls} (h : calls.Sent) (chunk : List DeadMarket) :
    (sendTx rt wallet calls chunk s).1 = commit (sweepOne wallet) chunk s := by
  obtain ⟨hhash, hsent⟩ := h
  rw [sendTx, commit, execTx_chunk]
  cases hb : calls.getLatestBlockhash with
  | error e =>
    rw [hb] at hhash
    cases hhash
  | ok _ =>
    cases hr : calls.sendRawTransaction with
    | error e =>
      rw [hr] at hsent
      cases hsent
    | ok sig =>
      dsimp only
      cases runAll (sweepOne wallet) chunk s <;> rfl

theorem sendBatch_chain (h : ∀ chunk, (calls chunk).Sent) (chunks : List (List DeadMarket))
    (state : Chain × BondSweepResult) :
    (sendBatch rt wallet calls chunks state).1 = commitAll (sweepOne wallet) chunks state.1 := by
  induction chunks generalizing state with
  | nil => rfl
  | cons chunk chunks ih =>
    rw [commitAll, List.foldl_cons, ← @sendTx_chain rt wallet _ _ (h chunk) chunk]
    exact ih _

end Transactions

/-! ## One pass -/

/-- The markets with something to recover, in the order of their transactions. -/
def swept (dead : List DeadMarket) : List DeadMarket := closable dead ++ bondOnly dead

def transactions (dead : List DeadMarket) : List (List DeadMarket) :=
  chunks CLAIMS_PER_TX (closable dead) ++ chunks CLAIMS_PER_TX (bondOnly dead)

theorem flatten_transactions (dead : List DeadMarket) : (transactions dead).flatten = swept dead := by
  rw [transactions, List.flatten_append, flatten_chunks (by decide), flatten_chunks (by decide),
    swept]

/-- The market's instruction goes through in a transaction of its own. -/
def Goes (rt : Runtime) (wallet : Pubkey) (s : Chain) (d : DeadMarket) : Prop :=
  ∃ t, execTx rt [d.ix wallet] s = .ok t

section Pass
variable {rt : Runtime} {wallet : Pubkey} {s : Chain} {calls : List DeadMarket → SweepCalls}
  {nowSec : ℤ} {accounts : List (Pubkey × Bytes)} {dead : List DeadMarket}

theorem goes_iff (hreach : Reachable rt s) (d : DeadMarket) :
    Goes rt wallet s d ↔ Ready wallet d (place d.marketPda s) := by
  rw [← sweepOne_ready hreach.supply, Goes]
  refine exists_congr fun t => ?_
  rw [execTx, execFrom, exec_ix]
  exact Iff.of_eq (congrArg (· = _) (bind_pure _))

theorem findDeadMarkets_keys (h : findDeadMarkets nowSec accounts = .ok dead) :
    (dead.map DeadMarket.marketPda).Sublist (accounts.map Prod.fst) := by
  induction accounts generalizing dead with
  | nil =>
    obtain rfl := Except.ok.inj h
    exact .refl _
  | cons account accounts ih =>
    obtain ⟨m, -, h⟩ := bind_eq_ok.mp h
    obtain ⟨out, hout, h⟩ := bind_eq_ok.mp h
    split_ifs at h
    · obtain rfl := Except.ok.inj h
      exact (ih hout).cons _
    · obtain rfl := Except.ok.inj h
      exact (ih hout).cons_cons _

theorem swept_keys (h : (dead.map DeadMarket.marketPda).Nodup) :
    ((swept dead).map DeadMarket.marketPda).Nodup := by
  have hsub (p : DeadMarket → Bool) : ((dead.filter p).map DeadMarket.marketPda).Nodup :=
    h.sublist (List.filter_sublist.map _)
  rw [swept, List.map_append, List.nodup_append]
  refine ⟨hsub _, hsub _, ?_⟩
  rintro _ hclosable _ hbond rfl
  obtain ⟨d, hd, rfl⟩ := List.mem_map.mp hclosable
  obtain ⟨e, he, heq⟩ := List.mem_map.mp hbond
  obtain ⟨hdDead, hdClosable⟩ := List.mem_filter.mp hd
  obtain ⟨heDead, heBond⟩ := List.mem_filter.mp he
  obtain rfl := List.inj_on_of_nodup_map h heDead hdDead heq
  rw [hdClosable] at heBond
  cases heBond

theorem sweep_eq (hsent : ∀ chunk, (calls chunk).Sent)
    (hscan : findDeadMarkets nowSec accounts = .ok dead) :
    ∃ result, sweepCreatorBonds rt wallet false calls nowSec (.ok accounts) s =
      .ok (commitAll (sweepOne wallet) (transactions dead) s, result) := by
  have hchain (state : Chain × BondSweepResult) :
      (sendBatch rt wallet calls (chunks CLAIMS_PER_TX (bondOnly dead))
        (sendBatch rt wallet calls (chunks CLAIMS_PER_TX (closable dead)) state)).1 =
      commitAll (sweepOne wallet) (transactions dead) state.1 := by
    rw [sendBatch_chain hsent, sendBatch_chain hsent, transactions, commitAll, commitAll, commitAll,
      List.foldl_append]
  rw [sweepCreatorBonds, ok_bind, hscan, ok_bind]
  refine ⟨_, congrArg Except.ok (Prod.ext (hchain (s, ⟨dead.length, [], [], []⟩)) rfl)⟩

/-- **What one pass recovers.** -/
theorem bond_sweep_iff (hreach : Reachable rt s) (hsent : ∀ chunk, (calls chunk).Sent)
    (haccounts : (accounts.map Prod.fst).Nodup)
    (hscan : findDeadMarkets nowSec accounts = .ok dead) :
    ∃ t result, sweepCreatorBonds rt wallet false calls nowSec (.ok accounts) s = .ok (t, result) ∧
      ((∀ d ∈ swept dead, Goes rt wallet s d → Cleared d (place d.marketPda t)) ↔
        ∀ chunk ∈ transactions dead,
          (∀ d ∈ chunk, Goes rt wallet s d) ∨ ∀ d ∈ chunk, ¬ Goes rt wallet s d) := by
  obtain ⟨result, hpass⟩ := @sweep_eq rt wallet s _ _ _ _ hsent hscan
  have hkeys := swept_keys (haccounts.sublist (findDeadMarkets_keys hscan))
  rw [← flatten_transactions] at hkeys ⊢
  refine ⟨_, result, hpass, ?_⟩
  simp only [goes_iff hreach]
  exact (@independent_sweepOne rt wallet).commitAll_iff hreach hkeys

end Pass

/-! ## Two markets of one wallet -/

namespace Sample
open Stoppage.Sample

def secondSeeds : MarketSeeds := { seeds with paramU64 := 7000000000000 }

def second : Pubkey := ⟨List.replicate 32 11, rfl⟩

def twoMarkets : Runtime :=
  { runtime with marketAddress := fun s =>
      if s.paramU64 = seeds.paramU64 then Stoppage.Sample.market else second }

def voided : List Action :=
  [setUp, create 1700001000 echo, call (.createMarket alice secondSeeds 1700001000 echo),
    .tick 1700004601, void, call (.voidMarket carol second)]

def scan (s : Chain) : List (Pubkey × Bytes) :=
  [Stoppage.Sample.market, second].filterMap fun m => (s.market m).map fun mk => (m, mk.data)

theorem scan_nodup (s : Chain) : ((scan s).map Prod.fst).Nodup := by
  have hsub : ((scan s).map Prod.fst).Sublist [Stoppage.Sample.market, second] := by
    rw [scan]
    cases hfirst : s.market Stoppage.Sample.market <;> cases hsecond : s.market second <;>
      simp [hfirst, hsecond]
  exact List.Nodup.sublist hsub (by decide)

def Finds (accounts : List (Pubkey × Bytes)) (P : List DeadMarket → Bool) : Prop :=
  (findDeadMarkets 1700004660 accounts).toOption.map P = some true

instance (accounts : List (Pubkey × Bytes)) (P : List DeadMarket → Bool) :
    Decidable (Finds accounts P) := inferInstanceAs (Decidable (_ = _))

theorem Finds.dead {accounts : List (Pubkey × Bytes)} {P : List DeadMarket → Bool}
    (h : Finds accounts P) :
    ∃ dead, findDeadMarkets 1700004660 accounts = .ok dead ∧ P dead = true := by
  rw [Finds] at h
  cases hdead : findDeadMarkets 1700004660 accounts with
  | ok dead =>
    rw [hdead] at h
    exact ⟨dead, rfl, Option.some.inj h⟩
  | error e =>
    rw [hdead] at h
    cases h

def goes (s : Chain) (d : DeadMarket) : Bool := (execTx twoMarkets [d.ix alice] s).toBool

theorem goes_of {s : Chain} {d : DeadMarket} (h : goes s d = true) : Goes twoMarkets alice s d := by
  rw [goes] at h
  cases ht : execTx twoMarkets [d.ix alice] s with
  | ok t => exact ⟨t, ht⟩
  | error e =>
    rw [ht] at h
    cases h

def calls (_ : List DeadMarket) : SweepCalls :=
  ⟨.ok (), .ok "signature", .ok (), fun err => .ok (err.map fun _ => "InstructionError")⟩

/-- The markets that an instruction would recover and the pass does not. -/
def stranded (s : Chain) (dead : List DeadMarket) : List DeadMarket :=
  let t := commitAll (sweepOne alice) (transactions dead) s
  (swept dead).filter fun d => goes s d && !decide (Cleared d (place d.marketPda t))

end Sample

/-- Both bonds are recovered in one transaction. -/
theorem bond_sweep_iff_voided : ∃ s dead t result, Reachable Sample.twoMarkets s ∧
    dead.length = 2 ∧
    sweepCreatorBonds Sample.twoMarkets Stoppage.Sample.alice false Sample.calls 1700004660
      (.ok (Sample.scan s)) s = .ok (t, result) ∧
    ∀ d ∈ swept dead, Cleared d (place d.marketPda t) := by
  have hrun : Action.runsTo Sample.twoMarkets Sample.voided Stoppage.Sample.genesis (fun s =>
      Sample.Finds (Sample.scan s) fun dead =>
        decide (dead.length = 2) && (swept dead).all (Sample.goes s)) = true := by
    decide +kernel
  obtain ⟨s, hsteps, hfinds⟩ := steps_of_runsTo hrun
  obtain ⟨dead, hscan, hall⟩ := hfinds.dead
  rw [Bool.and_eq_true, decide_eq_true_iff, List.all_eq_true] at hall
  have hreach : Reachable Sample.twoMarkets s := ⟨_, _, Stoppage.Sample.genesis_ok, hsteps⟩
  obtain ⟨t, result, hpass, hiff⟩ := @bond_sweep_iff _ Stoppage.Sample.alice _
    Sample.calls _ _ _ hreach (fun _ => ⟨rfl, rfl⟩) (Sample.scan_nodup s) hscan
  have hgoes (d : DeadMarket) (hd : d ∈ swept dead) : Goes Sample.twoMarkets _ s d :=
    Sample.goes_of (hall.2 d hd)
  refine ⟨s, dead, t, result, hreach, hall.1, hpass, fun d hd => ?_⟩
  refine hiff.mpr (fun chunk hchunk => .inl fun e he => hgoes e ?_) d hd (hgoes d hd)
  rw [← flatten_transactions]
  exact List.mem_flatten_of_mem hchunk he

/-- Between the scan and the transaction the first bond is claimed by another process; the second
market is left behind with it. -/
theorem one_claimed_bond_strands_another :
    ∃ s accounts dead t result d, Reachable Sample.twoMarkets s ∧ (accounts.map Prod.fst).Nodup ∧
      findDeadMarkets 1700004660 accounts = .ok dead ∧
      sweepCreatorBonds Sample.twoMarkets Stoppage.Sample.alice false Sample.calls 1700004660
        (.ok accounts) s = .ok (t, result) ∧
      d ∈ swept dead ∧ Goes Sample.twoMarkets Stoppage.Sample.alice s d ∧
      ¬ Cleared d (place d.marketPda t) := by
  have hrun : Action.runsTo Sample.twoMarkets Sample.voided Stoppage.Sample.genesis (fun s =>
      Action.runsTo Sample.twoMarkets
        [Stoppage.Sample.call (.claimBond Stoppage.Sample.alice Stoppage.Sample.market)] s (fun t =>
          Sample.Finds (Sample.scan s) fun dead => decide (Sample.stranded t dead ≠ [])) = true) =
      true := by
    decide +kernel
  obtain ⟨u, hsteps, hclaims⟩ := steps_of_runsTo hrun
  obtain ⟨s, hclaim, hfinds⟩ := steps_of_runsTo hclaims
  obtain ⟨dead, hscan, hstranded⟩ := hfinds.dead
  obtain ⟨d, hd⟩ := List.exists_mem_of_ne_nil _ (of_decide_eq_true hstranded)
  obtain ⟨hswept, hleft⟩ := List.mem_filter.mp hd
  rw [Bool.and_eq_true, Bool.not_eq_true', decide_eq_false_iff_not] at hleft
  obtain ⟨result, hpass⟩ := @sweep_eq Sample.twoMarkets Stoppage.Sample.alice s
    Sample.calls _ _ _ (fun _ => ⟨rfl, rfl⟩) hscan
  exact ⟨s, Sample.scan u, dead, _, result, d,
    ⟨_, _, Stoppage.Sample.genesis_ok, hsteps.append hclaim⟩, Sample.scan_nodup u, hscan, hpass,
    hswept, Sample.goes_of hleft.1, hleft.2⟩

end Stoppage.Keeper
