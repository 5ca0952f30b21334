import Stoppage.Programs.Market
import Stoppage.Programs.Settlement
import Stoppage.Lib.Transition

/-! # Executions

`exec` runs one instruction, `execTx` a transaction: all of its instructions in order, or nothing.
A run of the system is a list of actions: instructions, each in some transaction, ticks of the
clock, and writes to accounts outside the programs. A committed transaction is such a list
(`execTx_steps`), so what holds of all runs holds of all sequences of transactions; an instruction
or a transaction that fails changes nothing and does not appear.
-/

namespace Stoppage
open Fallible TransitionSystem
set_option autoImplicit false

def exec (rt : Runtime) (ctx : TxContext) : Instruction → Chain → Except ProgramError Chain
  | .initializeProtocol authority feeBps => MarketProgram.initializeProtocol rt authority feeBps
  | .setAgentAuthority authority agent => MarketProgram.setAgentAuthority rt authority agent
  | .delegateSessionKey owner session programs perMarket total expiresAt fund =>
    MarketProgram.delegateSessionKey rt owner session programs perMarket total expiresAt fund
  | .revokeSessionKey owner session => MarketProgram.revokeSessionKey owner (rt.key session)
  | .sessionPing k owner => MarketProgram.sessionPing k (rt.key owner)
  | .createMarket creator seeds closesAt oracle =>
    MarketProgram.createMarket rt creator seeds closesAt oracle
  | .joinViaWallet signer m side amount => MarketProgram.joinViaWallet rt signer m side amount
  | .joinViaSessionKey k owner m side amount =>
    MarketProgram.joinViaSessionKey rt k (rt.key owner) m side amount
  | .forceSettle authority m outcome => MarketProgram.forceSettle rt authority m outcome
  | .settleFromProof _ m resolution outcome => MarketProgram.settleFromProof m resolution outcome
  | .voidMarket _ m => MarketProgram.voidMarket m
  | .claim claimant m => MarketProgram.claim claimant m
  | .claimBond creator m => MarketProgram.claimBond creator m
  | .closeMarket creator m => MarketProgram.closeMarket creator m
  | .attestVerification verifier m => MarketProgram.attestVerification verifier m
  | .attestPricing signer m hash version fairValue bid ask signature ts =>
    MarketProgram.attestPricing rt signer m hash version fairValue bid ask signature ts
  | .verifyPricing m bytes => MarketProgram.verifyPricing rt m bytes
  | .resolveMarket resolver market statement root outcome data remaining =>
    SettlementProgram.resolveMarket rt ctx resolver market statement root outcome data remaining
  | .initializeConfig payer authority => AttestationValidator.initializeConfig rt payer authority
  | .systemTransfer source target x => fun s => s.systemTransfer source target x
  | .ed25519 d => fun s => do
    rt.ed25519Precompile ctx d
    pure s
  | .setComputeUnitLimit _ => .ok

/-! ## Transactions -/

/-- The instructions `rest` of the transaction `ixs`, the first of them at position `n`. -/
def execFrom (rt : Runtime) (ixs : List Instruction) :
    List Instruction → ℕ → Chain → Except ProgramError Chain
  | [], _, s => .ok s
  | ix :: rest, n, s => do
    let s ← exec rt ⟨ixs, n⟩ ix s
    execFrom rt ixs rest (n + 1) s

def execTx (rt : Runtime) (ixs : List Instruction) (s : Chain) : Except ProgramError Chain :=
  execFrom rt ixs ixs 0 s

/-! ## Runs -/

inductive Action
  | call (ctx : TxContext) (ix : Instruction)
  | tick (now : Int64)
  | write (key : Pubkey) (account : ExternalAccount)

def Action.apply (rt : Runtime) : Action → Chain → Except ProgramError Chain
  | .call ctx ix, s => exec rt ctx ix s
  | .tick now, s => do
    require (s.now ≤ now) .clockBackwards
    pure { s with now := now }
  | .write k a, s => .ok { s with external := Function.update s.external k a }

def Step (rt : Runtime) (s : Chain) (a : Action) (t : Chain) : Prop := a.apply rt s = .ok t

theorem Step.cases {rt : Runtime} {s t : Chain} {a : Action} (h : Step rt s a t) :
    (∃ ctx ix, a = .call ctx ix ∧ exec rt ctx ix s = .ok t) ∨
    (∃ now, a = .tick now ∧ s.now ≤ now ∧ t = { s with now := now }) ∨
    ∃ k x, a = .write k x ∧ t = { s with external := Function.update s.external k x } := by
  cases a with
  | call ctx ix => exact .inl ⟨ctx, ix, rfl, h⟩
  | tick now =>
    simp only [Step, Action.apply, bind_eq_ok, require_eq_ok, pure_eq_ok] at h
    obtain ⟨_, hle, rfl⟩ := h
    exact .inr (.inl ⟨now, rfl, hle, rfl⟩)
  | write k x =>
    cases h
    exact .inr (.inr ⟨k, x, rfl, rfl⟩)

/-- Before the first instruction: no account of the programs exists, and the lamports of the
ledger fit its 64-bit supply counter. -/
structure Genesis (s : Chain) : Prop where
  protocolConfig : s.protocolConfig = none
  agentAuthority : s.agentAuthority = none
  sessionGrant : ∀ k, s.sessionGrant k = none
  market : ∀ m, s.market m = none
  position : ∀ k, s.position k = none
  pricingReceipt : ∀ m, s.pricingReceipt m = none
  resolution : ∀ m, s.resolution m = none
  strayResolution : ∀ k, s.strayResolution k = none
  config : ∀ a, s.config a = none
  supply : BalanceSheet.total s.lamports < 2 ^ 64

def Reachable (rt : Runtime) (s : Chain) : Prop :=
  ∃ s₀ as, Genesis s₀ ∧ Steps (Step rt) s₀ as s

theorem Reachable.invariant {rt : Runtime} {I : Chain → Prop} (h0 : ∀ s, Genesis s → I s)
    (hstep : ∀ s a t, Step rt s a t → I s → I t) {s : Chain} (h : Reachable rt s) : I s := by
  obtain ⟨s₀, as, hg, hs⟩ := h
  exact hs.invariant (fun s a t _ => hstep s a t) (h0 s₀ hg)

theorem Reachable.steps {rt : Runtime} {s t : Chain} {as : List Action} (h : Reachable rt s)
    (hs : Steps (Step rt) s as t) : Reachable rt t := by
  obtain ⟨s₀, bs, hg, hb⟩ := h
  exact ⟨s₀, bs ++ as, hg, hb.append hs⟩

/-- The calls of the instructions `rest` of the transaction `ixs`, the first at position `n`. -/
def callsFrom (ixs : List Instruction) : List Instruction → ℕ → List Action
  | [], _ => []
  | ix :: rest, n => .call ⟨ixs, n⟩ ix :: callsFrom ixs rest (n + 1)

theorem execFrom_steps {rt : Runtime} {ixs : List Instruction} (rest : List Instruction) (n : ℕ)
    {s t : Chain} (h : execFrom rt ixs rest n s = .ok t) :
    Steps (Step rt) s (callsFrom ixs rest n) t := by
  induction rest generalizing n s with
  | nil =>
    cases h
    exact .nil _
  | cons ix rest ih =>
    simp only [execFrom, bind_eq_ok] at h
    obtain ⟨u, hix, hrest⟩ := h
    exact .cons hix (ih (n + 1) hrest)

/-- **A committed transaction is a run of its instructions.** -/
theorem execTx_steps {rt : Runtime} {ixs : List Instruction} {s t : Chain}
    (h : execTx rt ixs s = .ok t) : Steps (Step rt) s (callsFrom ixs ixs 0) t :=
  execFrom_steps ixs 0 h

theorem callsFrom_append (ixs xs ys : List Instruction) (n : ℕ) :
    callsFrom ixs (xs ++ ys) n = callsFrom ixs xs n ++ callsFrom ixs ys (n + xs.length) := by
  induction xs generalizing n with
  | nil => rfl
  | cons x xs ih =>
    rw [List.cons_append, callsFrom, callsFrom, ih, List.length_cons, List.cons_append,
      Nat.add_right_comm, Nat.add_assoc]

theorem exists_of_mem_callsFrom {ixs : List Instruction} {a : Action} (rest : List Instruction)
    (n : ℕ) (h : a ∈ callsFrom ixs rest n) : ∃ i ix, ix ∈ rest ∧ a = .call ⟨ixs, i⟩ ix := by
  induction rest generalizing n with
  | nil => cases h
  | cons ix rest ih =>
    rw [callsFrom] at h
    rcases List.mem_cons.mp h with rfl | hrest
    · exact ⟨n, ix, List.mem_cons_self, rfl⟩
    · obtain ⟨i, ix', hmem, ha⟩ := ih (n + 1) hrest
      exact ⟨i, ix', List.mem_cons_of_mem _ hmem, ha⟩

theorem execTx_last {rt : Runtime} {ixs : List Instruction} {ix : Instruction} {s t : Chain}
    (h : execTx rt (ixs ++ [ix]) s = .ok t) :
    ∃ as n u, Steps (Step rt) s as u ∧ Step rt u (.call ⟨ixs ++ [ix], n⟩ ix) t := by
  have hsteps := execTx_steps h
  rw [callsFrom_append] at hsteps
  obtain ⟨u, hinit, hlast⟩ := Steps.append_iff.mp hsteps
  exact ⟨_, _, u, hinit, Steps.single_iff.mp hlast⟩

/-! ## Running actions -/

def Action.run (rt : Runtime) : List Action → Chain → Except ProgramError Chain
  | [], s => .ok s
  | a :: as, s => do
    let s ← a.apply rt s
    Action.run rt as s

theorem run_steps {rt : Runtime} {s t : Chain} (as : List Action)
    (h : Action.run rt as s = .ok t) : Steps (Step rt) s as t := by
  induction as generalizing s with
  | nil =>
    cases h
    exact .nil _
  | cons a as ih =>
    simp only [Action.run, bind_eq_ok] at h
    obtain ⟨u, ha, hrest⟩ := h
    exact .cons ha (ih hrest)

/-- Whether the actions all succeed and the state they reach has the property. -/
def Action.runsTo (rt : Runtime) (as : List Action) (s : Chain) (P : Chain → Prop)
    [DecidablePred P] : Bool :=
  match Action.run rt as s with
  | .ok t => decide (P t)
  | .error _ => false

theorem steps_of_runsTo {rt : Runtime} {s : Chain} {as : List Action} {P : Chain → Prop}
    [DecidablePred P] (h : Action.runsTo rt as s P = true) :
    ∃ t, Steps (Step rt) s as t ∧ P t := by
  unfold Action.runsTo at h
  split at h
  · rename_i t ht
    exact ⟨t, run_steps as ht, of_decide_eq_true h⟩
  · cases h

def Action.failsWith (rt : Runtime) (a : Action) (s : Chain) (e : ProgramError) : Bool :=
  match a.apply rt s with
  | .ok _ => false
  | .error e' => decide (e' = e)

theorem apply_of_failsWith {rt : Runtime} {a : Action} {s : Chain} {e : ProgramError}
    (h : a.failsWith rt s e = true) : a.apply rt s = .error e := by
  unfold Action.failsWith at h
  split at h
  · cases h
  · rename_i e' he
    rw [he, of_decide_eq_true h]

/-! ## A small world

Three funded wallets, an operator program that returns its input, rent as on the main network, and
one market with the addresses and bumps its seeds really derive.
-/

namespace Sample

def alice : Pubkey :=
  ⟨[213, 191, 74, 63, 204, 231, 23, 176, 56, 139, 204, 39, 73, 235, 193, 72,
    173, 153, 105, 178, 63, 69, 238, 27, 96, 95, 213, 135, 120, 87, 106, 196], rfl⟩

def bob : Pubkey :=
  ⟨[236, 193, 181, 135, 39, 243, 241, 43, 49, 148, 136, 26, 158, 203, 157, 224,
    178, 140, 231, 178, 7, 35, 13, 142, 147, 15, 225, 188, 231, 94, 37, 108], rfl⟩

def carol : Pubkey :=
  ⟨[38, 177, 199, 40, 73, 185, 60, 165, 54, 100, 202, 130, 64, 100, 60, 81,
    76, 71, 28, 160, 164, 164, 36, 226, 76, 242, 204, 200, 10, 57, 147, 62], rfl⟩

/-- A program that returns the data it is called with. -/
def echo : Pubkey :=
  ⟨[116, 44, 207, 198, 250, 216, 157, 19, 15, 179, 160, 100, 231, 136, 93, 65,
    205, 82, 184, 32, 108, 31, 124, 208, 39, 160, 137, 132, 78, 120, 234, 107], rfl⟩

/-- BTC/USD above 65000 dollars. -/
def seeds : MarketSeeds where
  matchId := ⟨[66, 84, 67, 47, 85, 83, 68] ++ List.replicate 25 0, rfl⟩
  kind := 4
  team := List.Vector.replicate 8 0
  paramU64 := 6500000000000

def market : Pubkey :=
  ⟨[47, 164, 134, 162, 174, 157, 151, 129, 238, 91, 130, 230, 107, 250, 24, 34,
    99, 35, 213, 40, 102, 133, 30, 58, 248, 254, 68, 146, 195, 217, 239, 227], rfl⟩

def runtime : Runtime where
  marketAddress _ := market
  pda _ := systemProgramId
  bump
    | .position _ o => if o = alice then 251 else 254
    | .resolution _ => 252
    | _ => 255
  minimumBalance n := UInt64.ofNat ((128 + n) * 6960)
  sha256 _ := []
  ed25519Verify _ _ _ := false
  instructionData _ := []
  program k data _ _ _ := if k = echo then .ok (some (k, data)) else .error .callFailed

def genesis : Chain where
  now := 1700000000
  lamports
    | .external k => if k = alice ∨ k = bob ∨ k = carol then 10000000000 else 0
    | _ => 0
  protocolConfig := none
  agentAuthority := none
  sessionGrant _ := none
  market _ := none
  position _ := none
  pricingReceipt _ := none
  resolution _ := none
  strayResolution _ := none
  config _ := none
  external _ := .wallet
  events := []

theorem genesis_ok : Genesis genesis := by
  refine ⟨rfl, rfl, fun _ => rfl, fun _ => rfl, fun _ => rfl, fun _ => rfl, fun _ => rfl,
    fun _ => rfl, fun _ => rfl, ?_⟩
  have hoff : ∀ k, k ∉ ({.external alice, .external bob, .external carol} : Finset Address) →
      genesis.lamports k = 0 := by
    intro k hk
    cases k with
    | external k =>
      simp only [Finset.mem_insert, Finset.mem_singleton, Address.external.injEq] at hk
      exact if_neg hk
    | _ => rfl
  rw [BalanceSheet.total_eq_sum _ hoff]
  decide +kernel

def call (ix : Instruction) : Action := .call ⟨[ix], 0⟩ ix

def setUp : Action := call (.initializeProtocol alice 200)

def create (closesAt : Int64) (oracle : Pubkey) : Action :=
  call (.createMarket alice seeds closesAt oracle)

/-- Resolving the market through the program that answers with its input. -/
def resolve (outcome : UInt8) (answer : Bytes) : Action :=
  call (.resolveMarket carol (.market market) "" (List.Vector.replicate 32 0) outcome answer
    [.external echo])

def settle (outcome : UInt8) : Action :=
  call (.settleFromProof carol market (.resolution market) outcome)

def join (side : UInt8) (amount : UInt64) : Action := call (.joinViaWallet bob market side amount)

def void : Action := call (.voidMarket carol market)

def claim : Action := call (.claim bob market)

/-- The market is there and has the given status and outcome. -/
def Stands (status outcome : UInt8) (t : Chain) : Prop :=
  (t.market market).map (fun mk => (mk.status, mk.outcome)) = some (status, outcome)

instance (status outcome : UInt8) : DecidablePred (Stands status outcome) :=
  fun _ => inferInstanceAs (Decidable (_ = _))

theorem Stands.market {status outcome : UInt8} {t : Chain} (h : Stands status outcome t) :
    ∃ mk, t.market Sample.market = some mk ∧ mk.status = status ∧ mk.outcome = outcome := by
  obtain ⟨mk, hmk, hpair⟩ := Option.map_eq_some_iff.mp h
  exact ⟨mk, hmk, (Prod.mk.inj hpair).1, (Prod.mk.inj hpair).2⟩

end Sample

end Stoppage
